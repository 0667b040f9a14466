import PhrasePattern.Proofs.Compilation.Acceptance
import PhrasePattern.Proofs.Regex.Flat
import PhrasePattern.Proofs.Regex.Whole

/-! Texts with groups around parts of them. The rules paste the text of an operand as it is; a group around
it makes no difference where it is a whole alternative, and elsewhere if it has no bars and does not begin
with a quantifier. -/
namespace PhrasePattern

open Regex (Ahead Anything Firm Gentle Parts Sign)
open Regex.Reader (IsFlat IsGroupName IsWhole Leads)

def isolate (source : String) : String := "(?:" ++ source ++ ")"

theorem toList_isolate (source : String) :
    (isolate source).toList = ['(', '?', ':'] ++ (source.toList ++ [')']) := by simp [isolate]

variable [Regex.Engine]

/-- The second text is the first one with groups around some parts of it. What is around these parts is put
together by the rules; a part is `alone` if it is a whole alternative. -/
inductive Regrouped : (alone : Bool) → String → String → Prop
  | whole {alone : Bool} {text : String} {signs : List Sign} (h : IsWhole alone text.toList signs) :
      Regrouped alone text text
  | isolated {alone : Bool} {text : String} (h : IsFlat alone text.toList) :
      Regrouped alone text (isolate text)
  | bracket {alone : Bool} (form : Bracket) (parts : List (String × String))
      (h : ∀ part ∈ parts, Regrouped (form = .disjunction) part.1 part.2) :
      Regrouped alone (Rule.bracket form (parts.map Prod.fst)) (Rule.bracket form (parts.map Prod.snd))
  | concatenation {alone : Bool} (parts : List (String × String))
      (h : ∀ part ∈ parts, Regrouped false part.1 part.2) :
      Regrouped alone (" ".intercalate (parts.map Prod.fst)) (" ".intercalate (parts.map Prod.snd))
  | negation {alone : Bool} {text text' : String} (h : Regrouped false text text') :
      Regrouped alone (Rule.negation text) (Rule.negation text')
  | capture {alone : Bool} {group text text' : String} (hgroup : IsGroupName group)
      (h : Regrouped true text text') : Regrouped alone (Rule.capture group text) (Rule.capture group text')

section exchange
variable {before between after : Parts → Parts → Prop} {follow : List Char → Prop}
  {text text' gap more more' : List Char} {fragments fragments' : List String}

/-- Texts that can be put in place of each other between such parts, if firm text follows. -/
structure Exchange (before : Parts → Parts → Prop) (follow : List Char → Prop)
    (after : Parts → Parts → Prop) (text text' : List Char) : Prop where
  follow : ∀ rest, Firm false rest → follow (text ++ rest) ∧ follow (text' ++ rest)
  leads : Leads before (Firm false) text text' after

theorem Exchange.behind (hgap : Leads before follow gap gap between)
    (h : Exchange between follow after text text') :
    Leads before (Firm false) (gap ++ text) (gap ++ text') after :=
  hgap.append h.leads (fun rest hrest => (h.follow rest hrest).1) fun rest hrest => (h.follow rest hrest).2

theorem Exchange.append (h : Exchange before follow between text text')
    (hmore : Leads between (Firm false) more more' after) (hfirm : ∀ rest, Firm false (more ++ rest))
    (hfirm' : ∀ rest, Firm false (more' ++ rest)) :
    Exchange before follow after (text ++ more) (text' ++ more') := by
  refine ⟨fun rest _ => ⟨?_, ?_⟩, h.leads.append hmore (fun rest _ => hfirm rest) fun rest _ => hfirm' rest⟩
  · rw [List.append_assoc]
    exact (h.follow _ (hfirm rest)).1
  · rw [List.append_assoc]
    exact (h.follow _ (hfirm' rest)).2

theorem exchange_nil (hfollow : ∀ rest, Firm false rest → follow rest)
    (himp : ∀ p p', before p p' → after p p') : Exchange before follow after [] [] :=
  ⟨fun rest hrest => ⟨hfollow rest hrest, hfollow rest hrest⟩,
    Regex.Reader.leads_nil.imp (fun _ _ hbefore => hbefore) (fun _ hrest => hrest) himp⟩

theorem exchange_intercalate (hfollow : ∀ rest, Firm false rest → follow rest)
    (himp : ∀ p p', before p p' → after p p') (separator : String)
    (hgap : Leads after follow separator.toList separator.toList before)
    (hfirm : ∀ rest, Firm false (separator.toList ++ rest))
    (h : List.Forall₂ (fun f f' : String => Exchange before follow after f.toList f'.toList)
      fragments fragments') :
    Exchange before follow after (separator.intercalate fragments).toList
      (separator.intercalate fragments').toList := by
  induction h with
  | nil => exact exchange_nil hfollow himp
  | @cons fragment fragment' fragments fragments' first others ih =>
    cases others with
    | nil =>
      rw [String.intercalate_singleton, String.intercalate_singleton]
      exact first
    | cons second others =>
      rw [String.intercalate_cons_cons, String.intercalate_cons_cons, String.toList_append,
        String.toList_append, String.toList_append, String.toList_append, List.append_assoc,
        List.append_assoc]
      have hseam : ∀ more rest, Firm false ((separator.toList ++ more) ++ rest) := by
        intro more rest
        rw [List.append_assoc]
        exact hfirm (more ++ rest)
      exact first.append (ih.behind hgap) (hseam _) (hseam _)

end exchange

/-- Texts that can be put in place of each other in the midst of a branch. -/
def Parallel : List Char → List Char → Prop := Exchange Parts.Matched Gentle Parts.Matched

def Alternate : List Char → List Char → Prop := Exchange Parts.Opened Anything Parts.Closing

def Fits (alone : Bool) (text text' : List Char) : Prop :=
  if alone then Alternate text text' else Parallel text text'

def AllFit (alone : Bool) : List String → List String → Prop :=
  List.Forall₂ fun fragment fragment' => Fits alone fragment.toList fragment'.toList

section texts
variable {alone : Bool} {text text' : List Char} {fragments fragments' : List String}

theorem Parallel.fits (h : Parallel text text') : Fits alone text text' := by
  cases alone with
  | false => exact h
  | true => exact ⟨fun _ _ => ⟨trivial, trivial⟩, h.leads.alone⟩

theorem parallel_cons {c : Char} (hc : c ≠ '(' ∧ c ≠ '?' ∧ c ≠ '+')
    (h : Leads Parts.Matched (Firm false) (c :: text) (c :: text') Parts.Matched) :
    Parallel (c :: text) (c :: text') :=
  ⟨fun rest _ => ⟨Regex.gentle_cons hc (text ++ rest), Regex.gentle_cons hc (text' ++ rest)⟩, h⟩

theorem parallel_open {c : Char} (hc : c ≠ '#')
    (h : Leads Parts.Matched Anything ('(' :: '?' :: c :: text) ('(' :: '?' :: c :: text') Parts.Lasting) :
    Parallel ('(' :: '?' :: c :: text) ('(' :: '?' :: c :: text') :=
  ⟨fun rest _ => ⟨Regex.gentle_open hc (text ++ rest), Regex.gentle_open hc (text' ++ rest)⟩,
    h.matched.of_follow fun _ _ => trivial⟩

theorem fits_isolate {source : String} (h : IsFlat alone source.toList) :
    Fits alone source.toList (isolate source).toList := by
  rw [toList_isolate]
  cases alone with
  | false => exact ⟨fun rest hrest => ⟨Ahead.gentle h hrest, Regex.gentle_open (by decide) _⟩, h.leads⟩
  | true => exact ⟨fun _ _ => ⟨trivial, trivial⟩, h.leads_alone⟩

theorem fits_whole {signs : List Sign} (h : IsWhole alone text signs) : Fits alone text text := by
  cases alone with
  | false =>
    have hahead : Ahead Sign.KeepsMode false true text := ⟨signs, h.reads, h.mode, h.first⟩
    exact ⟨fun rest hrest => ⟨hahead.gentle hrest, hahead.gentle hrest⟩, h.leads⟩
  | true => exact ⟨fun _ _ => ⟨trivial, trivial⟩, h.leads_alone⟩

theorem AllFit.intercalate (h : AllFit false fragments fragments') (separator : String)
    (hgap : Leads Parts.Matched Gentle separator.toList separator.toList Parts.Matched)
    (hfirm : ∀ rest, Firm false (separator.toList ++ rest)) :
    Parallel (separator.intercalate fragments).toList (separator.intercalate fragments').toList :=
  exchange_intercalate (fun _ hrest => hrest.gentle) (fun _ _ hmatched => hmatched) separator hgap hfirm h

theorem AllFit.flexible (h : AllFit false fragments fragments') :
    Parallel (Rule.flexible fragments).toList (Rule.flexible fragments').toList := by
  have hlazy : Leads Parts.Matched Gentle ".*?".toList ".*?".toList Parts.Matched :=
    Regex.Reader.settles_lazyAny.leads
  have hfirm : ∀ rest, Firm false (".*?".toList ++ rest) :=
    fun rest => Regex.firm_cons (c := '.') (by decide) ('*' :: '?' :: rest)
  have hinner := h.intercalate ".*?" hlazy hfirm
  have hbehind := (hinner.behind hlazy).append hlazy (fun rest _ => hfirm rest) fun rest _ => hfirm rest
  rw [Rule.toList_flexible, Rule.toList_flexible, ← List.append_assoc, ← List.append_assoc]
  exact parallel_cons (by decide) (hbehind.of_follow fun _ hrest => hrest.gentle)

theorem AllFit.rigid (h : AllFit false fragments fragments') :
    Parallel (Rule.rigid fragments).toList (Rule.rigid fragments').toList :=
  h.intercalate "\\W+" Regex.Reader.settles_nonWords.leads
    fun rest => Regex.firm_cons (c := '\\') (by decide) ('W' :: '+' :: rest)

theorem AllFit.concatenation (h : AllFit false fragments fragments') :
    Parallel (" ".intercalate fragments).toList (" ".intercalate fragments').toList :=
  h.intercalate " " ((Regex.Reader.leads_ordinary (by decide)).matched.of_follow fun _ _ => trivial)
    fun rest => Regex.firm_cons (c := ' ') (by decide) rest

theorem AllFit.conjunction (h : AllFit false fragments fragments') :
    Parallel (Rule.conjunction fragments).toList (Rule.conjunction fragments').toList := by
  induction h with
  | nil =>
    exact parallel_cons (by decide) (Regex.Reader.settles_any.leads.of_follow fun _ hrest => hrest.gentle)
  | @cons fragment fragment' fragments fragments' first others ih =>
    have hbehind : Leads Parts.Matched (Firm false) (".*?".toList ++ fragment.toList)
        (".*?".toList ++ fragment'.toList) Parts.Matched :=
      Exchange.behind Regex.Reader.settles_lazyAny.leads first
    have hahead := hbehind.alone.enclosed Regex.Reader.enters_lookAhead
    have hfirst := Regex.Reader.settles_lazyAny.leads.append hahead
      (fun rest _ => Regex.gentle_open (by decide) _) fun rest _ => Regex.gentle_open (by decide) _
    rw [Rule.toList_conjunction_cons, Rule.toList_conjunction_cons]
    exact parallel_cons (by decide)
      (hfirst.matched.append ih.leads (fun _ _ => trivial) fun _ _ => trivial)

theorem AllFit.disjunction (h : AllFit true fragments fragments') :
    Parallel (Rule.disjunction fragments).toList (Rule.disjunction fragments').toList := by
  have hinner : Alternate ("|".intercalate fragments).toList ("|".intercalate fragments').toList :=
    exchange_intercalate (fun _ _ => trivial) (fun _ _ hopened => hopened.matched.closing) "|"
      Regex.Reader.leads_bar (fun rest => Regex.firm_cons (c := '|') (by decide) rest) h
  rw [Rule.toList_disjunction, Rule.toList_disjunction]
  exact parallel_open (by decide) (hinner.leads.enclosed Regex.Reader.enters_plain)

theorem AllFit.bracket {form : Bracket} (h : AllFit (form = .disjunction) fragments fragments') :
    Parallel (Rule.bracket form fragments).toList (Rule.bracket form fragments').toList := by
  cases form with
  | flexible => exact AllFit.flexible h
  | rigid => exact AllFit.rigid h
  | conjunction => exact AllFit.conjunction h
  | disjunction => exact AllFit.disjunction h

theorem Alternate.capture {group fragment fragment' : String} (hgroup : IsGroupName group)
    (h : Alternate fragment.toList fragment'.toList) :
    Parallel (Rule.capture group fragment).toList (Rule.capture group fragment').toList := by
  rw [toList_capture, toList_capture, Text.namedMark_eq]
  exact parallel_open (by decide) (h.leads.enclosed (Regex.Reader.enters_capture hgroup))

theorem Parallel.negation {fragment fragment' : String} (h : Parallel fragment.toList fragment'.toList) :
    Parallel (Rule.negation fragment).toList (Rule.negation fragment').toList := by
  have hline := Regex.Reader.settles_any.leads.append Regex.Reader.leads_dollar.matched
    (fun rest _ => Regex.gentle_cons (by decide) rest) fun rest _ => Regex.gentle_cons (by decide) rest
  have hfirm : ∀ rest, Firm false ((['.', '*'] ++ ['$']) ++ rest) :=
    fun rest => Regex.firm_cons (c := '.') (by decide) ('*' :: '$' :: rest)
  have hoperand : Exchange Parts.Matched Gentle Parts.Matched
      (fragment.toList ++ (['.', '*'] ++ ['$'])) (fragment'.toList ++ (['.', '*'] ++ ['$'])) :=
    h.append (hline.of_follow fun _ _ => trivial) hfirm hfirm
  have hahead := (hoperand.behind Regex.Reader.settles_any.leads).alone.enclosed Regex.Reader.enters_notAhead
  have hbody := hahead.matched.append Regex.Reader.leads_dot.matched (fun _ _ => trivial) fun _ _ => trivial
  have hrepeated := ((hbody.of_follow fun _ _ => trivial).alone.enclosed Regex.Reader.enters_plain).append
    Regex.Reader.leads_plus (fun _ _ => trivial) fun _ _ => trivial
  have hgroup := (hrepeated.of_follow fun _ hrest => hrest.gentle).alone.enclosed Regex.Reader.enters_plain
  rw [Rule.toList_negation, Rule.toList_negation]
  exact parallel_open (by decide) hgroup

end texts

theorem allFit_of_pairs {alone : Bool} {parts : List (String × String)}
    (h : ∀ part ∈ parts, Fits alone part.1.toList part.2.toList) :
    AllFit alone (parts.map Prod.fst) (parts.map Prod.snd) := by
  rw [AllFit, List.forall₂_map_left_iff, List.forall₂_map_right_iff, List.forall₂_same]
  exact h

theorem Tame.exists_isWhole {chars : List Char} (h : Tame chars) (alone : Bool) :
    ∃ signs, IsWhole alone chars signs := by
  induction chars generalizing alone with
  | nil => exact ⟨[], Regex.Reader.isWhole_nil alone⟩
  | cons c chars ih =>
    obtain ⟨signs, hsigns⟩ := ih (fun d hd => h d (List.mem_cons_of_mem c hd)) false
    rcases h c List.mem_cons_self with hc | rfl
    · have hsign : Regex.sign? false (!alone) c ([] ++ chars) = some (.literal c, ([] : List Char).length) :=
        Regex.Reader.sign?_ordinary hc _ chars
      exact ⟨_, hsigns.cons (by trivial) hsign⟩
    · have hsign : Regex.sign? false (!alone) '.' ([] ++ chars) = some (.anyChar, ([] : List Char).length) :=
        Regex.sign?_of_ne_open (by decide) _ chars
      exact ⟨_, hsigns.cons (by trivial) hsign⟩

variable {alone : Bool}

theorem Tame.regrouped {text : String} (h : Tame text.toList) : Regrouped alone text text :=
  (h.exists_isWhole alone).elim fun _ => .whole

theorem regrouped_backreference {group : String} (hgroup : IsGroupName group) :
    Regrouped alone (backreferenceTo group) (backreferenceTo group) := by
  have hwhole : IsWhole alone (backreferenceTo group).toList [.escaped (.group (.name group))] := by
    rw [toList_backreferenceTo, Text.namedMark_eq, ← List.append_nil (_ ++ _)]
    exact (Regex.Reader.isWhole_nil false).cons trivial (Regex.Reader.sign?_backreference hgroup _ [])
  exact .whole hwhole

/-- Whatever is found with one of the texts is found with the other. -/
theorem Regrouped.fits {text text' : String} (h : Regrouped alone text text') :
    Fits alone text.toList text'.toList := by
  induction h with
  | whole h => exact fits_whole h
  | isolated h => exact fits_isolate h
  | bracket form parts _ ih => exact (allFit_of_pairs ih).bracket.fits
  | concatenation parts _ ih => exact (allFit_of_pairs ih).concatenation.fits
  | negation _ ih => exact (Parallel.negation ih).fits
  | capture hgroup _ ih => exact (Alternate.capture hgroup ih).fits

end PhrasePattern
