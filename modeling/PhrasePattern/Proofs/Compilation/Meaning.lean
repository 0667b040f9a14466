import PhrasePattern.Proofs.Compilation.Ruling
import PhrasePattern.Proofs.Compilation.Spans
import PhrasePattern.Proofs.Regex.Denotation
import PhrasePattern.Proofs.Term.RoundTrip

/-! Compilation keeps the meaning. For each kind of term, the rule puts texts together that stand for
the spans of the operands, and the result stands for the spans of the term. A compiled pattern
therefore matches an utterance exactly if the whole of it is a span of the term. -/
namespace PhrasePattern

open Relation (Comp ReflTransGen)
open Regex (SpanSet Subject At Advance Stay Denotes)

theorem through_trans {p : Nat → Prop} {i j l : Nat} (h : Through p i j) (h' : Through p j l) :
    Through p i l := by
  refine ⟨Nat.le_trans h.1 h'.1, fun k hlow hhigh => ?_⟩
  by_cases hk : k < j
  · exact h.2 k hlow hk
  · exact h'.2 k (Nat.le_of_not_lt hk) hhigh

theorem through_refl (p : Nat → Prop) (i : Nat) : Through p i i :=
  ⟨Nat.le_refl i, fun _ hlow hhigh => absurd hhigh (Nat.not_lt.mpr hlow)⟩

theorem reflTransGen_advance_iff {p : Nat → Prop} {i j : Nat} :
    ReflTransGen (Advance p) i j ↔ Through p i j := by
  constructor
  · intro h
    induction h with
    | refl => exact through_refl p i
    | tail _ hstep ih =>
      obtain ⟨hp, rfl⟩ := hstep
      refine ⟨Nat.le_succ_of_le ih.1, fun k hlow hhigh => ?_⟩
      rcases Nat.lt_succ_iff_lt_or_eq.mp hhigh with hlt | rfl
      · exact ih.2 k hlow hlt
      · exact hp
  · rintro ⟨hle, hall⟩
    induction j, hle using Nat.le_induction with
    | base => exact .refl
    | succ j hle ih =>
      exact (ih fun k hlow hhigh => hall k hlow (Nat.lt_succ_of_lt hhigh)).tail
        ⟨hall j hle (Nat.lt_succ_self j), rfl⟩

theorem comp_advance_iff {p : Nat → Prop} {i j : Nat} :
    Comp (Advance p) (ReflTransGen (Advance p)) i j ↔ i < j ∧ Through p i j := by
  constructor
  · rintro ⟨l, ⟨hp, rfl⟩, h⟩
    obtain ⟨hle, hall⟩ := reflTransGen_advance_iff.mp h
    refine ⟨hle, Nat.le_of_lt hle, fun k hlow hhigh => ?_⟩
    rcases Nat.eq_or_lt_of_le hlow with rfl | hlt
    · exact hp
    · exact hall k hlt hhigh
  · rintro ⟨hlt, hle, hall⟩
    refine ⟨i + 1, ⟨hall i (Nat.le_refl i) hlt, rfl⟩, reflTransGen_advance_iff.mpr ⟨hlt, ?_⟩⟩
    exact fun k hlow hhigh => hall k (Nat.le_of_succ_le hlow) hhigh

section pieces
variable {u : Subject}

theorem denotes_lazyLine [Regex.Engine] : Denotes u ".*?".toList (Line u) :=
  Regex.denotes_lazyAny.of_iff fun _ _ => reflTransGen_advance_iff

theorem denotes_line [Regex.Engine] : Denotes u ".*".toList (Line u) :=
  Regex.denotes_any.of_iff fun _ _ => reflTransGen_advance_iff

theorem denotes_break [Regex.Engine] : Denotes u "\\W+".toList (Break u) :=
  Regex.denotes_nonWords.of_iff fun _ _ => comp_advance_iff

theorem comp_spells_iff {c : Char} {chars : List Char} {i j : Nat} :
    Comp (Advance (At u (· == c))) (Spells u chars) i j ↔ Spells u (c :: chars) i j := by
  constructor
  · rintro ⟨l, ⟨⟨d, hd, heq⟩, rfl⟩, rfl, hall⟩
    refine ⟨by rw [List.length_cons]; omega, fun k hk => ?_⟩
    cases k with
    | zero =>
      rw [beq_iff_eq.mp heq] at hd
      exact hd
    | succ k =>
      rw [List.getElem?_cons_succ, ← hall k (Nat.lt_of_succ_lt_succ hk)]
      congr 1
      omega
  · rintro ⟨rfl, hall⟩
    refine ⟨i + 1, ⟨⟨c, hall 0 (Nat.succ_pos _), beq_self_eq_true c⟩, rfl⟩, ?_, fun k hk => ?_⟩
    · rw [List.length_cons]
      omega
    · rw [← List.getElem?_cons_succ (a := c), ← hall (k + 1) (Nat.succ_lt_succ hk)]
      congr 1
      omega

theorem spells_nil_iff {i j : Nat} : i = j ↔ Spells u [] i j := by
  simp [Spells, eq_comm]

variable [Regex.Engine]

theorem denotes_spells {chars : List Char} (h : ∀ c ∈ chars, c ∉ Regex.Reader.special) :
    Denotes u chars (Spells u chars) := by
  induction chars with
  | nil => exact Regex.denotes_nil.of_iff fun _ _ => spells_nil_iff
  | cons c chars ih =>
    have hfirst : Denotes u [c] (Advance (At u (· == c))) :=
      Regex.denotes_char (h c List.mem_cons_self)
    exact (hfirst.append (ih fun d hd => h d (List.mem_cons_of_mem _ hd))).of_iff fun _ _ =>
      comp_spells_iff

theorem denotes_intercalate {separator : String} {gap : SpanSet} {fragments : List String}
    {operands : List SpanSet} (hgap : Denotes u separator.toList gap)
    (h : List.Forall₂ (fun f S => Denotes u f.toList S) fragments operands) :
    Denotes u (separator.intercalate fragments).toList (Joined gap operands) := by
  induction h with
  | nil => exact Regex.denotes_nil
  | @cons fragment S fragments operands first others ih =>
    cases others with
    | nil =>
      rw [String.intercalate_singleton]
      exact first
    | cons second others =>
      rw [String.intercalate_cons_cons, String.toList_append, String.toList_append,
        List.append_assoc]
      exact first.append (hgap.append ih)

end pieces

section rules
variable {u : Subject} {fragments : List String} {operands : List SpanSet}

theorem denotes_flexible [Regex.Engine]
    (h : List.Forall₂ (fun f S => Denotes u f.toList S) fragments operands) :
    Denotes u (Rule.flexible fragments).toList (Meaning.flexible u operands) := by
  rw [Rule.toList_flexible]
  exact denotes_lazyLine.append ((denotes_intercalate denotes_lazyLine h).append denotes_lazyLine)

theorem denotes_rigid [Regex.Engine] (h : List.Forall₂ (fun f S => Denotes u f.toList S) fragments operands) :
    Denotes u (Rule.rigid fragments).toList (Meaning.rigid u operands) :=
  denotes_intercalate denotes_break h

/-- What is looked ahead to from a later position of the line lies on the line as well; and to find
it, it is enough to look from the start. -/
theorem comp_conjunction_iff {S : SpanSet} {i j : Nat} :
    Comp (Line u) (Comp (Stay fun k => ∃ b, Comp (Line u) S k b) (Meaning.conjunction u operands)) i j ↔
      Meaning.conjunction u (S :: operands) i j := by
  constructor
  · rintro ⟨k, hline, l, ⟨⟨b, a, ha, hS⟩, rfl⟩, hrest, hall⟩
    refine ⟨through_trans hline hrest, fun T hT => ?_⟩
    rcases List.mem_cons.mp hT with rfl | hT
    · exact ⟨a, b, through_trans hline ha, hS⟩
    · obtain ⟨c, d, hc, hd⟩ := hall T hT
      exact ⟨c, d, through_trans hline hc, hd⟩
  · rintro ⟨hline, hall⟩
    obtain ⟨a, b, ha, hS⟩ := hall S List.mem_cons_self
    exact ⟨i, through_refl _ i, i, ⟨⟨b, a, ha, hS⟩, rfl⟩, hline,
      fun T hT => hall T (List.mem_cons_of_mem _ hT)⟩

theorem denotes_conjunction [Regex.Engine]
    (h : List.Forall₂ (fun f S => Denotes u f.toList S) fragments operands) :
    Denotes u (Rule.conjunction fragments).toList (Meaning.conjunction u operands) := by
  induction h with
  | nil =>
    refine denotes_line.of_iff fun i j => ?_
    simp [Meaning.conjunction]
  | @cons fragment S fragments operands first _ ih =>
    have hfirst := denotes_lazyLine.append (denotes_lazyLine.append first).lookAhead
    rw [Rule.toList_conjunction_cons]
    refine (hfirst.append ih).of_iff fun i j => ?_
    rw [Relation.comp_assoc]
    exact comp_conjunction_iff

theorem denotes_disjunction [Regex.Engine]
    (h : List.Forall₂ (fun f S => Denotes u f.toList S) fragments operands)
    (hlength : 2 ≤ fragments.length) :
    Denotes u (Rule.disjunction fragments).toList (Meaning.disjunction operands) := by
  rw [Rule.toList_disjunction, String.toList_intercalate]
  refine Regex.denotes_branches ?_ (by rwa [List.length_map])
  rw [List.forall₂_map_left_iff]
  exact h

/-- If the operand is found from a later position of the line, it is found from the start. -/
theorem through_unmatched_iff {S : SpanSet} {i j : Nat} :
    Through (Regex.Unmatched u (Comp (Line u) (Comp S (Comp (Line u)
        (Stay fun k => Regex.Assertion.textEnd.holds u k = true))))) i j ∧ i < j ↔
      Meaning.negation u S i j := by
  constructor
  · rintro ⟨⟨hle, hall⟩, hlt⟩
    refine ⟨hlt, ⟨hle, fun k hlow hhigh => (hall k hlow hhigh).2⟩, ?_⟩
    rintro ⟨a, b, ha, hS, hb⟩
    exact (hall i (Nat.le_refl i) hlt).1
      ⟨u.size, a, ha, b, hS, u.size, hb, beq_self_eq_true u.size, rfl⟩
  · rintro ⟨hlt, hline, hnone⟩
    refine ⟨⟨hline.1, fun k hlow hhigh => ⟨?_, hline.2 k hlow hhigh⟩⟩, hlt⟩
    rintro ⟨c, a, ha, b, hS, d, hd, hend, -⟩
    have hstart : Line u i k := ⟨hlow, fun l h h' => hline.2 l h (Nat.lt_trans h' hhigh)⟩
    obtain rfl : d = u.size := beq_iff_eq.mp hend
    exact hnone ⟨a, b, through_trans hstart ha, hS, hd⟩

variable [Regex.Engine]

theorem denotes_negation {fragment : String} {S : SpanSet} (h : Denotes u fragment.toList S) :
    Denotes u (Rule.negation fragment).toList (Meaning.negation u S) := by
  have hahead := denotes_line.append (h.append (denotes_line.append Regex.denotes_dollar))
  rw [Rule.toList_negation]
  refine hahead.unmatched.group.of_iff fun i j => ?_
  rw [comp_advance_iff, and_comm]
  exact through_unmatched_iff

theorem denotes_concatenation
    (h : List.Forall₂ (fun f S => Denotes u f.toList S) fragments operands) :
    Denotes u (" ".intercalate fragments).toList (Meaning.concatenation u operands) :=
  denotes_intercalate (denotes_spells (List.forall_mem_singleton.mpr (by decide))) h

theorem denotes_bracket (form : Bracket)
    (h : List.Forall₂ (fun f S => Denotes u f.toList S) fragments operands)
    (hlength : form.minimum ≤ fragments.length) :
    Denotes u (Rule.bracket form fragments).toList (Meaning.bracket u form operands) := by
  cases form with
  | flexible => exact denotes_flexible h
  | rigid => exact denotes_rigid h
  | conjunction => exact denotes_conjunction h
  | disjunction => exact denotes_disjunction h hlength

end rules

section leaves
variable {u : Subject}

theorem not_mem_special_of_isAlphanum {c : Char} (h : c.isAlphanum = true) :
    c ∉ Regex.Reader.special := by
  intro hmem
  have hnone : Regex.Reader.special.all (fun d => !d.isAlphanum) = true := by decide
  have hc := List.all_eq_true.mp hnone c hmem
  rw [h] at hc
  cases hc

theorem not_mem_special_of_isSpace {c : Char} (h : Text.isSpace c = true) :
    c ∉ Regex.Reader.special := by
  intro hmem
  have hnone : Regex.Reader.special.all (fun d => !Text.isSpace d) = true := by decide
  have hc := List.all_eq_true.mp hnone c hmem
  rw [h] at hc
  cases hc

variable [Regex.Engine]

theorem denotes_literal {text : String} (h : Term.IsLiteralText text) :
    Denotes u text.toList (Spells u text.toList) := by
  obtain ⟨first, parts, hfirst, hparts, rfl⟩ := h
  refine denotes_spells fun c hc => ?_
  rw [String.toList_append, List.mem_append, String.toList_join] at hc
  rcases hc with hc | hc
  · exact not_mem_special_of_isAlphanum (hfirst.2 c hc)
  · simp only [List.mem_flatMap, List.mem_map, exists_exists_and_eq_and, String.toList_append,
      List.mem_append] at hc
    obtain ⟨part, hpart, hc | hc⟩ := hc
    · exact not_mem_special_of_isSpace ((hparts part hpart).1.2 c hc)
    · exact not_mem_special_of_isAlphanum ((hparts part hpart).2.2 c hc)

theorem exists_denotes_of_isSymbolChar {chars : List Char}
    (h : ∀ c ∈ chars, isSymbolChar c = true) : ∃ S, Denotes u chars S := by
  induction chars with
  | nil => exact ⟨_, Regex.denotes_nil⟩
  | cons c chars ih =>
    obtain ⟨S, hS⟩ := ih fun d hd => h d (List.mem_cons_of_mem _ hd)
    have hc := h c List.mem_cons_self
    simp only [isSymbolChar, Bool.or_eq_true, beq_iff_eq] at hc
    rcases hc with (hc | rfl) | rfl
    · exact ⟨_, (Regex.denotes_char (not_mem_special_of_isAlphanum hc)).append hS⟩
    · exact ⟨_, (Regex.denotes_char (by decide)).append hS⟩
    · exact ⟨_, Regex.denotes_dot.append hS⟩

theorem denotes_dead {chars : List Char} (h : ∀ c ∈ chars, isSymbolChar c = true)
    (hu : '_' ∉ u.toList) : Denotes u ('_' :: chars) fun _ _ => False := by
  obtain ⟨S, hS⟩ := exists_denotes_of_isSymbolChar h
  have hfirst : Denotes u ['_'] (Advance (At u (· == '_'))) := Regex.denotes_char (by decide)
  refine (hfirst.append hS).of_iff fun i j => ⟨?_, False.elim⟩
  rintro ⟨l, ⟨⟨c, hc, heq⟩, -⟩, -⟩
  rw [beq_iff_eq.mp heq, ← Array.getElem?_toList] at hc
  exact hu (List.mem_of_getElem? hc)

theorem denotes_sentinel {name suffix : String} (hname : IsRun isSymbolChar name)
    (hsuffix : suffix.toList.all isSymbolChar = true) (hu : '_' ∉ u.toList) :
    Denotes u ("_" ++ name ++ suffix).toList fun _ _ => False := by
  have htext : ("_" ++ name ++ suffix).toList = '_' :: (name.toList ++ suffix.toList) := by simp
  rw [htext]
  refine denotes_dead (fun c hc => ?_) hu
  rcases List.mem_append.mp hc with hc | hc
  · exact hname.2 c hc
  · exact List.all_eq_true.mp hsuffix c hc

theorem denotes_false (hu : '_' ∉ u.toList) :
    Denotes u falseSentinel.toList fun _ _ => False := by
  have htext : falseSentinel.toList = '_' :: ['F', 'A', 'L', 'S', 'E', '_'] := by decide
  rw [htext]
  exact denotes_dead (List.all_eq_true.mp (by decide)) hu

/-- The value of a call stands for what came of it. A text in the place of the value is checked to
be a regular expression; those that say why there is no value may fail the check, but are replaced
by one that is as good. -/
theorem denotes_macroCall {env : Environment} {groups : GroupTable} {name : String}
    {operands : List Value} {outcome : Option MacroResult} (hname : IsRun isSymbolChar name)
    (houtcome : outcome = (env.macros.get? name).map fun run => run env.ngrams env.vars operands)
    (hfragment : ¬ IsFragment outcome) (hdead : IsDead outcome → '_' ∉ u.toList) :
    Denotes u (Rule.macroCall env groups name operands).value.fragment.toList
      (Meaning.call u outcome) := by
  have hfailed : '_' ∉ u.toList → Denotes u (failedMacro name).toList fun _ _ => False :=
    denotes_sentinel hname (by decide)
  unfold Rule.macroCall Registry.invoke
  cases hrun : env.macros.get? name with
  | none =>
    rw [hrun, Option.map_none] at houtcome
    subst houtcome
    have hu := hdead trivial
    dsimp only
    split
    · exact denotes_sentinel hname (by decide) hu
    · exact hfailed hu
  | some run =>
    rw [hrun, Option.map_some] at houtcome
    dsimp only
    cases hresult : run env.ngrams env.vars operands with
    | returned value =>
      rw [hresult] at houtcome
      subst houtcome
      cases value with
      | text fragment => exact absurd trivial hfragment
      | alternatives items => exact absurd trivial hfragment
      | bool b =>
        cases b with
        | true => exact denotes_line
        | false => exact denotes_false (hdead rfl)
      | absent => exact Regex.denotes_nil
    | failed error =>
      rw [hresult] at houtcome
      subst houtcome
      dsimp only
      split
      · exact hfailed (hdead trivial)
      · exact hfailed (hdead trivial)
    | crashed message =>
      rw [hresult] at houtcome
      subst houtcome
      dsimp only
      split
      · exact hfailed (hdead trivial)
      · exact hfailed (hdead trivial)

end leaves

theorem value_reduceAll_eq [Regex.Engine] (env : Environment) (path : Path) (groups : GroupTable)
    (items : List Term) :
    (reduceAll env path 0 groups items).value = (reduceAll env [] 0 groups items).value :=
  (reduceAll_path (fun t _ p q groups => reduce_path env t p q groups) path [] 0 0 groups).1

section terms
variable {env : Environment} {u : Subject}

theorem Term.Supported.of_mem_children [Regex.Engine] {t child : Term} (h : t.Supported env)
    (hchild : child ∈ t.children) : child.Supported env := by
  cases t with
  | group form items | concatenation items => exact Term.allSupported_iff.mp h child hchild
  | macroCall name arguments => exact Term.allSupported_iff.mp h.1 child hchild
  | negation operand => exact List.mem_singleton.mp hchild ▸ h
  | assignment => exact h.elim
  | regex | reference | literal => cases hchild

theorem Term.Supported.assigned?_eq_none [Regex.Engine] {t : Term} (h : t.Supported env) :
    t.assigned? = none := by
  cases t with
  | assignment => exact h.elim
  | _ => rfl

theorem assigned_postOrders_eq_nil {items : List Term}
    (h : ∀ t ∈ items, ∀ path : Path, Term.assigned (t.postOrder path) = []) (path : Path)
    (index : Nat) : Term.assigned (Term.postOrders path index items) = [] := by
  induction items generalizing index with
  | nil => simp
  | cons t others ih =>
    rw [Term.postOrders_cons, Term.assigned_append, h t List.mem_cons_self,
      ih fun s hs => h s (List.mem_cons_of_mem _ hs), List.append_nil]

variable [Regex.Engine]

theorem Term.Supported.assigned_postOrder {t : Term} (h : t.Supported env) (path : Path) :
    Term.assigned (t.postOrder path) = [] := by
  induction t using Term.induction_children generalizing path with
  | node t ih =>
    rw [Term.postOrder_eq, Term.assigned_append, assigned_postOrders_eq_nil
      fun child hchild => ih child hchild (h.of_mem_children hchild)]
    simp [h.assigned?_eq_none]

theorem Term.Supported.groups_reduce {t : Term} (h : t.Supported env) (path : Path) :
    (reduce env path .empty t).groups = .empty := by
  rw [PhrasePattern.groups_reduce, h.assigned_postOrder, GroupTable.bindAll_nil]

theorem Term.Supported.groups_reduceAll {t : Term} (h : t.Supported env) (path : Path) :
    (reduceAll env path 0 .empty t.children).groups = .empty := by
  rw [PhrasePattern.groups_reduceAll, assigned_postOrders_eq_nil
    fun child hchild => (h.of_mem_children hchild).assigned_postOrder, GroupTable.bindAll_nil]

def Preserved (env : Environment) (u : Subject) (t : Term) : Prop :=
  ∀ path, Denotes u (reduce env path .empty t).value.fragment.toList (t.Spans env u)

def AllPreserved (env : Environment) (u : Subject) (items : List Term) : Prop :=
  ∀ path index, List.Forall₂ (fun f S => Denotes u f.toList S)
    ((reduceAll env path index .empty items).value.map Value.fragment) (Term.spansAll env u items)

theorem allPreserved_nil : AllPreserved env u [] := by
  intro path index
  rw [reduceAll_nil, Term.spansAll_nil]
  exact .nil

theorem Preserved.cons {t : Term} {others : List Term} (h : Preserved env u t)
    (hsupported : t.Supported env) (hothers : AllPreserved env u others) :
    AllPreserved env u (t :: others) := by
  intro path index
  rw [reduceAll_cons, Term.spansAll_cons]
  dsimp only
  rw [hsupported.groups_reduce, List.map_cons]
  exact .cons (h _) (hothers _ _)

theorem Term.Supported.preserved {t : Term} (h : t.Supported env)
    (hrule : ∀ path, Denotes u (Rule.apply env .empty t
      (reduceAll env path 0 .empty t.children).value).value.fragment.toList (t.Spans env u)) :
    Preserved env u t := by
  intro path
  rw [reduce_eq_conclude, value_conclude, h.groups_reduceAll]
  exact hrule path

theorem AllPreserved.group {form : Bracket} {items : List Term} (h : AllPreserved env u items)
    (hsupported : Term.AllSupported env items) (enough : form.minimum ≤ items.length) :
    Preserved env u (.group form items) := by
  have hgroup : (Term.group form items).Supported env := hsupported
  refine hgroup.preserved fun path => ?_
  have hlength := (h path 0).length_eq.trans (Term.length_spansAll env u items)
  rw [Term.spans_group]
  exact denotes_bracket form (h path 0) (hlength ▸ enough)

theorem AllPreserved.concatenation {items : List Term} (h : AllPreserved env u items)
    (hsupported : Term.AllSupported env items) : Preserved env u (.concatenation items) := by
  have hconcatenation : (Term.concatenation items).Supported env := hsupported
  refine hconcatenation.preserved fun path => ?_
  rw [Term.spans_concatenation]
  exact denotes_concatenation (h path 0)

theorem Preserved.negation {operand : Term} (h : Preserved env u operand)
    (hsupported : operand.Supported env) : Preserved env u (.negation operand) := by
  have hnegation : (Term.negation operand).Supported env := hsupported
  refine hnegation.preserved fun path => ?_
  have hjoin : String.join ((reduceAll env path 0 .empty [operand]).value.map Value.fragment) =
      (reduce env (path ++ [0]) .empty operand).value.fragment := by
    simp [reduceAll_cons, reduceAll_nil]
  rw [Term.spans_negation, Rule.apply, Term.children, hjoin]
  exact denotes_negation (h _)

theorem preserved_literal {text : String} (h : Term.IsLiteralText text) :
    Preserved env u (.literal text) := by
  have hliteral : (Term.literal text).Supported env := trivial
  refine hliteral.preserved fun path => ?_
  rw [Term.spans_literal]
  exact denotes_literal h

theorem preserved_reference {symbol : String} (h : IsRun isSymbolChar symbol)
    (hvars : env.vars.get? symbol = none) (hu : '_' ∉ u.toList) :
    Preserved env u (.reference symbol) := by
  have hreference : (Term.reference symbol).Supported env := hvars
  have hgroup : GroupTable.empty.group? symbol = none := rfl
  refine hreference.preserved fun path => ?_
  rw [Term.spans_reference, Rule.apply, Rule.reference, hgroup, hvars]
  exact denotes_sentinel h (by decide) hu

theorem preserved_macroCall {name : String} {arguments : List Term}
    (hname : IsRun isSymbolChar name) (hsupported : (Term.macroCall name arguments).Supported env)
    (hdead : IsDead (env.outcome name arguments) → '_' ∉ u.toList) :
    Preserved env u (.macroCall name arguments) := by
  refine hsupported.preserved fun path => ?_
  rw [Term.spans_macroCall, Rule.apply]
  refine denotes_macroCall hname ?_ hsupported.2 hdead
  rw [Environment.outcome, Term.children, value_reduceAll_eq env path]

mutual

theorem preserved_of_isOperand : ∀ t : Term, t.IsOperand → t.Supported env →
    (t.HasDeadLeaf env → '_' ∉ u.toList) → Preserved env u t
  | .group _ items, h, hsupported, hdead =>
      (allPreserved_of_areOperands items h.2 hsupported hdead).group hsupported h.1
  | .negation operand, h, hsupported, hdead =>
      (preserved_of_isOperand operand h hsupported hdead).negation hsupported
  | .regex _, _, hsupported, _ => hsupported.elim
  | .reference _, h, hsupported, hdead => preserved_reference h hsupported (hdead trivial)
  | .assignment _ _, _, hsupported, _ => hsupported.elim
  | .macroCall _ _, h, hsupported, hdead => preserved_macroCall h.1 hsupported hdead
  | .literal _, h, _, _ => preserved_literal h
  | .concatenation _, h, _, _ => h.elim

theorem allPreserved_of_areOperands : ∀ items : List Term, Term.AreOperands items →
    Term.AllSupported env items → (Term.AnyDeadLeaf env items → '_' ∉ u.toList) →
      AllPreserved env u items
  | [], _, _, _ => allPreserved_nil
  | t :: others, h, hsupported, hdead =>
      (preserved_of_isOperand t h.1 hsupported.1 fun hleaf => hdead (.inl hleaf)).cons hsupported.1
        (allPreserved_of_areOperands others h.2 hsupported.2 fun hleaf => hdead (.inr hleaf))

end

theorem preserved_of_wellFormed {t : Term} (h : t.WellFormed) (hsupported : t.Supported env)
    (hdead : t.HasDeadLeaf env → '_' ∉ u.toList) : Preserved env u t := by
  cases t with
  | concatenation items =>
    exact (allPreserved_of_areOperands items h.2.1 hsupported hdead).concatenation hsupported
  | _ => exact preserved_of_isOperand _ h hsupported hdead

end terms

section patterns
variable {u : Subject}

theorem toList_anchored (c : CompiledPattern) : c.anchored.toList =
    ['^'] ++ ((['(', '?', ':'] ++ (c.source.toList ++ [')'])) ++ ['$']) := by
  simp [CompiledPattern.anchored]

theorem denotes_anchored [Regex.Engine] {source : String} {S : SpanSet} (h : Denotes u source.toList S) :
    Denotes u ("^(?:" ++ source ++ ")$").toList fun i j => i = 0 ∧ j = u.size ∧ S 0 u.size := by
  have htext : ("^(?:" ++ source ++ ")$").toList =
      ['^'] ++ ((['(', '?', ':'] ++ (source.toList ++ [')'])) ++ ['$']) := by simp
  rw [htext]
  refine (Regex.denotes_caret.append (h.group.append Regex.denotes_dollar)).of_iff fun i j => ?_
  constructor
  · rintro ⟨k, ⟨hstart, rfl⟩, l, hS, hend, rfl⟩
    obtain rfl : k = 0 := beq_iff_eq.mp hstart
    obtain rfl : j = u.size := beq_iff_eq.mp hend
    exact ⟨rfl, rfl, hS⟩
  · rintro ⟨rfl, rfl, hS⟩
    exact ⟨0, ⟨rfl, rfl⟩, u.size, hS, beq_self_eq_true u.size, rfl⟩

theorem CompiledPattern.fullMatch_isSome_iff [Regex.Engine] {c : CompiledPattern} {utterance : String}
    {S : SpanSet} (h : Denotes utterance.toList.toArray c.source.toList S) {result : Option Vars}
    (hresult : c.fullMatch utterance = .ok result) :
    result.isSome = true ↔ S 0 utterance.length := by
  have hsize : utterance.toList.toArray.size = utterance.length := by
    rw [List.size_toArray, String.length_toList]
  rcases c.fullMatch_cases utterance with ⟨stage, herror⟩ | ⟨regex, answer, hbuild, hfind, hmatch⟩
  · cases herror.symm.trans hresult
  · obtain rfl := Except.ok.inj (hmatch.symm.trans hresult)
    have hregex := (denotes_anchored h).realizes_of_read? (Regex.build?_eq_some_iff.mp hbuild).2
    rw [Option.isSome_map, hregex.find_isSome_iff hfind, ← hsize]
    exact ⟨fun ⟨_, _, _, _, _, _, hS⟩ => hS,
      fun hS => ⟨0, _, Nat.le_refl 0, Nat.zero_le _, rfl, rfl, hS⟩⟩

theorem Pattern.exists_compile [Regex.Engine] {p : Pattern} {t : Term} (h : parse p.expression = .ok t)
    (ngrams : Ngrams) (vars : Vars) (extra : Option Registry) (debug : Bool) :
    ∃ c, (p.compile ngrams vars extra debug).1 = .ok c ∧
      c.source = (Compilation.ofTerm ⟨vars, p.registry extra, ngrams⟩ t).fragment := by
  obtain ⟨c, hcompile, hsource, -⟩ := exists_compile_eq h ngrams vars extra debug
  rw [← value_reduce] at hsource
  exact ⟨c, hcompile, hsource⟩

/-- A pattern whose expression is parsed as a term that the meaning covers compiles, and whenever
matching an utterance gives an answer, it is yes exactly if the whole utterance is a span of the
term. -/
theorem fullMatch_iff_spans [Regex.Engine] (p : Pattern) (ngrams : Ngrams) (vars : Vars)
    (extra : Option Registry) (debug : Bool) (utterance : String) (t : Term)
    (hparse : parse p.expression = .ok t)
    (hsupported : t.Supported ⟨vars, p.registry extra, ngrams⟩)
    (hdead : t.HasDeadLeaf ⟨vars, p.registry extra, ngrams⟩ → '_' ∉ utterance.toList) :
    ∃ c, (p.compile ngrams vars extra debug).1 = .ok c ∧
      ∀ result, c.fullMatch utterance = .ok result →
        (result.isSome = true ↔ t.Spans ⟨vars, p.registry extra, ngrams⟩
          utterance.toList.toArray 0 utterance.length) := by
  obtain ⟨c, hcompile, hsource⟩ := Pattern.exists_compile hparse ngrams vars extra debug
  refine ⟨c, hcompile, fun result hresult => ?_⟩
  have hpreserved : Preserved ⟨vars, p.registry extra, ngrams⟩ utterance.toList.toArray t :=
    preserved_of_wellFormed (wellFormed_of_parse hparse) hsupported (by simpa using hdead)
  have hdenotes := hpreserved []
  have hfragment : (reduce ⟨vars, p.registry extra, ngrams⟩ [] .empty t).value.fragment = c.source :=
    hsource.symm
  rw [hfragment] at hdenotes
  exact CompiledPattern.fullMatch_isSome_iff hdenotes hresult

/-- The term of `<{cat, dog}, -$x>`. -/
def petTerm : Term :=
  .group .conjunction
    [.group .disjunction [.literal "cat", .literal "dog"], .negation (.reference "x")]

theorem petTerm_wellFormed : petTerm.WellFormed := by
  have hcat : Term.IsLiteralText "cat" := Term.isLiteralText_of_all (by decide) (by decide)
  have hdog : Term.IsLiteralText "dog" := Term.isLiteralText_of_all (by decide) (by decide)
  have hsymbol : IsRun isSymbolChar "x" := isRun_of_all (by decide) (by decide)
  exact ⟨Nat.le_refl 2, ⟨Nat.le_refl 2, hcat, hdog, trivial⟩, hsymbol, trivial⟩

end patterns

open scoped Regex.Engine in
/-- There is a cat, and no mention of `$x`. -/
theorem fullMatch_iff_spans_petTerm :
    ∃ c, ((⟨petTerm.surface, .empty⟩ : Pattern).compile (.ofUtterance "a cat") .empty none false).1 =
        .ok c ∧
      c.fullMatch "a cat" = .ok (some .empty) ∧
      petTerm.Spans ⟨.empty, .empty, .ofUtterance "a cat"⟩ "a cat".toList.toArray 0 "a cat".length := by
  have hparse := parse_surface petTerm_wellFormed
  obtain ⟨c, hcompile, hiff⟩ := fullMatch_iff_spans ⟨petTerm.surface, .empty⟩ (.ofUtterance "a cat") .empty
    none false "a cat" petTerm hparse ⟨⟨trivial, trivial, trivial⟩, rfl, trivial⟩ (fun _ => by decide)
  have hc : c = ⟨".*?(?=.*?(?:cat|dog)).*?(?=.*?(?:(?:(?!.*_x_NOT_FOUND_.*$).)+)).*", .empty, none⟩ := by
    unfold Pattern.compile at hcompile
    rw [hparse] at hcompile
    exact (Except.ok.inj hcompile).symm
  have hmatch : c.fullMatch "a cat" = .ok (some .empty) := by
    rw [hc]
    rfl
  exact ⟨c, hcompile, hmatch, (hiff _ hmatch).mp rfl⟩

end PhrasePattern
