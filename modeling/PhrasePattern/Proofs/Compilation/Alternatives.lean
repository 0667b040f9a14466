import PhrasePattern.Proofs.Compilation.Echo
import PhrasePattern.Proofs.Compilation.Sentinels
import PhrasePattern.Proofs.Regex.Nesting
import PhrasePattern.Proofs.Text.Runs

/-! A macro that returns a set of words. The set becomes an alternation of its words, which matches the
words of the set and nothing else, whatever their number; only the alternation of no words matches the
empty text. The regular expression needs no search, so that there always is an answer. -/
namespace PhrasePattern

open Relation (Comp)
open Regex (SpanSet Subject Denotes)

namespace Regex
variable [Engine]

open Reader

/-- Reading the text adds nodes that look only at the text they take. -/
structure ReadsPlainly (piece : List Char) : Prop where
  calm : ∀ rest, Calm rest → Calm (piece ++ rest)
  reads : ∃ nodes, Adds piece nodes ∧ Node.allPlain nodes = true

theorem readsPlainly_nil : ReadsPlainly [] := ⟨fun _ h => h, [], adds_nil, rfl⟩

theorem ReadsPlainly.append {first second : List Char} (h : ReadsPlainly first)
    (h' : ReadsPlainly second) : ReadsPlainly (first ++ second) := by
  obtain ⟨nodes, hadds, hplain⟩ := h.reads
  obtain ⟨nodes', hadds', hplain'⟩ := h'.reads
  refine ⟨fun rest hrest => ?_, _, hadds.append h'.calm hadds', ?_⟩
  · rw [List.append_assoc]
    exact h.calm _ (h'.calm rest hrest)
  · rw [allPlain_append, hplain, hplain']
    rfl

theorem readsPlainly_of_step {c : Char} (hc : c ≠ '(' ∧ c ≠ '?' ∧ c ≠ '+') {node : Node}
    (hplain : node.isPlain = true)
    (h : ∀ (r : Reader) (rest : List Char), r.IsDefault → r.step c rest = some (r.add node, 0)) :
    ReadsPlainly [c] := by
  refine ⟨calm_cons_append hc [], _, adds_of_step h, ?_⟩
  rw [allPlain_pieceOf, hplain]

theorem readsPlainly_caret : ReadsPlainly ['^'] :=
  readsPlainly_of_step (by decide) rfl fun _ rest hr => step_caret hr rest

theorem readsPlainly_dollar : ReadsPlainly ['$'] :=
  readsPlainly_of_step (by decide) rfl fun _ rest hr => step_dollar hr rest

theorem readsPlainly_lazyAny : ReadsPlainly ".*?".toList :=
  ⟨calm_cons_append (by decide) _, _, adds_lazyAny, rfl⟩

theorem Reader.Fills.readsPlainly {piece : List Char} {node : Node} (h : Fills piece node)
    (hplain : node.isPlain = true) : ReadsPlainly (['(', '?', ':'] ++ (piece ++ [')'])) := by
  refine ⟨calm_open_append (by decide) _, _, Encloses.adds encloses_plain h, ?_⟩
  rw [allPlain_pieceOf]
  exact hplain

theorem ReadsPlainly.group {piece : List Char} (h : ReadsPlainly piece) :
    ReadsPlainly (['(', '?', ':'] ++ (piece ++ [')'])) := by
  obtain ⟨nodes, hadds, hplain⟩ := h.reads
  exact hadds.fills.readsPlainly ((isPlain_ofPieces nodes).trans hplain)

theorem readsPlainly_branches {pieces : List (List Char)} (h : ∀ piece ∈ pieces, ReadsPlainly piece)
    (hlength : 2 ≤ pieces.length) :
    ReadsPlainly (['(', '?', ':'] ++ (['|'].intercalate pieces ++ [')'])) := by
  have hbranches : ∃ branches, List.Forall₂ Adds pieces branches ∧
      Node.allPlain (branches.map Node.ofPieces) = true := by
    clear hlength
    induction pieces with
    | nil => exact ⟨[], .nil, rfl⟩
    | cons piece pieces ih =>
      obtain ⟨nodes, hadds, hplain⟩ := (h piece List.mem_cons_self).reads
      obtain ⟨branches, hothers, hplains⟩ := ih fun other hother => h other (List.mem_cons_of_mem _ hother)
      refine ⟨nodes :: branches, .cons hadds hothers, ?_⟩
      rw [List.map_cons, allPlain_cons, isPlain_ofPieces, hplain, hplains]
      rfl
  obtain ⟨branches, hadds, hplain⟩ := hbranches
  refine (fills_branches hadds hlength).readsPlainly ?_
  rw [Node.isPlain]
  exact hplain

theorem ReadsPlainly.isPlain_of_read? {source : String} {regex : Regex}
    (h : ReadsPlainly source.toList) (hread : read? source = some regex) :
    regex.root.isPlain = true := by
  obtain ⟨nodes, hadds, hplain⟩ := h.reads
  have hrun := (hadds {} [] ⟨rfl, rfl⟩ calm_nil).imp fun _ hr => And.intro hr.toGrows trivial
  obtain ⟨r, -, rfl⟩ := exists_of_read? hrun hread
  exact (isPlain_ofPieces nodes).trans hplain

end Regex

section alternation
variable {u : Subject} {words : List String}

/-- The words that an alternation matches: those it is made of, or the empty one if there are none. -/
def Offers (words : List String) (word : String) : Prop := word ∈ words ∨ words = [] ∧ word = ""

def Ordinary (words : List String) : Prop :=
  ∀ word ∈ words, ∀ c ∈ word.toList, c ∉ Regex.Reader.special

theorem count_alternation (h : Ordinary words) : (Rule.disjunction words).toList.count '(' = 1 := by
  have hwords : '(' ∉ ("|".intercalate words).toList := by
    intro hmem
    rcases mem_intercalate hmem with hbar | ⟨word, hword, hc⟩
    · exact absurd hbar (by decide)
    · exact h word hword '(' hc (by decide)
  rw [Rule.toList_disjunction, List.count_append, List.count_append,
    List.count_eq_zero_of_not_mem hwords]
  rfl

variable [Regex.Engine]

/-- An alternation is a group of its only word, or of nothing, if there are not two. -/
theorem denotes_alternation (h : Ordinary words) :
    Denotes u (Rule.disjunction words).toList fun i j =>
      ∃ word, Offers words word ∧ Spells u word.toList i j := by
  match words with
  | [] =>
    rw [Rule.toList_disjunction]
    refine Regex.denotes_nil.group.of_iff fun i j => ?_
    simpa [Offers] using spells_nil_iff
  | [word] =>
    rw [Rule.toList_disjunction, String.intercalate_singleton]
    refine (denotes_spells (h word List.mem_cons_self)).group.of_iff fun i j => ?_
    simp [Offers]
  | first :: second :: others =>
    have hoperands : List.Forall₂ (fun f S => Denotes u f.toList S) (first :: second :: others)
        ((first :: second :: others).map fun word => Spells u word.toList) := by
      rw [List.forall₂_map_right_iff, List.forall₂_same]
      exact fun word hword => denotes_spells (h word hword)
    refine (denotes_disjunction hoperands (Nat.le_add_left 2 _)).of_iff fun i j => ?_
    simp [Meaning.disjunction, Offers]

theorem readsPlainly_spells {chars : List Char} (h : ∀ c ∈ chars, c ∉ Regex.Reader.special) :
    Regex.ReadsPlainly chars := by
  induction chars with
  | nil => exact Regex.readsPlainly_nil
  | cons c chars ih =>
    have htame : Tame (c :: chars) := fun d hd => .inl (h d hd)
    have hfirst : Regex.ReadsPlainly [c] := Regex.readsPlainly_of_step htame.head rfl
      fun _ rest hr => Regex.Reader.step_ordinary hr (h c List.mem_cons_self) rest
    exact hfirst.append (ih fun d hd => h d (List.mem_cons_of_mem c hd))

theorem readsPlainly_alternation (h : Ordinary words) :
    Regex.ReadsPlainly (Rule.disjunction words).toList := by
  rw [Rule.toList_disjunction]
  match words with
  | [] => exact Regex.readsPlainly_nil.group
  | [word] =>
    rw [String.intercalate_singleton]
    exact (readsPlainly_spells (h word List.mem_cons_self)).group
  | first :: second :: others =>
    rw [String.toList_intercalate]
    refine Regex.readsPlainly_branches (fun piece hpiece => ?_) (Nat.le_add_left 2 _)
    obtain ⟨word, hword, rfl⟩ := List.mem_map.mp hpiece
    exact readsPlainly_spells (h word hword)

theorem Ordinary.passables (h : Ordinary words) (names : List String) :
    Passables names words names := by
  induction words with
  | nil => exact .nil names
  | cons word others ih =>
    have hword : Tame word.toList := fun c hc => .inl (h word List.mem_cons_self c hc)
    exact .cons hword.passable (ih fun other hother => h other (List.mem_cons_of_mem word hother))

theorem isWellFormed_iff_fits {source : String} (hcount : source.toList.count '(' ≤ Regex.Reader.depthLimit)
    (h : ∃ n, Regex.nesting? source = some n ∧ (Regex.isWellFormed source = true ↔
      n ≤ Regex.Reader.depthLimit ∧ Regex.Engine.fits source = true)) :
    Regex.isWellFormed source = true ↔ Regex.Engine.fits source = true := by
  obtain ⟨n, hnesting, hiff⟩ := h
  exact hiff.trans (and_iff_right ((Regex.nesting?_le_count hnesting).trans hcount))

theorem isWellFormed_alternatives_iff {items : TextSet} (h : Ordinary items.items) :
    isWellFormed .empty (.alternatives items) = true ↔
      Regex.Engine.fits (Value.alternatives items).fragment = true := by
  have hfragment : String.join (GroupTable.empty.entries.map fun entry => "(?P<" ++ entry.1 ++ ">)") ++
      (Value.alternatives items).fragment = Rule.disjunction items.items := String.empty_append
  have hcount : (Rule.disjunction items.items).toList.count '(' ≤ Regex.Reader.depthLimit := by
    rw [count_alternation h]
    decide
  unfold isWellFormed
  dsimp only
  rw [hfragment]
  exact isWellFormed_iff_fits hcount (isWellFormed_of_passes (h.passables []).passes_disjunction)

end alternation

section spans

theorem line_append_iff {before middle after : List Char} :
    Line (before ++ middle ++ after).toArray before.length (before.length + middle.length) ↔
      '\n' ∉ middle := by
  have hat : ∀ k < middle.length, (before ++ middle ++ after).toArray[before.length + k]? = middle[k]? := by
    intro k hk
    rw [List.getElem?_toArray, List.append_assoc, List.getElem?_append_right (by omega),
      Nat.add_sub_cancel_left, List.getElem?_append_left hk]
  constructor
  · rintro ⟨-, hall⟩ hmem
    obtain ⟨k, hk, hget⟩ := List.getElem_of_mem hmem
    obtain ⟨c, hc, hne⟩ := hall (before.length + k) (by omega) (by omega)
    rw [hat k hk, List.getElem?_eq_getElem hk, hget] at hc
    obtain rfl := Option.some.inj hc
    cases hne
  · intro hnot
    refine ⟨Nat.le_add_right _ _, fun k hlow hhigh => ?_⟩
    obtain ⟨n, rfl⟩ := Nat.exists_eq_add_of_le hlow
    have hn : n < middle.length := by omega
    refine ⟨middle[n], ?_, ?_⟩
    · rw [hat n hn, List.getElem?_eq_getElem hn]
    · rw [bne_iff_ne]
      exact fun heq => hnot (heq ▸ List.getElem_mem hn)

theorem spells_whole_iff {utterance word : String} :
    Spells utterance.toList.toArray word.toList 0 utterance.length ↔ utterance = word := by
  rw [spells_iff, List.drop_zero, Nat.zero_add]
  constructor
  · rintro ⟨hlength, hfront⟩
    refine String.toList_inj.mp (hfront.eq_of_length ?_).symm
    rw [← hlength, String.length_toList]
  · rintro rfl
    exact ⟨String.length_toList.symm, List.prefix_refl _⟩

theorem line_front_iff {front rest : List Char} :
    Line (front ++ rest).toArray 0 front.length ↔ '\n' ∉ front := by
  have hiff := @line_append_iff [] front rest
  rwa [List.nil_append, List.length_nil, Nat.zero_add] at hiff

theorem line_back_iff {rest back : List Char} :
    Line (rest ++ back).toArray rest.length (rest ++ back).length ↔ '\n' ∉ back := by
  have hiff := @line_append_iff rest back []
  rwa [List.append_nil, ← List.length_append] at hiff

theorem comp_line_spells_iff {text word : List Char} :
    Comp (Line text.toArray) (Comp (Spells text.toArray word) (Line text.toArray)) 0 text.length ↔
      ∃ front back, text = front ++ word ++ back ∧ '\n' ∉ front ∧ '\n' ∉ back := by
  constructor
  · rintro ⟨i, hfront, j, hspells, hback⟩
    obtain ⟨rfl, back, hrest⟩ := spells_iff.mp hspells
    have hlength : (text.take i).length = i := List.length_take_of_le (by have := hback.1; omega)
    have htext : text.take i ++ word ++ back = text := by
      rw [List.append_assoc, hrest]
      exact List.take_append_drop i text
    generalize text.take i = front at hlength htext
    subst htext hlength
    rw [← List.length_append] at hback
    rw [List.append_assoc] at hfront
    exact ⟨front, back, rfl, line_front_iff.mp hfront, line_back_iff.mp hback⟩
  · rintro ⟨front, back, rfl, hfront, hback⟩
    refine ⟨front.length, ?_, (front ++ word).length, spells_iff.mpr ⟨List.length_append, ?_⟩,
      line_back_iff.mpr hback⟩
    · rw [List.append_assoc]
      exact line_front_iff.mpr hfront
    · rw [List.append_assoc]
      simp

theorem flexible_offers_iff {utterance : String} {words : List String} :
    Meaning.flexible utterance.toList.toArray
        [fun i j => ∃ word, Offers words word ∧ Spells utterance.toList.toArray word.toList i j]
        0 utterance.length ↔
      ∃ front word back, utterance = front ++ word ++ back ∧ '\n' ∉ front.toList ∧
        '\n' ∉ back.toList ∧ Offers words word := by
  have hword : ∀ word : String, Comp (Line utterance.toList.toArray)
      (Comp (Spells utterance.toList.toArray word.toList) (Line utterance.toList.toArray))
        0 utterance.length ↔
      ∃ front back, utterance.toList = front ++ word.toList ++ back ∧ '\n' ∉ front ∧ '\n' ∉ back := by
    intro word
    rw [← String.length_toList]
    exact comp_line_spells_iff
  constructor
  · rintro ⟨i, hfront, j, ⟨word, hoffers, hspells⟩, hback⟩
    obtain ⟨front, back, htext, hbefore, hafter⟩ := (hword word).mp ⟨i, hfront, j, hspells, hback⟩
    refine ⟨String.ofList front, word, String.ofList back, String.toList_inj.mp ?_, ?_, ?_, hoffers⟩
    · simpa using htext
    · rwa [String.toList_ofList]
    · rwa [String.toList_ofList]
  · rintro ⟨front, word, back, htext, hbefore, hafter, hoffers⟩
    obtain ⟨i, hfront, j, hspells, hback⟩ :=
      (hword word).mpr ⟨front.toList, back.toList, by simp [htext], hbefore, hafter⟩
    exact ⟨i, hfront, j, ⟨word, hoffers, hspells⟩, hback⟩

end spans

section patterns

theorem Term.surface_flexible_macroName (name : String) :
    (Term.group .flexible [.macroCall name []]).surface = "[#" ++ name ++ "]" := by
  refine String.toList_inj.mp ?_
  rw [Term.surface_group]
  simp [Term.surfaces, Term.surface_macroName, Term.enclose, Bracket.opening, Bracket.closing,
    Token.spelling]

variable [Regex.Engine]

/-- A text that is a regular expression by itself, needs no search, and stands for these spans. -/
structure Decides (source : String) (S : Subject → SpanSet) : Prop where
  passable : Passable [] [] source.toList
  plain : Regex.ReadsPlainly source.toList
  room : source.toList.count '(' < Regex.Reader.depthLimit
  denotes : ∀ u, Denotes u source.toList (S u)

theorem decides_alternation {words : List String} (h : Ordinary words) :
    Decides (Rule.disjunction words) fun u i j =>
      ∃ word, Offers words word ∧ Spells u word.toList i j where
  passable := (h.passables []).disjunction
  plain := readsPlainly_alternation h
  room := by
    rw [count_alternation h]
    decide
  denotes := fun _ => denotes_alternation h

theorem Decides.flexible {source : String} {S : Subject → SpanSet} (h : Decides source S) :
    Decides (Rule.flexible [source]) fun u => Meaning.flexible u [S u] where
  passable := (Passables.cons h.passable (.nil [])).flexible
  plain := by
    rw [Rule.toList_flexible, String.intercalate_singleton]
    exact Regex.readsPlainly_lazyAny.append (h.plain.append Regex.readsPlainly_lazyAny)
  room := by
    have hcount : ".*?".toList.count '(' = 0 := by decide
    rw [Rule.toList_flexible, String.intercalate_singleton, List.count_append,
      List.count_append, hcount, Nat.zero_add, Nat.add_zero]
    exact h.room
  denotes := fun u => denotes_flexible (.cons (h.denotes u) .nil)

/-- If the engine has room for the pattern, it is decided about every utterance whether it matches. Otherwise
there is no answer about any. -/
structure CompiledPattern.Answers (c : CompiledPattern) (Matches : String → Prop) : Prop where
  ok : Regex.Engine.fits c.anchored = true → ∀ utterance, ∃ result, c.fullMatch utterance = .ok result ∧
    (result.isSome = true ↔ Matches utterance)
  error : Regex.Engine.fits c.anchored = false →
    ∀ utterance, c.fullMatch utterance = .error (.regex .build c.anchored)

theorem CompiledPattern.Answers.of_iff {c : CompiledPattern} {Matches Matches' : String → Prop}
    (h : c.Answers Matches) (hiff : ∀ utterance, Matches utterance ↔ Matches' utterance) :
    c.Answers Matches' := by
  refine ⟨fun hfits utterance => ?_, h.error⟩
  obtain ⟨result, hok, hresult⟩ := h.ok hfits utterance
  exact ⟨result, hok, hresult.trans (hiff utterance)⟩

theorem CompiledPattern.fullMatch_of_not_fits {c : CompiledPattern}
    (h : Regex.Engine.fits c.anchored = false) (utterance : String) :
    c.fullMatch utterance = .error (.regex .build c.anchored) := by
  rw [fullMatch, Regex.build?, h]
  rfl

theorem Decides.answers {c : CompiledPattern} {S : Subject → SpanSet} (h : Decides c.source S) :
    c.Answers fun utterance => S utterance.toList.toArray 0 utterance.length := by
  refine ⟨fun hfits utterance => ?_, c.fullMatch_of_not_fits⟩
  have hroom : c.anchored.toList.count '(' ≤ Regex.Reader.depthLimit := by
    have hcount : c.anchored.toList.count '(' = c.source.toList.count '(' + 1 := by
      rw [toList_anchored]
      simp
    rw [hcount]
    exact h.room
  have hformed := (isWellFormed_iff_fits hroom (isWellFormed_anchored h.passable)).mpr hfits
  obtain ⟨regex, hbuild⟩ := Option.isSome_iff_exists.mp hformed
  have hanchored : Regex.ReadsPlainly c.anchored.toList := by
    rw [toList_anchored]
    exact Regex.readsPlainly_caret.append (h.plain.group.append Regex.readsPlainly_dollar)
  have hfind : regex.find utterance.toList.toArray = some (Regex.findFrom regex.root
      utterance.toList.toArray 0 utterance.toList.toArray.size) :=
    if_pos (hanchored.isPlain_of_read? (Regex.build?_eq_some_iff.mp hbuild).2)
  -- without a search there is an answer
  have hok := CompiledPattern.fullMatch_eq_ok hbuild hfind
  exact ⟨_, hok, CompiledPattern.fullMatch_isSome_iff (h.denotes _) hok⟩

section call
variable {env : Environment} {name : String} {run : Macro} {items : TextSet}

/-- Words that the engine has no room for are replaced. -/
theorem value_macroCall_of_alternatives (hrun : env.macros.get? name = some run)
    (hreturned : run env.ngrams env.vars [] = .returned (.alternatives items))
    (h : Ordinary items.items) (path : Path) :
    (ruling env path .empty (.macroCall name [])).value =
      if Regex.Engine.fits (Value.alternatives items).fragment then .alternatives items
      else .text (failedMacro name) := by
  have hformed := isWellFormed_alternatives_iff h
  have hvalue : (ruling env path .empty (.macroCall name [])).value =
      if isWellFormed .empty (.alternatives items) then .alternatives items
      else .text (failedMacro name) := by
    simp only [ruling, Term.children, reduceAll_nil, Rule.apply, Rule.macroCall, Registry.invoke, hrun,
      hreturned]
    split <;> rfl
  rw [hvalue]
  simp only [hformed]

theorem fragment_flexible_macroCall (name : String) :
    (ruling env [] .empty (.group .flexible [.macroCall name []])).value.fragment =
      Rule.flexible [(ruling env [0] .empty (.macroCall name [])).value.fragment] := by
  rw [ruling]
  simp only [Term.children, reduceAll_cons, reduceAll_nil, List.nil_append, value_reduce]
  rfl

end call

/-- A macro that returns a set of words of letters, digits and blanks. If the engine has room for its words
and for the pattern, then the call alone matches the words of the set, and in brackets it matches a word
between texts without newlines. If the set is empty, both behave as if the empty word were in it. Words that
there is no room for are replaced by the sentinel, and a pattern that there is no room for gives an error. -/
theorem fullMatch_alternatives (p : Pattern) (ngrams : Ngrams) (vars : Vars) (extra : Option Registry)
    (debug : Bool) (name : String) (run : Macro) (items : TextSet) (hname : IsRun isSymbolChar name)
    (hrun : (p.registry extra).get? name = some run)
    (hreturned : run ngrams vars [] = .returned (.alternatives items))
    (hchars : ∀ word ∈ items.items, ∀ c ∈ word.toList, c.isAlphanum = true ∨ c = ' ') :
    (p.expression = "#" ++ name → ∃ c, (p.compile ngrams vars extra debug).1 = .ok c ∧
      (Regex.Engine.fits (Value.alternatives items).fragment = true →
        c.source = (Value.alternatives items).fragment ∧
          c.Answers fun utterance => utterance ∈ items.items ∨ items.items = [] ∧ utterance = "") ∧
      (Regex.Engine.fits (Value.alternatives items).fragment = false → c.source = failedMacro name)) ∧
    (p.expression = "[#" ++ name ++ "]" → ∃ c, (p.compile ngrams vars extra debug).1 = .ok c ∧
      (Regex.Engine.fits (Value.alternatives items).fragment = true →
        c.source = Rule.flexible [(Value.alternatives items).fragment] ∧
          c.Answers fun utterance => ∃ front word back, utterance = front ++ word ++ back ∧
            '\n' ∉ front.toList ∧ '\n' ∉ back.toList ∧
              (word ∈ items.items ∨ items.items = [] ∧ word = "")) ∧
      (Regex.Engine.fits (Value.alternatives items).fragment = false →
        c.source = Rule.flexible [failedMacro name])) := by
  have hordinary : Ordinary items.items := by
    intro word hword c hc
    rcases hchars word hword c hc with halphanum | rfl
    · exact not_mem_special_of_isAlphanum halphanum
    · decide
  have hdecides := decides_alternation hordinary
  have hcall : (Term.macroCall name []).IsOperand := ⟨hname, trivial⟩
  have hbrackets : (Term.group .flexible [.macroCall name []]).IsOperand :=
    ⟨Nat.le_refl 1, hcall, trivial⟩
  have hrun' : (⟨vars, p.registry extra, ngrams⟩ : Environment).macros.get? name = some run := hrun
  have hvalue := value_macroCall_of_alternatives hrun' hreturned hordinary
  constructor
  · intro hexpression
    have hparse := parse_surface_of_isOperand hcall
    rw [Term.surface_macroName, ← hexpression] at hparse
    obtain ⟨c, hcompile, hsource, -⟩ := Pattern.exists_compile_eq hparse ngrams vars extra debug
    rw [hvalue] at hsource
    refine ⟨c, hcompile, fun hfits => ?_, fun hfits => ?_⟩
    · rw [if_pos hfits] at hsource
      have hsame : c.source = Rule.disjunction items.items := hsource
      rw [← hsame] at hdecides
      refine ⟨hsource, hdecides.answers.of_iff fun utterance => ?_⟩
      simp [spells_whole_iff, Offers]
    · rw [hfits] at hsource
      exact hsource
  · intro hexpression
    have hparse := parse_surface_of_isOperand hbrackets
    rw [Term.surface_flexible_macroName, ← hexpression] at hparse
    obtain ⟨c, hcompile, hsource, -⟩ := Pattern.exists_compile_eq hparse ngrams vars extra debug
    rw [fragment_flexible_macroCall, hvalue] at hsource
    refine ⟨c, hcompile, fun hfits => ?_, fun hfits => ?_⟩
    · rw [if_pos hfits] at hsource
      have hsame : c.source = Rule.flexible [Rule.disjunction items.items] := hsource
      have hbetween := hdecides.flexible
      rw [← hsame] at hbetween
      exact ⟨hsource, hbetween.answers.of_iff fun utterance => flexible_offers_iff⟩
    · rw [hfits] at hsource
      exact hsource

end patterns

def petPattern (expression : String) (words : List String) : Pattern :=
  ⟨expression, .ofList [("Pets", fun _ _ _ => .returned (.alternatives (.ofList words)))]⟩

open scoped Regex.Engine in
/-- One word begins with another; and there is no word at all. -/
theorem fullMatch_alternatives_pets :
    (∃ c, ((petPattern "[#Pets]" ["dog", "dogs", "cat"]).compile .none .empty none false).1 = .ok c ∧
      ∃ captured, c.fullMatch "two dogs" = .ok (some captured)) ∧
    ∃ c, ((petPattern "#Pets" []).compile .none .empty none false).1 = .ok c ∧
      (∃ captured, c.fullMatch "" = .ok (some captured)) ∧ c.fullMatch "dog" = .ok none := by
  have hname : IsRun isSymbolChar "Pets" := isRun_of_all (by decide) (by decide)
  have hitems : (TextSet.ofList ["dog", "dogs", "cat"]).items = ["cat", "dog", "dogs"] := by decide
  have hletters : ∀ word ∈ ["cat", "dog", "dogs"], word.toList.all Char.isAlphanum = true := by decide
  have hchars : ∀ word ∈ (TextSet.ofList ["dog", "dogs", "cat"]).items, ∀ c ∈ word.toList,
      c.isAlphanum = true ∨ c = ' ' := by
    rw [hitems]
    exact fun word hword c hc => .inl (List.all_eq_true.mp (hletters word hword) c hc)
  constructor
  · obtain ⟨c, hcompile, hwords, -⟩ := (fullMatch_alternatives
      (petPattern "[#Pets]" ["dog", "dogs", "cat"]) .none .empty none false "Pets" _
      (.ofList ["dog", "dogs", "cat"]) hname rfl rfl hchars).2 rfl
    obtain ⟨result, hok, hiff⟩ := (hwords rfl).2.ok rfl "two dogs"
    obtain ⟨captured, rfl⟩ := Option.isSome_iff_exists.mp
      (hiff.mpr ⟨"two ", "dogs", "", rfl, by decide, by decide, .inl (by simp [hitems])⟩)
    exact ⟨c, hcompile, captured, hok⟩
  · obtain ⟨c, hcompile, hwords, -⟩ := (fullMatch_alternatives (petPattern "#Pets" []) .none .empty
      none false "Pets" _ (.ofList []) hname rfl rfl nofun).1 rfl
    have hanswers := (hwords rfl).2.ok rfl
    obtain ⟨result, hok, hiff⟩ := hanswers ""
    obtain ⟨captured, rfl⟩ := Option.isSome_iff_exists.mp (hiff.mpr (.inr ⟨rfl, rfl⟩))
    obtain ⟨other, hok', hiff'⟩ := hanswers "dog"
    refine ⟨c, hcompile, ⟨captured, hok⟩, ?_⟩
    cases other with
    | none => exact hok'
    | some found =>
      rcases hiff'.mp rfl with hmem | ⟨-, hempty⟩
      · cases hmem
      · exact absurd hempty (by decide)

end PhrasePattern
