import PhrasePattern.Proofs.Compilation.Acceptance
import PhrasePattern.Proofs.Compilation.Ruling
import PhrasePattern.Proofs.Regex.Recall

/-! A variable that is assigned and referred to in one expression. What the assigned term matched has to
come again at the reference, so among all spans of the term the search settles on the one whose text the
utterance repeats, and this text becomes the value of the variable. -/
namespace PhrasePattern

open Relation (Comp)
open Regex (SpanSet Subject Thread Moves Captures Repeats ThreadSet SearchesSeq Stay Denotes)
open Regex.Reader (Builds IsGroupName)

section anchors
variable {u : Subject} {names : List (String × Nat)} {nodes : List Regex.Node} {R : ThreadSet}

def anchoredNodes (nodes : List Regex.Node) : List Regex.Node :=
  [.assertion .textStart] ++ (Regex.Reader.pieceOf (.ofPieces nodes) ++ [.assertion .textEnd])

theorem builds_anchored [Regex.Engine] {c : CompiledPattern} (h : Builds [] names c.source.toList nodes) :
    Builds [] names c.anchored.toList (anchoredNodes nodes) := by
  have hcaret : Builds [] [] ['^'] [.assertion .textStart] :=
    (Regex.Reader.adds_of_step fun _ rest hr => Regex.Reader.step_caret hr rest).builds
      (Regex.calm_cons_append (by decide) [])
  have hdollar : Builds names names ['$'] [.assertion .textEnd] :=
    (Regex.Reader.adds_of_step fun _ rest hr => Regex.Reader.step_dollar hr rest).builds
      (Regex.calm_cons_append (by decide) [])
  rw [toList_anchored]
  exact hcaret.append (h.group.append hdollar)

def Throughout (u : Subject) (R : ThreadSet) : ThreadSet :=
  fun t v => t.position = 0 ∧ R t v ∧ v.position = u.size

theorem searches_anchored (h : SearchesSeq u nodes R) :
    SearchesSeq u (anchoredNodes nodes) (Throughout u R) := by
  have hstart : SearchesSeq u [.assertion .textStart] _ :=
    (Regex.RealizesSeq.single (Regex.realizes_assertion _)).searches
  have hend : SearchesSeq u [.assertion .textEnd] _ :=
    (Regex.RealizesSeq.single (Regex.realizes_assertion _)).searches
  have heq : Comp (Moves (Stay fun i => Regex.Assertion.textStart.holds u i = true)) (Comp R
      (Moves (Stay fun i => Regex.Assertion.textEnd.holds u i = true))) = Throughout u R := by
    funext t v
    refine propext ⟨?_, ?_⟩
    · rintro ⟨t', ⟨i, ⟨hstart, rfl⟩, rfl⟩, v', hR, j, ⟨hend, rfl⟩, rfl⟩
      exact ⟨beq_iff_eq.mp hstart, hR, beq_iff_eq.mp hend⟩
    · rintro ⟨hstart, hR, hend⟩
      exact ⟨t, ⟨_, ⟨beq_iff_eq.mpr hstart, rfl⟩, rfl⟩, v, hR, _, ⟨beq_iff_eq.mpr hend, rfl⟩, rfl⟩
  rw [← heq]
  exact hstart.append (h.ofPieces.pieceOf.append hend)

theorem isPlain_anchored (h : Regex.Node.allPlain nodes = false) :
    (Regex.Node.ofPieces (anchoredNodes nodes)).isPlain = false := by
  rw [Regex.isPlain_ofPieces, anchoredNodes, Regex.allPlain_append, Regex.allPlain_append,
    Regex.allPlain_pieceOf, Regex.isPlain_ofPieces, h, Bool.false_and, Bool.and_false]

/-- A match goes through the utterance as the relation allows, and if there is none, no thread does. -/
theorem CompiledPattern.isAnswer_of_fullMatch [Regex.Engine] {c : CompiledPattern} {utterance : String}
    (hbuilds : Builds [] names c.source.toList nodes)
    (hsearches : SearchesSeq utterance.toList.toArray nodes R)
    (hplain : Regex.Node.allPlain nodes = false) {result : Option Vars}
    (hresult : c.fullMatch utterance = .ok result) :
    ∃ answer, Regex.IsAnswer (Throughout utterance.toList.toArray R) 0 utterance.toList.toArray.size
      answer ∧ result = answer.map
        (c.capturesOf ⟨.ofPieces (anchoredNodes nodes), names⟩ utterance.toList.toArray) := by
  rcases c.fullMatch_cases utterance with ⟨stage, herror⟩ | ⟨regex, answer, hread, hfind, hok⟩
  · rw [herror] at hresult
    cases hresult
  · obtain rfl := (builds_anchored hbuilds).read?_eq (Regex.build?_eq_some_iff.mp hread).2
    have hroot := (searches_anchored hsearches).ofPieces
    refine ⟨answer, hroot.isAnswer_find (isPlain_anchored hplain) hfind, ?_⟩
    exact Except.ok.inj (hresult.symm.trans hok)

end anchors

section echo
variable {u : Subject} {S : SpanSet}

theorem spells_iff {chars : List Char} {i j : Nat} :
    Spells u chars i j ↔ j = i + chars.length ∧ chars <+: u.toList.drop i := by
  refine and_congr_right fun _ => ?_
  rw [List.prefix_iff_getElem?]
  simp only [List.getElem?_drop, Array.getElem?_toList]
  refine forall₂_congr fun k hk => ?_
  rw [List.getElem?_eq_getElem hk]

/-- Group 1 captures text, and after other text its own text comes again. -/
def Echoes (u : Subject) (S : SpanSet) (between : List Char) : ThreadSet :=
  Comp (Captures 1 (Moves S)) (Comp (Moves (Spells u between)) (Repeats u 1))

theorem repeats_iff {position length : Nat} {v : Thread} :
    Repeats u 1 ⟨position, [(1, ⟨0, length⟩)]⟩ v ↔
      u.toList.take length = (u.toList.drop position).take length ∧
        v = ⟨position + length, [(1, ⟨0, length⟩)]⟩ := by
  unfold Repeats Regex.repeatGroup?
  simp [Thread.captured?, Regex.Span.of, eq_comm]

theorem echoes_iff {between : List Char} {v : Thread} :
    Echoes u S between (.start 0) v ↔ ∃ j, S 0 j ∧ between <+: u.toList.drop j ∧
      u.toList.take j = (u.toList.drop (j + between.length)).take j ∧
        v = ⟨j + between.length + j, [(1, ⟨0, j⟩)]⟩ := by
  constructor
  · rintro ⟨_, ⟨_, ⟨j, hj, rfl⟩, rfl⟩, _, ⟨l, hl, rfl⟩, hv⟩
    obtain ⟨rfl, hbetween⟩ := spells_iff.mp hl
    exact ⟨j, hj, hbetween, repeats_iff.mp hv⟩
  · rintro ⟨j, hj, hbetween, hv⟩
    exact ⟨_, ⟨_, ⟨j, hj, rfl⟩, rfl⟩, _, ⟨_, spells_iff.mpr ⟨rfl, hbetween⟩, rfl⟩, repeats_iff.mpr hv⟩

theorem exists_echo_iff {text between : List Char} {j : Nat} :
    (∃ chars, text = chars ++ (between ++ chars) ∧ chars.length = j) ↔
      between <+: text.drop j ∧ text.take j = (text.drop (j + between.length)).take j ∧
        j + between.length + j = text.length := by
  constructor
  · rintro ⟨chars, rfl, rfl⟩
    refine ⟨?_, ?_, by simp [Nat.add_assoc]⟩
    · rw [List.drop_left]
      exact List.prefix_append _ _
    · rw [List.take_left, ← List.append_assoc, List.drop_left' (by simp), List.take_length]
  · rintro ⟨⟨rest, hrest⟩, hsame, hlength⟩
    have hafter : text.drop (j + between.length) = rest := by
      rw [← List.drop_drop, ← hrest, List.drop_left]
    have hshort : rest.length ≤ j := by
      rw [← hafter, List.length_drop]
      omega
    rw [hafter, List.take_of_length_le hshort] at hsame
    refine ⟨text.take j, ?_, List.length_take_of_le (by omega)⟩
    conv_lhs => rw [← List.take_append_drop j text, ← hrest, ← hsame]

theorem throughout_echoes_iff {between : List Char} {i : Nat} {v : Thread} :
    Throughout u (Echoes u S between) (.start i) v ↔ i = 0 ∧ ∃ chars : List Char,
      u.toList = chars ++ (between ++ chars) ∧ S 0 chars.length ∧
        v = ⟨u.size, [(1, ⟨0, chars.length⟩)]⟩ := by
  refine and_congr_right fun hi => ?_
  obtain rfl : i = 0 := hi
  rw [echoes_iff]
  constructor
  · rintro ⟨⟨j, hj, hbetween, hsame, rfl⟩, hend⟩
    obtain ⟨chars, htext, rfl⟩ := exists_echo_iff.mpr ⟨hbetween, hsame, hend⟩
    exact ⟨chars, htext, hj, congrArg (Thread.mk · _) hend⟩
  · rintro ⟨chars, htext, hS, rfl⟩
    obtain ⟨hbetween, hsame, hend⟩ := exists_echo_iff.mp ⟨chars, htext, rfl⟩
    exact ⟨⟨chars.length, hS, hbetween, hsame, congrArg (Thread.mk · _) hend.symm⟩, rfl⟩

theorem echo_unique {between chars other : List Char}
    (h : chars ++ (between ++ chars) = other ++ (between ++ other)) : chars = other := by
  have hlength := congrArg List.length h
  simp only [List.length_append] at hlength
  exact List.append_inj_left h (by omega)

/-- There is only one way through the utterance, and it is found if there is one. -/
theorem eq_some_iff_of_isAnswer {between : List Char} {answer : Option Regex.Match}
    (h : Regex.IsAnswer (Throughout u (Echoes u S between)) 0 u.size answer) (found : Regex.Match) :
    answer = some found ↔ ∃ chars : List Char, u.toList = chars ++ (between ++ chars) ∧
      S 0 chars.length ∧ found = ⟨0, u.size, [(1, ⟨0, chars.length⟩)]⟩ := by
  have hsome : ∀ other, answer = some other → ∃ chars : List Char, u.toList = chars ++ (between ++ chars) ∧
      S 0 chars.length ∧ other = ⟨0, u.size, [(1, ⟨0, chars.length⟩)]⟩ := by
    rintro ⟨start, thread⟩ rfl
    obtain ⟨rfl, chars, htext, hS, rfl⟩ := throughout_echoes_iff.mp h
    exact ⟨chars, htext, hS, rfl⟩
  refine ⟨hsome found, ?_⟩
  rintro ⟨chars, htext, hS, rfl⟩
  cases answer with
  | none =>
    -- a search that gives up at no position has looked at this way too
    have hthrough := throughout_echoes_iff.mpr ⟨rfl, chars, htext, hS, rfl⟩
    exact absurd hthrough (h 0 _ (Nat.le_refl 0) (Nat.zero_le _))
  | some other =>
    obtain ⟨others, htext', -, rfl⟩ := hsome other rfl
    rw [echo_unique (htext.symm.trans htext')]

end echo

namespace Term
variable [Regex.Engine]

def IsCombinatory : Term → Prop
  | group _ _ | negation _ | literal _ | concatenation _ => True
  | regex _ | reference _ | assignment _ _ | macroCall _ _ => False

variable {env : Environment}

theorem anyDeadLeaf_iff {items : List Term} :
    AnyDeadLeaf env items ↔ ∃ t ∈ items, t.HasDeadLeaf env := by
  induction items with
  | nil => simp [AnyDeadLeaf]
  | cons t others ih => simp [AnyDeadLeaf, ih]

theorem Everywhere.supported {t : Term} (h : t.Everywhere IsCombinatory) : t.Supported env := by
  induction t using induction_children with
  | node t ih =>
    have hchildren : ∀ child ∈ t.children, child.Supported env :=
      fun child hchild => ih child hchild (h.child hchild)
    have hroot := h.root
    cases t with
    | group form items | concatenation items => exact allSupported_iff.mpr hchildren
    | negation operand => exact hchildren operand List.mem_cons_self
    | literal text => trivial
    | regex | reference | assignment | macroCall => exact hroot.elim

theorem Everywhere.not_hasDeadLeaf {t : Term} (h : t.Everywhere IsCombinatory) :
    ¬ t.HasDeadLeaf env := by
  induction t using induction_children with
  | node t ih =>
    have hchildren : ∀ child ∈ t.children, ¬ child.HasDeadLeaf env :=
      fun child hchild => ih child hchild (h.child hchild)
    have hroot := h.root
    cases t with
    | group form items | concatenation items =>
      intro hdead
      obtain ⟨child, hchild, hleaf⟩ := anyDeadLeaf_iff.mp hdead
      exact hchildren child hchild hleaf
    | negation operand => exact hchildren operand List.mem_cons_self
    | literal text => exact id
    | regex | reference | assignment | macroCall => exact hroot.elim

end Term

def echoTerm (symbol : String) (operand : Term) (between : String) : Term :=
  .concatenation [.assignment symbol operand, .literal between, .reference symbol]

theorem surface_echoTerm (symbol : String) (operand : Term) (between : String) :
    (echoTerm symbol operand between).surface =
      "$" ++ symbol ++ "=" ++ operand.surface ++ " " ++ between ++ " " ++ "$" ++ symbol := by
  refine String.toList_inj.mp ?_
  rw [echoTerm, Term.surface_concatenation]
  simp [Term.surface_assignment, Term.surface_literal, Term.surface_reference]

theorem wellFormed_echoTerm {symbol between : String} {operand : Term} (hsymbol : IsRun isSymbolChar symbol)
    (hoperand : operand.IsOperand) (hends : operand.endsInLiteral = false)
    (hbetween : Term.IsLiteralText between) : (echoTerm symbol operand between).WellFormed := by
  refine ⟨Nat.le_add_left 2 1, ⟨⟨hsymbol, hoperand⟩, hbetween, hsymbol, trivial⟩, ?_⟩
  simp [Term.endsInLiteral, Term.isLiteral, hends]

section compilation
variable {env : Environment} {symbol between : String} {operand : Term}

theorem ruling_echoTerm [Regex.Engine] (hoperand : operand.Supported env) :
    ruling env [] .empty (echoTerm symbol operand between) =
      ⟨.text (" ".intercalate [Rule.capture (GroupTable.empty.newName symbol)
          (reduce env [0, 0] .empty operand).value.fragment, between,
            backreferenceTo (GroupTable.empty.newName symbol)]),
        ⟨[(GroupTable.empty.newName symbol, symbol)]⟩, []⟩ := by
  have hfirst : ruling env [0] .empty (.assignment symbol operand) =
      ⟨.text (Rule.capture (GroupTable.empty.newName symbol)
        (reduce env [0, 0] .empty operand).value.fragment),
        ⟨[(GroupTable.empty.newName symbol, symbol)]⟩, []⟩ := by
    rw [ruling_assignment, ← groups_ruling, hoperand.groups_reduce, ← value_reduce]
    rfl
  have hliteral : ∀ path groups, ruling env path groups (.literal between) = ⟨.text between, groups, []⟩ := by
    intro path groups
    rw [ruling, Term.children, reduceAll_nil, Rule.apply]
  have hlast : ∀ path, ruling env path ⟨[(GroupTable.empty.newName symbol, symbol)]⟩ (.reference symbol) =
      ⟨.text (backreferenceTo (GroupTable.empty.newName symbol)),
        ⟨[(GroupTable.empty.newName symbol, symbol)]⟩, []⟩ := by
    intro path
    rw [ruling, Term.children, reduceAll_nil, Rule.apply, Rule.reference]
    simp [GroupTable.group?]
  rw [ruling, echoTerm]
  simp only [Term.children, reduceAll_cons, reduceAll_nil, value_reduce, groups_ruling, List.nil_append,
    hfirst, hliteral, hlast]
  rfl

theorem exists_builds_echo [Regex.Engine] {u : Subject} {group fragment between : String} {S : SpanSet}
    (hgroup : IsGroupName group) (hfragment : Denotes u fragment.toList S)
    (hbetween : Term.IsLiteralText between) :
    ∃ nodes, Builds [] [(group, 1)]
        (" ".intercalate [Rule.capture group fragment, between, backreferenceTo group]).toList nodes ∧
      SearchesSeq u nodes (Echoes u S (" " ++ between ++ " ").toList) ∧
        Regex.Node.allPlain nodes = false := by
  have htext : (" ".intercalate [Rule.capture group fragment, between, backreferenceTo group]).toList =
      ((['(', '?', 'P', '<'] ++ (group.toList ++ ['>'])) ++ (fragment.toList ++ [')'])) ++
        ((" " ++ between ++ " ").toList ++ (['\\', 'k', '<'] ++ (group.toList ++ ['>']))) := by
    simp [Rule.capture, backreferenceTo]
  have hspells : Denotes u (" " ++ between ++ " ").toList (Spells u (" " ++ between ++ " ").toList) := by
    refine denotes_spells fun c hc => ?_
    simp only [String.toList_append, List.mem_append] at hc
    rcases hc with (hc | hc) | hc
    · exact not_mem_special_of_isSpace (List.mem_singleton.mp hc ▸ by decide)
    · exact (hbetween.chars c hc).elim not_mem_special_of_isAlphanum not_mem_special_of_isSpace
    · exact not_mem_special_of_isSpace (List.mem_singleton.mp hc ▸ by decide)
  obtain ⟨body, hbody, hbodies⟩ := hfragment.reads
  obtain ⟨middle, hmiddle, hmiddles⟩ := hspells.reads
  refine ⟨[.capture 1 (.ofPieces body)] ++ (middle ++ [.backreference 1]), ?_, ?_, ?_⟩
  · rw [htext]
    exact ((hbody.builds hfragment.calm).capture hgroup).append
      ((hmiddle.builds hspells.calm).append (Regex.Reader.builds_backreference hgroup (by simp) (by simp)))
  · exact (hbodies.searches.ofPieces.capture 1).single.append
      (hmiddles.searches.append (Regex.searches_backreference 1).single)
  · rw [Regex.allPlain_append, Regex.allPlain_append, Regex.allPlain_cons (.backreference 1), Regex.Node.isPlain,
      Bool.false_and, Bool.and_false, Bool.and_false]

theorem capturesOf_echo {c : CompiledPattern} {utterance group : String} {chars rest : List Char}
    {root : Regex.Node} {start stop : Nat} (hgroups : c.groups = ⟨[(group, symbol)]⟩)
    (htext : utterance.toList = chars ++ rest) :
    c.capturesOf ⟨root, [(group, 1)]⟩ utterance.toList.toArray
        ⟨start, ⟨stop, [(1, ⟨0, chars.length⟩)]⟩⟩ = Dict.ofList [(symbol, String.ofList chars)] := by
  rw [CompiledPattern.capturesOf, hgroups, htext]
  simp [Regex.Match.named?, Thread.captured?, Regex.Span.of]

end compilation

/-- A bracket that is assigned to a variable and, after a literal, referred to again. Whenever matching an
utterance gives an answer, it is yes exactly if the utterance is a text, the literal and the same text
again, where the text is a span of the bracket; and the variable gets this text. -/
theorem fullMatch_echo [Regex.Engine] (p : Pattern) (ngrams : Ngrams) (vars : Vars) (extra : Option Registry)
    (debug : Bool) (form : Bracket) (items : List Term) (symbol between : String)
    (hterm : (Term.group form items).WellFormed)
    (hbuilt : (Term.group form items).Everywhere Term.IsCombinatory)
    (hsymbol : IsRun isSymbolChar symbol) (hbetween : Term.IsLiteralText between)
    (hexpression : p.expression = "$" ++ symbol ++ "=" ++ (Term.group form items).surface ++ " " ++
      between ++ " " ++ "$" ++ symbol) :
    ∃ c, (p.compile ngrams vars extra debug).1 = .ok c ∧
      ∀ utterance result, c.fullMatch utterance = .ok result → ∀ captured,
        (result = some captured ↔ ∃ text, utterance = text ++ " " ++ between ++ " " ++ text ∧
          (Term.group form items).Spans ⟨vars, p.registry extra, ngrams⟩ utterance.toList.toArray
            0 text.length ∧ captured = Dict.ofList [(symbol, text)]) := by
  have hparse := parse_surface (wellFormed_echoTerm hsymbol hterm rfl hbetween)
  rw [surface_echoTerm, ← hexpression] at hparse
  obtain ⟨c, hcompile, hsource, hgroups⟩ := Pattern.exists_compile_eq hparse ngrams vars extra debug
  rw [ruling_echoTerm hbuilt.supported] at hsource hgroups
  refine ⟨c, hcompile, fun utterance result hresult captured => ?_⟩
  have hdenotes : Preserved ⟨vars, p.registry extra, ngrams⟩ utterance.toList.toArray
      (Term.group form items) :=
    preserved_of_isOperand _ hterm hbuilt.supported fun hdead => absurd hdead hbuilt.not_hasDeadLeaf
  obtain ⟨nodes, hbuilds, hsearches, hplain⟩ :=
    exists_builds_echo (isGroupName_newName .empty symbol) (hdenotes [0, 0]) hbetween
  have hnodes : Builds [] [(GroupTable.empty.newName symbol, 1)] c.source.toList nodes := by
    rw [hsource]
    exact hbuilds
  obtain ⟨answer, hanswer, rfl⟩ := c.isAnswer_of_fullMatch hnodes hsearches hplain hresult
  -- what is left is to tell the way through the utterance by the text and its echo
  rw [Option.map_eq_some_iff]
  simp only [eq_some_iff_of_isAnswer hanswer]
  constructor
  · rintro ⟨_, ⟨chars, htext, hspans, rfl⟩, rfl⟩
    refine ⟨String.ofList chars, ?_, ?_, capturesOf_echo hgroups htext⟩
    · refine String.toList_inj.mp ?_
      simpa using htext
    · simpa using hspans
  · rintro ⟨text, rfl, hspans, rfl⟩
    have htext : (text ++ " " ++ between ++ " " ++ text).toList =
        text.toList ++ ((" " ++ between ++ " ").toList ++ text.toList) := by simp
    rw [← String.length_toList] at hspans
    refine ⟨_, ⟨text.toList, htext, hspans, rfl⟩, ?_⟩
    rw [capturesOf_echo hgroups htext, String.ofList_toList]

/-- The term of `{red, blue}`. -/
def colourTerm : Term := .group .disjunction [.literal "red", .literal "blue"]

theorem wellFormed_colourTerm : colourTerm.WellFormed := by
  have hred : Term.IsLiteralText "red" := Term.isLiteralText_of_all (by decide) (by decide)
  have hblue : Term.IsLiteralText "blue" := Term.isLiteralText_of_all (by decide) (by decide)
  exact ⟨Nat.le_refl 2, hred, hblue, trivial⟩

theorem everywhere_isCombinatory_colourTerm : colourTerm.Everywhere Term.IsCombinatory := by
  have hword : ∀ text, (Term.literal text).Everywhere Term.IsCombinatory :=
    fun _ => Term.everywhere_of_children trivial nofun
  refine Term.everywhere_of_children trivial fun child hchild => ?_
  obtain rfl | rfl : child = .literal "red" ∨ child = .literal "blue" := by
    simpa [colourTerm, Term.children] using hchild
  · exact hword "red"
  · exact hword "blue"

open scoped Regex.Engine in
/-- The symbol is no identifier, so the name of its group is another one. -/
theorem fullMatch_echo_colourTerm :
    ∃ c, ((⟨(echoTerm "my.hue" colourTerm "and").surface, .empty⟩ : Pattern).compile .none .empty none
        false).1 = .ok c ∧
      c.source = "(?P<_natex0>(?:red|blue)) and \\k<_natex0>" ∧
      c.fullMatch "blue and red" = .ok none ∧
      c.fullMatch "blue and blue" = .ok (some (Dict.ofList [("my.hue", "blue")])) ∧
      ∃ text, "blue and blue" = text ++ " " ++ "and" ++ " " ++ text ∧
        colourTerm.Spans ⟨.empty, .empty, .none⟩ "blue and blue".toList.toArray 0 text.length ∧
        Dict.ofList [("my.hue", "blue")] = Dict.ofList [("my.hue", text)] := by
  have hand : Term.IsLiteralText "and" := Term.isLiteralText_of_all (by decide) (by decide)
  have hsymbol : IsRun isSymbolChar "my.hue" := isRun_of_all (by decide) (by decide)
  have hparse := parse_surface (wellFormed_echoTerm hsymbol wellFormed_colourTerm rfl hand)
  obtain ⟨c, hcompile, hecho⟩ := fullMatch_echo ⟨(echoTerm "my.hue" colourTerm "and").surface, .empty⟩
    .none .empty none false .disjunction _ "my.hue" "and" wellFormed_colourTerm
    everywhere_isCombinatory_colourTerm hsymbol hand (surface_echoTerm _ _ _)
  have hc : c = ⟨"(?P<_natex0>(?:red|blue)) and \\k<_natex0>", ⟨[("_natex0", "my.hue")]⟩, none⟩ := by
    unfold Pattern.compile at hcompile
    rw [hparse] at hcompile
    exact (Except.ok.inj hcompile).symm
  subst hc
  have hmatch : CompiledPattern.fullMatch ⟨"(?P<_natex0>(?:red|blue)) and \\k<_natex0>",
      ⟨[("_natex0", "my.hue")]⟩, none⟩ "blue and blue" =
        .ok (some (Dict.ofList [("my.hue", "blue")])) := by rfl
  exact ⟨_, hcompile, rfl, by rfl, hmatch, (hecho _ _ hmatch _).mp rfl⟩

end PhrasePattern
