import PhrasePattern.Proofs.Compilation.Regrouping

/-! Operands in groups of their own: the regular expressions that are given by hand, and those that are the
values of variables. -/
namespace PhrasePattern

open Regex (Anything Parts)
open Regex.Reader (IsFlat Leads)

namespace Term

mutual

/-- The term with all its regular expressions in groups of their own. -/
def isolated : Term → Term
  | group form items => group form (allIsolated items)
  | negation operand => negation (isolated operand)
  | regex body => regex (isolate body)
  | reference symbol => reference symbol
  | assignment symbol operand => assignment symbol (isolated operand)
  | macroCall name arguments => macroCall name (allIsolated arguments)
  | literal text => literal text
  | concatenation items => concatenation (allIsolated items)

def allIsolated : List Term → List Term
  | [] => []
  | t :: others => isolated t :: allIsolated others

end

theorem allIsolated_eq (items : List Term) : allIsolated items = items.map isolated := by
  induction items with
  | nil => rw [allIsolated, List.map_nil]
  | cons t others ih => rw [allIsolated, ih, List.map_cons]

theorem children_isolated (t : Term) : t.isolated.children = t.children.map isolated := by
  cases t <;> simp [isolated, children, allIsolated_eq]

theorem assigned?_isolated (t : Term) : t.isolated.assigned? = t.assigned? := by
  cases t <;> simp [isolated, assigned?]

theorem assignedSymbols_isolated (t : Term) : t.isolated.assignedSymbols = t.assignedSymbols := by
  induction t using induction_children with
  | node t ih =>
    rw [assignedSymbols_eq, assignedSymbols_eq, children_isolated, assigned?_isolated, List.flatMap_map]
    congr 1
    exact List.flatMap_congr ih

theorem IsOperand.isolated {t : Term} (h : t.IsOperand) : t.isolated.IsOperand := by
  induction t using induction_children with
  | node t ih =>
    have hchildren : AreOperands (t.children.map Term.isolated) :=
      areOperands_iff.mpr (List.forall_mem_map.mpr fun child hchild => ih child hchild (h.child hchild))
    cases t with
    | group form items =>
      rw [Term.isolated, allIsolated_eq]
      exact ⟨by simpa using h.1, hchildren⟩
    | negation operand =>
      rw [Term.isolated]
      exact hchildren.1
    | regex body =>
      rw [Term.isolated]
      refine ⟨by simp [isolate], fun c hc => ?_⟩
      rw [toList_isolate, List.mem_append, List.mem_append] at hc
      rcases hc with hc | hc | hc
      · exact List.all_eq_true.mp (by decide : ['(', '?', ':'].all (· != '/') = true) c hc
      · exact h.2 c hc
      · exact List.all_eq_true.mp (by decide : [')'].all (· != '/') = true) c hc
    | reference symbol => exact h
    | assignment symbol operand =>
      rw [Term.isolated]
      exact ⟨h.1, hchildren.1⟩
    | macroCall name arguments =>
      rw [Term.isolated, allIsolated_eq]
      exact ⟨h.1, hchildren⟩
    | literal text => exact h
    | concatenation items => exact h.elim

theorem isLiteral_isolated (t : Term) : t.isolated.isLiteral = t.isLiteral := by
  cases t <;> simp [isolated, isLiteral]

theorem endsInLiteral_isolated (t : Term) : t.isolated.endsInLiteral = t.endsInLiteral := by
  induction t using induction_children with
  | node t ih =>
    cases t with
    | negation operand => simpa [isolated, endsInLiteral] using ih operand List.mem_cons_self
    | assignment symbol operand => simpa [isolated, endsInLiteral] using ih operand List.mem_cons_self
    | _ => simp [isolated, endsInLiteral]

/-- With everything isolated a term can still be written. -/
theorem WellFormed.isolated {t : Term} (h : t.WellFormed) : t.isolated.WellFormed := by
  cases t with
  | concatenation items =>
    obtain ⟨hlength, hoperands, hchain⟩ := h
    rw [Term.isolated, allIsolated_eq]
    refine ⟨by simpa using hlength, ?_, ?_⟩
    · exact areOperands_iff.mpr (List.forall_mem_map.mpr fun t ht =>
        (areOperands_iff.mp hoperands t ht).isolated)
    · rw [List.isChain_map]
      simpa only [isLiteral_isolated, endsInLiteral_isolated] using hchain
  | _ => exact .of_isOperand (IsOperand.isolated h)

variable [Regex.Engine]

mutual

/-- What the term takes over as regular expressions stays by itself where it is put, and what a macro makes
with everything isolated has at most more groups. The symbols of `groups` are bound before the term; it is
`alone` if it is a whole alternative. -/
def Contained (env env' : Environment) (groups : GroupTable) (alone : Bool) : Term → Prop
  | group form items => AllContained env env' groups (form = .disjunction) items
  | negation operand => Contained env env' groups false operand
  | regex body => IsFlat alone body.toList
  | reference symbol => groups.group? symbol = none → ∀ value, env.vars.get? symbol = some value →
      IsFlat alone value.toList ∧
        isWellFormed groups (.text (isolate value)) = isWellFormed groups (.text value)
  | assignment symbol operand =>
      (groups.bindAll operand.assignedSymbols).group? symbol = none →
        Contained env env' groups true operand
  | macroCall name arguments =>
      Regrouped alone (ruling env [] groups (macroCall name arguments)).value.fragment
        (ruling env' [] groups (macroCall name (allIsolated arguments))).value.fragment
  | literal _ => True
  | concatenation items => AllContained env env' groups false items

def AllContained (env env' : Environment) (groups : GroupTable) (alone : Bool) : List Term → Prop
  | [] => True
  | t :: others =>
      Contained env env' groups alone t ∧
        AllContained env env' (groups.bindAll t.assignedSymbols) alone others

end

def Isolates (vars vars' : Vars) : Term → Prop
  | reference symbol => vars'.get? symbol = (vars.get? symbol).map isolate
  | group _ _ | negation _ | regex _ | assignment _ _ | macroCall _ _ | literal _ | concatenation _ => True

end Term

section terms
variable [Regex.Engine]
variable {env env' : Environment} {alone : Bool}

/-- What the term compiles to has at most more groups if everything is isolated. -/
def Unaffected (env env' : Environment) (t : Term) : Prop :=
  ∀ (alone : Bool) (groups : GroupTable), Nameable groups → t.Contained env env' groups alone →
    ∀ path, Regrouped alone (ruling env path groups t).value.fragment
      (ruling env' path groups t.isolated).value.fragment

theorem exists_pairs_reduceAll (items : List Term) (h : ∀ t ∈ items, Unaffected env env' t) (path : Path)
    (index : Nat) {groups : GroupTable} (hnames : Nameable groups)
    (hcontained : Term.AllContained env env' groups alone items) :
    ∃ parts : List (String × String), (∀ part ∈ parts, Regrouped alone part.1 part.2) ∧
      (reduceAll env path index groups items).value.map Value.fragment = parts.map Prod.fst ∧
      (reduceAll env' path index groups (items.map Term.isolated)).value.map Value.fragment =
        parts.map Prod.snd := by
  induction items generalizing index groups with
  | nil => exact ⟨[], fun _ hpart => (nomatch hpart), by simp [reduceAll_nil], by simp [reduceAll_nil]⟩
  | cons t others ih =>
    rw [Term.AllContained] at hcontained
    obtain ⟨parts, hparts, hvalues, hvalues'⟩ := ih (fun s hs => h s (List.mem_cons_of_mem t hs)) (index + 1)
      (hnames.bindAll t.assignedSymbols) hcontained.2
    have hfirst := h t List.mem_cons_self alone groups hnames hcontained.1 (path ++ [index])
    refine ⟨((ruling env (path ++ [index]) groups t).value.fragment,
      (ruling env' (path ++ [index]) groups t.isolated).value.fragment) :: parts,
      List.forall_mem_cons.mpr ⟨hfirst, hparts⟩, ?_, ?_⟩
    · rw [reduceAll_cons, List.map_cons, List.map_cons, value_reduce, groups_reduce_eq, hvalues]
    · rw [List.map_cons, reduceAll_cons, List.map_cons, List.map_cons, value_reduce, groups_reduce_eq,
        Term.assignedSymbols_isolated, hvalues']

theorem regrouped_reference {symbol : String} (hsymbol : IsRun isSymbolChar symbol)
    (hvars : (Term.reference symbol).Isolates env.vars env'.vars) {groups : GroupTable}
    (hnames : Nameable groups) (h : (Term.reference symbol).Contained env env' groups alone) :
    Regrouped alone (Rule.reference env groups symbol).value.fragment
      (Rule.reference env' groups symbol).value.fragment := by
  rw [Term.Isolates] at hvars
  rw [Term.Contained] at h
  have htame : ∀ {suffix : String}, suffix.toList.all isSymbolChar = true →
      Regrouped alone ("_" ++ symbol ++ suffix) ("_" ++ symbol ++ suffix) :=
    fun hsuffix => (tame_sentinel hsymbol hsuffix).regrouped
  unfold Rule.reference
  cases hgroup : groups.group? symbol with
  | some group => exact regrouped_backreference (hnames group (GroupTable.group?_mem_names hgroup))
  | none =>
    rw [hvars]
    cases hvalue : env.vars.get? symbol with
    | none => exact htame (by decide)
    | some value =>
      obtain ⟨hflat, hchecked⟩ := h hgroup value hvalue
      dsimp only [Option.map_some]
      rw [hchecked]
      split
      · exact .isolated hflat
      · exact htame (by decide)

theorem groups_ruling_isolated (env env' : Environment) (path : Path) (groups : GroupTable) (t : Term) :
    (ruling env' path groups t.isolated).groups = (ruling env path groups t).groups := by
  rw [← groups_ruling, ← groups_ruling, groups_reduce_eq, groups_reduce_eq, Term.assignedSymbols_isolated]

theorem Unaffected.assignment {symbol : String} {operand : Term} (h : Unaffected env env' operand) :
    Unaffected env env' (.assignment symbol operand) := by
  intro alone groups hnames hcontained path
  rw [Term.Contained] at hcontained
  rw [Term.isolated, ruling_assignment, ruling_assignment, groups_ruling_isolated env, ← groups_ruling,
    groups_reduce_eq, Rule.assignment, Rule.assignment]
  have hafter : Nameable (groups.bindAll operand.assignedSymbols) := hnames.bindAll _
  cases hgroup : (groups.bindAll operand.assignedSymbols).group? symbol with
  -- the symbol is bound already: the operand is dropped on both sides
  | some group => exact regrouped_backreference (hafter group (GroupTable.group?_mem_names hgroup))
  | none =>
    rw [GroupTable.bind_of_group?_none hgroup]
    exact .capture (isGroupName_newName _ symbol) (h true groups hnames (hcontained hgroup) (path ++ [0]))

theorem unaffected (t : Term) (hspelled : t.Everywhere Term.IsSpelled)
    (hvars : t.Everywhere (Term.Isolates env.vars env'.vars)) : Unaffected env env' t := by
  induction t using Term.induction_children with
  | node t ih =>
    have hchildren : ∀ child ∈ t.children, Unaffected env env' child := fun child hchild =>
      ih child hchild (hspelled.child hchild) (hvars.child hchild)
    cases t with
    | assignment symbol operand => exact (hchildren operand List.mem_cons_self).assignment
    | group form items =>
      intro alone groups hnames hcontained path
      rw [Term.Contained] at hcontained
      obtain ⟨parts, hparts, hvalues, hvalues'⟩ :=
        exists_pairs_reduceAll items hchildren path 0 hnames hcontained
      rw [Term.isolated, Term.allIsolated_eq]
      show Regrouped alone (Rule.bracket form ((reduceAll env path 0 groups items).value.map Value.fragment))
        (Rule.bracket form
          ((reduceAll env' path 0 groups (items.map Term.isolated)).value.map Value.fragment))
      rw [hvalues, hvalues']
      exact .bracket form parts hparts
    | concatenation items =>
      intro alone groups hnames hcontained path
      rw [Term.Contained] at hcontained
      obtain ⟨parts, hparts, hvalues, hvalues'⟩ :=
        exists_pairs_reduceAll items hchildren path 0 hnames hcontained
      rw [Term.isolated, Term.allIsolated_eq]
      show Regrouped alone (" ".intercalate ((reduceAll env path 0 groups items).value.map Value.fragment))
        (" ".intercalate ((reduceAll env' path 0 groups (items.map Term.isolated)).value.map Value.fragment))
      rw [hvalues, hvalues']
      exact .concatenation parts hparts
    | negation operand =>
      intro alone groups hnames hcontained path
      rw [Term.Contained] at hcontained
      rw [Term.isolated, ruling_negation, ruling_negation]
      exact .negation (hchildren operand List.mem_cons_self false groups hnames hcontained (path ++ [0]))
    | regex body =>
      intro alone groups _ hcontained path
      rw [Term.Contained] at hcontained
      rw [Term.isolated]
      exact .isolated hcontained
    | reference symbol =>
      intro alone groups hnames hcontained path
      rw [Term.isolated]
      exact regrouped_reference hspelled.root hvars.root hnames hcontained
    | macroCall name arguments =>
      intro alone groups _ hcontained path
      rw [Term.Contained] at hcontained
      -- the call is judged as if it were at the root, but its value is the same everywhere
      rw [Term.isolated, ← value_reduce, ← value_reduce, (reduce_path env _ path [] groups).1,
        (reduce_path env' _ path [] groups).1, value_reduce, value_reduce]
      exact hcontained
    | literal text =>
      intro alone groups _ _ path
      rw [Term.isolated]
      exact (tame_literal hspelled.root).regrouped

end terms

section patterns
variable [Regex.Engine]
variable {c c' : CompiledPattern}

theorem Alternate.anchored (h : Alternate c.source.toList c'.source.toList) :
    Leads Parts.Matched Anything c.anchored.toList c'.anchored.toList Parts.Matched := by
  have hgroup := h.leads.enclosed Regex.Reader.enters_plain
  rw [toList_anchored, toList_anchored]
  exact Regex.Reader.leads_caret.matched.append (hgroup.matched.append Regex.Reader.leads_dollar.matched
    (fun _ _ => trivial) fun _ _ => trivial) (fun _ _ => trivial) fun _ _ => trivial

theorem exists_run_of_read? {source : String} {regex : Regex} (h : Regex.read? source = some regex) :
    ∃ r, ({} : Regex.Reader).run 0 source.toList = some r ∧ regex.root = r.parts.node ∧
      regex.names = r.names := by
  unfold Regex.read? at h
  split at h
  · cases h
  · rename_i r hrun
    obtain ⟨root, hroot, rfl⟩ := Option.map_eq_some_iff.mp h
    rw [Regex.Reader.finish?] at hroot
    split at hroot
    · exact ⟨r, hrun, Regex.Reader.node?_eq_some hroot, rfl⟩
    · cases hroot

theorem alike_of_read? {source source' : String} {regex regex' : Regex}
    (h : Leads Parts.Matched Anything source.toList source'.toList Parts.Matched)
    (hread : Regex.read? source = some regex) (hread' : Regex.read? source' = some regex') :
    regex.root.Alike regex'.root ∧ regex'.names = regex.names := by
  obtain ⟨z, hrun, hroot, hnames⟩ := exists_run_of_read? hread
  obtain ⟨z', hrun', hroot', hnames'⟩ := exists_run_of_read? hread'
  have hstart : Regex.Reader.Abreast Parts.Matched {} {} := ⟨rfl, rfl, rfl, rfl, rfl, Parts.opened_empty.matched⟩
  rw [← List.append_nil source.toList] at hrun
  rw [← List.append_nil source'.toList] at hrun'
  obtain ⟨a, b, hab, -, -, ha, hb⟩ := h hstart trivial trivial hrun hrun'
  obtain rfl := Option.some.inj ha
  obtain rfl := Option.some.inj hb
  rw [hroot, hroot', hnames, hnames']
  exact ⟨hab.parts.closing.node, hab.names⟩

/-- Patterns that can be put in place of each other give the same answers, as far as they give any. -/
theorem Alternate.fullMatch_eq (h : Alternate c.source.toList c'.source.toList)
    (hgroups : c'.groups = c.groups) {utterance : String} {result result' : Option Vars}
    (hmatch : c.fullMatch utterance = .ok result) (hmatch' : c'.fullMatch utterance = .ok result') :
    result = result' := by
  rcases c.fullMatch_cases utterance with ⟨stage, herror⟩ | ⟨regex, answer, hbuild, hfind, hok⟩
  · rw [herror] at hmatch
    cases hmatch
  rcases c'.fullMatch_cases utterance with ⟨stage, herror⟩ | ⟨regex', answer', hbuild', hfind', hok'⟩
  · rw [herror] at hmatch'
    cases hmatch'
  obtain ⟨halike, hnames⟩ := alike_of_read? h.anchored (Regex.build?_eq_some_iff.mp hbuild).2
    (Regex.build?_eq_some_iff.mp hbuild').2
  have hcaptures : c'.capturesOf regex' = c.capturesOf regex := by
    funext text found
    simp only [CompiledPattern.capturesOf, Regex.Match.named?, hgroups, hnames]
  obtain rfl := Regex.find_of_alike halike hfind hfind'
  rw [hok] at hmatch
  rw [hok', hcaptures] at hmatch'
  exact Except.ok.inj (hmatch.symm.trans hmatch')

end patterns

/-- An expression can be written with groups around its regular expressions, those given by hand and the
values of variables, and these groups change no answer: if both patterns give one, the same utterances
match, with the same captured variables. None of these expressions may have groups, references and flags of
its own; bars it may have where it is a whole alternative, and anywhere else it must not begin with a
quantifier. Nothing is asked of what is not pasted: a value or an operand in whose place a back-reference
stands. Values that are pasted have to pass or fail their check alike with and without the group. What a
macro call comes to is the same on both sides, a text that closes just the groups that it opens, makes no
blanks be skipped and, other than as a whole alternative, does not begin with a quantifier; or the rules put
both sides together and they differ by groups only. -/
theorem fullMatch_isolated [Regex.Engine] (p : Pattern) (ngrams : Ngrams) (vars vars' : Vars)
    (extra : Option Registry) (debug : Bool) (t : Term) (hparse : parse p.expression = .ok t)
    (hvars : t.Everywhere (Term.Isolates vars vars'))
    (hcontained : t.Contained ⟨vars, p.registry extra, ngrams⟩ ⟨vars', p.registry extra, ngrams⟩ .empty
      true) :
    parse t.isolated.surface = .ok t.isolated ∧
      ∀ expression, parse expression = .ok t.isolated →
        ∃ c c', (p.compile ngrams vars extra debug).1 = .ok c ∧
          ((⟨expression, p.macros⟩ : Pattern).compile ngrams vars' extra debug).1 = .ok c' ∧
          ∀ utterance result result', c.fullMatch utterance = .ok result →
            c'.fullMatch utterance = .ok result' → result = result' := by
  refine ⟨parse_surface (wellFormed_of_parse hparse).isolated, fun expression hparse' => ?_⟩
  obtain ⟨c, hcompile, hsource, hgroups⟩ := p.exists_compile_eq hparse ngrams vars extra debug
  obtain ⟨c', hcompile', hsource', hgroups'⟩ :=
    Pattern.exists_compile_eq (p := ⟨expression, p.macros⟩) hparse' ngrams vars' extra debug
  have hregistry : (⟨expression, p.macros⟩ : Pattern).registry extra = p.registry extra := rfl
  rw [hregistry] at hsource' hgroups'
  have hregrouped := unaffected t (Term.everywhere_isSpelled_of_parse hparse) hvars true .empty nameable_empty
    hcontained []
  have halternate : Alternate c.source.toList c'.source.toList := by
    rw [hsource, hsource']
    exact hregrouped.fits
  have hsame : c'.groups = c.groups := by
    rw [hgroups, hgroups']
    exact groups_ruling_isolated _ _ [] .empty t
  exact ⟨c, c', hcompile, hcompile', fun _ _ _ hmatch hmatch' =>
    halternate.fullMatch_eq hsame hmatch hmatch'⟩

/-- The term of `$x=/a|b/ {$v, #M} $x`. -/
def choosingTerm : Term :=
  .concatenation [.assignment "x" (.regex "a|b"),
    .group .disjunction [.reference "v", .macroCall "M" []], .reference "x"]

def choosingMacro : Macro := fun _ _ _ => .returned (.alternatives (.ofList ["c", "d"]))

/-- The variable `x` is never looked up. -/
def choosingVars (v x : String) : Vars := .ofList [("v", v), ("x", x)]

theorem wellFormed_choosingTerm : choosingTerm.WellFormed := by
  have hx : IsRun isSymbolChar "x" := isRun_of_all (by decide) (by decide)
  have hv : IsRun isSymbolChar "v" := isRun_of_all (by decide) (by decide)
  have hm : IsRun isSymbolChar "M" := isRun_of_all (by decide) (by decide)
  have hchoice : IsRun (· != '/') "a|b" := isRun_of_all (by decide) (by decide)
  exact ⟨Nat.le_add_left 2 1, ⟨⟨hx, hchoice⟩, ⟨Nat.le_refl 2, hv, ⟨hm, trivial⟩, trivial⟩, hx, trivial⟩,
    by simp [Term.isLiteral]⟩

theorem isolates_choosingTerm : choosingTerm.Everywhere
    (Term.Isolates (choosingVars "d|e" "(") (choosingVars "(?:d|e)" "(?:()")) := by
  have hleaf : ∀ {P : Term → Prop} {t : Term}, t.children = [] → P t → t.Everywhere P :=
    fun hchildren h => Term.everywhere_of_children h (by simp [hchildren])
  refine Term.everywhere_of_children trivial ?_
  simp only [choosingTerm, Term.children, List.forall_mem_cons]
  refine ⟨Term.everywhere_of_children trivial ?_, Term.everywhere_of_children trivial ?_, hleaf rfl rfl, by simp⟩
  · simpa [Term.children] using hleaf rfl trivial
  · simp only [Term.children, List.forall_mem_cons]
    exact ⟨hleaf rfl rfl, hleaf rfl trivial, by simp⟩

section
open scoped Regex.Engine

theorem contained_choosingTerm : choosingTerm.Contained
    ⟨choosingVars "d|e" "(", .ofList [("M", choosingMacro)], .none⟩
    ⟨choosingVars "(?:d|e)" "(?:()", .ofList [("M", choosingMacro)], .none⟩ .empty true := by
  have hchoice : IsFlat true "a|b".toList :=
    ⟨[.literal 'a', .bar, .literal 'b'], rfl, by simp [Regex.Sign.IsFlat], fun h => nomatch h⟩
  have hvalue : IsFlat true "d|e".toList :=
    ⟨[.literal 'd', .bar, .literal 'e'], rfl, by simp [Regex.Sign.IsFlat], fun h => nomatch h⟩
  have hitems : ∀ part ∈ [("c", "c"), ("d", "d")], Regrouped true part.1 part.2 := by
    have htame : Tame "c".toList ∧ Tame "d".toList :=
      ⟨tame_of_isSymbolChar (by decide), tame_of_isSymbolChar (by decide)⟩
    simpa using And.intro htame.1.regrouped htame.2.regrouped
  simp only [choosingTerm, Term.Contained, Term.AllContained]
  refine ⟨fun _ => hchoice, ⟨fun _ value hget => ?_, ?_, trivial⟩, fun hunbound => ?_, trivial⟩
  · obtain rfl : "d|e" = value := Option.some.inj hget
    exact ⟨hvalue, by decide +kernel⟩
  · have hcall : ∀ vars ∈ [choosingVars "d|e" "(", choosingVars "(?:d|e)" "(?:()"],
        (ruling ⟨vars, .ofList [("M", choosingMacro)], .none⟩ [] (GroupTable.empty.bindAll ["x"])
          (.macroCall "M" [])).value.fragment = Rule.disjunction ["c", "d"] := by decide +kernel
    have hcalled := hcall _ List.mem_cons_self
    have hcalled' := hcall _ (List.mem_cons_of_mem _ List.mem_cons_self)
    have hregrouped : Regrouped true (Rule.disjunction ["c", "d"]) (Rule.disjunction ["c", "d"]) :=
      .bracket .disjunction [("c", "c"), ("d", "d")] hitems
    exact hcalled ▸ hcalled' ▸ hregrouped
  · cases hunbound

/-- Choices in an assignment and between bars, and a back-reference. -/
theorem fullMatch_isolated_choosingTerm :
    ∃ c c', ((⟨choosingTerm.surface, .ofList [("M", choosingMacro)]⟩ : Pattern).compile .none
        (choosingVars "d|e" "(") none false).1 = .ok c ∧
      ((⟨choosingTerm.isolated.surface, .ofList [("M", choosingMacro)]⟩ : Pattern).compile .none
        (choosingVars "(?:d|e)" "(?:()") none false).1 = .ok c' ∧
      c.source = "(?P<x>a|b) (?:d|e|(?:c|d)) \\k<x>" ∧
      c'.source = "(?P<x>(?:a|b)) (?:(?:d|e)|(?:c|d)) \\k<x>" ∧
      c.fullMatch "b e b" = .ok (some (.ofList [("x", "b")])) ∧
      ∀ result, c'.fullMatch "b e b" = .ok result → result = some (.ofList [("x", "b")]) := by
  have hparse := parse_surface wellFormed_choosingTerm
  obtain ⟨hparse', hall⟩ := fullMatch_isolated ⟨choosingTerm.surface, .ofList [("M", choosingMacro)]⟩ .none
    (choosingVars "d|e" "(") (choosingVars "(?:d|e)" "(?:()") none false choosingTerm hparse
    isolates_choosingTerm contained_choosingTerm
  obtain ⟨c, c', hcompile, hcompile', hsame⟩ := hall choosingTerm.isolated.surface hparse'
  have hc : c = ⟨"(?P<x>a|b) (?:d|e|(?:c|d)) \\k<x>", ⟨[("x", "x")]⟩, none⟩ := by
    unfold Pattern.compile at hcompile
    rw [hparse] at hcompile
    exact (Except.ok.inj hcompile).symm
  have hc' : c' = ⟨"(?P<x>(?:a|b)) (?:(?:d|e)|(?:c|d)) \\k<x>", ⟨[("x", "x")]⟩, none⟩ := by
    unfold Pattern.compile at hcompile'
    rw [hparse'] at hcompile'
    exact (Except.ok.inj hcompile').symm
  subst hc hc'
  have hmatch : CompiledPattern.fullMatch ⟨"(?P<x>a|b) (?:d|e|(?:c|d)) \\k<x>", ⟨[("x", "x")]⟩, none⟩ "b e b" =
      .ok (some (.ofList [("x", "b")])) := by rfl
  exact ⟨_, _, hcompile, hcompile', rfl, rfl, hmatch,
    fun result hresult => (hsame "b e b" _ result hmatch hresult).symm⟩

/-- A bar that is not between whole alternatives divides what stands around it as well. -/
example : CompiledPattern.fullMatch ⟨"x a|b", .empty, none⟩ "b" = .ok (some .empty) ∧
    CompiledPattern.fullMatch ⟨"x (?:a|b)", .empty, none⟩ "b" = .ok none := ⟨by rfl, by rfl⟩

end

end PhrasePattern
