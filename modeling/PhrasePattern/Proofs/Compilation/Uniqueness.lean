import Mathlib
import PhrasePattern.Proofs.Compilation.Definedness

/-! No group is defined twice. Counted over a whole text, the definitions of a group are those in the
fragments that the text is put together from, because nothing that a rule writes between fragments,
and no value of a variable without a parenthesis, makes up a definition. So the number of definitions
can be told from the table: it is at most the number of times that the name was added to it. -/
namespace PhrasePattern

open Text (namedMark Sealed Unmarked occurrences)

/-- How often the text opens a group of this name. -/
def definitions (group : String) (text : List Char) : Nat :=
  occurrences (namedMark definitionOpening group.toList) text

/-- With the tables before and after it, the text defines what is new in the table, each group at most
once, and nothing else. -/
structure Introduces (before : GroupTable) (text : List Char) (after : GroupTable) : Prop where
  isSealed : Sealed definitionOpening text
  bounded : ∀ group : String, '>' ∉ group.toList →
    definitions group text + before.names.count group ≤ after.names.count group

structure IntroduceAll (before : GroupTable) (texts : List (List Char)) (after : GroupTable) :
    Prop where
  isSealed : ∀ text ∈ texts, Sealed definitionOpening text
  bounded : ∀ group : String, '>' ∉ group.toList →
    (texts.map (definitions group)).sum + before.names.count group ≤ after.names.count group

section texts
variable {before between after : GroupTable} {text : List Char} {texts : List (List Char)}

theorem introduces_of_unmarked (h : Unmarked definitionOpening text) (groups : GroupTable) :
    Introduces groups text groups := by
  refine ⟨h.isSealed, fun group hgroup => ?_⟩
  rw [definitions, h.occurrences_eq hgroup, Nat.zero_add]

theorem introduceAll_nil (groups : GroupTable) : IntroduceAll groups [] groups :=
  ⟨by simp, by simp⟩

theorem Introduces.cons (h : Introduces before text between)
    (h' : IntroduceAll between texts after) : IntroduceAll before (text :: texts) after := by
  refine ⟨List.forall_mem_cons.mpr ⟨h.isSealed, h'.isSealed⟩, fun group hgroup => ?_⟩
  have hfirst := h.bounded group hgroup
  have hothers := h'.bounded group hgroup
  rw [List.map_cons, List.sum_cons]
  omega

theorem Assembled.definitions_eq (h : Assembled texts text)
    (hsealed : ∀ fragment ∈ texts, Sealed definitionOpening fragment) :
    Sealed definitionOpening text ∧ ∀ group : String, '>' ∉ group.toList →
      definitions group text = (texts.map (definitions group)).sum := by
  induction h with
  | nil => exact ⟨Text.sealed_nil, fun _ _ => rfl⟩
  | glue hfront _ ih =>
    obtain ⟨hrest, hsum⟩ := ih hsealed
    refine ⟨hfront.definitions.isSealed.append hrest, fun group hgroup => ?_⟩
    rw [definitions, hfront.definitions.isSealed.occurrences_append hgroup,
      hfront.definitions.occurrences_eq hgroup, Nat.zero_add]
    exact hsum group hgroup
  | operand _ ih =>
    obtain ⟨hfirst, hothers⟩ := List.forall_mem_cons.mp hsealed
    obtain ⟨hrest, hsum⟩ := ih hothers
    refine ⟨hfirst.append hrest, fun group hgroup => ?_⟩
    rw [definitions, hfirst.occurrences_append hgroup, List.map_cons, List.sum_cons,
      ← hsum group hgroup]
    rfl

theorem IntroduceAll.assembled (h : IntroduceAll before texts after) (htext : Assembled texts text) :
    Introduces before text after := by
  obtain ⟨hsealed, hsum⟩ := htext.definitions_eq h.isSealed
  refine ⟨hsealed, fun group hgroup => ?_⟩
  rw [hsum group hgroup]
  exact h.bounded group hgroup

theorem Introduces.capture {group : String} (h : Introduces before text between)
    (hchars : ∀ c ∈ group.toList, GroupTable.isNameChar c = true)
    (hafter : after.names = between.names ++ [group]) :
    Introduces before (namedMark definitionOpening group.toList ++ (text ++ [')'])) after := by
  have hopen : '(' ∉ group.toList := not_mem_name hchars (by decide)
  have hclose : '>' ∉ group.toList := not_mem_name hchars (by decide)
  have hmark : Sealed definitionOpening (namedMark definitionOpening group.toList) :=
    Text.sealed_mark (by decide) hopen (by decide)
  refine ⟨hmark.append (h.isSealed.append glue_close.definitions.isSealed), fun other hother => ?_⟩
  have hinner := h.bounded other hother
  have hown : occurrences (namedMark definitionOpening other.toList)
      (namedMark definitionOpening group.toList) ≤ if other.toList = group.toList then 1 else 0 :=
    Text.occurrences_mark_le (by decide) hopen (by decide) hclose
  have hcount : [group].count other = if other.toList = group.toList then 1 else 0 := by
    by_cases heq : other = group
    · simp [heq]
    · simp [String.toList_inj, heq, Ne.symm heq]
  rw [definitions, hmark.occurrences_append hother, h.isSealed.occurrences_append hother,
    glue_close.definitions.occurrences_eq hother, hafter, List.count_append, hcount]
  rw [definitions] at hinner
  omega

theorem unmarked_backreference {group : String}
    (hchars : ∀ c ∈ group.toList, GroupTable.isNameChar c = true) :
    Unmarked definitionOpening (backreferenceTo group).toList := by
  rw [toList_backreferenceTo]
  exact Text.unmarked_of_not_mem (not_mem_mark hchars (by decide) (by decide) (by decide))

theorem Introduces.replace {other : List Char} (h : Introduces before text after)
    (hother : Unmarked definitionOpening other) : Introduces before other after := by
  refine ⟨hother.isSealed, fun group hgroup => ?_⟩
  have hbound := h.bounded group hgroup
  rw [definitions, hother.occurrences_eq hgroup]
  omega

end texts

section terms
variable {env : Environment} {groups : GroupTable}

theorem introduces_reference [Regex.Engine] {symbol : String} (hsymbol : IsRun isSymbolChar symbol)
    (hvars : ∀ s value, env.vars.get? s = some value → '(' ∉ value.toList)
    (hnames : groups.HasNames) :
    Introduces groups (Rule.reference env groups symbol).value.fragment.toList
      (Rule.reference env groups symbol).groups := by
  unfold Rule.reference
  split
  · rename_i group hgroup
    exact introduces_of_unmarked
      (unmarked_backreference (hnames.chars group (GroupTable.group?_mem_names hgroup))) groups
  · split
    · rename_i value hvalue
      split
      · exact introduces_of_unmarked (Text.unmarked_of_not_mem (hvars symbol value hvalue)) groups
      · exact introduces_of_unmarked (glue_sentinel hsymbol (by decide)).1.definitions groups
    · exact introduces_of_unmarked (glue_sentinel hsymbol (by decide)).1.definitions groups

theorem introduces_assignment {inner : Ruled} {symbol : String}
    (h : Introduces groups inner.value.fragment.toList inner.groups)
    (hnames : inner.groups.HasNames) :
    Introduces groups
      (Rule.assignment inner.groups symbol inner.value.fragment).value.fragment.toList
      (Rule.assignment inner.groups symbol inner.value.fragment).groups := by
  unfold Rule.assignment
  split
  · rename_i group hgroup
    exact h.replace
      (unmarked_backreference (hnames.chars group (GroupTable.group?_mem_names hgroup)))
  · rename_i hgroup
    have hname : (inner.groups.bind symbol).1 = inner.groups.newName symbol := by
      rw [GroupTable.bind_of_group?_none hgroup]
    rw [Value.fragment, toList_capture, hname]
    exact h.capture (GroupTable.isNameChar_newName _ symbol)
      (GroupTable.names_bind_of_group?_none hgroup)

variable [Regex.Engine]

theorem introduceAll_reduceAll {items : List Term}
    (ih : ∀ t ∈ items, ∀ (path : Path) (groups : GroupTable), groups.HasNames →
      Introduces groups (ruling env path groups t).value.fragment.toList
        (ruling env path groups t).groups)
    (path : Path) (index : Nat) (hnames : groups.HasNames) :
    IntroduceAll groups
      (((reduceAll env path index groups items).value.map Value.fragment).map String.toList)
      (reduceAll env path index groups items).groups := by
  induction items generalizing index groups with
  | nil =>
    rw [reduceAll_nil]
    exact introduceAll_nil groups
  | cons t others ihs =>
    have hfirst := ih t List.mem_cons_self (path ++ [index]) groups hnames
    have hgroups := groups_reduce_eq env (path ++ [index]) groups t
    have hothers := ihs (fun s hs => ih s (List.mem_cons_of_mem _ hs)) (index + 1)
      (hnames.bindAll t.assignedSymbols)
    rw [← hgroups, groups_ruling] at hothers
    rw [reduceAll_cons]
    simp only [value_reduce, groups_ruling]
    exact hfirst.cons hothers

/-- Every term without regular expressions of its own and macro calls, wherever it is compiled. -/
theorem introduces_ruling (env : Environment)
    (hvars : ∀ s value, env.vars.get? s = some value → '(' ∉ value.toList) (t : Term)
    (hspelled : t.Everywhere Term.IsSpelled) (hplain : t.Everywhere Term.IsPlain) (path : Path)
    (groups : GroupTable) (hnames : groups.HasNames) :
    Introduces groups (ruling env path groups t).value.fragment.toList
      (ruling env path groups t).groups := by
  induction t using Term.induction_children generalizing path groups with
  | node t ih =>
    have hchildren : ∀ child ∈ t.children, ∀ (path : Path) (groups : GroupTable), groups.HasNames →
        Introduces groups (ruling env path groups child).value.fragment.toList
          (ruling env path groups child).groups :=
      fun child hchild => ih child hchild (hspelled.child hchild) (hplain.child hchild)
    have hitems := introduceAll_reduceAll hchildren path 0 hnames
    cases t with
    | group form items => exact hitems.assembled (assembled_bracket _ form)
    | negation operand =>
      have hoperand := hchildren operand List.mem_cons_self (path ++ [0]) groups hnames
      rw [ruling_negation]
      exact (hoperand.cons (introduceAll_nil _)).assembled (assembled_negation _)
    | regex body => exact hplain.root.elim
    | reference symbol => exact introduces_reference hspelled.root hvars hnames
    | assignment symbol operand =>
      have hoperand := hchildren operand List.mem_cons_self (path ++ [0]) groups hnames
      have hafter := groups_reduce_eq env (path ++ [0]) groups operand
      rw [groups_ruling] at hafter
      rw [ruling_assignment]
      exact introduces_assignment hoperand (hafter ▸ hnames.bindAll operand.assignedSymbols)
    | macroCall name arguments => exact hplain.root.elim
    | literal text =>
      exact introduces_of_unmarked (glue_of_isSpelled_literal hspelled.root).1.definitions groups
    | concatenation items =>
      exact hitems.assembled (assembled_intercalate _ (glue_of_not_mem (by decide) (by decide)))

end terms

/-- No definition is written twice, and none of a group that is not in the table. -/
theorem Introduces.definitions_le_one {text : List Char} {after : GroupTable}
    (h : Introduces .empty text after) (hnames : after.HasNames) (group : String) :
    definitions group text ≤ 1 ∧
      ('>' ∉ group.toList → 0 < definitions group text → group ∈ after.names) := by
  have hbounded : ∀ group : String, '>' ∉ group.toList →
      definitions group text ≤ after.names.count group := fun group hgroup =>
    Nat.le_of_add_right_le (h.bounded group hgroup)
  constructor
  · obtain ⟨short, hshort, hmark⟩ := Text.exists_prefix_mark definitionOpening group.toList
    calc
      definitions group text ≤ definitions (String.ofList short) text := by
        rw [definitions, definitions, String.toList_ofList]
        exact Text.occurrences_le_of_prefix hmark text
      _ ≤ after.names.count (String.ofList short) :=
        hbounded _ (by rwa [String.toList_ofList])
      _ ≤ 1 := List.nodup_iff_count_le_one.mp hnames.nodup _
  · intro hgroup hpos
    exact List.count_pos_iff.mp (Nat.lt_of_lt_of_le hpos (hbounded group hgroup))

/-- Without regular expressions of its own and macro calls, and with variables whose values have no
parenthesis that opens, an expression compiles to a text in which no group is defined twice, and none
that is not in the table. As `>` ends the name of a group, no name has it. -/
theorem defined_at_most_once [Regex.Engine] (p : Pattern) (ngrams : Ngrams) (vars : Vars)
    (extra : Option Registry)
    (debug : Bool) (t : Term) (hparse : parse p.expression = .ok t)
    (hplain : t.Everywhere Term.IsPlain)
    (hvars : ∀ symbol value, vars.get? symbol = some value → '(' ∉ value.toList) :
    ∃ c, (p.compile ngrams vars extra debug).1 = .ok c ∧ ∀ group : String,
      occurrences ("(?P<" ++ group ++ ">").toList c.source.toList ≤ 1 ∧
        ('>' ∉ group.toList → 0 < occurrences ("(?P<" ++ group ++ ">").toList c.source.toList →
          group ∈ c.groups.entries.map (·.1)) := by
  obtain ⟨c, hcompile, hsource, hgroups⟩ := Pattern.exists_compile_eq hparse ngrams vars extra debug
  have hspelled := Term.everywhere_isSpelled_of_parse hparse
  have hintroduces := introduces_ruling ⟨vars, p.registry extra, ngrams⟩ hvars t hspelled hplain []
    .empty GroupTable.hasNames_empty
  have hafter := groups_reduce_eq ⟨vars, p.registry extra, ngrams⟩ [] .empty t
  rw [groups_ruling, ← hgroups] at hafter
  rw [← hsource, ← hgroups] at hintroduces
  refine ⟨c, hcompile, fun group => ?_⟩
  have hmark : ("(?P<" ++ group ++ ">").toList = namedMark definitionOpening group.toList := by
    simp [namedMark, definitionOpening]
  rw [hmark]
  exact hintroduces.definitions_le_one (hafter ▸ GroupTable.hasNames_empty.bindAll _) group

/-- The term of `{$x=a, $x=b} $v`. -/
def branchingTerm : Term :=
  .concatenation [.group .disjunction [.assignment "x" (.literal "a"), .assignment "x" (.literal "b")],
    .reference "v"]

theorem wellFormed_branchingTerm : branchingTerm.WellFormed := by
  have hx : IsRun isSymbolChar "x" := isRun_of_all (by decide) (by decide)
  have hv : IsRun isSymbolChar "v" := isRun_of_all (by decide) (by decide)
  have ha : Term.IsLiteralText "a" := Term.isLiteralText_of_all (by decide) (by decide)
  have hb : Term.IsLiteralText "b" := Term.isLiteralText_of_all (by decide) (by decide)
  exact ⟨Nat.le_refl 2, ⟨⟨Nat.le_refl 2, ⟨hx, ha⟩, ⟨hx, hb⟩, trivial⟩, hv, trivial⟩,
    by simp [Term.isLiteral]⟩

theorem everywhere_isPlain_branchingTerm : branchingTerm.Everywhere Term.IsPlain := by
  have ha : (Term.literal "a").Everywhere Term.IsPlain := everywhere_isPlain_leaf rfl trivial
  have hb : (Term.literal "b").Everywhere Term.IsPlain := everywhere_isPlain_leaf rfl trivial
  have hv : (Term.reference "v").Everywhere Term.IsPlain := everywhere_isPlain_leaf rfl trivial
  have hgroup : (Term.group .disjunction
      [.assignment "x" (.literal "a"), .assignment "x" (.literal "b")]).Everywhere Term.IsPlain := by
    refine Term.everywhere_of_children trivial ?_
    simpa [Term.children] using
      ⟨everywhere_isPlain_assignment ha "x", everywhere_isPlain_assignment hb "x"⟩
  refine Term.everywhere_of_children trivial ?_
  simpa [branchingTerm, Term.children] using ⟨hgroup, hv⟩

open scoped Regex.Engine in
/-- The value of the variable is the rest of a definition, which lacks its parenthesis. -/
theorem defined_at_most_once_branchingTerm :
    ∃ c, ((⟨branchingTerm.surface, .empty⟩ : Pattern).compile .none
        (Dict.ofList [("v", "?P<x>c")]) none false).1 = .ok c ∧ ∀ group : String,
      occurrences ("(?P<" ++ group ++ ">").toList c.source.toList ≤ 1 ∧
        ('>' ∉ group.toList → 0 < occurrences ("(?P<" ++ group ++ ">").toList c.source.toList →
          group ∈ c.groups.entries.map (·.1)) := by
  refine defined_at_most_once ⟨branchingTerm.surface, .empty⟩ .none _ none false branchingTerm
    (parse_surface wellFormed_branchingTerm) everywhere_isPlain_branchingTerm ?_
  intro symbol value hvalue
  obtain ⟨-, rfl⟩ := Prod.mk.inj (List.mem_singleton.mp (Dict.mem_of_get?_ofList hvalue))
  decide

end PhrasePattern
