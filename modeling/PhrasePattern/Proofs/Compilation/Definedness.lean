import PhrasePattern.Proofs.Compilation.Links
import PhrasePattern.Proofs.Compilation.Ruling
import PhrasePattern.Proofs.Term.Nodes
import PhrasePattern.Proofs.Term.RoundTrip

/-! Where groups are defined in the text of a compilation. A back-reference is written because of what
was bound before, and a definition is left out of the text together with the operand of an assignment
that repeats a symbol. Both fit together exactly if no such operand binds a symbol: then every
back-reference comes after the definition of its group, and every group of the table has one. -/
namespace PhrasePattern

open Text (namedMark Balanced)

namespace Term

mutual

/-- With the symbols of `bound` assigned before the term: wherever an assignment repeats a symbol, its
operand assigns only symbols that were assigned before it. -/
def KeepsBindings (bound : List String) : Term → Prop
  | group _ items => AllKeepBindings bound items
  | negation operand => KeepsBindings bound operand
  | assignment symbol operand =>
      KeepsBindings bound operand ∧
        (symbol ∈ bound ++ operand.assignedSymbols → ∀ s ∈ operand.assignedSymbols, s ∈ bound)
  | macroCall _ arguments => AllKeepBindings bound arguments
  | concatenation items => AllKeepBindings bound items
  | regex _ | reference _ | literal _ => True

def AllKeepBindings (bound : List String) : List Term → Prop
  | [] => True
  | t :: others => KeepsBindings bound t ∧ AllKeepBindings (bound ++ t.assignedSymbols) others

end

/-- Neither a regular expression of its own nor a macro call. -/
def IsPlain : Term → Prop
  | regex _ | macroCall _ _ => False
  | group _ _ | negation _ | reference _ | assignment _ _ | literal _ | concatenation _ => True

end Term

section terms
variable {env : Environment}

/-- What a rule does to groups: its text is balanced, and linked as the term says. -/
structure Faithful (kept : Prop) (before : GroupTable) (ruled : Ruled) : Prop where
  balanced : Balanced ruled.value.fragment.toList
  links : Links kept before ruled.value.fragment.toList ruled.groups

structure AllFaithful (kept : Prop) (before : GroupTable) (reduced : Reduced (List Value)) :
    Prop where
  balanced : ∀ f ∈ reduced.value.map Value.fragment, Balanced f.toList
  links : Chain kept before ((reduced.value.map Value.fragment).map String.toList) reduced.groups

def Binds (groups : GroupTable) (bound : List String) : Prop :=
  ∀ s, s ∈ bound ↔ groups.group? s ≠ none

theorem Binds.append {groups : GroupTable} {bound : List String} (h : Binds groups bound)
    (symbols : List String) : Binds (groups.bindAll symbols) (bound ++ symbols) := by
  intro s
  rw [List.mem_append, h s, ne_eq, ne_eq, GroupTable.group?_bindAll_eq_none_iff]
  tauto

theorem glue_of_isSymbolChar {chars : List Char} (h : ∀ c ∈ chars, isSymbolChar c = true) :
    Glue chars ∧ Balanced chars := by
  have habsent : ∀ {c : Char}, isSymbolChar c = false → c ∉ chars := by
    intro c hc hmem
    rw [h c hmem] at hc
    cases hc
  exact ⟨glue_of_not_mem (habsent (by decide)) (habsent (by decide)),
    Text.balanced_of_not_mem (habsent (by decide)) (habsent (by decide))⟩

theorem glue_sentinel {symbol ending : String} (hsymbol : IsRun isSymbolChar symbol)
    (hending : ending.toList.all isSymbolChar = true) :
    Glue ("_" ++ symbol ++ ending).toList ∧ Balanced ("_" ++ symbol ++ ending).toList := by
  refine glue_of_isSymbolChar fun c hc => ?_
  simp only [String.toList_append, List.mem_append] at hc
  rcases hc with (hc | hc) | hc
  · exact List.all_eq_true.mp (by decide : "_".toList.all isSymbolChar = true) c hc
  · exact hsymbol.2 c hc
  · exact List.all_eq_true.mp hending c hc

theorem glue_of_isSpelled_literal {text : String} (h : (Term.literal text).IsSpelled) :
    Glue text.toList ∧ Balanced text.toList := by
  have habsent : ∀ {c : Char}, isWordChar c = false → Text.isSpace c = false → c ∉ text.toList := by
    intro c hword hspace hmem
    rcases h c hmem with hc | hc
    · rw [hc] at hword
      cases hword
    · rw [hc] at hspace
      cases hspace
  exact ⟨glue_of_not_mem (habsent (by decide) (by decide)) (habsent (by decide) (by decide)),
    Text.balanced_of_not_mem (habsent (by decide) (by decide)) (habsent (by decide) (by decide))⟩

theorem AllFaithful.bracket {kept : Prop} {before : GroupTable} {children : Reduced (List Value)}
    (h : AllFaithful kept before children) (form : Bracket) :
    Faithful kept before
      ⟨.text (Rule.bracket form (children.value.map Value.fragment)), children.groups, []⟩ :=
  ⟨balanced_bracket form h.balanced, (assembled_bracket _ form).links h.links⟩

theorem AllFaithful.concatenation {kept : Prop} {before : GroupTable}
    {children : Reduced (List Value)} (h : AllFaithful kept before children) :
    Faithful kept before
      ⟨.text (" ".intercalate (children.value.map Value.fragment)), children.groups, []⟩ :=
  ⟨balanced_intercalate (Text.balanced_of_not_mem (by decide) (by decide)) h.balanced,
    (assembled_intercalate _ (glue_of_not_mem (by decide) (by decide))).links h.links⟩

theorem faithful_of_glue {groups : GroupTable} {text : String} {log : Log}
    (h : Glue text.toList ∧ Balanced text.toList) : Faithful True groups ⟨.text text, groups, log⟩ :=
  ⟨h.2, h.1.links groups⟩

theorem faithful_backreference {groups : GroupTable} {symbol group : String} {log : Log}
    (hnames : groups.HasNames) (hgroup : groups.group? symbol = some group) :
    Faithful True groups ⟨.text (backreferenceTo group), groups, log⟩ := by
  have hmem := GroupTable.group?_mem_names hgroup
  have hchars := hnames.chars group hmem
  constructor
  · rw [Value.fragment, toList_backreferenceTo]
    exact Text.balanced_of_not_mem (not_mem_mark hchars (by decide) (by decide) (by decide))
      (not_mem_mark hchars (by decide) (by decide) (by decide))
  · rw [Value.fragment, toList_backreferenceTo]
    exact links_backreference hnames hmem

theorem faithful_reference [Regex.Engine] {symbol : String} (hsymbol : IsRun isSymbolChar symbol)
    (hvars : ∀ s, env.vars.get? s = none) {groups : GroupTable} (hnames : groups.HasNames) :
    Faithful True groups (Rule.reference env groups symbol) := by
  unfold Rule.reference
  cases hgroup : groups.group? symbol with
  | some group => exact faithful_backreference hnames hgroup
  | none =>
    rw [hvars symbol]
    exact faithful_of_glue (glue_sentinel hsymbol (by decide))

theorem Faithful.assignment {kept : Prop} {groups : GroupTable} {bound symbols : List String}
    {inner : Ruled} (h : Faithful kept groups inner) (hafter : inner.groups = groups.bindAll symbols)
    (hnames : groups.HasNames) (hbound : Binds groups bound) (symbol : String) :
    Faithful (kept ∧ (symbol ∈ bound ++ symbols → ∀ s ∈ symbols, s ∈ bound)) groups
      (Rule.assignment inner.groups symbol inner.value.fragment) := by
  have hnamesAfter := hnames.bindAll symbols
  have hboundAfter := hbound.append symbols
  obtain ⟨hbalanced, hlinks⟩ := h
  rw [hafter] at hlinks ⊢
  unfold Rule.assignment
  cases hgroup : (groups.bindAll symbols).group? symbol with
  | some group =>
    have hsymbol : symbol ∈ bound ++ symbols := by
      rw [hboundAfter symbol, hgroup]
      exact Option.some_ne_none group
    have hdrop := hlinks.drop hnamesAfter (GroupTable.group?_mem_names hgroup)
    simp only [hsymbol, true_imp_iff, hbound _]
    rw [← toList_backreferenceTo] at hdrop
    have hreference : Faithful True _ ⟨.text (backreferenceTo group), groups.bindAll symbols, []⟩ :=
      faithful_backreference hnamesAfter hgroup
    exact ⟨hreference.balanced, hdrop⟩
  | none =>
    have hsymbol : symbol ∉ bound ++ symbols := fun hmem => (hboundAfter symbol).mp hmem hgroup
    have hchars := GroupTable.isNameChar_newName (groups.bindAll symbols) symbol
    have hcapture := hlinks.capture hbalanced hchars
      (GroupTable.newName_not_mem_names _ symbol) (GroupTable.names_bind_of_group?_none hgroup)
    have hname : ((groups.bindAll symbols).bind symbol).1 = (groups.bindAll symbols).newName symbol := by
      rw [GroupTable.bind_of_group?_none hgroup]
    rw [← toList_capture] at hcapture
    rw [← hname] at hcapture hchars
    simp only [hsymbol, false_imp_iff, and_true]
    exact ⟨balanced_capture hchars hbalanced, hcapture⟩

theorem allFaithful_reduceAll [Regex.Engine] {items : List Term}
    (ih : ∀ t ∈ items, ∀ (path : Path) (groups : GroupTable) (bound : List String),
      groups.HasNames → Binds groups bound →
        Faithful (t.KeepsBindings bound) groups (ruling env path groups t))
    (path : Path) (index : Nat) {groups : GroupTable} {bound : List String}
    (hnames : groups.HasNames) (hbound : Binds groups bound) :
    AllFaithful (Term.AllKeepBindings bound items) groups (reduceAll env path index groups items) := by
  induction items generalizing index groups bound with
  | nil =>
    rw [reduceAll_nil, Term.AllKeepBindings]
    exact ⟨by simp, .nil groups⟩
  | cons t others ihs =>
    have hfirst := ih t List.mem_cons_self (path ++ [index]) groups bound hnames hbound
    have hgroups := groups_reduce_eq env (path ++ [index]) groups t
    have hrest := ihs (fun s hs => ih s (List.mem_cons_of_mem _ hs)) (index + 1)
      (hnames.bindAll t.assignedSymbols) (hbound.append t.assignedSymbols)
    rw [← hgroups, groups_ruling] at hrest
    rw [reduceAll_cons, Term.AllKeepBindings]
    simp only [value_reduce, groups_ruling]
    exact ⟨List.forall_mem_cons.mpr ⟨hfirst.balanced, hrest.balanced⟩, .cons hfirst.links hrest.links⟩

/-- Every term without regular expressions of its own and macro calls, wherever it is compiled. -/
theorem faithful_ruling [Regex.Engine] (hvars : ∀ s, env.vars.get? s = none) (t : Term)
    (hspelled : t.Everywhere Term.IsSpelled) (hplain : t.Everywhere Term.IsPlain) (path : Path)
    (groups : GroupTable) (bound : List String) (hnames : groups.HasNames)
    (hbound : Binds groups bound) :
    Faithful (t.KeepsBindings bound) groups (ruling env path groups t) := by
  induction t using Term.induction_children generalizing path groups bound with
  | node t ih =>
    have hchildren : ∀ child ∈ t.children, ∀ (path : Path) (groups : GroupTable)
        (bound : List String), groups.HasNames → Binds groups bound →
          Faithful (child.KeepsBindings bound) groups (ruling env path groups child) :=
      fun child hchild => ih child hchild (hspelled.child hchild) (hplain.child hchild)
    have hitems := allFaithful_reduceAll hchildren path 0 hnames hbound
    cases t with
    | group form items =>
      rw [Term.KeepsBindings]
      exact hitems.bracket form
    | negation operand =>
      have hoperand := hchildren operand List.mem_cons_self (path ++ [0]) groups bound hnames hbound
      have hchain := Chain.cons hoperand.links (.nil _)
      rw [and_true] at hchain
      rw [Term.KeepsBindings, ruling_negation]
      exact ⟨balanced_negation hoperand.balanced, (assembled_negation _).links hchain⟩
    | regex body => exact hplain.root.elim
    | reference symbol =>
      rw [Term.KeepsBindings]
      exact faithful_reference hspelled.root hvars hnames
    | assignment symbol operand =>
      have hoperand := hchildren operand List.mem_cons_self (path ++ [0]) groups bound hnames hbound
      have hafter := groups_reduce_eq env (path ++ [0]) groups operand
      rw [groups_ruling] at hafter
      rw [Term.KeepsBindings, ruling_assignment]
      exact hoperand.assignment hafter hnames hbound symbol
    | macroCall name arguments => exact hplain.root.elim
    | literal text =>
      rw [Term.KeepsBindings]
      exact faithful_of_glue (glue_of_isSpelled_literal hspelled.root)
    | concatenation items =>
      rw [Term.KeepsBindings]
      exact hitems.concatenation

theorem binds_empty : Binds .empty [] := by
  intro s
  simp [GroupTable.group?, GroupTable.empty]

theorem keepsBindings_iff_of_faithful {kept : Prop} {ruled : Ruled}
    (h : Faithful kept .empty ruled) :
    (RefersBack ruled.value.fragment.toList ∧
      ∀ entry ∈ ruled.groups.entries,
        ("(?P<" ++ entry.1 ++ ">").toList <:+: ruled.value.fragment.toList) ↔ kept := by
  have hfree : ∀ group : String, group ∉ GroupTable.empty.names := by simp [GroupTable.names, GroupTable.empty]
  have hopening : ∀ group : String,
      ("(?P<" ++ group ++ ">").toList = namedMark definitionOpening group.toList := by
    simp [namedMark, definitionOpening]
  constructor
  · rintro ⟨-, hdefined⟩
    by_contra hkept
    obtain ⟨group, hmem, -, -, habsent⟩ := h.links.lossy hkept
    obtain ⟨entry, hentry, rfl⟩ := List.mem_map.mp hmem
    exact habsent (hopening entry.1 ▸ hdefined entry hentry)
  · intro hkept
    have hcomplete := h.links.complete hkept
    constructor
    · intro before group after hgroup heq
      rw [toList_backreferenceTo] at heq
      exact (hcomplete.refers before group after hgroup heq).resolve_left (hfree group)
    · intro entry hentry
      have hdefines := (hcomplete.defined entry.1 (List.mem_map_of_mem hentry)).resolve_left (hfree _)
      rw [hopening]
      exact hdefines.occurs

end terms

/-- Without regular expressions of its own, macro calls and variables, an expression compiles, and
every back-reference comes after the definition of its group and every group of the table has a
definition, exactly if no assignment of a symbol that is bound already has an operand in which a
symbol is bound for the first time. -/
theorem refersBack_iff_keepsBindings [Regex.Engine] (p : Pattern) (ngrams : Ngrams) (extra : Option Registry)
    (debug : Bool) (t : Term) (hparse : parse p.expression = .ok t)
    (hplain : t.Everywhere Term.IsPlain) :
    ∃ c, (p.compile ngrams .empty extra debug).1 = .ok c ∧
      ((RefersBack c.source.toList ∧
          ∀ entry ∈ c.groups.entries, ("(?P<" ++ entry.1 ++ ">").toList <:+: c.source.toList) ↔
        t.KeepsBindings []) := by
  obtain ⟨c, hcompile, hsource, hgroups⟩ := Pattern.exists_compile_eq hparse ngrams .empty extra debug
  refine ⟨c, hcompile, ?_⟩
  rw [hsource, hgroups]
  exact keepsBindings_iff_of_faithful (faithful_ruling (fun s => rfl) t
    (Term.everywhere_isSpelled_of_parse hparse) hplain [] .empty [] GroupTable.hasNames_empty
    binds_empty)

/-- The term of `$x=a $x`. -/
def repeatedTerm : Term := .concatenation [.assignment "x" (.literal "a"), .reference "x"]

/-- The term of `$x=a $x=[$y=b] $y`. -/
def forgottenTerm : Term :=
  .concatenation [.assignment "x" (.literal "a"),
    .assignment "x" (.group .flexible [.assignment "y" (.literal "b")]), .reference "y"]

theorem wellFormed_repeatedTerm : repeatedTerm.WellFormed := by
  have hx : IsRun isSymbolChar "x" := isRun_of_all (by decide) (by decide)
  have ha : Term.IsLiteralText "a" := Term.isLiteralText_of_all (by decide) (by decide)
  exact ⟨Nat.le_refl 2, ⟨⟨hx, ha⟩, hx, trivial⟩, by simp [Term.isLiteral]⟩

theorem wellFormed_forgottenTerm : forgottenTerm.WellFormed := by
  have hx : IsRun isSymbolChar "x" := isRun_of_all (by decide) (by decide)
  have hy : IsRun isSymbolChar "y" := isRun_of_all (by decide) (by decide)
  have ha : Term.IsLiteralText "a" := Term.isLiteralText_of_all (by decide) (by decide)
  have hb : Term.IsLiteralText "b" := Term.isLiteralText_of_all (by decide) (by decide)
  exact ⟨by decide, ⟨⟨hx, ha⟩, ⟨hx, Nat.le_refl 1, ⟨hy, hb⟩, trivial⟩, hy, trivial⟩,
    by simp [Term.isLiteral]⟩

theorem everywhere_isPlain_leaf {t : Term} (hleaf : t.children = []) (h : t.IsPlain) :
    t.Everywhere Term.IsPlain :=
  Term.everywhere_of_children h (by simp [hleaf])

theorem everywhere_isPlain_assignment {t : Term} (h : t.Everywhere Term.IsPlain) (symbol : String) :
    (Term.assignment symbol t).Everywhere Term.IsPlain :=
  Term.everywhere_of_children trivial (by simpa [Term.children] using h)

theorem everywhere_isPlain_repeatedTerm : repeatedTerm.Everywhere Term.IsPlain := by
  have ha : (Term.literal "a").Everywhere Term.IsPlain := everywhere_isPlain_leaf rfl trivial
  have hx : (Term.reference "x").Everywhere Term.IsPlain := everywhere_isPlain_leaf rfl trivial
  refine Term.everywhere_of_children trivial ?_
  simpa [repeatedTerm, Term.children] using ⟨everywhere_isPlain_assignment ha "x", hx⟩

theorem everywhere_isPlain_forgottenTerm : forgottenTerm.Everywhere Term.IsPlain := by
  have ha : (Term.literal "a").Everywhere Term.IsPlain := everywhere_isPlain_leaf rfl trivial
  have hb : (Term.literal "b").Everywhere Term.IsPlain := everywhere_isPlain_leaf rfl trivial
  have hy : (Term.reference "y").Everywhere Term.IsPlain := everywhere_isPlain_leaf rfl trivial
  have hgroup : (Term.group .flexible [.assignment "y" (.literal "b")]).Everywhere Term.IsPlain :=
    Term.everywhere_of_children trivial
      (by simpa [Term.children] using everywhere_isPlain_assignment hb "y")
  refine Term.everywhere_of_children trivial ?_
  simpa [forgottenTerm, Term.children] using
    ⟨everywhere_isPlain_assignment ha "x", everywhere_isPlain_assignment hgroup "x", hy⟩

open scoped Regex.Engine in
/-- The first keeps its bindings; in the second, the definition of the group of `y` is lost. -/
theorem refersBack_iff_keepsBindings_instances :
    (∃ c, ((⟨repeatedTerm.surface, .empty⟩ : Pattern).compile .none .empty none false).1 = .ok c ∧
      RefersBack c.source.toList ∧
        ∀ entry ∈ c.groups.entries, ("(?P<" ++ entry.1 ++ ">").toList <:+: c.source.toList) ∧
    ∃ c, ((⟨forgottenTerm.surface, .empty⟩ : Pattern).compile .none .empty none false).1 = .ok c ∧
      ¬ (RefersBack c.source.toList ∧
        ∀ entry ∈ c.groups.entries, ("(?P<" ++ entry.1 ++ ">").toList <:+: c.source.toList) := by
  constructor
  · obtain ⟨c, hcompile, hiff⟩ := refersBack_iff_keepsBindings ⟨repeatedTerm.surface, .empty⟩ .none
      none false repeatedTerm (parse_surface wellFormed_repeatedTerm) everywhere_isPlain_repeatedTerm
    refine ⟨c, hcompile, hiff.mpr ?_⟩
    simp [repeatedTerm, Term.KeepsBindings, Term.AllKeepBindings, Term.assignedSymbols,
      Term.postOrder, Term.assigned, Term.assigned?]
  · obtain ⟨c, hcompile, hiff⟩ := refersBack_iff_keepsBindings ⟨forgottenTerm.surface, .empty⟩ .none
      none false forgottenTerm (parse_surface wellFormed_forgottenTerm) everywhere_isPlain_forgottenTerm
    refine ⟨c, hcompile, fun h => ?_⟩
    have hkept := hiff.mp h
    simp [forgottenTerm, Term.KeepsBindings, Term.AllKeepBindings, Term.assignedSymbols,
      Term.postOrder, Term.postOrders, Term.assigned, Term.assigned?] at hkept

end PhrasePattern
