import Mathlib.Data.List.Induction
import PhrasePattern.Compilation
import PhrasePattern.Proofs.Term.PostOrder

/-! Which groups a compilation binds. Nodes are compiled in post-order, and only assignments change
the table, so the table that a node is compiled with is the one that the assignments before it make
out of the empty table. The first assignment of a symbol binds it; from then on every reference and
every further assignment of the symbol is a backreference to the group it was bound to. -/
namespace PhrasePattern

theorem reduceAll_nil [Regex.Engine] (env : Environment) (path : Path) (index : Nat) (groups : GroupTable) :
    reduceAll env path index groups [] = ⟨[], groups, [], []⟩ := by
  rw [reduceAll]

theorem reduceAll_cons [Regex.Engine] (env : Environment) (path : Path) (index : Nat) (groups : GroupTable)
    (t : Term) (others : List Term) :
    reduceAll env path index groups (t :: others) =
      let first := reduce env (path ++ [index]) groups t
      let rest := reduceAll env path (index + 1) first.groups others
      ⟨first.value :: rest.value, rest.groups, first.reductions ++ rest.reductions,
        first.log ++ rest.log⟩ := by
  rw [reduceAll]

theorem reduce_eq_conclude [Regex.Engine] (env : Environment) (path : Path) (groups : GroupTable) (t : Term) :
    reduce env path groups t = conclude env path t (reduceAll env path 0 groups t.children) := by
  cases t <;> simp [reduce, Term.children, reduceAll_nil, reduceAll_cons, Reduced.single]

namespace GroupTable

def bindAll (table : GroupTable) (symbols : List String) : GroupTable :=
  symbols.foldl (fun table symbol => (table.bind symbol).2) table

@[simp]
theorem bindAll_nil (table : GroupTable) : table.bindAll [] = table := rfl

@[simp]
theorem bindAll_cons (table : GroupTable) (symbol : String) (symbols : List String) :
    table.bindAll (symbol :: symbols) = (table.bind symbol).2.bindAll symbols := rfl

@[simp]
theorem bindAll_append (table : GroupTable) (first second : List String) :
    table.bindAll (first ++ second) = (table.bindAll first).bindAll second := List.foldl_append

theorem bind_of_group? {table : GroupTable} {symbol group : String}
    (h : table.group? symbol = some group) : table.bind symbol = (group, table) := by
  rw [bind, h]

theorem bind_of_group?_none {table : GroupTable} {symbol : String}
    (h : table.group? symbol = none) :
    table.bind symbol = (table.newName symbol,
      ⟨table.entries ++ [(table.newName symbol, symbol)]⟩) := by
  rw [bind, h]

theorem group?_eq_none_iff {table : GroupTable} {symbol : String} :
    table.group? symbol = none ↔ symbol ∉ table.entries.map (·.2) := by
  simp only [group?, Option.map_eq_none_iff, List.find?_eq_none, beq_iff_eq, List.mem_map,
    not_exists, not_and]

theorem group?_bind (table : GroupTable) (symbol : String) :
    (table.bind symbol).2.group? symbol = some (table.bind symbol).1 := by
  cases h : table.group? symbol with
  | some group => rw [bind_of_group? h, h]
  | none =>
    have hfind : table.entries.find? (·.2 == symbol) = none := by
      simpa only [group?, Option.map_eq_none_iff] using h
    rw [bind_of_group?_none h]
    simp [group?, List.find?_append, hfind]

theorem group?_bind_of_some {table : GroupTable} {symbol group : String}
    (h : table.group? symbol = some group) (other : String) :
    (table.bind other).2.group? symbol = some group := by
  cases hother : table.group? other with
  | some bound => rw [bind_of_group? hother, h]
  | none =>
    rw [bind_of_group?_none hother]
    obtain ⟨entry, hentry, rfl⟩ := Option.map_eq_some_iff.mp h
    simp [group?, List.find?_append, hentry]

theorem group?_bindAll_of_some {table : GroupTable} {symbol group : String}
    (h : table.group? symbol = some group) (symbols : List String) :
    (table.bindAll symbols).group? symbol = some group := by
  induction symbols generalizing table with
  | nil => exact h
  | cons other symbols ih => exact ih (group?_bind_of_some h other)

theorem eraseDups_concat (symbols : List String) (symbol : String) :
    (symbols ++ [symbol]).eraseDups =
      if symbol ∈ symbols then symbols.eraseDups else symbols.eraseDups ++ [symbol] := by
  rw [List.eraseDups_append]
  by_cases hmem : symbol ∈ symbols
  · simp [List.removeAll, hmem]
  · simp [List.removeAll, hmem, List.eraseDups_cons]

theorem symbols_bindAll_empty (symbols : List String) :
    (empty.bindAll symbols).entries.map (·.2) = symbols.eraseDups := by
  induction symbols using List.reverseRecOn with
  | nil => rfl
  | append_singleton symbols symbol ih =>
    rw [bindAll_append, bindAll_cons, bindAll_nil, eraseDups_concat]
    by_cases hmem : symbol ∈ symbols
    · have hbound : (empty.bindAll symbols).group? symbol ≠ none := by
        rw [Ne, group?_eq_none_iff, ih, List.mem_eraseDups, not_not]
        exact hmem
      obtain ⟨group, hgroup⟩ := Option.ne_none_iff_exists'.mp hbound
      rw [bind_of_group? hgroup, ih, if_pos hmem]
    · have hfree : (empty.bindAll symbols).group? symbol = none := by
        rw [group?_eq_none_iff, ih, List.mem_eraseDups]
        exact hmem
      rw [bind_of_group?_none hfree, List.map_append, ih, if_neg hmem, List.map_singleton]

theorem group?_bindAll_empty_eq_none_iff {symbols : List String} {symbol : String} :
    (empty.bindAll symbols).group? symbol = none ↔ symbol ∉ symbols := by
  rw [group?_eq_none_iff, symbols_bindAll_empty, List.mem_eraseDups]

theorem exists_group?_bindAll_empty {symbols : List String} {symbol : String}
    (h : symbol ∈ symbols) : ∃ group, (empty.bindAll symbols).group? symbol = some group :=
  Option.ne_none_iff_exists'.mp (mt group?_bindAll_empty_eq_none_iff.mp (not_not.mpr h))

theorem bindAll_eraseDups (symbols : List String) :
    empty.bindAll symbols.eraseDups = empty.bindAll symbols := by
  induction symbols using List.reverseRecOn with
  | nil => rfl
  | append_singleton symbols symbol ih =>
    rw [eraseDups_concat, bindAll_append]
    by_cases hmem : symbol ∈ symbols
    · obtain ⟨group, hgroup⟩ := exists_group?_bindAll_empty hmem
      rw [if_pos hmem, ih, bindAll_cons, bind_of_group? hgroup, bindAll_nil]
    · rw [if_neg hmem, bindAll_append, ih]

end GroupTable

namespace Term

def assigned? : Term → Option String
  | assignment symbol _ => some symbol
  | _ => none

def assigned (nodes : List (Path × Term)) : List String := nodes.filterMap (·.2.assigned?)

@[simp]
theorem assigned_nil : assigned [] = [] := rfl

@[simp]
theorem assigned_append (first second : List (Path × Term)) :
    assigned (first ++ second) = assigned first ++ assigned second := List.filterMap_append

@[simp]
theorem assigned_cons (node : Path × Term) (nodes : List (Path × Term)) :
    assigned (node :: nodes) = node.2.assigned?.toList ++ assigned nodes := by
  unfold assigned
  cases h : node.2.assigned? <;> simp [h]

/-- The nodes that a compilation records. -/
def nonLiterals (nodes : List (Path × Term)) : List (Path × Term) :=
  nodes.filter fun node => !node.2.isLiteral

@[simp]
theorem nonLiterals_nil : nonLiterals [] = [] := rfl

@[simp]
theorem nonLiterals_append (first second : List (Path × Term)) :
    nonLiterals (first ++ second) = nonLiterals first ++ nonLiterals second := List.filter_append ..

@[simp]
theorem nonLiterals_singleton (node : Path × Term) :
    nonLiterals [node] = if node.2.isLiteral then [] else [node] := by
  unfold nonLiterals
  cases h : node.2.isLiteral <;> simp [h]

theorem mem_nonLiterals_iff {nodes : List (Path × Term)} {path : Path} {node : Term} :
    (path, node) ∈ nonLiterals nodes ↔ (path, node) ∈ nodes ∧ node.isLiteral = false := by
  simp [nonLiterals]

theorem nonLiterals_sublist {nodes : List (Path × Term)} : (nonLiterals nodes).Sublist nodes :=
  List.filter_sublist

end Term

section
variable [Regex.Engine] (env : Environment)

theorem groups_apply (groups : GroupTable) (t : Term) (operands : List Value) :
    (Rule.apply env groups t operands).groups = groups.bindAll t.assigned?.toList := by
  cases t with
  | reference symbol =>
    simp only [Rule.apply, Rule.reference, Term.assigned?]
    split
    · rfl
    · split
      · split <;> rfl
      · rfl
  | assignment symbol operand =>
    simp only [Rule.apply, Rule.assignment, Term.assigned?, Option.toList_some,
      GroupTable.bindAll_cons, GroupTable.bindAll_nil]
    split
    · rename_i group hgroup
      rw [GroupTable.bind_of_group? hgroup]
    · rfl
  | macroCall name arguments =>
    simp only [Rule.apply, Rule.macroCall, Term.assigned?]
    split <;> rfl
  | _ => rfl

theorem groups_conclude (path : Path) (t : Term) (children : Reduced (List Value)) :
    (conclude env path t children).groups = children.groups.bindAll t.assigned?.toList := by
  unfold conclude
  split
  · exact groups_apply env _ t _
  · exact groups_apply env _ t _

theorem groups_reduceAll_of_forall {items : List Term}
    (ih : ∀ t ∈ items, ∀ (path : Path) (groups : GroupTable),
      (reduce env path groups t).groups = groups.bindAll (Term.assigned (t.postOrder path)))
    (path : Path) (index : Nat) (groups : GroupTable) :
    (reduceAll env path index groups items).groups =
      groups.bindAll (Term.assigned (Term.postOrders path index items)) := by
  induction items generalizing index groups with
  | nil => simp [reduceAll_nil]
  | cons t others ihs =>
    rw [reduceAll_cons, Term.postOrders_cons, Term.assigned_append, GroupTable.bindAll_append,
      ← ih t List.mem_cons_self, ← ihs fun s hs => ih s (List.mem_cons_of_mem _ hs)]

/-- The groups after a term are those that its assignments bind, in post-order. -/
theorem groups_reduce (path : Path) (groups : GroupTable) (t : Term) :
    (reduce env path groups t).groups = groups.bindAll (Term.assigned (t.postOrder path)) := by
  induction t using Term.induction_children generalizing path groups with
  | node t ih =>
    rw [reduce_eq_conclude, groups_conclude, groups_reduceAll_of_forall env ih, Term.postOrder_eq]
    simp

theorem groups_reduceAll (path : Path) (index : Nat) (groups : GroupTable) (items : List Term) :
    (reduceAll env path index groups items).groups =
      groups.bindAll (Term.assigned (Term.postOrders path index items)) :=
  groups_reduceAll_of_forall env (fun t _ path groups => groups_reduce env path groups t)
    path index groups

theorem reductions_conclude (path : Path) (t : Term) (children : Reduced (List Value)) :
    (conclude env path t children).reductions = children.reductions ++
      if t.isLiteral then [] else [⟨path, t.kind, (conclude env path t children).value.fragment⟩] := by
  unfold conclude
  split <;> simp

theorem value_conclude (path : Path) (t : Term) (children : Reduced (List Value)) :
    (conclude env path t children).value =
      (Rule.apply env children.groups t children.value).value := by
  unfold conclude
  split <;> rfl

theorem mem_reductions_reduce (path : Path) (groups : GroupTable) {t : Term}
    (h : t.isLiteral = false) :
    (⟨path, t.kind, (reduce env path groups t).value.fragment⟩ : Reduction) ∈
      (reduce env path groups t).reductions := by
  rw [reduce_eq_conclude, reductions_conclude, h]
  simp

theorem nodes_reduceAll {items : List Term}
    (ih : ∀ t ∈ items, ∀ (path : Path) (groups : GroupTable),
      (reduce env path groups t).reductions.map (fun r => (r.path, r.rule)) =
        (Term.nonLiterals (t.postOrder path)).map fun node => (node.1, node.2.kind))
    (path : Path) (index : Nat) (groups : GroupTable) :
    (reduceAll env path index groups items).reductions.map (fun r => (r.path, r.rule)) =
      (Term.nonLiterals (Term.postOrders path index items)).map fun node =>
        (node.1, node.2.kind) := by
  induction items generalizing index groups with
  | nil => simp [reduceAll_nil]
  | cons t others ihs =>
    rw [reduceAll_cons, Term.postOrders_cons, Term.nonLiterals_append, List.map_append,
      List.map_append, ih t List.mem_cons_self, ihs fun s hs => ih s (List.mem_cons_of_mem _ hs)]

theorem nodes_reduce (path : Path) (groups : GroupTable) (t : Term) :
    (reduce env path groups t).reductions.map (fun r => (r.path, r.rule)) =
      (Term.nonLiterals (t.postOrder path)).map fun node => (node.1, node.2.kind) := by
  induction t using Term.induction_children generalizing path groups with
  | node t ih =>
    rw [reduce_eq_conclude, reductions_conclude, Term.postOrder_eq, Term.nonLiterals_append,
      List.map_append, List.map_append, nodes_reduceAll env ih]
    cases h : t.isLiteral <;> simp [h]

theorem paths_reduce (path : Path) (groups : GroupTable) (t : Term) :
    (reduce env path groups t).reductions.map (·.path) =
      (Term.nonLiterals (t.postOrder path)).map (·.1) := by
  have hpaths := congrArg (List.map Prod.fst) (nodes_reduce env path groups t)
  rwa [List.map_map, List.map_map] at hpaths

theorem exists_visit_of_forall {items : List Term}
    (ih : ∀ t ∈ items, ∀ {path p : Path} {groups : GroupTable} {node : Term}
      {before after : List (Path × Term)}, t.postOrder path = before ++ (p, node) :: after →
        ∃ first, (reduceAll env p 0 first node.children).groups =
            groups.bindAll (Term.assigned before) ∧
          (reduce env p first node).reductions ⊆ (reduce env path groups t).reductions)
    {path p : Path} {index : Nat} {groups : GroupTable} {node : Term}
    {before after : List (Path × Term)}
    (h : Term.postOrders path index items = before ++ (p, node) :: after) :
    ∃ first, (reduceAll env p 0 first node.children).groups =
        groups.bindAll (Term.assigned before) ∧
      (reduce env p first node).reductions ⊆ (reduceAll env path index groups items).reductions := by
  induction items generalizing index groups before with
  | nil => simp at h
  | cons t others ihs =>
    rw [Term.postOrders_cons] at h
    rw [reduceAll_cons]
    rcases List.append_eq_append_iff.mp h with ⟨between, rfl, hothers⟩ | ⟨between, ht, hafter⟩
    · obtain ⟨first, hgroups, hsub⟩ :=
        ihs (fun s hs => ih s (List.mem_cons_of_mem _ hs)) hothers
      refine ⟨first, ?_, List.Subset.trans hsub (List.subset_append_right _ _)⟩
      rw [hgroups, groups_reduce, Term.assigned_append, GroupTable.bindAll_append]
    · cases between with
      | nil =>
        have hothers : Term.postOrders path (index + 1) others = [] ++ (p, node) :: after :=
          hafter.symm
        obtain ⟨first, hgroups, hsub⟩ :=
          ihs (fun s hs => ih s (List.mem_cons_of_mem _ hs)) hothers
        refine ⟨first, ?_, List.Subset.trans hsub (List.subset_append_right _ _)⟩
        rw [List.append_nil] at ht
        rw [hgroups, groups_reduce, ht, Term.assigned_nil, GroupTable.bindAll_nil]
      | cons head between =>
        obtain ⟨rfl, -⟩ := List.cons.inj hafter
        obtain ⟨first, hgroups, hsub⟩ := ih t List.mem_cons_self ht
        exact ⟨first, hgroups, List.Subset.trans hsub (List.subset_append_left _ _)⟩

/-- Every node is compiled, after its children, with the groups that the nodes before it bind. -/
theorem exists_visit {t : Term} {path p : Path} {groups : GroupTable} {node : Term}
    {before after : List (Path × Term)} (h : t.postOrder path = before ++ (p, node) :: after) :
    ∃ first, (reduceAll env p 0 first node.children).groups =
        groups.bindAll (Term.assigned before) ∧
      (reduce env p first node).reductions ⊆ (reduce env path groups t).reductions := by
  induction t using Term.induction_children generalizing path p groups node before after with
  | node t ih =>
    rw [Term.postOrder_eq] at h
    rcases List.eq_nil_or_concat after with rfl | ⟨others, last, rfl⟩
    · obtain ⟨rfl, hlast⟩ := List.append_inj' h rfl
      obtain ⟨rfl, rfl⟩ := Prod.mk.inj (List.cons.inj hlast).1
      exact ⟨groups, groups_reduceAll env _ _ _ _, List.Subset.refl _⟩
    · rw [List.concat_eq_append, ← List.cons_append, ← List.append_assoc] at h
      obtain ⟨hchildren, -⟩ := List.append_inj' h rfl
      obtain ⟨first, hgroups, hsub⟩ := exists_visit_of_forall env ih hchildren
      refine ⟨first, hgroups, ?_⟩
      rw [reduce_eq_conclude env path, reductions_conclude]
      exact List.Subset.trans hsub (List.subset_append_left _ _)

end

namespace Log

def isRebinding (record : LogRecord) : Bool :=
  record.level == .warn && record.text == "symbol already bound, reassignment is a backreference"

def rebindings (log : Log) : Nat := log.countP isRebinding

@[simp]
theorem rebindings_nil : rebindings [] = 0 := rfl

@[simp]
theorem rebindings_append (first second : Log) :
    rebindings (first ++ second) = rebindings first + rebindings second := List.countP_append

theorem rebindings_event_of_ne {level : Level} {text : String} {fields : List (String × String)}
    (h : text ≠ "symbol already bound, reassignment is a backreference") :
    rebindings (event level text fields) = 0 := by
  simp [rebindings, event, isRebinding, h]

end Log

section
variable (env : Environment)

theorem rebindings_invoke (name : String) (arguments : List Value) :
    (env.macros.invoke name env.ngrams env.vars arguments).2.rebindings = 0 := by
  unfold Registry.invoke
  split
  · exact Log.rebindings_event_of_ne (by decide)
  · split
    · rfl
    · exact Log.rebindings_event_of_ne (by decide)
    · exact Log.rebindings_event_of_ne (by decide)

variable [Regex.Engine]

theorem rebindings_apply (groups : GroupTable) (t : Term) (operands : List Value) :
    (Rule.apply env groups t operands).log.rebindings +
        (Rule.apply env groups t operands).groups.entries.length =
      groups.entries.length + t.assigned?.toList.length := by
  cases t with
  | reference symbol =>
    simp only [Rule.apply, Rule.reference, Term.assigned?]
    split
    · simp
    · split
      · split
        · simp
        · simp [Log.rebindings_event_of_ne]
      · simp [Log.rebindings_event_of_ne]
  | assignment symbol operand =>
    simp only [Rule.apply, Rule.assignment, Term.assigned?]
    split
    · simp [Log.rebindings, Log.event, Log.isRebinding, Nat.add_comm]
    · rename_i hgroup
      simp [GroupTable.bind_of_group?_none hgroup]
  | macroCall name arguments =>
    simp only [Rule.apply, Rule.macroCall, Term.assigned?]
    split
    · simp [rebindings_invoke]
    · simp [rebindings_invoke, Log.rebindings_event_of_ne]
  | _ => simp [Rule.apply, Term.assigned?]

theorem rebindings_conclude (path : Path) (t : Term) (children : Reduced (List Value)) :
    (conclude env path t children).log.rebindings +
        (conclude env path t children).groups.entries.length =
      children.log.rebindings + children.groups.entries.length + t.assigned?.toList.length := by
  have hrule := rebindings_apply env children.groups t children.value
  unfold conclude
  split
  · simp only [Log.rebindings_append]
    omega
  · simp only [Log.rebindings_append, Log.rebindings_event_of_ne (by decide : "reduced" ≠ _)]
    omega

theorem rebindings_reduceAll {items : List Term}
    (ih : ∀ t ∈ items, ∀ (path : Path) (groups : GroupTable),
      (reduce env path groups t).log.rebindings + (reduce env path groups t).groups.entries.length =
        groups.entries.length + (Term.assigned (t.postOrder path)).length)
    (path : Path) (index : Nat) (groups : GroupTable) :
    (reduceAll env path index groups items).log.rebindings +
        (reduceAll env path index groups items).groups.entries.length =
      groups.entries.length + (Term.assigned (Term.postOrders path index items)).length := by
  induction items generalizing index groups with
  | nil => simp [reduceAll_nil]
  | cons t others ihs =>
    have hfirst := ih t List.mem_cons_self (path ++ [index]) groups
    have hrest := ihs (fun s hs => ih s (List.mem_cons_of_mem _ hs)) (index + 1)
      (reduce env (path ++ [index]) groups t).groups
    simp only [reduceAll_cons, Term.postOrders_cons, Term.assigned_append, List.length_append,
      Log.rebindings_append]
    omega

/-- Over a whole term, every assignment either binds its symbol or is reported. -/
theorem rebindings_reduce (path : Path) (groups : GroupTable) (t : Term) :
    (reduce env path groups t).log.rebindings + (reduce env path groups t).groups.entries.length =
      groups.entries.length + (Term.assigned (t.postOrder path)).length := by
  induction t using Term.induction_children generalizing path groups with
  | node t ih =>
    have hchildren := rebindings_reduceAll env ih path 0 groups
    rw [reduce_eq_conclude, rebindings_conclude, hchildren, Term.postOrder_eq]
    simp [Nat.add_assoc]

end

namespace Compilation

/-- The node at `path` was compiled to `fragment`. A literal stands for itself and is not recorded;
of any other node there is one record. -/
def HasFragment (c : Compilation) (path : Path) (node : Term) (fragment : String) : Prop :=
  match node with
  | .literal text => fragment = text
  | _ => c.reductions.filter (·.path == path) = [⟨path, node.kind, fragment⟩]

def unboundFragment [Regex.Engine] (env : Environment) (groups : GroupTable) (symbol : String) : String :=
  match env.vars.get? symbol with
  | some value => if isWellFormed groups (.text value) then value else invalidReference symbol
  | none => unresolvedReference symbol

theorem filter_path_of_nodup {reductions : List Reduction} {r : Reduction} (h : r ∈ reductions)
    (hnodup : (reductions.map (·.path)).Nodup) : reductions.filter (·.path == r.path) = [r] := by
  induction reductions with
  | nil => cases h
  | cons first others ih =>
    rw [List.map_cons, List.nodup_cons] at hnodup
    obtain ⟨hfirst, hothers⟩ := hnodup
    rcases List.mem_cons.mp h with rfl | h
    · have hnone : others.filter (·.path == r.path) = [] := by
        refine List.filter_eq_nil_iff.mpr fun other hmem heq => hfirst ?_
        exact List.mem_map.mpr ⟨other, hmem, beq_iff_eq.mp heq⟩
      simp [hnone]
    · have hne : first.path ≠ r.path := fun heq => hfirst (List.mem_map.mpr ⟨r, h, heq.symm⟩)
      simp [hne, ih h hothers]

variable [Regex.Engine]

theorem hasFragment_of_subset {env : Environment} {t node : Term} {path : Path}
    {groups : GroupTable}
    (h : (reduce env path groups node).reductions ⊆ (ofTerm env t).reductions) :
    (ofTerm env t).HasFragment path node (reduce env path groups node).value.fragment := by
  have hnodup : ((ofTerm env t).reductions.map (·.path)).Nodup :=
    paths_reduce env [] .empty t ▸ (t.nodup_postOrder []).sublist (Term.nonLiterals_sublist.map _)
  have hrecord := fun hliteral => filter_path_of_nodup
    (h (mem_reductions_reduce env path groups (t := node) hliteral)) hnodup
  cases node with
  | literal text =>
    rw [reduce_eq_conclude, value_conclude]
    rfl
  | _ => exact hrecord rfl

section
variable (env : Environment) {t node : Term} {p : Path} {before after : List (Path × Term)}

theorem groups_ofTerm (t : Term) :
    (ofTerm env t).groups = GroupTable.empty.bindAll (Term.assigned (t.postOrder [])) :=
  groups_reduce env [] .empty t

theorem groups_ofTerm_of_split (h : t.postOrder [] = before ++ (p, node) :: after) :
    (ofTerm env t).groups = ((GroupTable.empty.bindAll (Term.assigned before)).bindAll
      node.assigned?.toList).bindAll (Term.assigned after) := by
  rw [groups_ofTerm, h]
  simp

/-- A node has the fragment that its rule gives with the groups bound before it. -/
theorem exists_hasFragment (h : t.postOrder [] = before ++ (p, node) :: after) :
    ∃ first, (reduce env p first node).reductions ⊆ (ofTerm env t).reductions ∧
      (ofTerm env t).HasFragment p node (Rule.apply env
        (GroupTable.empty.bindAll (Term.assigned before)) node
        (reduceAll env p 0 first node.children).value).value.fragment := by
  obtain ⟨first, hgroups, hsub⟩ := exists_visit env h
  refine ⟨first, hsub, ?_⟩
  rw [← hgroups, ← value_conclude env p, ← reduce_eq_conclude]
  exact hasFragment_of_subset hsub

theorem hasFragment_of_bound (h : t.postOrder [] = before ++ (p, node) :: after) {symbol : String}
    (hbound : symbol ∈ Term.assigned before)
    (hnode : node = .reference symbol ∨ ∃ operand, node = .assignment symbol operand) :
    ∃ group, (ofTerm env t).groups.group? symbol = some group ∧
      (ofTerm env t).HasFragment p node (backreferenceTo group) := by
  obtain ⟨group, hgroup⟩ := GroupTable.exists_group?_bindAll_empty hbound
  obtain ⟨first, -, hfragment⟩ := exists_hasFragment env h
  refine ⟨group, ?_, ?_⟩
  · rw [groups_ofTerm_of_split env h]
    exact GroupTable.group?_bindAll_of_some (GroupTable.group?_bindAll_of_some hgroup _) _
  · rcases hnode with rfl | ⟨operand, rfl⟩
    · simpa only [Rule.apply, Rule.reference, hgroup, Value.fragment] using hfragment
    · simpa only [Rule.apply, Rule.assignment, hgroup, Value.fragment] using hfragment

theorem hasFragment_of_first {symbol : String} {operand : Term}
    (h : t.postOrder [] = before ++ (p, .assignment symbol operand) :: after)
    (hfree : symbol ∉ Term.assigned before) :
    ∃ group fragment, (ofTerm env t).groups.group? symbol = some group ∧
      (ofTerm env t).HasFragment (p ++ [0]) operand fragment ∧
      (ofTerm env t).HasFragment p (.assignment symbol operand) (Rule.capture group fragment) := by
  have hgroup := GroupTable.group?_bindAll_empty_eq_none_iff.mpr hfree
  obtain ⟨first, hsub, hfragment⟩ := exists_hasFragment env h
  refine ⟨((GroupTable.empty.bindAll (Term.assigned before)).bind symbol).1,
    (reduce env (p ++ [0]) first operand).value.fragment, ?_, ?_, ?_⟩
  · rw [groups_ofTerm_of_split env h]
    exact GroupTable.group?_bindAll_of_some (GroupTable.group?_bind _ symbol) _
  · refine hasFragment_of_subset (List.Subset.trans ?_ hsub)
    rw [reduce_eq_conclude env p, reductions_conclude]
    simp [Term.children, reduceAll_cons, reduceAll_nil]
  · simpa [Rule.apply, Rule.assignment, hgroup, Term.children, reduceAll_cons, reduceAll_nil,
      Value.fragment] using hfragment

theorem hasFragment_of_unbound {symbol : String}
    (h : t.postOrder [] = before ++ (p, .reference symbol) :: after)
    (hfree : symbol ∉ Term.assigned before) :
    (ofTerm env t).HasFragment p (.reference symbol)
      (unboundFragment env (GroupTable.empty.bindAll (Term.assigned before)) symbol) := by
  have hgroup := GroupTable.group?_bindAll_empty_eq_none_iff.mpr hfree
  obtain ⟨first, -, hfragment⟩ := exists_hasFragment env h
  unfold unboundFragment
  cases hvalue : env.vars.get? symbol with
  | none => simpa only [Rule.apply, Rule.reference, hgroup, hvalue, Value.fragment] using hfragment
  | some value =>
    by_cases hformed :
        isWellFormed (GroupTable.empty.bindAll (Term.assigned before)) (.text value) = true
    · simpa only [Rule.apply, Rule.reference, hgroup, hvalue, if_pos hformed, Value.fragment]
        using hfragment
    · simpa only [Rule.apply, Rule.reference, hgroup, hvalue, if_neg hformed, Value.fragment]
        using hfragment

end

/-- The table of a compilation lists the distinct symbols that the term assigns, in post-order, as
binding one after the other gives them groups. A node that refers to or assigns a symbol assigned
before it is a backreference to the group of the symbol, the first assignment captures its operand
in that group, and a reference with no assignment before it is looked up among the variables. All
assignments but the first ones are reported. -/
theorem binding_discipline (env : Environment) (t : Term) :
    ((ofTerm env t).groups = GroupTable.empty.bindAll (Term.assigned (t.postOrder [])).eraseDups ∧
      (ofTerm env t).groups.entries.map (·.2) = (Term.assigned (t.postOrder [])).eraseDups) ∧
    (∀ (before : List (Path × Term)) (p : Path) (node : Term) (after : List (Path × Term)),
      t.postOrder [] = before ++ (p, node) :: after →
        (∀ symbol ∈ Term.assigned before,
          (node = .reference symbol ∨ ∃ operand, node = .assignment symbol operand) →
            ∃ group, (ofTerm env t).groups.group? symbol = some group ∧
              (ofTerm env t).HasFragment p node (backreferenceTo group)) ∧
        (∀ symbol operand, node = .assignment symbol operand → symbol ∉ Term.assigned before →
          ∃ group fragment, (ofTerm env t).groups.group? symbol = some group ∧
            (ofTerm env t).HasFragment (p ++ [0]) operand fragment ∧
            (ofTerm env t).HasFragment p node (Rule.capture group fragment)) ∧
        ∀ symbol, node = .reference symbol → symbol ∉ Term.assigned before →
          (ofTerm env t).HasFragment p node
            (unboundFragment env (GroupTable.empty.bindAll (Term.assigned before)) symbol)) ∧
    (ofTerm env t).log.rebindings + (Term.assigned (t.postOrder [])).eraseDups.length =
      (Term.assigned (t.postOrder [])).length := by
  refine ⟨⟨?_, ?_⟩, ?_, ?_⟩
  · rw [groups_ofTerm, GroupTable.bindAll_eraseDups]
  · rw [groups_ofTerm, GroupTable.symbols_bindAll_empty]
  · intro before p node after h
    refine ⟨fun symbol hbound hnode => hasFragment_of_bound env h hbound hnode, ?_, ?_⟩
    · rintro symbol operand rfl hfree
      exact hasFragment_of_first env h hfree
    · rintro symbol rfl hfree
      exact hasFragment_of_unbound env h hfree
  · have hcount := rebindings_reduce env [] .empty t
    have hdistinct := congrArg List.length
      (GroupTable.symbols_bindAll_empty (Term.assigned (t.postOrder [])))
    rw [List.length_map] at hdistinct
    rw [groups_reduce, hdistinct] at hcount
    exact hcount.trans (Nat.zero_add _)

end Compilation
end PhrasePattern
