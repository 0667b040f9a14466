import PhrasePattern.Pattern
import PhrasePattern.Proofs.Compilation.Binding

/-! What compiling a term comes to: the value and the groups that the rule for its kind leads to,
without the reductions and the log. -/
namespace PhrasePattern

namespace Term

def assignedSymbols (t : Term) : List String := assigned (t.postOrder [])

theorem assigned_postOrders_eq {items : List Term}
    (ih : ∀ t ∈ items, ∀ path : Path, assigned (t.postOrder path) = t.assignedSymbols)
    (path : Path) (index : Nat) :
    assigned (postOrders path index items) = items.flatMap assignedSymbols := by
  induction items generalizing index with
  | nil => simp
  | cons t others ihs =>
    rw [postOrders_cons, assigned_append, ih t List.mem_cons_self, List.flatMap_cons,
      ihs fun s hs => ih s (List.mem_cons_of_mem _ hs)]

theorem assigned_postOrder (t : Term) (path : Path) :
    assigned (t.postOrder path) = t.assignedSymbols := by
  induction t using induction_children generalizing path with
  | node t ih =>
    rw [assignedSymbols, postOrder_eq, postOrder_eq, assigned_append, assigned_append,
      assigned_postOrders_eq ih, assigned_postOrders_eq ih]
    simp

end Term

variable [Regex.Engine]

theorem reduceAll_path {env : Environment} {items : List Term}
    (ih : ∀ t ∈ items, ∀ (p q : Path) (groups : GroupTable),
      (reduce env p groups t).value = (reduce env q groups t).value ∧
        (reduce env p groups t).groups = (reduce env q groups t).groups)
    (p q : Path) (i j : Nat) (groups : GroupTable) :
    (reduceAll env p i groups items).value = (reduceAll env q j groups items).value ∧
      (reduceAll env p i groups items).groups = (reduceAll env q j groups items).groups := by
  induction items generalizing i j groups with
  | nil => simp [reduceAll_nil]
  | cons t others ihs =>
    obtain ⟨hvalue, hgroups⟩ := ih t List.mem_cons_self (p ++ [i]) (q ++ [j]) groups
    obtain ⟨hvalues, hrest⟩ := ihs (fun s hs => ih s (List.mem_cons_of_mem _ hs)) (i + 1) (j + 1)
      (reduce env (q ++ [j]) groups t).groups
    rw [reduceAll_cons, reduceAll_cons]
    dsimp only
    rw [hvalue, hgroups, hvalues, hrest]
    exact ⟨rfl, rfl⟩

/-- What a term compiles to does not depend on where it stands. -/
theorem reduce_path (env : Environment) (t : Term) (p q : Path) (groups : GroupTable) :
    (reduce env p groups t).value = (reduce env q groups t).value ∧
      (reduce env p groups t).groups = (reduce env q groups t).groups := by
  induction t using Term.induction_children generalizing p q groups with
  | node t ih =>
    obtain ⟨hvalues, hgroups⟩ := reduceAll_path ih p q 0 0 groups
    rw [reduce_eq_conclude, reduce_eq_conclude, value_conclude, value_conclude, groups_conclude,
      groups_conclude, hvalues, hgroups]
    exact ⟨rfl, rfl⟩

section
variable (env : Environment)

/-- What compiling the term comes to in the end, with its groups. -/
def ruling (env : Environment) (path : Path) (groups : GroupTable) (t : Term) : Ruled :=
  let children := reduceAll env path 0 groups t.children
  Rule.apply env children.groups t children.value

theorem value_reduce (path : Path) (groups : GroupTable) (t : Term) :
    (reduce env path groups t).value = (ruling env path groups t).value := by
  rw [reduce_eq_conclude, value_conclude, ruling]

theorem groups_ruling (path : Path) (groups : GroupTable) (t : Term) :
    (reduce env path groups t).groups = (ruling env path groups t).groups := by
  rw [reduce_eq_conclude, groups_conclude, ruling, groups_apply]

theorem ruling_negation (path : Path) (groups : GroupTable) (operand : Term) :
    ruling env path groups (.negation operand) =
      ⟨.text (Rule.negation (ruling env (path ++ [0]) groups operand).value.fragment),
        (ruling env (path ++ [0]) groups operand).groups, []⟩ := by
  rw [← value_reduce, ← groups_ruling, ruling]
  simp [Rule.apply, Term.children, reduceAll_cons, reduceAll_nil]

theorem ruling_assignment (path : Path) (groups : GroupTable) (symbol : String) (operand : Term) :
    ruling env path groups (.assignment symbol operand) =
      Rule.assignment (ruling env (path ++ [0]) groups operand).groups symbol
        (ruling env (path ++ [0]) groups operand).value.fragment := by
  rw [← value_reduce, ← groups_ruling, ruling]
  simp [Rule.apply, Term.children, reduceAll_cons, reduceAll_nil]

theorem groups_reduce_eq (path : Path) (groups : GroupTable) (t : Term) :
    (reduce env path groups t).groups = groups.bindAll t.assignedSymbols := by
  rw [groups_reduce, Term.assigned_postOrder]

end

theorem Pattern.exists_compile_eq {p : Pattern} {t : Term} (h : parse p.expression = .ok t)
    (ngrams : Ngrams) (vars : Vars) (extra : Option Registry) (debug : Bool) :
    ∃ c, (p.compile ngrams vars extra debug).1 = .ok c ∧
      c.source = (ruling ⟨vars, p.registry extra, ngrams⟩ [] .empty t).value.fragment ∧
      c.groups = (ruling ⟨vars, p.registry extra, ngrams⟩ [] .empty t).groups := by
  rw [← value_reduce, ← groups_ruling]
  unfold compile
  rw [h]
  cases debug with
  | true => exact ⟨_, rfl, rfl, rfl⟩
  | false => exact ⟨_, rfl, rfl, rfl⟩

end PhrasePattern
