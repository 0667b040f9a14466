import PhrasePattern.Term

/-! The nodes of a term in the order in which they are compiled: the children of a node from left to
right, each with everything below it, and then the node. Every node occurs once, under its path. -/
namespace PhrasePattern

/-- The node at the first path is compiled before the node at the second: it lies below it, or below
a child further to the left. -/
def Path.Precedes : Path → Path → Prop
  | [], _ => False
  | _ :: _, [] => True
  | i :: p, j :: q => i < j ∨ i = j ∧ Path.Precedes p q

theorem Path.precedes_append_iff (path p q : Path) :
    Path.Precedes (path ++ p) (path ++ q) ↔ Path.Precedes p q := by
  induction path with
  | nil => rfl
  | cons index path ih => simp [Path.Precedes, ih]

theorem Path.not_precedes_self (p : Path) : ¬ Path.Precedes p p := by
  induction p with
  | nil => exact id
  | cons index p ih => simpa [Path.Precedes] using ih

namespace Term

theorem sizeOf_lt_of_mem_children {t child : Term} (h : child ∈ t.children) :
    sizeOf child < sizeOf t := by
  cases t with
  | group _ items | macroCall _ items | concatenation items =>
    have hlt : sizeOf child < sizeOf items := List.sizeOf_lt_of_mem h
    simp only [group.sizeOf_spec, macroCall.sizeOf_spec, concatenation.sizeOf_spec]
    omega
  | negation operand | assignment _ operand =>
    cases List.mem_singleton.mp h
    simp only [negation.sizeOf_spec, assignment.sizeOf_spec]
    omega
  | regex | reference | literal => cases h

/-- What passes from the children of a node to the node holds of all terms. -/
theorem induction_children {motive : Term → Prop}
    (node : ∀ t : Term, (∀ child ∈ t.children, motive child) → motive t) (t : Term) : motive t :=
  node t fun child _ => induction_children node child
termination_by sizeOf t
decreasing_by exact sizeOf_lt_of_mem_children ‹_›

mutual

/-- The nodes of a term that is itself found at `path`. -/
def postOrder (path : Path) : Term → List (Path × Term)
  | group form items => postOrders path 0 items ++ [(path, group form items)]
  | negation operand => postOrder (path ++ [0]) operand ++ [(path, negation operand)]
  | regex body => [(path, regex body)]
  | reference symbol => [(path, reference symbol)]
  | assignment symbol operand =>
      postOrder (path ++ [0]) operand ++ [(path, assignment symbol operand)]
  | macroCall name arguments => postOrders path 0 arguments ++ [(path, macroCall name arguments)]
  | literal text => [(path, literal text)]
  | concatenation items => postOrders path 0 items ++ [(path, concatenation items)]

/-- The nodes of the children of the node at `path`, counted from `index`. -/
def postOrders (path : Path) (index : Nat) : List Term → List (Path × Term)
  | [] => []
  | t :: others => postOrder (path ++ [index]) t ++ postOrders path (index + 1) others

end

@[simp]
theorem postOrders_nil (path : Path) (index : Nat) : postOrders path index [] = [] := by
  rw [postOrders]

@[simp]
theorem postOrders_cons (path : Path) (index : Nat) (t : Term) (others : List Term) :
    postOrders path index (t :: others) =
      postOrder (path ++ [index]) t ++ postOrders path (index + 1) others := by
  rw [postOrders]

theorem postOrder_eq (path : Path) (t : Term) :
    postOrder path t = postOrders path 0 t.children ++ [(path, t)] := by
  cases t <;> simp [postOrder, children]

theorem mem_postOrders_iff {items : List Term} {path p : Path} {u : Term}
    (ih : ∀ t ∈ items, ∀ path : Path,
      (p, u) ∈ postOrder path t ↔ ∃ q, p = path ++ q ∧ t.at? q = some u) (index : Nat) :
    (p, u) ∈ postOrders path index items ↔
      ∃ i q, p = path ++ (index + i) :: q ∧ (items[i]?).bind (·.at? q) = some u := by
  induction items generalizing index with
  | nil => simp
  | cons t others ihs =>
    rw [postOrders_cons, List.mem_append, ih t List.mem_cons_self,
      ihs fun s hs => ih s (List.mem_cons_of_mem _ hs)]
    constructor
    · rintro (⟨q, rfl, hq⟩ | ⟨i, q, rfl, hq⟩)
      · exact ⟨0, q, by simp, by simpa using hq⟩
      · exact ⟨i + 1, q, by simp only [Nat.add_assoc, Nat.add_comm 1 i], by simpa using hq⟩
    · rintro ⟨i, q, rfl, hq⟩
      cases i with
      | zero => exact .inl ⟨q, by simp, by simpa using hq⟩
      | succ i => exact .inr ⟨i, q, by simp only [Nat.add_assoc, Nat.add_comm 1 i], by simpa using hq⟩

theorem mem_postOrder_iff_append (t : Term) (path p : Path) (u : Term) :
    (p, u) ∈ postOrder path t ↔ ∃ q, p = path ++ q ∧ t.at? q = some u := by
  induction t using induction_children generalizing path with
  | node t ih =>
    rw [postOrder_eq, List.mem_append, mem_postOrders_iff ih, List.mem_singleton, Prod.mk.injEq]
    constructor
    · rintro (⟨i, q, rfl, hq⟩ | ⟨rfl, rfl⟩)
      · exact ⟨i :: q, by simp, by simpa using hq⟩
      · exact ⟨[], by simp, by simp⟩
    · rintro ⟨q, rfl, hq⟩
      cases q with
      | nil => exact .inr ⟨by simp, by simpa using hq.symm⟩
      | cons i q => exact .inl ⟨i, q, by simp, by simpa using hq⟩

theorem mem_postOrder_iff (t : Term) (p : Path) (u : Term) :
    (p, u) ∈ postOrder [] t ↔ t.at? p = some u := by
  simp [mem_postOrder_iff_append]

theorem prefix_of_mem_postOrder {t u : Term} {path p : Path} (h : (p, u) ∈ postOrder path t) :
    ∃ q, p = path ++ q := by
  obtain ⟨q, hq, -⟩ := (mem_postOrder_iff_append t path p u).mp h
  exact ⟨q, hq⟩

theorem exists_of_mem_postOrders {items : List Term} {path p : Path} {index : Nat}
    (h : p ∈ (postOrders path index items).map (·.1)) : ∃ i q, p = path ++ (index + i) :: q := by
  obtain ⟨⟨p, u⟩, hu, rfl⟩ := List.mem_map.mp h
  obtain ⟨i, q, hq, -⟩ := (mem_postOrders_iff
    (fun t _ path => mem_postOrder_iff_append t path p u) index).mp hu
  exact ⟨i, q, hq⟩

theorem pairwise_postOrders {items : List Term}
    (ih : ∀ t ∈ items, ∀ path : Path, ((postOrder path t).map (·.1)).Pairwise Path.Precedes)
    (path : Path) (index : Nat) :
    ((postOrders path index items).map (·.1)).Pairwise Path.Precedes := by
  induction items generalizing index with
  | nil => simp
  | cons t others ihs =>
    rw [postOrders_cons, List.map_append, List.pairwise_append]
    refine ⟨ih t List.mem_cons_self _, ihs (fun s hs => ih s (List.mem_cons_of_mem _ hs)) _, ?_⟩
    intro p hp p' hp'
    obtain ⟨⟨p, u⟩, hu, rfl⟩ := List.mem_map.mp hp
    obtain ⟨q, hq⟩ := prefix_of_mem_postOrder hu
    obtain ⟨i, q', rfl⟩ := exists_of_mem_postOrders hp'
    rw [hq, List.append_assoc, Path.precedes_append_iff]
    exact .inl (by omega)

theorem pairwise_postOrder (t : Term) (path : Path) :
    ((postOrder path t).map (·.1)).Pairwise Path.Precedes := by
  induction t using induction_children generalizing path with
  | node t ih =>
    rw [postOrder_eq, List.map_append, List.pairwise_append]
    refine ⟨pairwise_postOrders ih path 0, List.pairwise_singleton .., ?_⟩
    intro p hp p' hp'
    obtain ⟨i, q, rfl⟩ := exists_of_mem_postOrders hp
    obtain rfl : p' = path ++ [] := by simpa using hp'
    rw [Path.precedes_append_iff]
    trivial

theorem nodup_postOrder (t : Term) (path : Path) : ((postOrder path t).map (·.1)).Nodup := by
  refine List.Pairwise.imp ?_ (pairwise_postOrder t path)
  rintro p q h rfl
  exact Path.not_precedes_self p h

end Term
end PhrasePattern
