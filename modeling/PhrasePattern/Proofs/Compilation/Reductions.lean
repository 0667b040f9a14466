import PhrasePattern.Proofs.Compilation.Recording
import PhrasePattern.Proofs.Compilation.Ruling

/-! What is recorded of a compilation. The record goes through the nodes in post-order and leaves out
the literals; of each node it keeps the path, the rule for its kind, and the text that the node
compiles to by itself once the symbols to its left are bound. So the record ends with the root, unless
that is a literal. -/
namespace PhrasePattern

open Term (nonLiterals)

theorem Term.pairwise_nonLiterals (t : Term) :
    ((nonLiterals (t.postOrder [])).map (·.1)).Pairwise Path.Precedes :=
  (t.pairwise_postOrder []).sublist (Term.nonLiterals_sublist.map _)

variable [Regex.Engine]

/-- The text that the node at the path compiles to, when the groups were bound before the term: all
that is assigned to the left of the node is bound as well. -/
def Term.fragmentAt? (env : Environment) (groups : GroupTable) (t : Term) : Path → Option String
  | [] => some (reduce env [] groups t).value.fragment
  | index :: rest => t.children[index]?.bind fun child =>
      child.fragmentAt? env (groups.bindAll ((t.children.take index).flatMap assignedSymbols)) rest

section
variable (env : Environment)

theorem exists_fragment_reduceAll {items : List Term}
    (ih : ∀ t ∈ items, ∀ (path : Path) (groups : GroupTable),
      ∀ r ∈ (reduce env path groups t).reductions,
        ∃ q, r.path = path ++ q ∧ t.fragmentAt? env groups q = some r.fragment)
    {path : Path} {index : Nat} {groups : GroupTable} {r : Reduction}
    (h : r ∈ (reduceAll env path index groups items).reductions) :
    ∃ i q child, r.path = path ++ (index + i) :: q ∧ items[i]? = some child ∧
      child.fragmentAt? env (groups.bindAll ((items.take i).flatMap Term.assignedSymbols)) q =
        some r.fragment := by
  induction items generalizing index groups with
  | nil => simp [reduceAll_nil] at h
  | cons t others ihs =>
    rw [reduceAll_cons] at h
    rcases List.mem_append.mp h with h | h
    · obtain ⟨q, hpath, hfragment⟩ := ih t List.mem_cons_self _ _ r h
      exact ⟨0, q, t, by simpa using hpath, rfl, by simpa using hfragment⟩
    · obtain ⟨i, q, child, hpath, hchild, hfragment⟩ :=
        ihs (fun s hs => ih s (List.mem_cons_of_mem _ hs)) h
      rw [groups_reduce_eq, ← GroupTable.bindAll_append] at hfragment
      refine ⟨i + 1, q, child, ?_, hchild, hfragment⟩
      rw [hpath, Nat.add_assoc, Nat.add_comm 1 i]

theorem exists_fragment_reduce (path : Path) (groups : GroupTable) (t : Term) :
    ∀ r ∈ (reduce env path groups t).reductions,
      ∃ q, r.path = path ++ q ∧ t.fragmentAt? env groups q = some r.fragment := by
  induction t using Term.induction_children generalizing path groups with
  | node t ih =>
    intro r hr
    rw [reduce_eq_conclude, reductions_conclude, ← reduce_eq_conclude] at hr
    rcases List.mem_append.mp hr with hr | hr
    · obtain ⟨i, q, child, hpath, hchild, hfragment⟩ := exists_fragment_reduceAll env ih hr
      rw [Nat.zero_add] at hpath
      refine ⟨i :: q, hpath, ?_⟩
      rw [Term.fragmentAt?, hchild]
      exact hfragment
    · cases hliteral : t.isLiteral with
      | true => simp [hliteral] at hr
      | false =>
        obtain rfl : r = ⟨path, t.kind, (reduce env path groups t).value.fragment⟩ := by
          simpa [hliteral] using hr
        refine ⟨[], (List.append_nil path).symm, ?_⟩
        rw [Term.fragmentAt?, (reduce_path env t [] path groups).1]

theorem getLast?_reductions (path : Path) (groups : GroupTable) {t : Term}
    (h : t.isLiteral = false) :
    (reduce env path groups t).reductions.getLast? =
      some ⟨path, t.kind, (reduce env path groups t).value.fragment⟩ := by
  rw [reduce_eq_conclude, reductions_conclude, h]
  simp

end

/-- What was recorded of the compilation of the term, with the groups bound before it: the nodes that
are no literals, in post-order, each once, with its kind and its text. -/
structure Compilation.Records (env : Environment) (groups : GroupTable) (t : Term)
    (c : Compilation) : Prop where
  nodes : c.reductions.map (fun r => (r.path, r.rule)) =
    (nonLiterals (t.postOrder [])).map fun node => (node.1, node.2.kind)
  ordered : (c.reductions.map (·.path)).Pairwise Path.Precedes
  nodup : (c.reductions.map (·.path)).Nodup
  complete : ∀ path, path ∈ c.reductions.map (·.path) ↔
    ∃ node, t.at? path = some node ∧ node.isLiteral = false
  valid : ∀ r ∈ c.reductions, ∃ node, t.at? r.path = some node ∧ r.rule = node.kind ∧
    t.fragmentAt? env groups r.path = some r.fragment
  root : t.isLiteral = false → c.reductions.getLast? = some ⟨[], t.kind, c.fragment⟩

/-- A compilation that keeps a record, with any groups bound before it, records the nodes of the term
in post-order and is back at the root when it ends; with no groups bound before it, it is the
compilation of the term. -/
theorem records_postOrder (env : Environment) (groups : GroupTable) (t : Term) :
    (Compilation.byWalk env groups t true).Records env groups t ∧
      (walk env ⟨groups, [], some [], []⟩ t).2.path = [] ∧
      Compilation.byWalk env .empty t true = Compilation.ofTerm env t := by
  have hnodes := nodes_reduce env [] groups t
  have hpaths := paths_reduce env [] groups t
  have hordered := t.pairwise_nonLiterals
  rw [← hpaths] at hordered
  rw [Compilation.byWalk_eq, walk_eq, Compilation.byWalk_empty]
  refine ⟨⟨hnodes, hordered, ?_, fun path => ?_, fun r hr => ?_, ?_⟩, rfl, rfl⟩
  · exact hpaths ▸ (t.nodup_postOrder []).sublist (Term.nonLiterals_sublist.map _)
  · simp only [if_true, hpaths, List.mem_map, Prod.exists, Term.mem_nonLiterals_iff,
      Term.mem_postOrder_iff, exists_and_right, exists_eq_right]
  · have hmem : (r.path, r.rule) ∈ (nonLiterals (t.postOrder [])).map
        fun node => (node.1, node.2.kind) := hnodes ▸ List.mem_map_of_mem hr
    obtain ⟨⟨path, node⟩, hnode, heq⟩ := List.mem_map.mp hmem
    obtain ⟨rfl, hkind⟩ := Prod.mk.inj heq
    obtain ⟨hat, -⟩ := Term.mem_nonLiterals_iff.mp hnode
    obtain ⟨q, hq, hfragment⟩ := exists_fragment_reduce env [] groups t r hr
    obtain rfl : r.path = q := hq
    exact ⟨node, (t.mem_postOrder_iff _ node).mp hat, hkind.symm, hfragment⟩
  · exact getLast?_reductions env [] groups

end PhrasePattern
