import PhrasePattern.Proofs.Term.PostOrder
import PhrasePattern.Proofs.Term.WellFormed

/-! Conditions on all nodes of a term, and what parsing says about each of them: how texts and names
are spelled, and how many operands a bracket has. -/
namespace PhrasePattern.Term

def Everywhere (P : Term → Prop) (t : Term) : Prop :=
  ∀ path node, t.at? path = some node → P node

theorem Everywhere.root {P : Term → Prop} {t : Term} (h : t.Everywhere P) : P t :=
  h [] t (at?_nil t)

theorem Everywhere.child {P : Term → Prop} {t child : Term} (h : t.Everywhere P)
    (hchild : child ∈ t.children) : child.Everywhere P := by
  intro path node hnode
  obtain ⟨index, hindex⟩ := List.getElem?_of_mem hchild
  refine h (index :: path) node ?_
  rw [at?_cons, hindex, Option.bind_some]
  exact hnode

theorem everywhere_of_children {P : Term → Prop} {t : Term} (hroot : P t)
    (hchildren : ∀ child ∈ t.children, child.Everywhere P) : t.Everywhere P := by
  intro path node hnode
  cases path with
  | nil =>
    rw [at?_nil, Option.some.injEq] at hnode
    exact hnode ▸ hroot
  | cons index rest =>
    rw [at?_cons] at hnode
    obtain ⟨child, hchild, hat⟩ := Option.bind_eq_some_iff.mp hnode
    exact hchildren child (List.mem_of_getElem? hchild) rest node hat

def IsSpelled : Term → Prop
  | group form items => form.minimum ≤ items.length
  | reference symbol => IsRun isSymbolChar symbol
  | assignment symbol _ => IsRun isSymbolChar symbol
  | macroCall name _ => IsRun isSymbolChar name
  | literal text => ∀ c ∈ text.toList, isWordChar c = true ∨ Text.isSpace c = true
  | negation _ | regex _ | concatenation _ => True

theorem areOperands_iff {items : List Term} : AreOperands items ↔ ∀ t ∈ items, t.IsOperand := by
  induction items with
  | nil => simp [AreOperands]
  | cons t others ih => rw [AreOperands, ih, List.forall_mem_cons]

theorem IsLiteralText.chars {text : String} (h : IsLiteralText text) :
    ∀ c ∈ text.toList, isWordChar c = true ∨ Text.isSpace c = true := by
  obtain ⟨first, parts, hfirst, hparts, rfl⟩ := h
  intro c hc
  rw [String.toList_append, List.mem_append, String.toList_join] at hc
  rcases hc with hc | hc
  · exact .inl (hfirst.2 c hc)
  · simp only [List.mem_flatMap, List.mem_map, exists_exists_and_eq_and, String.toList_append,
      List.mem_append] at hc
    obtain ⟨part, hpart, hc | hc⟩ := hc
    · exact .inr ((hparts part hpart).1.2 c hc)
    · exact .inl ((hparts part hpart).2.2 c hc)

theorem IsOperand.isSpelled {t : Term} (h : t.IsOperand) : t.IsSpelled := by
  cases t with
  | group form items => exact h.1
  | reference symbol => exact h
  | assignment symbol operand => exact h.1
  | macroCall name arguments => exact h.1
  | literal text => exact IsLiteralText.chars h
  | negation operand => trivial
  | regex body => trivial
  | concatenation items => trivial

theorem IsOperand.child {t child : Term} (h : t.IsOperand) (hchild : child ∈ t.children) :
    child.IsOperand := by
  cases t with
  | group form items => exact areOperands_iff.mp h.2 child hchild
  | negation operand => exact List.mem_singleton.mp hchild ▸ h
  | assignment symbol operand => exact List.mem_singleton.mp hchild ▸ h.2
  | macroCall name arguments => exact areOperands_iff.mp h.2 child hchild
  | concatenation items => exact h.elim
  | regex body => cases hchild
  | reference symbol => cases hchild
  | literal text => cases hchild

theorem IsOperand.everywhere {t : Term} (h : t.IsOperand) : t.Everywhere IsSpelled := by
  induction t using induction_children with
  | node t ih =>
    exact everywhere_of_children h.isSpelled fun child hchild => ih child hchild (h.child hchild)

theorem everywhere_isSpelled_of_parse {input : String} {t : Term} (h : parse input = .ok t) :
    t.Everywhere IsSpelled := by
  have hformed := wellFormed_of_parse h
  cases t with
  | concatenation items =>
    exact everywhere_of_children trivial fun child hchild =>
      (areOperands_iff.mp hformed.2.1 child hchild).everywhere
  | _ => exact IsOperand.everywhere hformed

end PhrasePattern.Term
