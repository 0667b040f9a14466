import PhrasePattern.Regex.Reader

/-! The contour of a node: what is left of it when it does not matter which characters it takes, which
place it tests, which group it is and in which order it tries repetitions. Whether a quantifier may
follow a node, and how wide it is, can be seen from the contour. -/
namespace PhrasePattern.Regex

namespace Node

mutual

def contour : Node → Node
  | chars _ => chars .any
  | assertion _ => assertion .textStart
  | capture _ body => capture 0 (contour body)
  | seq items => seq (contours items)
  | alt branches => alt (contours branches)
  | repetition body least most? _ => repetition (contour body) least most? true
  | lookAhead negative body => lookAhead negative (contour body)
  | lookBehind negative widths branches => lookBehind negative widths (contours branches)
  | atomic body => atomic (contour body)
  | backreference _ => backreference 0
  | captured _ => captured 0

def contours : List Node → List Node
  | [] => []
  | n :: others => contour n :: contours others

end

theorem contours_eq_map (items : List Node) : contours items = items.map contour := by
  induction items with
  | nil => rw [contours, List.map_nil]
  | cons n others ih => rw [contours, List.map_cons, ih]

theorem commonWidth?_cons_cons (n m : Node) (others : List Node) :
    commonWidth? (n :: m :: others) =
      match width? n, commonWidth? (m :: others) with
      | some a, some b => if a = b then some a else none
      | _, _ => none := by
  cases hn : width? n <;> cases hm : commonWidth? (m :: others) <;> simp [commonWidth?, hn, hm]

mutual

theorem width?_contour : (n : Node) → width? (contour n) = width? n
  | chars _ => by rw [contour, width?, width?]
  | assertion _ => by rw [contour, width?, width?]
  | capture _ body => by rw [contour, width?, width?, width?_contour body]
  | seq items => by rw [contour, width?, width?, widthSum?_contours items]
  | alt branches => by rw [contour, width?, width?, commonWidth?_contours branches]
  | repetition body least most? _ => by rw [contour, width?, width?, width?_contour body]
  | lookAhead _ _ => by rw [contour, width?, width?]
  | lookBehind _ _ _ => by rw [contour, width?, width?]
  | atomic body => by rw [contour, width?, width?, width?_contour body]
  | backreference _ => by rw [contour, width?, width?]
  | captured _ => by rw [contour, width?, width?]

theorem widthSum?_contours : (items : List Node) → widthSum? (contours items) = widthSum? items
  | [] => by rw [contours]
  | n :: others => by
    rw [contours, widthSum?, widthSum?, width?_contour n, widthSum?_contours others]

theorem commonWidth?_contours : (branches : List Node) →
    commonWidth? (contours branches) = commonWidth? branches
  | [] => by rw [contours]
  | [n] => by rw [contours, contours, commonWidth?, commonWidth?, width?_contour n]
  | n :: m :: others => by
    have hothers := commonWidth?_contours (m :: others)
    rw [contours] at hothers
    rw [contours, contours, commonWidth?_cons_cons, commonWidth?_cons_cons, width?_contour n, hothers]

end

theorem isEmpty_contour (n : Node) : n.contour.isEmpty = n.isEmpty := by
  cases n with
  | seq items => cases items <;> simp [contour, contours, isEmpty]
  | _ => simp [contour, isEmpty]

theorem isRepeatable_contour (n : Node) : n.contour.isRepeatable = n.isRepeatable := by
  cases n with
  | seq items =>
    match items with
    | [] => rfl
    | [_] => rfl
    | _ :: _ :: _ => rfl
  | _ => simp [contour, isRepeatable]

theorem contour_ofPieces (pieces : List Node) :
    (ofPieces pieces).contour = ofPieces (pieces.map contour) := by
  match pieces with
  | [] => simp [ofPieces, contour, contours]
  | [n] => rfl
  | n :: m :: others => simp [ofPieces, contour, contours_eq_map]

theorem contour_ofBranches (branches : List Node) :
    (ofBranches branches).contour = ofBranches (branches.map contour) := by
  match branches with
  | [] => simp [ofBranches, contour, contours]
  | [n] => rfl
  | n :: m :: others => simp [ofBranches, contour, contours_eq_map]

theorem isBare_contour (n : Node) : n.contour.isBare = n.isBare := by
  cases n with
  | seq items =>
    match items with
    | [] => rfl
    | [_] => rfl
    | _ :: _ :: _ => rfl
  | _ => rfl

theorem contour_head (n : Node) : n.head.contour = n.contour.head := by
  cases n with
  | seq items => cases items <;> simp [contour, contours, head]
  | _ => simp [contour, head]

theorem contour_choose (first otherwise : Node) :
    (choose first otherwise).contour = choose first.contour otherwise.contour := by
  unfold choose
  rw [isBare_contour, isEmpty_contour]
  split
  · rfl
  · simp [contour, contours, contour_head]

theorem contour_choice (branches : List Node) :
    (choice branches).contour = choice (branches.map contour) := by
  match branches with
  | [] => rw [choice, List.map_nil, choice, empty, contour, contours]
  | [first] => simp [choice, contour_choose, empty, contour, contours]
  | first :: n :: others => simp [choice, contour_choose, contour_ofBranches]

theorem mapM_width?_contours (branches : List Node) :
    (contours branches).mapM width? = branches.mapM width? := by
  induction branches with
  | nil => rw [contours]
  | cons n others ih => rw [contours, List.mapM_cons, List.mapM_cons, width?_contour, ih]

theorem lookBehind?_contour (negative : Bool) (body : Node) :
    lookBehind? negative body.contour = (lookBehind? negative body).map contour := by
  cases hwidth : width? body with
  | some w =>
    have hwidth' := (width?_contour body).trans hwidth
    simp [lookBehind?, hwidth, hwidth', contour, contours]
  | none =>
    have hwidth' := (width?_contour body).trans hwidth
    cases body with
    | alt branches =>
      rw [contour] at hwidth' ⊢
      simp only [lookBehind?, hwidth, hwidth', mapM_width?_contours, Option.map_map]
      cases branches.mapM width? with
      | none => rfl
      | some widths => simp [contour]
    | _ =>
      rw [contour] at hwidth' ⊢
      simp [lookBehind?, hwidth, hwidth']

end Node

namespace Parts

def contour (parts : Parts) : Parts :=
  ⟨parts.branches.map Node.contour, parts.pieces.map Node.contour, parts.last.map Node.contour⟩

variable (parts : Parts)

theorem settled_contour : parts.contour.settled = parts.settled.map Node.contour := by
  unfold settled contour
  cases parts.last with
  | none => rfl
  | some node =>
    dsimp only [Option.map_some]
    rw [Node.isEmpty_contour]
    split <;> rfl

theorem contour_add (node : Node) : (parts.add node).contour = parts.contour.add node.contour := by
  rw [add, add, settled_contour]
  rfl

theorem branch_contour : parts.contour.branch = parts.branch.contour := by
  rw [branch, branch, settled_contour, Node.contour_ofPieces, List.map_reverse]

theorem contour_nextBranch : parts.nextBranch.contour = parts.contour.nextBranch := by
  rw [nextBranch, nextBranch, branch_contour]
  rfl

theorem endsWithCondition_contour : parts.contour.endsWithCondition = parts.endsWithCondition := by
  unfold endsWithCondition contour
  cases parts.last with
  | none => rfl
  | some node =>
    cases node with
    | seq items =>
      match items with
      | [] => rfl
      | [_] => rfl
      | _ :: _ :: _ => rfl
    | _ => rfl

theorem choice_contour : parts.contour.choice = parts.choice.contour := by
  rw [choice, choice, Node.contour_choice, branch_contour, List.map_reverse]
  rfl

theorem node_contour : parts.contour.node = parts.node.contour := by
  rw [node, node, Node.contour_ofBranches, branch_contour, List.map_reverse]
  rfl

end Parts
end PhrasePattern.Regex
