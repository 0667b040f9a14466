import PhrasePattern.Proofs.Regex.Denotation
import PhrasePattern.Proofs.Regex.Embedding

/-! A regular expression between anchors. If the text in the middle is a regular expression by
itself, then the whole is that expression with a test of the position before and behind it. -/
namespace PhrasePattern.Regex

namespace Reader

def within (r : Reader) (outer : List (Opener × Parts)) : Reader :=
  { r with
    enclosing := r.enclosing ++ outer
    deepest := r.deepest + outer.countP (·.1.counts) }

section
variable (r : Reader) (outer : List (Opener × Parts))

@[simp]
theorem parts_within : (r.within outer).parts = r.parts := rfl

@[simp]
theorem node?_within : (r.within outer).node? = r.node? := rfl

theorem reach_within : (r.within outer).reach = r.reach.within outer := by
  have hlevel : (r.within outer).level = r.level + outer.countP (·.1.counts) := by
    rw [level, within, List.countP_append, level]
  unfold reach
  rw [hlevel]
  unfold within
  simp only [Reader.mk.injEq, true_and]
  omega

theorem target?_within (ref : GroupRef) : (r.within outer).target? ref = r.target? ref := rfl

theorem referTo_within (ref : GroupRef) :
    (r.within outer).referTo ref = (r.referTo ref).map (·.within outer) := by
  unfold referTo
  rw [target?_within, Option.map_map]
  rfl

theorem test_within (ref : GroupRef) :
    (r.within outer).test ref = (r.test ref).map (·.within outer) := by
  unfold test
  rw [target?_within, Option.map_map]
  rfl

theorem repeatLast_within (least : Nat) (most? : Option Nat) (isLazy isPossessive : Bool) :
    (r.within outer).repeatLast least most? isLazy isPossessive =
      (r.repeatLast least most? isLazy isPossessive).map (·.within outer) := by
  unfold repeatLast
  rw [parts_within]
  cases r.parts.last with
  | none => rfl
  | some piece =>
    dsimp only
    split <;> rfl

end

section
variable {r r' : Reader} (outer : List (Opener × Parts))

theorem obeyEscape_within [Engine] (e : Escape) (h : r.obeyEscape e = some r') :
    (r.within outer).obeyEscape e = some (r'.within outer) := by
  cases e with
  | group ref => exact (r.referTo_within outer ref).trans (congrArg (Option.map _) h)
  | property name =>
    obtain ⟨set, hset, rfl⟩ := Option.map_eq_some_iff.mp h
    exact Option.map_eq_some_iff.mpr ⟨set, hset, rfl⟩
  | _ =>
    obtain rfl := Option.some.inj h
    rfl

theorem closeGroup_within (h : r.closeGroup = some r') :
    (r.within outer).closeGroup = some (r'.within outer) := by
  unfold closeGroup at h ⊢
  rw [node?_within]
  cases hopen : r.enclosing with
  | nil => simp [hopen] at h
  | cons frame enclosing =>
    obtain ⟨opener, outside⟩ := frame
    have hopen' : (r.within outer).enclosing = (opener, outside) :: (enclosing ++ outer) := by
      rw [within, hopen, List.cons_append]
    rw [hopen'] at *
    rw [hopen] at h
    cases hnode : r.node? with
    | none => simp [hnode] at h
    | some node =>
      rw [hnode] at h
      cases opener with
      | lookBehind negative =>
        obtain ⟨body, hbody, rfl⟩ := Option.map_eq_some_iff.mp h
        exact Option.map_eq_some_iff.mpr ⟨body, hbody, rfl⟩
      | choice =>
        dsimp only at h ⊢
        rw [parts_within]
        split at h
        · cases h
        · rename_i hbare
          obtain rfl := Option.some.inj h
          rw [if_neg hbare]
          rfl
      | _ =>
        obtain rfl := Option.some.inj h
        rfl

theorem obey_within [Engine] {s : Sign} (h : r.obey s = some r') :
    (r.within outer).obey s = some (r'.within outer) := by
  cases s with
  | closing => exact closeGroup_within outer h
  | charClass set =>
    obtain ⟨chars, hchars, rfl⟩ := Option.map_eq_some_iff.mp h
    exact Option.map_eq_some_iff.mpr ⟨chars, hchars, rfl⟩
  | escaped e => exact obeyEscape_within outer e h
  | sameAs name => exact (r.referTo_within outer (.name name)).trans (congrArg (Option.map _) h)
  | test ref => exact (r.test_within outer ref).trans (congrArg (Option.map _) h)
  | quantifier least most? isLazy isPossessive =>
    exact (r.repeatLast_within outer ..).trans (congrArg (Option.map _) h)
  | flags change opens =>
    obtain ⟨flags, hflags, rfl⟩ := Option.map_eq_some_iff.mp h
    refine Option.map_eq_some_iff.mpr ⟨flags, hflags, ?_⟩
    cases opens <;> rfl
  | capture name? =>
    cases name? <;>
    · obtain rfl := Option.some.inj h
      rfl
  | _ =>
    obtain rfl := Option.some.inj h
    rfl

theorem follow_within [Engine] {s : Sign} (h : r.follow s = some r') :
    (r.within outer).follow s = some (r'.within outer) := by
  unfold follow at h ⊢
  rw [reach_within]
  split at h
  · rename_i hgroup
    rw [if_pos hgroup]
    exact obey_within outer h
  · rename_i hgroup
    rw [if_neg hgroup]
    exact obey_within outer h

end
end Reader

theorem firm_close (extended : Bool) : Firm extended [')', '$'] :=
  ⟨⟨')', by decide, rfl⟩, fun _ => rfl⟩

theorem finish?_eq_some_iff {r : Reader} {node : Node} :
    r.finish? = some node ↔ (r.enclosing = [] ∧ r.deepest ≤ Reader.depthLimit) ∧ r.node? = some node := by
  simp [Reader.finish?]

variable [Engine]

/-- A reader inside a group that the anchors are around keeps step with one outside of it. -/
theorem simulation_within (outer : List (Opener × Parts)) :
    Simulation [')', '$'] fun _ a b => b = a.within outer where
  firm _ := firm_close _
  extended := by
    rintro _ a _ rfl
    rfl
  sign := by
    rintro _ _ a _ rfl
    rfl
  follow := by
    rintro _ _ a _ s _ a' rfl - hfollow
    exact ⟨a'.within outer, Reader.follow_within outer hfollow, rfl⟩

def anchorParts : Parts := ({} : Parts).add (.assertion .textStart)

theorem run_front (cs : List Char) :
    ({} : Reader).run 0 (['^', '(', '?', ':'] ++ cs) =
      (({} : Reader).within [(.plain {}, anchorParts)]).run 0 cs := by
  have hdefault : ({} : Reader).IsDefault := ⟨rfl, rfl⟩
  rw [List.cons_append, Reader.run_of_step (Reader.step_caret hdefault _)]
  exact Reader.encloses_plain.opens _ cs ⟨rfl, rfl⟩

theorem run_back {r : Reader} {node : Node} (hopen : r.enclosing = [])
    (hnode : r.node? = some node) :
    ((r.within [(.plain {}, anchorParts)]).run 0 [')', '$']) =
      some { r with
        parts := (anchorParts.add node).add (.assertion .textEnd), enclosing := [], flags := {},
        deepest := r.deepest + 1 } := by
  have hclose : sign? r.flags.extended r.parts.last.isSome ')' ['$'] = some (.closing, 0) := by
    cases r.flags.extended <;> rfl
  have hgroup : (r.within [(.plain {}, anchorParts)]).closeGroup = some { r with
      parts := anchorParts.add node, enclosing := [], flags := {}, deepest := r.deepest + 1 } := by
    unfold Reader.closeGroup
    rw [Reader.node?_within, hnode, show (r.within [(.plain {}, anchorParts)]).enclosing =
      [(.plain {}, anchorParts)] by rw [Reader.within, hopen]; rfl]
    rfl
  have hfollow : (r.within [(.plain {}, anchorParts)]).follow .closing = _ := hgroup
  have hdollar : sign? false true '$' [] = some (.lineEnd, 0) := rfl
  have hfirst := Reader.run_of_sign (r := r.within [(.plain {}, anchorParts)]) hclose
  rw [hfirst, hfollow, Option.bind_some]
  exact Reader.run_of_sign (r := { r with
    parts := anchorParts.add node, enclosing := [], flags := {}, deepest := r.deepest + 1 }) hdollar

omit [Engine] in
theorem node_anchored (node : Node) :
    ((anchorParts.add node).add (.assertion .textEnd)).node =
      .seq ([.assertion .textStart] ++ Reader.pieceOf node ++ [.assertion .textEnd]) := by
  have hbranch : ((anchorParts.add node).add (.assertion .textEnd)).branch =
      .ofPieces ([.assertion .textStart] ++ Reader.pieceOf node ++ [.assertion .textEnd]) := by
    rw [Parts.branch, Reader.settled_add, Reader.settled_add, List.reverse_append,
      List.reverse_append, List.reverse_reverse, List.reverse_reverse]
    rfl
  rw [Parts.node, hbranch]
  unfold Reader.pieceOf
  split <;> rfl

theorem root_of_anchored {source : String} {own regex : Regex} (hown : read? source = some own)
    (hregex : read? ("^(?:" ++ source ++ ")$") = some regex) :
    regex.root = .seq ([.assertion .textStart] ++ Reader.pieceOf own.root ++
      [.assertion .textEnd]) := by
  unfold read? at hown hregex
  split at hown
  · cases hown
  · rename_i r hr
    obtain ⟨node, hnode, rfl⟩ := Option.map_eq_some_iff.mp hown
    obtain ⟨⟨hopen, -⟩, hnode⟩ := finish?_eq_some_iff.mp hnode
    have hchars : ("^(?:" ++ source ++ ")$").toList =
        ['^', '(', '?', ':'] ++ (source.toList ++ [')', '$']) := by simp
    rw [hchars, run_front] at hregex
    have harrives := (simulation_within [(.plain {}, anchorParts)]).arrives (Nat.zero_le _) hr rfl
    rcases harrives with ⟨_, rfl, heq⟩ | ⟨_, rfl, heq, -⟩
    · rw [heq, run_back hopen hnode] at hregex
      obtain ⟨root, hroot, rfl⟩ := Option.map_eq_some_iff.mp hregex
      have hroot := (finish?_eq_some_iff.mp hroot).2
      unfold Reader.node? at hroot
      split at hroot
      · cases hroot
      · rw [← node_anchored]
        exact (Option.some.inj hroot).symm
    · -- the group in the middle stays open
      rw [heq] at hregex
      obtain ⟨root, hroot, -⟩ := Option.map_eq_some_iff.mp hregex
      have hclosed := (finish?_eq_some_iff.mp hroot).1.1
      simp [Reader.within] at hclosed

end PhrasePattern.Regex
