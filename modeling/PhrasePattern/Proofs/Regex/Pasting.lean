import PhrasePattern.Proofs.Regex.Enclosure

/-! Texts that are pasted into others. The signs of a text can be told without reading the text, as
long as blanks are not skipped. If they are all of a kind that two readers follow alike, and the text
does not begin with a quantifier, then it does not matter what stands before it: a reader that is in the
midst of something comes through the text if one that has just begun does. -/
namespace PhrasePattern.Regex

namespace Sign

def isBlank : Sign → Bool
  | blank => true
  | _ => false

/-- Whether there is something to repeat after the sign, where `before` says so of the place before it. -/
def leaves (before : Bool) : Sign → Bool
  | blank => before
  | bar => false
  | enter _ => false
  | capture _ => false
  | flags _ opens => !opens
  | ask => false
  | quantifier _ _ _ _ => false
  | _ => true

theorem leaves_of_not_isBlank {s : Sign} (h : s.isBlank = false) (before after : Bool) :
    s.leaves before = s.leaves after := by
  cases s with
  | blank => cases h
  | _ => rfl

end Sign

variable [Engine]

/-- The signs of a text in which blanks are not skipped. -/
def signs? (repeatable : Bool) : (skip : Nat) → List Char → Option (List Sign)
  | _, [] => some []
  | skip + 1, _ :: rest => signs? repeatable skip rest
  | 0, c :: rest =>
    match sign? false repeatable c rest with
    | none => none
    | some (s, n) => (signs? (s.leaves repeatable) n rest).map (s :: ·)

theorem signs?_eq_drop (repeatable : Bool) (skip : Nat) (text : List Char) :
    signs? repeatable skip text = signs? repeatable 0 (text.drop skip) := by
  induction text generalizing skip with
  | nil => simp [signs?]
  | cons c rest ih =>
    cases skip with
    | zero => rfl
    | succ skip => rw [signs?, ih, List.drop_succ_cons]

theorem exists_of_signs? {repeatable : Bool} {c : Char} {rest : List Char} {signs : List Sign}
    (h : signs? repeatable 0 (c :: rest) = some signs) :
    ∃ s n others, sign? false repeatable c rest = some (s, n) ∧ signs = s :: others ∧
      signs? (s.leaves repeatable) 0 (rest.drop n) = some others := by
  rw [signs?] at h
  split at h
  · cases h
  · rename_i s n hsign
    obtain ⟨others, hothers, rfl⟩ := Option.map_eq_some_iff.mp h
    exact ⟨s, n, others, hsign, rfl, by rw [← signs?_eq_drop, hothers]⟩

/-- All signs ahead are allowed. Unless something was read already, the first that is visible is not a
quantifier. -/
def Ahead (allowed : Sign → Prop) (started repeatable : Bool) (text : List Char) : Prop :=
  ∃ signs, signs? repeatable 0 text = some signs ∧ (∀ s ∈ signs, allowed s) ∧
    (started = false → ∀ s, signs.find? (!·.isBlank) = some s → s.isQuantifier = false)

/-- What is not a quantifier is the same sign whether or not there is something to repeat. -/
theorem sign?_of_not_isQuantifier {extended : Bool} {c : Char} {rest : List Char} {s : Sign} {n : Nat}
    (h : sign? extended true c rest = some (s, n)) (hs : s.isQuantifier = false) (repeatable : Bool) :
    sign? extended repeatable c rest = some (s, n) := by
  by_cases hc : c = '{'
  · subst hc
    rw [sign?_brace] at h ⊢
    cases hbounds : bounds? extended rest with
    | none =>
      rw [Sign.brace?_of_bounds?_eq_none hbounds] at h ⊢
      exact h
    | some found =>
      obtain ⟨⟨least, most?⟩, after⟩ := found
      unfold Sign.brace? at h
      rw [hbounds] at h
      obtain ⟨sign, hsign, heq⟩ := Option.map_eq_some_iff.mp h
      obtain ⟨rfl, -⟩ := Prod.mk.inj heq
      rw [Reader.isQuantifier_of_quantifier? hsign] at hs
      cases hs
  · rw [← h]
    unfold sign?
    split
    · rfl
    · rfl
    · unfold Sign.visible?
      split
      case h_12 => exact absurd rfl hc
      all_goals rfl

theorem isGroup_of_sign? {extended repeatable : Bool} {c : Char} {rest : List Char} {s : Sign} {n : Nat}
    (h : sign? extended repeatable c rest = some (s, n)) (hs : s.isGroup = true) : c = '(' := by
  unfold sign? at h
  split at h
  · cases h
  · obtain ⟨rfl, -⟩ := Prod.mk.inj (Option.some.inj h)
    cases hs
  · unfold Sign.visible? at h
    split at h
    case h_4 => rfl
    case h_7 | h_8 =>
      obtain ⟨_, -, heq⟩ := Option.map_eq_some_iff.mp h
      obtain ⟨rfl, -⟩ := Prod.mk.inj heq
      cases hs
    case h_9 | h_10 | h_11 =>
      have hquantifier := Reader.isQuantifier_of_quantifier? h
      rw [Reader.not_isGroup_of_isQuantifier hquantifier] at hs
      cases hs
    case h_12 =>
      unfold Sign.brace? at h
      split at h
      · obtain ⟨found, hfound, heq⟩ := Option.map_eq_some_iff.mp h
        obtain ⟨rfl, -⟩ := Prod.mk.inj heq
        rw [Reader.not_isGroup_of_isQuantifier (Reader.isQuantifier_of_quantifier? hfound)] at hs
        cases hs
      · obtain ⟨rfl, -⟩ := Prod.mk.inj (Option.some.inj h)
        cases hs
    all_goals
      obtain ⟨rfl, -⟩ := Prod.mk.inj (Option.some.inj h)
      cases hs

def Node.repeated (least : Nat) (most? : Option Nat) (greedy isPossessive : Bool) (piece : Node) : Node :=
  if isPossessive then .atomic (.repetition piece least most? greedy)
  else .repetition piece least most? greedy

namespace Reader

omit [Engine] in
theorem exists_of_closeGroup {r r' : Reader} (h : r.closeGroup = some r') :
    ∃ opener outside enclosing node flags, r.enclosing = (opener, outside) :: enclosing ∧
      r' = { r with parts := outside.add node, enclosing := enclosing, flags := flags } := by
  unfold closeGroup at h
  split at h
  · rename_i hopen _
    dsimp only at h
    split at h
    case h_4 =>
      obtain ⟨node, -, rfl⟩ := Option.map_eq_some_iff.mp h
      exact ⟨_, _, _, node, r.flags, hopen, rfl⟩
    case h_7 =>
      split at h
      · cases h
      · obtain rfl := Option.some.inj h
        exact ⟨_, _, _, _, _, hopen, rfl⟩
    all_goals
      obtain rfl := Option.some.inj h
      exact ⟨_, _, _, _, _, hopen, rfl⟩
  · cases h

omit [Engine] in
theorem exists_of_repeatLast {r r' : Reader} {least : Nat} {most? : Option Nat} {isLazy isPossessive : Bool}
    (h : r.repeatLast least most? isLazy isPossessive = some r') :
    ∃ piece, r.parts.last = some piece ∧ piece.isRepeatable = true ∧
      r' = r.replaceLast (piece.repeated least most? (isLazy == r.flags.swapGreed) isPossessive) := by
  unfold repeatLast at h
  split at h
  · cases h
  · rename_i piece hlast
    dsimp only at h
    split at h
    · rename_i hcondition
      rw [Bool.and_eq_true] at hcondition
      exact ⟨piece, hlast, hcondition.1, (Option.some.inj h).symm⟩
    · cases h

/-- Whether there is something to repeat can be told from the signs alone. -/
theorem last_obey {r r' : Reader} {s : Sign} (h : r.obey s = some r') :
    r'.parts.last.isSome = s.leaves r.parts.last.isSome := by
  cases s with
  | closing =>
    obtain ⟨_, _, _, _, _, -, rfl⟩ := exists_of_closeGroup h
    rfl
  | sameAs _ | test _ =>
    obtain ⟨_, -, rfl⟩ := Option.map_eq_some_iff.mp h
    rfl
  | charClass set =>
    obtain ⟨chars, -, rfl⟩ := Option.map_eq_some_iff.mp h
    rfl
  | escaped e =>
    cases e with
    | group _ | property _ =>
      obtain ⟨_, -, rfl⟩ := Option.map_eq_some_iff.mp h
      rfl
    | _ =>
      obtain rfl := Option.some.inj h
      rfl
  | quantifier least most? isLazy isPossessive =>
    obtain ⟨piece, -, -, rfl⟩ := exists_of_repeatLast h
    rfl
  | flags change opens =>
    obtain ⟨flags, -, rfl⟩ := Option.map_eq_some_iff.mp h
    cases opens <;> rfl
  | capture name? =>
    cases name? <;>
    · obtain rfl := Option.some.inj h
      rfl
  | _ =>
    obtain rfl := Option.some.inj h
    rfl

theorem last_follow {r r' : Reader} {s : Sign} (h : r.follow s = some r') :
    r'.parts.last.isSome = s.leaves r.parts.last.isSome := by
  unfold follow at h
  split at h
  · exact last_obey (r := r.reach) h
  · exact last_obey h

end Reader

/-- What has to be known of a relation between the reader of a text by itself and one in the midst of
other text. The relation also depends on whether something visible was read, and on the text ahead. -/
structure Pasting (allowed : Sign → Prop) (related : Bool → List Char → Reader → Reader → Prop) :
    Prop where
  extended : ∀ {started cs a b}, related started cs a b →
    a.flags.extended = false ∧ b.flags.extended = false
  last : ∀ {cs a b}, related true cs a b → b.parts.last.isSome = a.parts.last.isSome
  shorter : ∀ {started cs cs' a b}, related started cs a b → cs' <:+ cs → related started cs' a b
  follow : ∀ {started c cs a b s n a'}, related started (c :: cs) a b →
    sign? false a.parts.last.isSome c cs = some (s, n) → allowed s → s.isBlank = false →
    (started = false → s.isQuantifier = false) → a.follow s = some a' →
    ∃ b', b.follow s = some b' ∧ related true cs a' b'

namespace Pasting
variable {allowed : Sign → Prop} {related : Bool → List Char → Reader → Reader → Prop}
  {rest : List Char}

def repeatable (started : Bool) (a : Reader) : Bool := if started then a.parts.last.isSome else true

theorem sign?_of_ahead {started : Bool} {a : Reader} {c : Char} {cs : List Char} {s : Sign} {n : Nat}
    {others : List Sign} (hsign : sign? false (repeatable started a) c cs = some (s, n))
    (hfirst : started = false → ∀ s', (s :: others).find? (!·.isBlank) = some s' →
      s'.isQuantifier = false)
    (isSome : Bool) (hlast : started = true → isSome = a.parts.last.isSome) :
    sign? false isSome c cs = some (s, n) := by
  cases started with
  | true =>
    rw [hlast rfl]
    exact hsign
  | false =>
    refine sign?_of_not_isQuantifier hsign ?_ isSome
    cases hblank : s.isBlank with
    | true =>
      cases s with
      | blank => rfl
      | _ => cases hblank
    | false => exact hfirst rfl s (by simp [hblank])

theorem simulation (h : Pasting allowed related) (hrest : Firm false rest) :
    Simulation rest fun cs a b =>
      ∃ started, related started cs a b ∧ Ahead allowed started (repeatable started a) cs where
  firm := by
    rintro cs a b ⟨started, hrelated, -⟩
    rw [(h.extended hrelated).1]
    exact hrest
  extended := by
    rintro cs a b ⟨started, hrelated, -⟩
    rw [(h.extended hrelated).1, (h.extended hrelated).2]
  sign := by
    rintro c cs a b ⟨started, hrelated, signs, hsigns, -, hfirst⟩
    obtain ⟨s, n, others, hsign, rfl, -⟩ := exists_of_signs? hsigns
    have hlast : started = true → b.parts.last.isSome = a.parts.last.isSome := by
      rintro rfl
      exact h.last hrelated
    rw [(h.extended hrelated).1, sign?_of_ahead hsign hfirst _ hlast,
      sign?_of_ahead hsign hfirst _ fun _ => rfl]
  follow := by
    rintro c cs a b s n a' ⟨started, hrelated, signs, hsigns, hallowed, hfirst⟩ hsign hfollow
    obtain ⟨s', n', others, hsign', rfl, hothers⟩ := exists_of_signs? hsigns
    have heq := sign?_of_ahead hsign' hfirst a.parts.last.isSome fun _ => rfl
    rw [(h.extended hrelated).1, heq] at hsign
    obtain ⟨rfl, rfl⟩ := Prod.mk.inj (Option.some.inj hsign)
    have hrelated' := h.shorter hrelated ((List.drop_suffix n' cs).trans (List.suffix_cons c cs))
    have hallowed' : ∀ s ∈ others, allowed s := fun s hs => hallowed s (List.mem_cons_of_mem _ hs)
    cases hblank : s'.isBlank with
    | true =>
      cases s' with
      | blank =>
        obtain rfl := Option.some.inj hfollow
        exact ⟨b, rfl, started, hrelated', others, hothers, hallowed', hfirst⟩
      | _ => cases hblank
    | false =>
      have hquantifier : started = false → s'.isQuantifier = false :=
        fun hstarted => hfirst hstarted s' (by simp [hblank])
      obtain ⟨b', hfollow', hnext⟩ := h.follow hrelated heq (hallowed s' List.mem_cons_self) hblank
        hquantifier hfollow
      refine ⟨b', hfollow', true, h.shorter hnext (List.drop_suffix n' cs), others, ?_, hallowed',
        fun hstarted => nomatch hstarted⟩
      rw [repeatable, if_pos rfl, Reader.last_follow hfollow, ← hothers,
        s'.leaves_of_not_isBlank hblank]

theorem run (h : Pasting allowed related) (hrest : Firm false rest) {text : List Char}
    {a a' b : Reader} (hrun : a.run 0 text = some a') (hahead : Ahead allowed false true text)
    (hrelated : related false text a b) :
    ∃ started b', related started [] a' b' ∧ b.run 0 (text ++ rest) = b'.run 0 rest := by
  have harrives := (h.simulation hrest).arrives (Nat.zero_le _) hrun ⟨false, hrelated, hahead⟩
  rcases harrives with ⟨b', ⟨started, hb', -⟩, heq⟩ | ⟨_, -, -, _, _, _, hother, hextended⟩
  · exact ⟨started, b', hb', heq⟩
  · obtain ⟨started, hother, -⟩ := hother
    rw [(h.extended hother).1] at hextended
    cases hextended

end Pasting
end PhrasePattern.Regex
