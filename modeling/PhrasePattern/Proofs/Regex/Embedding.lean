import PhrasePattern.Proofs.Regex.Locality

/-! A text that is read by itself, and the same text where other text comes before and behind it.
Two readers go through it side by side. If they meet the same signs and what they have read stays
related from sign to sign, then it is related when both have come to the end of the text. -/
namespace PhrasePattern.Regex

theorem Sign.brace?_of_bounds?_eq_none {extended : Bool} {cs : List Char}
    (h : bounds? extended cs = none) (repeatable : Bool) :
    Sign.brace? extended repeatable cs = some (.literal '{', 0) := by
  cases repeatable <;> simp [Sign.brace?, h]

variable [Engine]

namespace Reader

theorem run_eq_drop (r : Reader) (skip : Nat) (text : List Char) :
    r.run skip text = r.run 0 (text.drop skip) := by
  induction text generalizing skip with
  | nil => simp [run]
  | cons c rest ih =>
    cases skip with
    | zero => rfl
    | succ skip => rw [run, ih, List.drop_succ_cons]

theorem run_of_length_le (r : Reader) {skip : Nat} {text : List Char} (h : text.length ≤ skip) :
    r.run skip text = some r := by
  rw [run_eq_drop, List.drop_eq_nil_of_le h, run]

theorem exists_sign_of_run {r r' : Reader} {c : Char} {rest : List Char}
    (h : r.run 0 (c :: rest) = some r') :
    ∃ s n next, sign? r.flags.extended r.parts.last.isSome c rest = some (s, n) ∧
      r.follow s = some next ∧ next.run n rest = some r' := by
  rw [run, step_eq] at h
  cases hsign : sign? r.flags.extended r.parts.last.isSome c rest with
  | none => simp [hsign] at h
  | some found =>
    rw [hsign, Option.bind_some] at h
    cases hfollow : r.follow found.1 with
    | none => simp [hfollow] at h
    | some next =>
      rw [hfollow, Option.map_some] at h
      exact ⟨found.1, found.2, next, rfl, hfollow, h⟩

theorem run_of_sign {r : Reader} {c : Char} {rest : List Char} {found : Sign × Nat}
    (h : sign? r.flags.extended r.parts.last.isSome c rest = some found) :
    r.run 0 (c :: rest) = (r.follow found.1).bind fun next => next.run found.2 rest := by
  rw [run, step_eq, h, Option.bind_some]
  cases r.follow found.1 <;> rfl

end Reader

theorem sign?_of_isDigit_or_comma {c : Char} (h : c.isDigit = true ∨ c = ',')
    (extended repeatable : Bool) (rest : List Char) :
    sign? extended repeatable c rest = some (.literal c, 0) := by
  have hne : ∀ d ∈ ['.', '^', '$', '(', ')', '|', '[', '\\', '?', '*', '+', '{', '#', ' ', '\t', '\r', '\n'],
      c ≠ d := by
    rintro d hd rfl
    rcases h with hdigit | rfl
    · have hnone : ['.', '^', '$', '(', ')', '|', '[', '\\', '?', '*', '+', '{', '#', ' ', '\t', '\r',
          '\n'].all (fun d => !d.isDigit) = true := by decide
      simpa [hdigit] using List.all_eq_true.mp hnone c hd
    · exact absurd hd (by decide)
  have hignored : ignoredFrom extended .blanks (c :: rest) = some 0 := by
    rw [ignoredFrom]
    · simp [hne]
    · rintro more rfl
      exact absurd rfl (hne '(' (by decide))
  rw [sign?, hignored]
  dsimp only
  unfold Sign.visible?
  split
  case h_13 => rfl
  all_goals exact absurd rfl (hne _ (by decide))

def Readable (extended : Bool) (cs : List Char) : Prop :=
  ∃ r r' : Reader, r.flags.extended = extended ∧ r.run 0 cs = some r'

theorem legible_readable (extended : Bool) : Bounds.Legible extended (Readable extended) := by
  constructor
  case skips =>
    rintro cs ⟨r, r', rfl, hrun⟩
    cases cs with
    | nil => exact ⟨[], by rw [skip?, ignoredFrom]; rfl, r, r', rfl, hrun⟩
    | cons c cs =>
      obtain ⟨s, n, next, hsign, hfollow, hnext⟩ := Reader.exists_sign_of_run hrun
      unfold sign? at hsign
      unfold skip?
      split at hsign
      · cases hsign
      · rename_i m hm
        obtain ⟨rfl, rfl⟩ := Prod.mk.inj (Option.some.inj hsign)
        obtain rfl := Option.some.inj hfollow
        refine ⟨cs.drop m, by rw [hm]; rfl, r, r', rfl, ?_⟩
        rwa [← Reader.run_eq_drop]
      · rename_i hm
        exact ⟨c :: cs, by rw [hm]; rfl, r, r', rfl, hrun⟩
  case tail =>
    rintro c cs ⟨r, r', rfl, hrun⟩ hc
    obtain ⟨s, n, next, hsign, hfollow, hnext⟩ := Reader.exists_sign_of_run hrun
    rw [sign?_of_isDigit_or_comma hc] at hsign
    obtain ⟨rfl, rfl⟩ := Prod.mk.inj (Option.some.inj hsign)
    obtain rfl := Option.some.inj hfollow
    exact ⟨r.add (r.literal c), r', rfl, hnext⟩

theorem sign?_brace (extended repeatable : Bool) (cs : List Char) :
    sign? extended repeatable '{' cs = Sign.brace? extended repeatable cs := by
  have hignored : ignoredFrom extended .blanks ('{' :: cs) = some 0 := by
    rw [ignoredFrom]
    · simp
    · rintro more heq
      exact absurd heq (by decide)
  rw [sign?, hignored]
  rfl

/-- How two readers keep step, the first with only the text ahead, the second with `rest` behind it.
The relation is between the text ahead and the two. -/
structure Simulation (rest : List Char) (related : List Char → Reader → Reader → Prop) : Prop where
  firm : ∀ {cs a b}, related cs a b → Firm a.flags.extended rest
  extended : ∀ {cs a b}, related cs a b → b.flags.extended = a.flags.extended
  sign : ∀ {c cs a b}, related (c :: cs) a b →
    sign? a.flags.extended b.parts.last.isSome c cs = sign? a.flags.extended a.parts.last.isSome c cs
  follow : ∀ {c cs a b s n a'}, related (c :: cs) a b →
    sign? a.flags.extended a.parts.last.isSome c cs = some (s, n) → a.follow s = some a' →
    ∃ b', b.follow s = some b' ∧ related (cs.drop n) a' b'

namespace Simulation
variable {rest : List Char} {related : List Char → Reader → Reader → Prop}

/-- The second reader is where the first one is, or all of `rest` was taken for a comment. -/
inductive Arrives (related : List Char → Reader → Reader → Prop) (rest : List Char) (a' : Reader)
    (outcome : Option Reader) : Prop
  | behind (b' : Reader) (isRelated : related [] a' b') (eq : outcome = b'.run 0 rest)
  | swallowed (b' : Reader) (isRelated : related [] a' b') (eq : outcome = some b')
      (extended : ∃ cs a b, related cs a b ∧ a.flags.extended = true)

theorem bounds?_append (h : Simulation rest related) {cs : List Char} {a a' b : Reader}
    (hrun : a.run 0 ('{' :: cs) = some a') (hrelated : related ('{' :: cs) a b)
    (hbounds : bounds? a.flags.extended cs = none) :
    bounds? a.flags.extended (cs ++ rest) = none := by
  obtain ⟨s, n, next, hsign, hfollow, hnext⟩ := Reader.exists_sign_of_run hrun
  rw [sign?_brace, Sign.brace?_of_bounds?_eq_none hbounds] at hsign
  obtain ⟨rfl, rfl⟩ := Prod.mk.inj (Option.some.inj hsign)
  obtain rfl := Option.some.inj hfollow
  have hgood : Readable a.flags.extended cs := ⟨a.add (a.literal '{'), a', rfl, hnext⟩
  rw [Bounds.bounds?_append_of_legible (legible_readable _) (h.firm hrelated) (.inl hgood), hbounds]
  rfl

theorem arrives (h : Simulation rest related) {text : List Char} {skip : Nat} {a a' b : Reader}
    (hskip : skip ≤ text.length) (hrun : a.run skip text = some a')
    (hrelated : related (text.drop skip) a b) :
    Arrives related rest a' (b.run skip (text ++ rest)) := by
  induction text generalizing a b skip with
  | nil =>
    obtain rfl := Nat.le_zero.mp hskip
    obtain rfl := Option.some.inj hrun
    exact .behind b hrelated rfl
  | cons c cs ih =>
    cases skip with
    | succ skip => exact ih (Nat.le_of_succ_le_succ hskip) hrun hrelated
    | zero =>
      obtain ⟨s, n, next, hsign, hfollow, hnext⟩ := Reader.exists_sign_of_run hrun
      have hbounds : b.parts.last.isSome = true → c = '{' → bounds? a.flags.extended cs = none →
          bounds? a.flags.extended (cs ++ rest) = none := by
        rintro - rfl
        exact h.bounds?_append hrun hrelated
      obtain ⟨hn, k, hsign', htakes⟩ := sign?_append (h.firm hrelated) hbounds
        ((h.sign hrelated).trans hsign)
      rw [← h.extended hrelated] at hsign'
      rw [List.cons_append, Reader.run_of_sign hsign']
      obtain ⟨next', hfollow', hrelated'⟩ := h.follow hrelated hsign hfollow
      rw [hfollow', Option.bind_some]
      rcases htakes with rfl | ⟨hextended, rfl, rfl⟩
      · exact ih hn hnext hrelated'
      · -- a comment up to the end of the line: both readers are at the end of what they read
        rw [Reader.run_of_length_le next (Nat.le_refl _)] at hnext
        obtain rfl := Option.some.inj hnext
        rw [List.drop_length] at hrelated'
        refine .swallowed next' hrelated' ?_ ⟨_, a, b, hrelated, hextended⟩
        exact Reader.run_of_length_le next' (by simp)

end Simulation

end PhrasePattern.Regex
