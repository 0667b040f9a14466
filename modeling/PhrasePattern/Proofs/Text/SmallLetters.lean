import PhrasePattern.Text.Category
import PhrasePattern.Text.Lowercase

/-! What becomes of a text in small letters. Small letters stay as they are, so that doing it twice is
doing it once, and letters become letters; the one exception is the dot of a capital I, which becomes a
combining mark. That no small letter is among the capitals is a property of the table, which is checked
at once for all its code points. -/
namespace PhrasePattern.Text

theorem toNat_ofNat {n : Nat} (h : n.isValidChar) : (Char.ofNat n).toNat = n := by
  rw [Char.ofNat, dif_pos h]
  rfl

section Bits

/-- Code points as the bits of a number, so that whole tables are compared by one operation. -/
def bitsOf : List Nat → Nat
  | [] => 0
  | n :: others => Nat.lor (Nat.shiftLeft 1 n) (bitsOf others)

def bitsOfAll : List (List Nat) → Nat
  | [] => 0
  | points :: others => Nat.lor (bitsOf points) (bitsOfAll others)

def RangeTable.bits : RangeTable → Nat
  | [] => 0
  | (low, high) :: others =>
      Nat.lor (Nat.shiftLeft (Nat.pow 2 (high + 1 - low) - 1) low) (bits others)

variable {n a b : Nat}

theorem testBit_land : (Nat.land a b).testBit n = (a.testBit n && b.testBit n) :=
  Nat.testBit_and a b n

theorem testBit_lor : (Nat.lor a b).testBit n = true ↔ a.testBit n = true ∨ b.testBit n = true := by
  rw [← Bool.or_eq_true, ← Nat.testBit_or]
  rfl

theorem testBit_bitsOf {points : List Nat} (h : n ∈ points) : (bitsOf points).testBit n = true := by
  induction points with
  | nil => cases h
  | cons m others ih =>
    rw [bitsOf, testBit_lor]
    rcases List.mem_cons.mp h with rfl | h
    · refine .inl ?_
      change (1 <<< n).testBit n = true
      rw [Nat.one_shiftLeft]
      exact Nat.testBit_two_pow_self
    · exact .inr (ih h)

theorem testBit_bitsOfAll {lists : List (List Nat)} {points : List Nat} (hpoints : points ∈ lists)
    (h : n ∈ points) : (bitsOfAll lists).testBit n = true := by
  induction lists with
  | nil => cases hpoints
  | cons first others ih =>
    rw [bitsOfAll, testBit_lor]
    rcases List.mem_cons.mp hpoints with rfl | hpoints
    · exact .inl (testBit_bitsOf h)
    · exact .inr (ih hpoints)

theorem RangeTable.exists_of_testBit {table : RangeTable} (h : (bits table).testBit n = true) :
    ∃ range ∈ table, range.1 ≤ n ∧ n ≤ range.2 := by
  induction table with
  | nil =>
    rw [bits, Nat.zero_testBit] at h
    cases h
  | cons range others ih =>
    obtain ⟨low, high⟩ := range
    rw [bits, testBit_lor] at h
    rcases h with h | h
    · change ((2 ^ (high + 1 - low) - 1) <<< low).testBit n = true at h
      simp only [Nat.testBit_shiftLeft, Nat.testBit_two_pow_sub_one, Bool.and_eq_true,
        decide_eq_true_eq] at h
      exact ⟨(low, high), List.mem_cons_self, by omega⟩
    · obtain ⟨range, hmem, hrange⟩ := ih h
      exact ⟨range, List.mem_cons_of_mem _ hmem, hrange⟩

end Bits

section Table

def CaseRange.points (range : CaseRange) (start : Nat) : List Nat :=
  (List.range ((range.last - range.first) / range.step + 1)).map fun k => start + range.step * k

theorem CaseRange.image?_eq_some {range : CaseRange} {n m : Nat} (h : range.image? n = some m) :
    n ∈ range.points range.first ∧ m ∈ range.points range.target := by
  unfold image? at h
  split at h
  · rename_i hrange
    obtain ⟨hfirst, hlast, hstep⟩ := hrange
    obtain rfl : range.target + (n - range.first) = m := Option.some.inj h
    have hindex : (n - range.first) / range.step ∈
        List.range ((range.last - range.first) / range.step + 1) := by
      have hle := Nat.div_le_div_right (c := range.step) (Nat.sub_le_sub_right hlast range.first)
      exact List.mem_range.mpr (Nat.lt_succ_of_le hle)
    have hmultiple : range.step * ((n - range.first) / range.step) = n - range.first :=
      Nat.mul_div_cancel' (Nat.dvd_of_mod_eq_zero hstep)
    refine ⟨List.mem_map.mpr ⟨_, hindex, ?_⟩, List.mem_map.mpr ⟨_, hindex, ?_⟩⟩
    · rw [hmultiple]
      exact Nat.add_sub_of_le hfirst
    · rw [hmultiple]
  · cases h

def capitalBits : Nat :=
  bitsOfAll ([0x130] :: smallLetter.map fun range => range.points range.first)

def smallBits : Nat := bitsOfAll (smallLetter.map fun range => range.points range.target)

theorem land_smallBits :
    Nat.land capitalBits smallBits = 0 ∧ Nat.land smallBits alphabetic.bits = smallBits := by
  decide +kernel

theorem alphabetic_valid :
    (alphabetic.all fun letters =>
      (letters.2.blt 0xd800 || Nat.blt 0xdfff letters.1 && letters.2.blt 0x110000) &&
        (Nat.ble 0x41 letters.1 && letters.2.ble 0x5a ||
          Nat.ble 0x61 letters.1 && letters.2.ble 0x7a || Nat.ble 0x80 letters.1)) = true := by
  decide +kernel

theorem not_capital_of_small {n : Nat} (h : smallBits.testBit n = true) :
    capitalBits.testBit n = false := by
  have hland : (Nat.land capitalBits smallBits).testBit n = false := by
    rw [land_smallBits.1, Nat.zero_testBit]
  rwa [testBit_land, h, Bool.and_true] at hland

theorem exists_letters_of_small {n : Nat} (h : smallBits.testBit n = true) :
    ∃ letters ∈ alphabetic, letters.1 ≤ n ∧ n ≤ letters.2 := by
  have hland : (Nat.land smallBits alphabetic.bits).testBit n = true := by
    rw [land_smallBits.2, h]
  rw [testBit_land, h, Bool.true_and] at hland
  exact RangeTable.exists_of_testBit hland

end Table

theorem exists_of_covers {table : RangeTable} {c : Char} (h : table.covers c = true) :
    ∃ range ∈ table, range.1 ≤ c.toNat ∧ c.toNat ≤ range.2 := by
  obtain ⟨range, hmem, hrange⟩ := List.any_eq_true.mp h
  exact ⟨range, hmem, by simpa using hrange⟩

theorem isAlphanumeric_of_covers {c : Char} (h : alphabetic.covers c = true) :
    isAlphanumeric c = true := by
  unfold isAlphanumeric
  split
  · rename_i hascii
    obtain ⟨letters, hmem, hlow, hhigh⟩ := exists_of_covers h
    have hvalid := List.all_eq_true.mp alphabetic_valid letters hmem
    simp only [Bool.and_eq_true, Bool.or_eq_true, Nat.ble_eq] at hvalid
    have hsmall : c.toNat < 0x80 := by simpa [isAscii] using hascii
    have hlatin : 0x41 ≤ c.toNat ∧ c.toNat ≤ 0x5a ∨ 0x61 ≤ c.toNat ∧ c.toNat ≤ 0x7a := by omega
    refine Bool.or_eq_true_iff.mpr (.inl (Bool.or_eq_true_iff.mpr ?_))
    refine hlatin.imp (fun hcapital => ?_) fun hlower => ?_
    · exact decide_eq_true hcapital
    · exact Bool.and_eq_true_iff.mpr ⟨decide_eq_true hlower.1, decide_eq_true hlower.2⟩
  · rw [h]
    rfl

theorem findSome?_smallLetter {c : Char} {n : Nat}
    (h : (smallLetter.findSome? fun range => range.image? c.toNat) = some n) :
    n.isValidChar ∧ n ≠ 0x130 ∧ alphabetic.covers (Char.ofNat n) = true ∧
      (smallLetter.findSome? fun range => range.image? n) = none := by
  obtain ⟨range, hmem, himage⟩ := List.exists_of_findSome?_eq_some h
  have hsmall : smallBits.testBit n = true :=
    testBit_bitsOfAll (List.mem_map_of_mem hmem) (CaseRange.image?_eq_some himage).2
  have hcapital := not_capital_of_small hsmall
  obtain ⟨letters, hletters, hlow, hhigh⟩ := exists_letters_of_small hsmall
  have hvalid : n.isValidChar := by
    have hchars := List.all_eq_true.mp alphabetic_valid letters hletters
    simp only [Bool.and_eq_true, Bool.or_eq_true, Nat.blt_eq] at hchars
    unfold Nat.isValidChar
    omega
  have hnot : ∀ points ∈ [0x130] :: smallLetter.map fun range => range.points range.first,
      n ∉ points := by
    intro points hpoints hn
    have hbit : capitalBits.testBit n = true := testBit_bitsOfAll hpoints hn
    rw [hcapital] at hbit
    cases hbit
  refine ⟨hvalid, fun hn => ?_, ?_, ?_⟩
  · exact hnot [0x130] List.mem_cons_self (List.mem_singleton.mpr hn)
  · refine List.any_eq_true.mpr ⟨letters, hletters, ?_⟩
    rw [toNat_ofNat hvalid, Bool.and_eq_true, decide_eq_true_eq, decide_eq_true_eq]
    exact ⟨hlow, hhigh⟩
  · refine List.findSome?_eq_none_iff.mpr fun other hother => ?_
    cases himage' : other.image? n with
    | none => rfl
    | some m =>
      have hpoint := (CaseRange.image?_eq_some himage').1
      exact absurd hpoint (hnot _ (List.mem_cons_of_mem _ (List.mem_map_of_mem hother)))

/-- A character of small letters: it is its own small form, wherever it stands. -/
def IsSmall (c : Char) : Prop := ∀ before after, smallForm before c after = [c]

theorem isSmall_of_apply {c : Char} (hdot : c ≠ '\u0130') (hsigma : c ≠ 'Σ')
    (h : smallLetter.apply c = c) : IsSmall c := by
  intro before after
  rw [smallForm, if_neg hdot, if_neg hsigma, h]

theorem smallLetter_exceptions :
    (['i', '\u0307', 'ς', 'σ'].all fun c => smallLetter.apply c == c) = true ∧
      ['i', 'ς', 'σ'].all isAlphanumeric = true ∧ smallLetter.apply 'Σ' ≠ 'Σ' := by
  decide +kernel

theorem isSmall_apply {c : Char} (hdot : c ≠ '\u0130') (hsigma : c ≠ 'Σ') :
    IsSmall (smallLetter.apply c) ∧
      (smallLetter.apply c = c ∨ isAlphanumeric (smallLetter.apply c) = true) := by
  cases hfound : smallLetter.findSome? fun range => range.image? c.toNat with
  | none =>
    have happly : smallLetter.apply c = c := by rw [CaseMap.apply, hfound]
    rw [happly]
    exact ⟨isSmall_of_apply hdot hsigma happly, .inl rfl⟩
  | some n =>
    obtain ⟨hvalid, hne, hcovers, hnone⟩ := findSome?_smallLetter hfound
    have happly : smallLetter.apply c = Char.ofNat n := by rw [CaseMap.apply, hfound]
    have hfixed : smallLetter.apply (Char.ofNat n) = Char.ofNat n := by
      rw [CaseMap.apply, toNat_ofNat hvalid, hnone]
    rw [happly]
    refine ⟨isSmall_of_apply ?_ ?_ hfixed, .inr (isAlphanumeric_of_covers hcovers)⟩
    · intro hchar
      have hcode := congrArg Char.toNat hchar
      rw [toNat_ofNat hvalid] at hcode
      exact hne hcode
    · intro hchar
      rw [hchar] at hfixed
      exact smallLetter_exceptions.2.2 hfixed

/-- What a small form is made of: small characters, each of them the character itself, a letter, or the
dot of a capital I. -/
theorem mem_smallForm {before after : List Char} {c d : Char} (h : d ∈ smallForm before c after) :
    IsSmall d ∧ (d = c ∨ isAlphanumeric d = true ∨ d = '\u0307' ∧ c = '\u0130') := by
  have hfixed : ∀ d ∈ ['i', '\u0307', 'ς', 'σ'], smallLetter.apply d = d :=
    fun d hd => beq_iff_eq.mp (List.all_eq_true.mp smallLetter_exceptions.1 d hd)
  have hletter := List.all_eq_true.mp smallLetter_exceptions.2.1
  unfold smallForm at h
  split at h
  · rename_i hdot
    simp only [List.mem_cons, List.not_mem_nil, or_false] at h
    rcases h with rfl | rfl
    · exact ⟨isSmall_of_apply (by decide) (by decide) (hfixed _ (by decide)),
        .inr (.inl (hletter _ (by decide)))⟩
    · exact ⟨isSmall_of_apply (by decide) (by decide) (hfixed _ (by decide)),
        .inr (.inr ⟨rfl, hdot⟩)⟩
  · rename_i hdot
    split at h
    · obtain rfl := List.mem_singleton.mp h
      split <;>
        exact ⟨isSmall_of_apply (by decide) (by decide) (hfixed _ (by decide)),
          .inr (.inl (hletter _ (by decide)))⟩
    · rename_i hsigma
      obtain rfl := List.mem_singleton.mp h
      obtain ⟨hsmall, hsame⟩ := isSmall_apply hdot hsigma
      exact ⟨hsmall, hsame.imp_right .inl⟩

theorem exists_of_mem_lowercaseFrom {before cs : List Char} {d : Char}
    (h : d ∈ lowercaseFrom before cs) : ∃ c ∈ cs, ∃ before after, d ∈ smallForm before c after := by
  induction cs generalizing before with
  | nil => cases h
  | cons c after ih =>
    rw [lowercaseFrom] at h
    rcases List.mem_append.mp h with h | h
    · exact ⟨c, List.mem_cons_self, before, after, h⟩
    · obtain ⟨e, he, hform⟩ := ih h
      exact ⟨e, List.mem_cons_of_mem c he, hform⟩

theorem lowercase_eq_self {cs : List Char} (h : ∀ c ∈ cs, IsSmall c) : lowercase cs = cs := by
  unfold lowercase
  generalize ([] : List Char) = before
  induction cs generalizing before with
  | nil => rfl
  | cons c after ih =>
    rw [lowercaseFrom, h c List.mem_cons_self, ih fun d hd => h d (List.mem_cons_of_mem c hd)]
    rfl

theorem lowercase_ne_nil {cs : List Char} (h : cs ≠ []) : lowercase cs ≠ [] := by
  cases cs with
  | nil => exact absurd rfl h
  | cons c after =>
    rw [lowercase, lowercaseFrom]
    exact List.append_ne_nil_of_left_ne_nil (smallForm_ne_nil [] c after) _

end PhrasePattern.Text
