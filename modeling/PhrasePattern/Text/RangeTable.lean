/-! Sets of characters written as closed ranges of code points. -/
namespace PhrasePattern.Text

abbrev RangeTable := List (Nat × Nat)

def RangeTable.covers (table : RangeTable) (c : Char) : Bool :=
  table.any fun range => decide (range.1 ≤ c.toNat) && decide (c.toNat ≤ range.2)

@[simp]
theorem RangeTable.covers_nil (c : Char) : RangeTable.covers [] c = false := rfl

@[simp]
theorem RangeTable.covers_cons (lo hi : Nat) (table : RangeTable) (c : Char) :
    RangeTable.covers ((lo, hi) :: table) c =
      (decide (lo ≤ c.toNat) && decide (c.toNat ≤ hi) || RangeTable.covers table c) := rfl

end PhrasePattern.Text
