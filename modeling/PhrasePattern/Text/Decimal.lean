/-! Decimal numbers that fit into 64 bits. -/
namespace PhrasePattern.Text

def decimalLimit : Nat := 18446744073709551616

def digitsValue (digits : List Char) : Nat :=
  digits.foldl (fun n c => 10 * n + (c.toNat - '0'.toNat)) 0

/-- The number at the front of `cs` and the characters after it. -/
def decimal? (cs : List Char) : Option (Nat × List Char) :=
  let digits := cs.takeWhile Char.isDigit
  if digits ≠ [] ∧ digitsValue digits < decimalLimit then
    some (digitsValue digits, cs.dropWhile Char.isDigit)
  else none

end PhrasePattern.Text
