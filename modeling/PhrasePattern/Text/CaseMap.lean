/-! Maps between characters that shift whole stretches of code points at once. -/
namespace PhrasePattern.Text

/-- Every `step`-th code point from `first` to `last` is moved by the distance from `first` to
`target`. -/
structure CaseRange where
  first : Nat
  last : Nat
  step : Nat
  target : Nat

def CaseRange.image? (range : CaseRange) (n : Nat) : Option Nat :=
  if range.first ≤ n ∧ n ≤ range.last ∧ (n - range.first) % range.step = 0 then
    some (range.target + (n - range.first))
  else none

def CaseRange.preimage? (range : CaseRange) (n : Nat) : Option Nat :=
  if range.target ≤ n ∧ n - range.target ≤ range.last - range.first ∧
      (n - range.target) % range.step = 0 then
    some (range.first + (n - range.target))
  else none

abbrev CaseMap := List CaseRange

def CaseMap.apply (map : CaseMap) (c : Char) : Char :=
  match map.findSome? fun range => range.image? c.toNat with
  | some n => Char.ofNat n
  | none => c

/-- All characters that `map` sends to `c`, other than `c` itself. -/
def CaseMap.preimages (map : CaseMap) (c : Char) : List Char :=
  map.filterMap fun range => (range.preimage? c.toNat).map Char.ofNat

end PhrasePattern.Text
