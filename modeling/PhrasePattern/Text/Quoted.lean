import PhrasePattern.Text.GraphemeExtend
import PhrasePattern.Text.Unprintable

/-! Text between double quotes, in which every character that would not be legible alone is
escaped. -/
namespace PhrasePattern.Text

def hexadecimal (n : Nat) : List Char := Nat.toDigits 16 n

def isLegible (c : Char) : Bool :=
  if c.toNat < 0x7f then c.toNat ≥ 0x20
  else !(graphemeExtend.covers c || unprintable.covers c)

def escape (c : Char) : List Char :=
  if c = '\x00' then ['\\', '0']
  else if c = '\t' then ['\\', 't']
  else if c = '\r' then ['\\', 'r']
  else if c = '\n' then ['\\', 'n']
  else if c = '"' then ['\\', '"']
  else if c = '\\' then ['\\', '\\']
  else if isLegible c then [c]
  else ['\\', 'u', '{'] ++ hexadecimal c.toNat ++ ['}']

def quote (text : String) : String :=
  String.ofList ('"' :: text.toList.flatMap escape ++ ['"'])

end PhrasePattern.Text
