import PhrasePattern.Text.Alphabetic
import PhrasePattern.Text.Mark
import PhrasePattern.Text.Number

/-! The character classes that the scanner, the n-grams and the regular expressions ask for. -/
namespace PhrasePattern.Text

def whiteSpace : RangeTable :=
  [(0x9, 0xd), (0x20, 0x20), (0x85, 0x85), (0xa0, 0xa0), (0x1680, 0x1680), (0x2000, 0x200a),
   (0x2028, 0x2029), (0x202f, 0x202f), (0x205f, 0x205f), (0x3000, 0x3000)]

def connectorPunctuation : RangeTable :=
  [(0x5f, 0x5f), (0x203f, 0x2040), (0x2054, 0x2054), (0xfe33, 0xfe34), (0xfe4d, 0xfe4f),
   (0xff3f, 0xff3f)]

def joinControl : RangeTable := [(0x200c, 0x200d)]

def isAscii (c : Char) : Bool := c.toNat < 0x80

def isSpace (c : Char) : Bool := whiteSpace.covers c

def isDecimalDigit (c : Char) : Bool :=
  if isAscii c then c.isDigit else decimalNumber.covers c

/-- Letters and numbers of every kind. -/
def isAlphanumeric (c : Char) : Bool :=
  if isAscii c then c.isAlphanum
  else alphabetic.covers c || decimalNumber.covers c || otherNumber.covers c

/-- The characters that make up words, as the word boundaries of regular expressions see them. -/
def isWordCharacter (c : Char) : Bool :=
  if isAscii c then c.isAlphanum || c == '_'
  else alphabetic.covers c || mark.covers c || decimalNumber.covers c ||
    connectorPunctuation.covers c || joinControl.covers c

end PhrasePattern.Text
