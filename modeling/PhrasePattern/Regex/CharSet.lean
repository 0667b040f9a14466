import PhrasePattern.Text.Category
import PhrasePattern.Text.Folding

/-! Sets of characters, as the classes of a regular expression describe them. -/
namespace PhrasePattern.Regex

inductive CharSet
  | empty
  | char (c : Char)
  | range (first last : Char)
  | digit
  | space
  | word
  | compl (s : CharSet)
  | union (s t : CharSet)
  | inter (s t : CharSet)
  /-- The set and every character that differs from a member only in case. -/
  | caseless (s : CharSet)
  deriving DecidableEq, Repr, Inhabited

namespace CharSet

def contains : CharSet → Char → Bool
  | empty, _ => false
  | char d, c => c == d
  | range first last, c => decide (first ≤ c) && decide (c ≤ last)
  | digit, c => Text.isDecimalDigit c
  | space, c => Text.isSpace c
  | word, c => Text.isWordCharacter c
  | compl s, c => !s.contains c
  | union s t, c => s.contains c || t.contains c
  | inter s t, c => s.contains c && t.contains c
  | caseless s, c => (Text.caseVariants c).any s.contains

def any : CharSet := compl empty

def notNewline : CharSet := compl (char '\n')

def diff (s t : CharSet) : CharSet := inter s (compl t)

def symmDiff (s t : CharSet) : CharSet := union (diff s t) (diff t s)

def hexDigit : CharSet := union (range '0' '9') (union (range 'A' 'F') (range 'a' 'f'))

def asciiAlpha : CharSet := union (range 'A' 'Z') (range 'a' 'z')

def asciiAlnum : CharSet := union (range '0' '9') asciiAlpha

/-- The sets that have a name between colons. -/
def named? : String → Option CharSet
  | "alnum" => some asciiAlnum
  | "alpha" => some asciiAlpha
  | "ascii" => some (range '\x00' '\x7f')
  | "blank" => some (union (char '\t') (char ' '))
  | "cntrl" => some (union (range '\x00' '\x1f') (char '\x7f'))
  | "digit" => some (range '0' '9')
  | "graph" => some (range '!' '~')
  | "lower" => some (range 'a' 'z')
  | "print" => some (range ' ' '~')
  | "punct" =>
      some (union (range '!' '/') (union (range ':' '@') (union (range '[' '\x60')
        (range '\x7b' '~'))))
  | "space" => some (union (range '\t' '\r') (char ' '))
  | "upper" => some (range 'A' 'Z')
  | "word" => some (union asciiAlnum (char '_'))
  | "xdigit" => some hexDigit
  | _ => none

end CharSet
end PhrasePattern.Regex
