import PhrasePattern.Dict
import PhrasePattern.Text.Category
import PhrasePattern.Text.Lowercase

/-! The words of an utterance in small letters, and the phrases of consecutive words in it. -/
namespace PhrasePattern

def isTokenChar (c : Char) : Bool := Text.isAlphanumeric c || c == '\x27'

/-- The maximal runs of characters with `p`; `current` is the run being read, backwards. -/
def runsFrom (p : Char → Bool) (current : List Char) : List Char → List (List Char)
  | [] => if current.isEmpty then [] else [current.reverse]
  | c :: rest =>
    if p c then runsFrom p (c :: current) rest
    else if current.isEmpty then runsFrom p [] rest
    else current.reverse :: runsFrom p [] rest

def wordTokens (text : String) : List String :=
  (runsFrom isTokenChar [] text.toList).map fun run => String.ofList (Text.lowercase run)

/-- The stretches of `n` consecutive elements, from left to right. -/
def windows {α : Type} (n : Nat) (items : List α) : List (List α) :=
  if n = 0 then []
  else (List.range (items.length + 1 - n)).map fun start => (items.drop start).take n

structure Ngrams where
  text : String
  /-- The length of the longest phrases that are kept. -/
  longest : Nat
  deriving DecidableEq, Repr

namespace Ngrams

def defaultLongest : Nat := 6

def ofUtterance (text : String) : Ngrams := ⟨text, defaultLongest⟩

/-- The phrases of no utterance. -/
def none : Ngrams := ⟨"", 0⟩

def tokens (g : Ngrams) : List String := wordTokens g.text

def phrase (tokens : List String) : String := " ".intercalate tokens

/-- The phrases of exactly `n` words, as they follow one another. -/
def ofLength (g : Ngrams) (n : Nat) : List String := (windows n g.tokens).map phrase

/-- All phrases of one up to `longest` words. -/
def grams (g : Ngrams) : TextSet :=
  TextSet.ofList
    ((List.range (min g.longest g.tokens.length)).flatMap fun n => g.ofLength (n + 1))

/-- Whether the words of `text` occur one after the other. -/
def contains (g : Ngrams) (text : String) : Bool :=
  phrase (wordTokens text) != "" && Dict.contains g.grams (phrase (wordTokens text))

end Ngrams
end PhrasePattern
