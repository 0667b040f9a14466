import PhrasePattern.Dict

/-! What a term compiles to, and the texts that stand for terms that cannot match. -/
namespace PhrasePattern

inductive Value
  /-- A piece of a regular expression. -/
  | text (fragment : String)
  /-- Pieces of which any one may match. -/
  | alternatives (items : TextSet)
  /-- Anything at all, or nothing. -/
  | bool (b : Bool)
  /-- No restriction: the empty piece. -/
  | absent
  deriving DecidableEq

def falseSentinel : String := "_FALSE_"

def unresolvedReference (symbol : String) : String := "_" ++ symbol ++ "_NOT_FOUND_"

def unknownMacro (name : String) : String := "_" ++ name ++ "_MACRO_NOT_FOUND_"

def failedMacro (name : String) : String := "_" ++ name ++ "_MACRO_FAILED_"

def invalidReference (symbol : String) : String := "_" ++ symbol ++ "_INVALID_"

namespace Value

/-- The value as a regular expression. -/
def fragment : Value → String
  | text fragment => fragment
  | alternatives items => "(?:" ++ "|".intercalate items.items ++ ")"
  | bool true => ".*"
  | bool false => falseSentinel
  | absent => ""

end Value
end PhrasePattern
