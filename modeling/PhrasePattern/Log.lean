/-! The records that compiling and matching leave behind. -/
namespace PhrasePattern

inductive Level
  | warn
  | debug
  | trace
  deriving DecidableEq, Repr

namespace Level

def name : Level → String
  | warn => "WARN"
  | debug => "DEBUG"
  | trace => "TRACE"

def rank : Level → Nat
  | warn => 0
  | debug => 1
  | trace => 2

end Level

inductive FieldValue
  | text (s : String)
  | flag (b : Bool)
  deriving DecidableEq, Repr

/-- Something that happened, or the entry into a stretch of work. -/
structure LogRecord where
  isSpan : Bool
  level : Level
  text : String
  fields : List (String × FieldValue)
  deriving DecidableEq, Repr

abbrev Log := List LogRecord

namespace Log

def event (level : Level) (text : String) (fields : List (String × String)) : Log :=
  [⟨false, level, text, fields.map fun field => (field.1, .text field.2)⟩]

def span (text : String) (fields : List (String × String)) : Log :=
  [⟨true, .debug, text, fields.map fun field => (field.1, .text field.2)⟩]

/-- The records of that level and of the more urgent ones. -/
def upTo (log : Log) (level : Level) : Log := log.filter (·.level.rank ≤ level.rank)

end Log
end PhrasePattern
