import PhrasePattern.Token

/-! Terms of the pattern language, and the paths that address the nodes of a term. -/
namespace PhrasePattern

/-- The four bracketed constructs. -/
inductive Bracket
  | flexible
  | rigid
  | conjunction
  | disjunction
  deriving DecidableEq, Repr

namespace Bracket

def kind : Bracket → String
  | flexible => "flexible sequence"
  | rigid => "rigid sequence"
  | conjunction => "conjunction"
  | disjunction => "disjunction"

def opening : Bracket → Token
  | flexible => .flexOpen
  | rigid => .rigidOpen
  | conjunction => .openAngle
  | disjunction => .openBrace

def closing : Bracket → Token
  | flexible => .closeBracket
  | rigid => .closeBracket
  | conjunction => .closeAngle
  | disjunction => .closeBrace

/-- The least number of operands. -/
def minimum : Bracket → Nat
  | flexible => 1
  | rigid => 2
  | conjunction => 2
  | disjunction => 2

end Bracket

inductive Term
  | group (form : Bracket) (items : List Term)
  | negation (operand : Term)
  | regex (body : String)
  | reference (symbol : String)
  | assignment (symbol : String) (operand : Term)
  | macroCall (name : String) (arguments : List Term)
  | literal (text : String)
  | concatenation (items : List Term)
  deriving BEq, Repr, Inhabited

/-- The child taken at each level, from the root downwards. -/
abbrev Path := List Nat

namespace Term

def kind : Term → String
  | group form _ => form.kind
  | negation _ => "negation"
  | regex _ => "regex"
  | reference _ => "reference"
  | assignment _ _ => "assignment"
  | macroCall _ _ => "macro"
  | literal _ => "literal"
  | concatenation _ => "concatenation"

/-- The direct children, in the order in which they are compiled. -/
def children : Term → List Term
  | group _ items => items
  | negation operand => [operand]
  | regex _ => []
  | reference _ => []
  | assignment _ operand => [operand]
  | macroCall _ arguments => arguments
  | literal _ => []
  | concatenation items => items

def isLiteral : Term → Bool
  | literal _ => true
  | _ => false

/-- The node that `path` leads to. -/
def at? (t : Term) : Path → Option Term
  | [] => some t
  | index :: rest => (t.children[index]?).bind fun child => child.at? rest

@[simp]
theorem at?_nil (t : Term) : t.at? [] = some t := by rw [at?]

@[simp]
theorem at?_cons (t : Term) (index : Nat) (rest : Path) :
    t.at? (index :: rest) = (t.children[index]?).bind fun child => child.at? rest := by rw [at?]

end Term
end PhrasePattern
