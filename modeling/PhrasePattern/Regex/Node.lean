import PhrasePattern.Regex.CharSet

/-! Regular expressions as trees: what fancy-regex 0.14 matches when it has read one. -/
namespace PhrasePattern.Regex

/-- Tests of a position that take no text. -/
inductive Assertion
  | textStart
  | textEnd
  | lineStart
  | lineEnd
  | wordBoundary
  | notWordBoundary
  deriving DecidableEq, Repr

inductive Node
  | chars (set : CharSet)
  | assertion (test : Assertion)
  | capture (group : Nat) (body : Node)
  | seq (items : List Node)
  | alt (branches : List Node)
  /-- At least `least` times and, if there is a bound, at most `most?` times. -/
  | repetition (body : Node) (least : Nat) (most? : Option Nat) (greedy : Bool)
  | lookAhead (negative : Bool) (body : Node)
  /-- Each branch matches texts of one length only, given at the same place of `widths`. -/
  | lookBehind (negative : Bool) (widths : List Nat) (branches : List Node)
  | atomic (body : Node)
  | backreference (group : Nat)
  /-- Whether the group has captured anything so far. -/
  | captured (group : Nat)
  deriving Repr, Inhabited

namespace Node

def empty : Node := seq []

def ofPieces : List Node → Node
  | [piece] => piece
  | pieces => seq pieces

def ofBranches : List Node → Node
  | [branch] => branch
  | branches => alt branches

def isEmpty : Node → Bool
  | seq [] => true
  | _ => false

/-- Whether a quantifier may follow. A sequence of one node is a condition, which has to be followed by
what depends on it. -/
def isRepeatable : Node → Bool
  | seq [] => false
  | seq [_] => false
  | assertion _ => false
  | lookAhead _ _ => false
  | lookBehind _ _ _ => false
  | captured _ => false
  | _ => true

mutual

/-- The number of characters of every text that the node matches, if it is the same for all and
can be told from the node. -/
def width? : Node → Option Nat
  | chars _ => some 1
  | assertion _ => some 0
  | capture _ body => width? body
  | seq items => widthSum? items
  | alt branches => commonWidth? branches
  | repetition body least most? _ =>
      if most? = some least then (width? body).map (least * ·) else none
  | lookAhead _ _ => some 0
  | lookBehind _ _ _ => some 0
  | atomic body => width? body
  | backreference _ => none
  | captured _ => some 0

def widthSum? : List Node → Option Nat
  | [] => some 0
  | n :: others =>
    match width? n, widthSum? others with
    | some a, some b => some (a + b)
    | _, _ => none

def commonWidth? : List Node → Option Nat
  | [] => none
  | [n] => width? n
  | n :: others =>
    match width? n, commonWidth? others with
    | some a, some b => if a = b then some a else none
    | _, _ => none

end

mutual

/-- Whether the node looks only at the text it takes: no look-around, no back-reference and
nothing that forbids to backtrack. -/
def isPlain : Node → Bool
  | chars _ => true
  | assertion _ => true
  | capture _ body => isPlain body
  | seq items => allPlain items
  | alt branches => allPlain branches
  | repetition body _ _ _ => isPlain body
  | lookAhead _ _ => false
  | lookBehind _ _ _ => false
  | atomic _ => false
  | backreference _ => false
  | captured _ => false

def allPlain : List Node → Bool
  | [] => true
  | n :: others => isPlain n && allPlain others

end

/-- A look at the text before the position; every branch needs a width. -/
def lookBehind? (negative : Bool) (body : Node) : Option Node :=
  match width? body, body with
  | some w, _ => some (lookBehind negative [w] [body])
  | none, alt branches =>
      (branches.mapM width?).map fun widths => lookBehind negative widths branches
  | none, _ => none

/-- What the branch of a choice begins with. -/
def head : Node → Node
  | seq (first :: _) => first
  | node => node

/-- The branch of a choice has nothing but the condition. -/
def isBare : Node → Bool
  | seq [_] => true
  | captured _ => true
  | _ => false

/-- A choice: `first`, which begins with the condition, or `otherwise` where the condition fails. A
condition without anything that depends on it stands for itself. -/
def choose (first otherwise : Node) : Node :=
  if first.isBare && otherwise.isEmpty then first
  else alt [first, seq [lookAhead true first.head, otherwise]]

/-- Branches as a choice; all but the first are for the case that the condition fails. -/
def choice : List Node → Node
  | [] => empty
  | [first] => choose first empty
  | first :: others => choose first (ofBranches others)

end Node
end PhrasePattern.Regex
