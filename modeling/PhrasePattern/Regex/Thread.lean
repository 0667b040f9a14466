import PhrasePattern.Regex.Node

/-! Where a match has got to: the position reached in the text and what the groups have captured.
Positions count characters. -/
namespace PhrasePattern.Regex

/-- The text that is searched. -/
abbrev Subject := Array Char

structure Span where
  start : Nat
  stop : Nat
  deriving DecidableEq, Repr, Inhabited

def Span.of (text : Subject) (span : Span) : List Char := (text.extract span.start span.stop).toList

structure Thread where
  position : Nat
  /-- Captured spans by group, the latest first; of several for one group the latest counts. -/
  captures : List (Nat × Span)
  deriving DecidableEq, Repr, Inhabited

namespace Thread

def start (position : Nat) : Thread := ⟨position, []⟩

def advance (t : Thread) : Thread := { t with position := t.position + 1 }

/-- Group `group` ends here and began at `origin`. -/
def record (t : Thread) (group origin : Nat) : Thread :=
  { t with captures := (group, ⟨origin, t.position⟩) :: t.captures }

def captured? (t : Thread) (group : Nat) : Option Span := t.captures.lookup group

end Thread

def isWordAt (text : Subject) (position : Nat) : Bool :=
  match text[position]? with
  | some c => Text.isWordCharacter c
  | none => false

/-- Exactly one of the characters around the position belongs to a word. -/
def isBoundary (text : Subject) (position : Nat) : Bool :=
  (position != 0 && isWordAt text (position - 1)) != isWordAt text position

def Assertion.holds (text : Subject) (position : Nat) : Assertion → Bool
  | textStart => position == 0
  | textEnd => position == text.size
  | lineStart => position == 0 || text[position - 1]? == some '\n'
  | lineEnd => position == text.size || text[position]? == some '\n'
  | wordBoundary => isBoundary text position
  | notWordBoundary => !isBoundary text position

/-- One character of the set. -/
def CharSet.step? (text : Subject) (s : CharSet) (t : Thread) : Option Thread :=
  match text[t.position]? with
  | some c => if s.contains c then some t.advance else none
  | none => none

/-- The text that `group` captured, once more. Group 0, the match itself, ends only with it and
cannot be repeated. -/
def repeatGroup? (text : Subject) (group : Nat) (t : Thread) : Option Thread :=
  match if group = 0 then none else t.captured? group with
  | none => none
  | some span =>
    let length := span.stop - span.start
    if span.of text = (Span.mk t.position (t.position + length)).of text then
      some { t with position := t.position + length }
    else none

end PhrasePattern.Regex
