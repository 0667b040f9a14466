import PhrasePattern.Regex.Engine
import PhrasePattern.Regex.Escape

/-! Character classes in brackets, by the syntax of regex, to which fancy-regex 0.14 hands them on. A class
may hold ranges, escapes, sets with a name, nested classes, and intersections, differences and symmetric
differences of such. -/
namespace PhrasePattern.Regex
variable [Engine]

inductive SetOperation
  | inter
  | diff
  | symmDiff

def SetOperation.apply : SetOperation → CharSet → CharSet → CharSet
  | inter => .inter
  | diff => .diff
  | symmDiff => .symmDiff

/-- A class whose closing bracket has not been read. -/
structure OpenClass where
  negated : Bool
  /-- The operation that waits for the items on its right, and the set on its left. -/
  pending : Option (SetOperation × CharSet)
  items : CharSet

namespace OpenClass

def add (cls : OpenClass) (s : CharSet) : OpenClass := { cls with items := .union cls.items s }

/-- What the items read so far amount to. -/
def value (caseless : Bool) (cls : OpenClass) : CharSet :=
  let fold := if caseless then CharSet.caseless else id
  match cls.pending with
  | none => fold cls.items
  | some (operation, left) => operation.apply left (fold cls.items)

def operate (caseless : Bool) (cls : OpenClass) (operation : SetOperation) : OpenClass :=
  { cls with pending := some (operation, cls.value caseless), items := .empty }

def close (caseless : Bool) (cls : OpenClass) : CharSet :=
  if cls.negated then .compl (cls.value caseless) else cls.value caseless

/-- The class that starts with `cs`, and how many characters its start takes: a caret, then
either hyphens or one closing bracket that stand for themselves. -/
def start (cs : List Char) : OpenClass × Nat :=
  let negated := cs.head? == some '^'
  let body := if negated then cs.drop 1 else cs
  let caret := if negated then 1 else 0
  let hyphens := body.takeWhile (· == '-')
  if hyphens ≠ [] then (⟨negated, none, .char '-'⟩, caret + hyphens.length)
  else if body.head? = some ']' then (⟨negated, none, .char ']'⟩, caret + 1)
  else (⟨negated, none, .empty⟩, caret)

end OpenClass

/-- A single character or a set, and the number of characters it is written with. -/
def classItem? (caseless : Bool) : List Char → Option ((Char ⊕ CharSet) × Nat)
  | [] => none
  | '\\' :: rest =>
    match Escape.read? true rest with
    | some (.char c, n) => some (.inl c, n + 1)
    | some (.set s, n) => some (.inr s, n + 1)
    | some (.property name, n) =>
        (Engine.property? name).map fun set => (.inr (set caseless), n + 1)
    | _ => none
  | c :: _ => some (.inl c, 1)

/-- The hyphen at the front of `cs` joins the ends of a range. -/
def startsRange : List Char → Bool
  | '-' :: c :: _ => c != ']' && c != '-'
  | _ => false

/-- An item or a range, and the number of characters it is written with. -/
def classRange? (caseless : Bool) (cs : List Char) : Option (CharSet × Nat) :=
  match classItem? caseless cs with
  | none => none
  | some (first, n) =>
    if startsRange (cs.drop n) then
      match first, classItem? caseless (cs.drop (n + 1)) with
      | .inl c, some (.inl d, m) => if c ≤ d then some (.range c d, n + 1 + m) else none
      | _, _ => none
    else
      match first with
      | .inl c => some (.char c, n)
      | .inr s => some (s, n)

/-- A name between colons, with a caret before it for the complement; `cs` starts after the
opening bracket. -/
def namedClass? (cs : List Char) : Option (CharSet × Nat) :=
  match cs with
  | ':' :: rest =>
    let negated := rest.head? == some '^'
    let caret := if negated then 1 else 0
    let name := (rest.drop caret).takeWhile Char.isAlpha
    if (rest.drop (caret + name.length)).take 2 = [':', ']'] then
      (CharSet.named? (String.ofList name)).map fun s =>
        (if negated then .compl s else s, caret + name.length + 3)
    else none
  | _ => none

/-- One step inside the innermost of the classes `cls :: outer`. The result is the whole class,
when its last bracket was closed, or the classes that are still open; and the number of characters
read after `c`. -/
def classStep (caseless : Bool) (cls : OpenClass) (outer : List OpenClass) (c : Char)
    (rest : List Char) : Option ((CharSet ⊕ OpenClass × List OpenClass) × Nat) :=
  if c = '[' then
    match namedClass? rest with
    | some (s, n) => some (.inr (cls.add s, outer), n)
    | none =>
      let inner := OpenClass.start rest
      some (.inr (inner.1, cls :: outer), inner.2)
  else if c = ']' then
    match outer with
    | [] => some (.inl (cls.close caseless), 0)
    | parent :: others => some (.inr (parent.add (cls.close caseless), others), 0)
  else if c = '&' && rest.head? = some '&' then
    some (.inr (cls.operate caseless .inter, outer), 1)
  else if c = '-' && rest.head? = some '-' then
    some (.inr (cls.operate caseless .diff, outer), 1)
  else if c = '~' && rest.head? = some '~' then
    some (.inr (cls.operate caseless .symmDiff, outer), 1)
  else
    (classRange? caseless (c :: rest)).map fun found => (.inr (cls.add found.1, outer), found.2 - 1)

/-- Read to the bracket that closes the outermost class, which has to be the last character. The
first `skip` characters have been dealt with. -/
def readClassFrom (caseless : Bool) (cls : OpenClass) (outer : List OpenClass) :
    (skip : Nat) → List Char → Option CharSet
  | _, [] => none
  | skip + 1, _ :: rest => readClassFrom caseless cls outer skip rest
  | 0, c :: rest =>
    match classStep caseless cls outer c rest with
    | none => none
    | some (.inl s, _) => if rest = [] then some s else none
    | some (.inr (cls, outer), skip) => readClassFrom caseless cls outer skip rest

/-- The number of characters up to the bracket that leaves none of `nested + 1` brackets open. -/
def classLengthFrom (nested : Nat) : (skip : Nat) → List Char → Option Nat
  | _, [] => none
  | skip + 1, _ :: rest => (classLengthFrom nested skip rest).map (· + 1)
  | 0, c :: rest =>
    if c = '\\' then
      match Escape.read? true rest with
      | none => none
      | some (_, n) => (classLengthFrom nested n rest).map (· + 1)
    else if c = '[' then (classLengthFrom (nested + 1) 0 rest).map (· + 1)
    else if c = ']' then
      match nested with
      | 0 => some 1
      | n + 1 => (classLengthFrom n 0 rest).map (· + 1)
    else (classLengthFrom nested 0 rest).map (· + 1)

/-- The length of the class that starts with `cs`, after its opening bracket. A closing bracket at
the very start stands for itself. -/
def classLength (cs : List Char) : Option Nat :=
  match cs with
  | '^' :: ']' :: _ => classLengthFrom 0 2 cs
  | '^' :: _ => classLengthFrom 0 1 cs
  | ']' :: _ => classLengthFrom 0 1 cs
  | _ => classLengthFrom 0 0 cs

/-- The class that starts with `cs`, after its opening bracket, and its length. -/
def readClass (caseless : Bool) (cs : List Char) : Option (CharSet × Nat) :=
  match classLength cs with
  | none => none
  | some length =>
    let first := OpenClass.start cs
    (readClassFrom caseless first.1 [] first.2 (cs.take length)).map fun s => (s, length)

end PhrasePattern.Regex
