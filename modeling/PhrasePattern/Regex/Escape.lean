import PhrasePattern.Regex.Node
import PhrasePattern.Text.Decimal

/-! What a backslash and the characters after it stand for, by the syntax of fancy-regex 0.14. -/
namespace PhrasePattern.Regex

/-- How a text refers to a group. -/
inductive GroupRef
  | number (n : Nat)
  /-- So many groups back, counted from the next one. -/
  | back (n : Nat)
  | name (s : String)
  deriving Repr

def GroupRef.isNumber : GroupRef → Bool
  | number _ => true
  | _ => false

inductive Escape
  | char (c : Char)
  | set (s : CharSet)
  /-- A property of characters, with all that is written behind the backslash. -/
  | property (name : String)
  | assertion (test : Assertion)
  | group (ref : GroupRef)
  /-- The mark that the reported match starts here; it does not restrict what is matched. -/
  | matchStart
  deriving Repr

namespace Escape

def hexDigitValue (c : Char) : Nat :=
  if c.isDigit then c.toNat - '0'.toNat
  else if c.toNat ≥ 'a'.toNat then c.toNat - 'a'.toNat + 10
  else c.toNat - 'A'.toNat + 10

def hexValue (digits : List Char) : Nat :=
  digits.foldl (fun n c => 16 * n + hexDigitValue c) 0

def ofCodePoint? (n : Nat) : Option Char := if n.isValidChar then some (Char.ofNat n) else none

/-- The character with the given hexadecimal code: either exactly `count` digits, or one to eight
digits in braces. The second component is the number of characters read. -/
def hexChar? (count : Nat) (cs : List Char) : Option (Char × Nat) :=
  let digits := cs.take count
  if digits.length = count && digits.all CharSet.hexDigit.contains then
    (ofCodePoint? (hexValue digits)).map fun c => (c, count)
  else
    match cs with
    | '{' :: rest =>
      let digits := rest.takeWhile CharSet.hexDigit.contains
      if digits ≠ [] && digits.length ≤ 8 && (rest.drop digits.length).head? = some '}' then
        (ofCodePoint? (hexValue digits)).map fun c => (c, digits.length + 2)
      else none
    | _ => none

/-- Group names are made of these. -/
def isNameChar (c : Char) : Bool := Text.isAlphanumeric c || c == '_'

/-- A name, closed by `close`, and the number of characters read. -/
def groupName? (close : Char) (cs : List Char) : Option (String × Nat) :=
  let name := cs.takeWhile isNameChar
  if name ≠ [] && (cs.drop name.length).head? = some close then
    some (String.ofList name, name.length + 1)
  else none

/-- A name, or the number of groups to go back behind a hyphen, closed by `close`. -/
def groupRef? (close : Char) (cs : List Char) : Option (GroupRef × Nat) :=
  match cs with
  | '-' :: rest =>
    match Text.decimal? rest with
    | some (n, after) =>
      if after.head? = some close then some (.back n, rest.length - after.length + 2) else none
    | none => none
  | _ => (groupName? close cs).map fun found => (.name found.1, found.2)

/-- The number of characters that name a property: one, or all up to the brace that closes them. -/
def propertyLength? : List Char → Option Nat
  | [] => none
  | '{' :: rest =>
    let name := rest.takeWhile (· != '}')
    if (rest.drop name.length).head? = some '}' then some (name.length + 2) else none
  | _ => some 1

/-- The meaning of the characters after a backslash, and how many of them belong to it. -/
def read? (inClass : Bool) : List Char → Option (Escape × Nat)
  | [] => none
  | c :: rest =>
    if c.isDigit then
      (Text.decimal? (c :: rest)).map fun found =>
        (.group (.number found.1), (c :: rest).length - found.2.length)
    else
      match c with
      | 'd' => some (.set .digit, 1)
      | 'D' => some (.set (.compl .digit), 1)
      | 's' => some (.set .space, 1)
      | 'S' => some (.set (.compl .space), 1)
      | 'w' => some (.set .word, 1)
      | 'W' => some (.set (.compl .word), 1)
      | 'h' => some (.set .hexDigit, 1)
      | 'H' => some (.set (.compl .hexDigit), 1)
      | 'n' => some (.char '\n', 1)
      | 'r' => some (.char '\r', 1)
      | 't' => some (.char '\t', 1)
      | 'f' => some (.char '\x0c', 1)
      | 'v' => some (.char '\x0b', 1)
      | 'a' => some (.char '\x07', 1)
      | 'e' => some (.char '\x1b', 1)
      | 'p' | 'P' =>
        (propertyLength? rest).map fun n => (.property (String.ofList (c :: rest.take n)), n + 1)
      | 'x' => (hexChar? 2 rest).map fun found => (.char found.1, found.2 + 1)
      | 'u' => (hexChar? 4 rest).map fun found => (.char found.1, found.2 + 1)
      | 'U' => (hexChar? 8 rest).map fun found => (.char found.1, found.2 + 1)
      | 'b' =>
        if inClass then some (.char '\x08', 1)
        else if rest.head? = some '{' then none
        else some (.assertion .wordBoundary, 1)
      | 'B' => some (if inClass then .char c else .assertion .notWordBoundary, 1)
      | 'A' => some (if inClass then .char c else .assertion .textStart, 1)
      | 'z' => some (if inClass then .char c else .assertion .textEnd, 1)
      | 'G' => some (if inClass then .char c else .assertion .textStart, 1)
      | 'K' => some (if inClass then .char c else .matchStart, 1)
      | 'k' =>
        if inClass then some (.char c, 1)
        else
          match rest with
          | '<' :: cs => (groupRef? '>' cs).map fun found => (.group found.1, found.2 + 2)
          | '\x27' :: cs => (groupRef? '\x27' cs).map fun found => (.group found.1, found.2 + 2)
          | _ => none
      | _ => if c.isAlpha then none else some (.char c, 1)

end Escape
end PhrasePattern.Regex
