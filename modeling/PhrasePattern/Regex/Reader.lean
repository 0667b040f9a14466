import PhrasePattern.Regex.ClassReader

/-! Regular expressions read from text, as fancy-regex 0.14 reads them.

The reader goes through the text from left to right and keeps what it has read of every group that
is still open. A step looks at the characters ahead, says how many of them it takes and changes
the groups accordingly, so the text is read in one pass without going back. -/
namespace PhrasePattern.Regex
variable [Engine]

structure Flags where
  caseless : Bool := false
  multiline : Bool := false
  dotAll : Bool := false
  swapGreed : Bool := false
  /-- Blanks and comments up to the end of the line are skipped. -/
  extended : Bool := false
  deriving DecidableEq, Repr

def Flags.set (flags : Flags) (value : Bool) : Char → Option Flags
  | 'i' => some { flags with caseless := value }
  | 'm' => some { flags with multiline := value }
  | 's' => some { flags with dotAll := value }
  | 'U' => some { flags with swapGreed := value }
  | 'x' => some { flags with extended := value }
  | 'u' => if value then some flags else none
  | _ => none

/-- What the parenthesis of a group says about it. -/
inductive Opener
  /-- A group that only holds its parts together; the flags are those in force before it. -/
  | plain (outside : Flags)
  | capture (group : Nat)
  | lookAhead (negative : Bool)
  | lookBehind (negative : Bool)
  | atomic
  /-- A condition, up to the parenthesis behind it. -/
  | condition
  /-- A condition with what is to match if it holds and, behind a bar, what is to match otherwise. -/
  | choice
  deriving Repr

/-- A condition does not count as a group within its choice. -/
def Opener.counts : Opener → Bool
  | condition => false
  | _ => true

/-- The parts of a group read so far. Lists have the latest element first. -/
structure Parts where
  branches : List Node := []
  pieces : List Node := []
  /-- The last piece, as long as a quantifier may still follow it. -/
  last : Option Node := none

namespace Parts

/-- The pieces of the current branch; those that match only the empty text are left out. -/
def settled (parts : Parts) : List Node :=
  match parts.last with
  | none => parts.pieces
  | some node => if node.isEmpty then parts.pieces else node :: parts.pieces

def add (parts : Parts) (node : Node) : Parts :=
  { parts with pieces := parts.settled, last := some node }

def branch (parts : Parts) : Node := Node.ofPieces parts.settled.reverse

def nextBranch (parts : Parts) : Parts := { branches := parts.branch :: parts.branches }

def node (parts : Parts) : Node := Node.ofBranches (parts.branch :: parts.branches).reverse

def choice (parts : Parts) : Node := Node.choice (parts.branch :: parts.branches).reverse

/-- A condition was read last. -/
def endsWithCondition (parts : Parts) : Bool :=
  match parts.last with
  | some (.seq [_]) => true
  | _ => false

end Parts

structure Reader where
  parts : Parts := {}
  /-- The groups around the current one, the innermost first. -/
  enclosing : List (Opener × Parts) := []
  flags : Flags := {}
  /-- The number of capturing groups opened so far. -/
  groups : Nat := 0
  /-- The names of groups, the latest first. -/
  names : List (String × Nat) := []
  /-- Whether a group was referred to by number. -/
  numbered : Bool := false
  /-- The most groups that were open at once. -/
  deepest : Nat := 0

/-- How the characters at the front are passed over. -/
inductive Skipping
  | blanks
  | line
  | comment

/-- The number of characters at the front that mean nothing: comments in parentheses and, in
extended mode, blanks and lines after a number sign. There is none if a comment is not closed. -/
def ignoredFrom (extended : Bool) : Skipping → List Char → Option Nat
  | .blanks, [] => some 0
  | .blanks, '(' :: '?' :: '#' :: rest => (ignoredFrom extended .comment rest).map (· + 3)
  | .blanks, c :: rest =>
    if extended && c == '#' then (ignoredFrom extended .line rest).map (· + 1)
    else if extended && (c == ' ' || c == '\t' || c == '\r' || c == '\n') then
      (ignoredFrom extended .blanks rest).map (· + 1)
    else some 0
  | .line, [] => some 0
  | .line, c :: rest =>
    if c = '\n' then (ignoredFrom extended .blanks rest).map (· + 1)
    else (ignoredFrom extended .line rest).map (· + 1)
  | .comment, [] => none
  | .comment, ['\\'] => none
  | .comment, '\\' :: _ :: rest => (ignoredFrom extended .comment rest).map (· + 2)
  | .comment, c :: rest =>
    if c = ')' then (ignoredFrom extended .blanks rest).map (· + 1)
    else (ignoredFrom extended .comment rest).map (· + 1)

/-- Bounds of a repetition, with `cs` starting after the opening brace, and the characters after
the closing one. -/
def bounds? (extended : Bool) (cs : List Char) : Option ((Nat × Option Nat) × List Char) := do
  let skip (cs : List Char) := (ignoredFrom extended .blanks cs).map cs.drop
  let first ← skip cs
  let (least, second) ← if first.head? = some ',' then some (0, first) else Text.decimal? first
  match ← skip second with
  | '}' :: after => some ((least, some least), after)
  | ',' :: third =>
    let fourth ← skip third
    let (most?, fifth) :=
      match Text.decimal? fourth with
      | some (n, after) => (some n, after)
      | none => (none, fourth)
    match ← skip fifth with
    | '}' :: after => some ((least, most?), after)
    | _ => none
  | _ => none

/-- Flags in parentheses, with `cs` starting after the question mark. The result has the new
flags, whether a colon ended them, and the number of characters read. -/
def readFlags (flags : Flags) (value : Bool) (count : Nat) :
    List Char → Option (Flags × Bool × Nat)
  | [] => none
  | c :: rest =>
    if c = ')' then
      if count = 0 || (!value && count = 1) then none else some (flags, false, count + 1)
    else if c = ':' then
      if !value && count = 1 then none else some (flags, true, count + 1)
    else if c = '-' then
      if value then readFlags flags false (count + 1) rest else none
    else
      match flags.set value c with
      | some flags => readFlags flags value (count + 1) rest
      | none => none

/-- The group that a condition is about. -/
def testedRef? (cs : List Char) : Option (GroupRef × Nat) :=
  match cs with
  | '<' :: rest => (Escape.groupRef? '>' rest).map fun found => (found.1, found.2 + 1)
  | '\x27' :: rest => (Escape.groupRef? '\x27' rest).map fun found => (found.1, found.2 + 1)
  | _ => (Text.decimal? cs).map fun found => (.number found.1, cs.length - found.2.length)

/-- The same, up to the parenthesis behind it. -/
def tested? (extended : Bool) (cs : List Char) : Option (GroupRef × Nat) := do
  let (ref, n) ← testedRef? cs
  let m ← ignoredFrom extended .blanks (cs.drop n)
  if (cs.drop (n + m)).head? = some ')' then some (ref, n + m + 1) else none

/-- A condition that begins with `c` is about a group. -/
def startsTest (c : Char) : Bool := c.isDigit || c == '<' || c == '\x27'

namespace Reader

/-- The most groups that may be open at once. -/
def depthLimit : Nat := 63

def level (r : Reader) : Nat := r.enclosing.countP (·.1.counts)

/-- One more group than there are around is open here. -/
def reach (r : Reader) : Reader := { r with deepest := max r.deepest (r.level + 1) }

def add (r : Reader) (node : Node) : Reader := { r with parts := r.parts.add node }

def literal (r : Reader) (c : Char) : Node :=
  .chars (if r.flags.caseless then .caseless (.char c) else .char c)

def enter (r : Reader) (opener : Opener) : Reader :=
  { r with parts := {}, enclosing := (opener, r.parts) :: r.enclosing }

def openCapture (r : Reader) (names : List (String × Nat)) : Reader :=
  { r.enter (.capture (r.groups + 1)) with groups := r.groups + 1, names := names }

/-- All that was read of the current group. A text that numbers its back-references has no named
groups. -/
def node? (r : Reader) : Option Node :=
  if r.parts.branches = [] ∧ r.numbered ∧ r.names ≠ [] then none else some r.parts.node

def closeGroup (r : Reader) : Option Reader :=
  match r.enclosing, r.node? with
  | (opener, outside) :: enclosing, some node =>
    let back : Reader := { r with parts := outside, enclosing := enclosing }
    match opener with
    | .plain flags => some { back.add node with flags := flags }
    | .capture group => some (back.add (.capture group node))
    | .lookAhead negative => some (back.add (.lookAhead negative node))
    | .lookBehind negative => (Node.lookBehind? negative node).map back.add
    | .atomic => some (back.add (.atomic node))
    | .condition => some (back.add (.seq [.atomic node]))
    | .choice =>
        if r.parts.endsWithCondition then none
        else some (back.add r.parts.choice)
  | _, _ => none

/-- Where the reported match starts, kept as what group 0 captures. -/
def startMark : Node := .atomic (.capture 0 .empty)

/-- The latest group of that name, or the group of that number. -/
def groupOf? (r : Reader) (name : String) : Option Nat :=
  match r.names.lookup name with
  | some group => some group
  | none =>
    match Text.decimal? name.toList with
    | some (group, []) => some group
    | _ => none

/-- The group that is referred to; it has to be open already. -/
def target? (r : Reader) (ref : GroupRef) : Option Nat :=
  let group? :=
    match ref with
    | .number n => some n
    | .back 0 => some r.groups
    | .back (n + 1) => if n ≤ r.groups then some (r.groups - n) else none
    | .name s => r.groupOf? s
  group?.filter (· ≤ r.groups)

def note (r : Reader) (ref : GroupRef) : Reader := { r with numbered := r.numbered || ref.isNumber }

def referTo (r : Reader) (ref : GroupRef) : Option Reader :=
  (r.target? ref).map fun group => (r.note ref).add (.backreference group)

/-- Open a choice that depends on whether a group has captured anything. -/
def test (r : Reader) (ref : GroupRef) : Option Reader :=
  (r.target? ref).map fun group => ((r.note ref).enter .choice).add (.captured group)

/-- Open a capturing group with a name that `close` ends. -/
def openNamed (r : Reader) (cs : List Char) (before : Nat) : Option (Reader × Nat) :=
  (Escape.groupName? '>' cs).map fun found =>
    (r.openCapture ((found.1, r.groups + 1) :: r.names), before + found.2)

/-- A condition, with `cs` behind its parenthesis, which `before` characters end with. -/
def choose (r : Reader) (cs : List Char) (before : Nat) : Option (Reader × Nat) :=
  if cs.head?.any startsTest then
    (tested? r.flags.extended cs).bind fun found => (r.test found.1).map (·, before + found.2)
  else some ((r.enter .choice).enter .condition, before)

/-- After an opening parenthesis. -/
def group (r : Reader) (rest : List Char) : Option (Reader × Nat) :=
  match ignoredFrom r.flags.extended .blanks rest with
  | none => none
  | some n =>
    let r := r.reach
    match rest.drop n with
    | '?' :: '=' :: _ => some (r.enter (.lookAhead false), n + 2)
    | '?' :: '!' :: _ => some (r.enter (.lookAhead true), n + 2)
    | '?' :: '<' :: '=' :: _ => some (r.enter (.lookBehind false), n + 3)
    | '?' :: '<' :: '!' :: _ => some (r.enter (.lookBehind true), n + 3)
    | '?' :: '<' :: cs => r.openNamed cs (n + 2)
    | '?' :: 'P' :: '<' :: cs => r.openNamed cs (n + 3)
    | '?' :: 'P' :: '=' :: cs =>
      match Escape.groupName? ')' cs with
      | some (name, m) => (r.referTo (.name name)).map fun r => (r, n + 3 + m)
      | none => none
    | '?' :: '>' :: _ => some (r.enter .atomic, n + 2)
    | '?' :: '(' :: cs => r.choose cs (n + 2)
    | '?' :: cs =>
      match readFlags r.flags true 0 cs with
      | none => none
      | some (flags, true, m) => some ({ r.enter (.plain r.flags) with flags := flags }, n + 1 + m)
      | some (flags, false, m) => some ({ r.add .empty with flags := flags }, n + 1 + m)
    | _ => some (r.openCapture r.names, n)

/-- Repeat the last piece; `rest` follows the quantifier. A question mark makes it lazy and a plus
sign possessive. -/
def quantify (r : Reader) (least : Nat) (most? : Option Nat) (rest : List Char) :
    Option (Reader × Nat) := do
  let piece ← r.parts.last
  let n ← ignoredFrom r.flags.extended .blanks rest
  let isLazy := (rest.drop n).head? == some '?'
  let m := if isLazy then n + 1 else n
  let isPossessive := (rest.drop m).head? == some '+'
  let node := Node.repetition piece least most? (isLazy == r.flags.swapGreed)
  let parts : Parts :=
    { r.parts with
      pieces := (if isPossessive then .atomic node else node) :: r.parts.pieces, last := none }
  if piece.isRepeatable && most?.all (least ≤ ·) then
    some ({ r with parts := parts }, if isPossessive then m + 1 else m)
  else none

def escape (r : Reader) (rest : List Char) : Option (Reader × Nat) :=
  match Escape.read? false rest with
  | none => none
  | some (.char c, n) => some (r.add (r.literal c), n)
  | some (.set s, n) => some (r.add (.chars s), n)
  | some (.assertion test, n) => some (r.add (.assertion test), n)
  | some (.property name, n) =>
      (Engine.property? name).map fun set => (r.add (.chars (set r.flags.caseless)), n)
  | some (.group ref, n) => (r.referTo ref).map (·, n)
  | some (.matchStart, n) => some (r.add startMark, n)

/-- One step at the character `c`, with `rest` after it; the number says how many characters of
`rest` it takes. -/
def step (r : Reader) (c : Char) (rest : List Char) : Option (Reader × Nat) :=
  match ignoredFrom r.flags.extended .blanks (c :: rest) with
  | none => none
  | some (n + 1) => some (r, n)
  | some 0 =>
    match c with
    | '.' => some (r.add (.chars (if r.flags.dotAll then .any else .notNewline)), 0)
    | '^' =>
      some (r.add (.assertion (if r.flags.multiline then .lineStart else .textStart)), 0)
    | '$' => some (r.add (.assertion (if r.flags.multiline then .lineEnd else .textEnd)), 0)
    | '(' => r.group rest
    | ')' => r.closeGroup.map (·, 0)
    | '|' => some ({ r with parts := r.parts.nextBranch }, 0)
    | '[' =>
      (readClass r.flags.caseless rest).map fun found => (r.add (.chars found.1), found.2)
    | '\\' => r.escape rest
    | '?' => r.quantify 0 (some 1) rest
    | '*' => r.quantify 0 none rest
    | '+' => r.quantify 1 none rest
    | '{' =>
      match r.parts.last, bounds? r.flags.extended rest with
      | some _, some ((least, most?), after) =>
        (r.quantify least most? after).map fun found =>
          (found.1, rest.length - after.length + found.2)
      | _, _ => some (r.add (r.literal '{'), 0)
    | _ => some (r.add (r.literal c), 0)

/-- Read to the end; the first `skip` characters have been dealt with. -/
def run (r : Reader) : (skip : Nat) → List Char → Option Reader
  | _, [] => some r
  | skip + 1, _ :: rest => r.run skip rest
  | 0, c :: rest =>
    match r.step c rest with
    | none => none
    | some (r, skip) => r.run skip rest

/-- The finished tree; every group has to be closed. -/
def finish? (r : Reader) : Option Node :=
  if r.enclosing.isEmpty ∧ r.deepest ≤ depthLimit then r.node? else none

end Reader
end PhrasePattern.Regex
