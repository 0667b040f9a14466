import PhrasePattern.Regex.Reader
import PhrasePattern.Regex.Search

/-! Regular expressions: building one and finding its leftmost match. The two are what patterns ask of
fancy-regex; which of its limits are not spelled out here is said in `Regex.Engine`. -/
namespace PhrasePattern

structure Regex where
  root : Regex.Node
  /-- Names of groups, the latest first. Of several groups of one name the latest counts. -/
  names : List (String × Nat)
  deriving Inhabited

namespace Regex
variable [Engine]

/-- Nothing, if the text is not a regular expression. -/
def read? (source : String) : Option Regex :=
  match ({} : Reader).run 0 source.toList with
  | none => none
  | some r => r.finish?.map fun root => ⟨root, r.names⟩

/-- The most groups that are open at once in the text, if it can be read to its end. -/
def nesting? (source : String) : Option Nat :=
  (({} : Reader).run 0 source.toList).map (·.deepest)

/-- Nothing, if the text is not a regular expression or its program grows too large. -/
def build? (source : String) : Option Regex := if Engine.fits source then read? source else none

theorem build?_eq_some_iff {source : String} {regex : Regex} :
    build? source = some regex ↔ Engine.fits source = true ∧ read? source = some regex := by
  unfold build?
  split <;> simp [*]

def isWellFormed (source : String) : Bool := (build? source).isSome

/-- Where a match begins and the thread that ended it. -/
structure Match where
  start : Nat
  thread : Thread
  deriving DecidableEq, Repr

/-- The best match that begins at `position` or at one of the `n` positions after it. -/
def findFrom (root : Node) (text : Subject) (position : Nat) : (n : Nat) → Option Match
  | 0 => (root.ends text (.start position)).head?.map (⟨position, ·⟩)
  | n + 1 =>
    match root.ends text (.start position) with
    | t :: _ => some ⟨position, t⟩
    | [] => findFrom root text (position + 1) n

/-- The same by search with a budget; `none` if it was spent before there was an answer. -/
def searchFrom (root : Node) (text : Subject) (position budget : Nat) :
    (n : Nat) → Option (Option Match)
  | 0 =>
    match root.search text false (.start position) budget .found with
    | .found t _ => some (some ⟨position, t⟩)
    | .failed _ => some none
    | .exhausted => none
  | n + 1 =>
    match root.search text false (.start position) budget .found with
    | .found t _ => some (some ⟨position, t⟩)
    | .failed (left + 1) => searchFrom root text (position + 1) left n
    | _ => none

/-- The leftmost match, if there is one; `none` if the search was given up. -/
def find (regex : Regex) (text : Subject) : Option (Option Match) :=
  if regex.root.isPlain then some (findFrom regex.root text 0 text.size)
  else searchFrom regex.root text 0 Engine.searchLimit text.size

/-- The text that the group of that name captured. -/
def Match.named? (found : Match) (regex : Regex) (text : Subject) (name : String) : Option String :=
  (regex.names.lookup name).bind fun group =>
    (found.thread.captured? group).map fun span => String.ofList (span.of text)

end Regex
end PhrasePattern
