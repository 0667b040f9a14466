import PhrasePattern.Regex.Thread

/-! All the ways in which a node can match from a given thread, the preferred one first. Of the
ways that end at the same position only the preferred one is kept, so there are never more than
positions in the text, and the work stays polynomial however a pattern nests its repetitions. This
stands for the automata of regex, which get the parts of a pattern without look-around and back-references;
what comes after such a part depends on the position only. -/
namespace PhrasePattern.Regex

/-- A set of numbers, as the bits of a number. -/
abbrev Marks := Nat

def Marks.has (marks : Marks) (n : Nat) : Bool := marks.testBit n

def Marks.insert (marks : Marks) (n : Nat) : Marks := marks ||| 1 <<< n

/-- Keep the first thread for each position that is not marked. -/
def distinctFrom (seen : Marks) : List Thread → List Thread
  | [] => []
  | t :: others =>
    if seen.has t.position then distinctFrom seen others
    else t :: distinctFrom (seen.insert t.position) others

def distinct (threads : List Thread) : List Thread := distinctFrom 0 threads

/-- The preferred order of going on, `more`, and of stopping at `t`. -/
def prefer (greedy : Bool) (more : List Thread) (t : Thread) : List Thread :=
  if greedy then more ++ [t] else t :: more

section
variable (step : Thread → List Thread) (greedy : Bool)

/-- Exactly `n` times. -/
def exactly : Nat → List Thread → List Thread
  | 0, threads => threads
  | n + 1, threads => exactly n (distinct (threads.flatMap step))

/-- At most `n` times, where `seen` marks the pairs of a count and a position from which all ways
have been found already. -/
def atMostFrom (size : Nat) : (n : Nat) → Marks → Thread → Marks × List Thread
  | 0, seen, t => (seen, [t])
  | n + 1, seen, t =>
    let key := n * (size + 1) + t.position
    if seen.has key then (seen, [])
    else
      let found := (step t).foldl
        (fun (found : Marks × List Thread) u =>
          let deeper := atMostFrom size n found.1 u
          (deeper.1, found.2 ++ deeper.2))
        (seen.insert key, [])
      (found.1, prefer greedy found.2 t)

def atMost (size n : Nat) (t : Thread) : List Thread := (atMostFrom step greedy size n 0 t).2

/-- One or more times from `t`. A position is entered again only if it was not reached before by
an earlier repetition, so a repetition that takes no text is not followed by another. -/
def oneOrMoreFrom (origin : Nat) : (fuel : Nat) → Marks → Thread → Marks × List Thread
  | 0, seen, _ => (seen, [])
  | fuel + 1, seen, t =>
    (step t).foldl
      (fun (found : Marks × List Thread) u =>
        if found.1.has u.position then found
        else
          let seen := found.1.insert u.position
          let deeper :=
            if u.position = origin then (seen, [])
            else oneOrMoreFrom origin fuel seen u
          (deeper.1, found.2 ++ prefer greedy deeper.2 u))
      (seen, [])

def oneOrMore (size : Nat) (t : Thread) : List Thread :=
  (oneOrMoreFrom step greedy t.position (size + 2) 0 t).2

/-- `least` times or more, up to `most?` times. -/
def repeated (size least : Nat) (most? : Option Nat) (t : Thread) : List Thread :=
  match most?, least with
  | some most, _ =>
      distinct ((exactly step least [t]).flatMap (atMost step greedy size (most - least)))
  | none, 0 => distinct (prefer greedy (oneOrMore step greedy size t) t)
  | none, n + 1 => distinct ((exactly step n [t]).flatMap (oneOrMore step greedy size))

end

mutual

def Node.ends (text : Subject) : Node → Thread → List Thread
  | .chars set, t => (set.step? text t).toList
  | .assertion test, t => if test.holds text t.position then [t] else []
  | .capture group body, t => (body.ends text t).map fun u => u.record group t.position
  | .seq items, t => endsSeq text items [t]
  | .alt branches, t => distinct (endsAlt text branches t)
  | .repetition body least most? greedy, t =>
      repeated (body.ends text) greedy text.size least most? t
  | .lookAhead negative body, t =>
    match body.ends text t with
    | [] => if negative then [t] else []
    | u :: _ => if negative then [] else [{ t with captures := u.captures }]
  | .lookBehind negative widths branches, t =>
    match endsBehind text widths branches t with
    | [] => if negative then [t] else []
    | u :: _ => if negative then [] else [u]
  | .atomic body, t => (body.ends text t).take 1
  | .backreference group, t => (repeatGroup? text group t).toList
  | .captured group, t => if (t.captured? group).isSome then [t] else []

def endsSeq (text : Subject) : List Node → List Thread → List Thread
  | [], threads => threads
  | n :: others, threads => endsSeq text others (distinct (threads.flatMap (n.ends text)))

def endsAlt (text : Subject) : List Node → Thread → List Thread
  | [], _ => []
  | n :: others, t => n.ends text t ++ endsAlt text others t

/-- Matches of a branch that end at the position of `t`. -/
def endsBehind (text : Subject) : List Nat → List Node → Thread → List Thread
  | width :: widths, n :: others, t =>
    let here :=
      if width ≤ t.position then
        (n.ends text { t with position := t.position - width }).filter
          (·.position == t.position)
      else []
    here ++ endsBehind text widths others t
  | _, _, _ => []

end

end PhrasePattern.Regex
