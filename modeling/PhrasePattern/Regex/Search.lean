import PhrasePattern.Regex.Ends

/-! Depth-first search with a limit, as fancy-regex 0.14 does it. Patterns with look-around or
back-references are matched by trying one way after the other; every time the search gives up a choice it
spends one unit of its budget, and it stops without an answer when the budget is gone. -/
namespace PhrasePattern.Regex

inductive Verdict
  | found (t : Thread) (budget : Nat)
  | failed (budget : Nat)
  | exhausted
  deriving DecidableEq, Repr, Inhabited

/-- Go on to the next choice if the first one fails. -/
def Verdict.orElse (first : Verdict) (next : Nat → Verdict) : Verdict :=
  match first with
  | failed 0 => exhausted
  | failed (budget + 1) => next budget
  | other => other

def Verdict.ofOption (budget : Nat) (next : Thread → Nat → Verdict) : Option Thread → Verdict
  | some t => next t budget
  | none => failed budget

/-- What follows a node: whether the whole pattern matches from there. -/
abbrev Rest := Thread → Nat → Verdict

section
variable (body : Thread → Nat → Rest → Verdict) (greedy : Bool)

def choose (greedy : Bool) (budget : Nat) (more stop : Nat → Verdict) : Verdict :=
  if greedy then (more budget).orElse stop else (stop budget).orElse more

def searchExactly : Nat → Thread → Nat → Rest → Verdict
  | 0, t, budget, k => k t budget
  | n + 1, t, budget, k => body t budget fun u budget => searchExactly n u budget k

def searchAtMost : Nat → Thread → Nat → Rest → Verdict
  | 0, t, budget, k => k t budget
  | n + 1, t, budget, k =>
    choose greedy budget
      (fun budget => body t budget fun u budget => searchAtMost n u budget k)
      (k t)

/-- Any number of times, at most `n`; a repetition that takes no text fails. -/
def searchMany : (n : Nat) → Thread → Nat → Rest → Verdict
  | 0, t, budget, k => k t budget
  | n + 1, t, budget, k =>
    choose greedy budget
      (fun budget => body t budget fun u budget =>
        if u.position = t.position then .failed budget else searchMany n u budget k)
      (k t)

def searchRepeated (size least : Nat) (most? : Option Nat) (t : Thread) (budget : Nat)
    (k : Rest) : Verdict :=
  searchExactly body least t budget fun u budget =>
    match most? with
    | some most => searchAtMost body greedy (most - least) u budget k
    | none => searchMany body greedy (size - u.position + 1) u budget k

end

mutual

/-- Search for a match of the node from `t` that `k` accepts. If `final` holds, `k` accepts
everything, so that a plain node need only be matched in the preferred way. -/
def Node.search (text : Subject) (final : Bool) : Node → Thread → Nat → Rest → Verdict
  | .chars set, t, budget, k => .ofOption budget k (set.step? text t)
  | .assertion test, t, budget, k =>
      if test.holds text t.position then k t budget else .failed budget
  | .capture group body, t, budget, k =>
      body.search text final t budget fun u budget => k (u.record group t.position) budget
  | .seq items, t, budget, k => searchSeq text final items t budget k
  | .alt branches, t, budget, k => searchAlt text final branches t budget k
  | .repetition body least most? greedy, t, budget, k =>
      if final && body.isPlain then
        .ofOption budget k
          (repeated (body.ends text) greedy text.size least most? t).head?
      else
        searchRepeated (body.search text false) greedy text.size least most? t budget k
  | .lookAhead negative body, t, budget, k =>
    match body.search text true t budget .found with
    | .found u budget =>
        if negative then .failed budget else k { t with captures := u.captures } budget
    | .failed budget => if negative then k t budget else .failed budget
    | .exhausted => .exhausted
  | .lookBehind negative widths branches, t, budget, k =>
    if negative then
      match searchBehind text widths branches t budget .found with
      | .found _ budget => .failed budget
      | .failed budget => k t budget
      | .exhausted => .exhausted
    else searchBehind text widths branches t budget k
  | .atomic body, t, budget, k =>
    match body.search text true t budget .found with
    | .found u budget => k u budget
    | .failed budget => .failed budget
    | .exhausted => .exhausted
  | .backreference group, t, budget, k => .ofOption budget k (repeatGroup? text group t)
  | .captured group, t, budget, k =>
      if (t.captured? group).isSome then k t budget else .failed budget

def searchSeq (text : Subject) (final : Bool) : List Node → Thread → Nat → Rest → Verdict
  | [], t, budget, k => k t budget
  | n :: others, t, budget, k =>
    if final && n.isPlain && Node.allPlain others then
      .ofOption budget k (endsSeq text others (distinct (n.ends text t))).head?
    else
      n.search text (final && others.isEmpty) t budget fun u budget =>
        searchSeq text final others u budget k

def searchAlt (text : Subject) (final : Bool) : List Node → Thread → Nat → Rest → Verdict
  | [], _, budget, _ => .failed budget
  | n :: others, t, budget, k =>
    if others.isEmpty then n.search text final t budget k
    else
      (n.search text final t budget k).orElse fun budget =>
        searchAlt text final others t budget k

/-- A branch that matches the text before the position of `t`. -/
def searchBehind (text : Subject) : List Nat → List Node → Thread → Nat → Rest → Verdict
  | width :: widths, n :: others, t, budget, k =>
    let next := fun budget => searchBehind text widths others t budget k
    if width ≤ t.position then
      match n.search text true { t with position := t.position - width } budget .found with
      | .found u budget => (k { t with captures := u.captures } budget).orElse next
      | .failed budget => next budget
      | .exhausted => .exhausted
    else next budget
  | _, _, _, budget, _ => .failed budget

end

end PhrasePattern.Regex
