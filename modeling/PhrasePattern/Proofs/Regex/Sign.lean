import PhrasePattern.Regex.Reader

/-! What is written in a regular expression, apart from what a reader makes of it. At every place the
text has a sign: a character, a quantifier, the opening of a group and so on. Which one it is depends
on the text, on whether blanks are skipped, and on whether there is something to repeat. What the
reader does then depends on the sign and on what it has read before, and no longer on the text. -/
namespace PhrasePattern.Regex

inductive Sign
  /-- Characters that mean nothing. -/
  | blank
  | literal (c : Char)
  | anyChar
  | lineStart
  | lineEnd
  /-- A class in brackets, given whether capital letters are told from small ones. -/
  | charClass (set : Bool → Option CharSet)
  | escaped (e : Escape)
  | bar
  | closing
  | enter (opener : Opener)
  | capture (name? : Option String)
  /-- New flags out of the old ones, and whether a group begins with them. -/
  | flags (change : Flags → Option Flags) (opens : Bool)
  | sameAs (name : String)
  /-- A choice with a condition on a group. -/
  | test (ref : GroupRef)
  /-- A choice, up to where its condition begins. -/
  | ask
  | quantifier (least : Nat) (most? : Option Nat) (isLazy isPossessive : Bool)

namespace Sign

def isGroup : Sign → Bool
  | enter _ => true
  | capture _ => true
  | flags _ _ => true
  | sameAs _ => true
  | test _ => true
  | ask => true
  | _ => false

def isQuantifier : Sign → Bool
  | quantifier _ _ _ _ => true
  | _ => false

def named? (cs : List Char) (before : Nat) : Option (Sign × Nat) :=
  (Escape.groupName? '>' cs).map fun found => (capture (some found.1), before + found.2)

/-- A choice, with `cs` behind the parenthesis of its condition. -/
def choice? (extended : Bool) (cs : List Char) (before : Nat) : Option (Sign × Nat) :=
  if cs.head?.any startsTest then (tested? extended cs).map fun found => (test found.1, before + found.2)
  else some (ask, before)

/-- The sign of a group whose parenthesis is `n` characters before `cs`. -/
def opening? (extended : Bool) (n : Nat) : List Char → Option (Sign × Nat)
  | '?' :: '=' :: _ => some (enter (.lookAhead false), n + 2)
  | '?' :: '!' :: _ => some (enter (.lookAhead true), n + 2)
  | '?' :: '<' :: '=' :: _ => some (enter (.lookBehind false), n + 3)
  | '?' :: '<' :: '!' :: _ => some (enter (.lookBehind true), n + 3)
  | '?' :: '<' :: cs => named? cs (n + 2)
  | '?' :: 'P' :: '<' :: cs => named? cs (n + 3)
  | '?' :: 'P' :: '=' :: cs =>
    (Escape.groupName? ')' cs).map fun found => (sameAs found.1, n + 3 + found.2)
  | '?' :: '>' :: _ => some (enter .atomic, n + 2)
  | '?' :: '(' :: cs => choice? extended cs (n + 2)
  | '?' :: cs =>
    (readFlags {} true 0 cs).map fun found =>
      (flags (fun old => (readFlags old true 0 cs).map (·.1)) found.2.1, n + 1 + found.2.2)
  | _ => some (capture none, n)

def group? (extended : Bool) (rest : List Char) : Option (Sign × Nat) :=
  match ignoredFrom extended .blanks rest with
  | none => none
  | some n => opening? extended n (rest.drop n)

def quantifier? (extended : Bool) (least : Nat) (most? : Option Nat) (rest : List Char) :
    Option (Sign × Nat) :=
  match ignoredFrom extended .blanks rest with
  | none => none
  | some n =>
    let isLazy := (rest.drop n).head? == some '?'
    let m := if isLazy then n + 1 else n
    let isPossessive := (rest.drop m).head? == some '+'
    some (quantifier least most? isLazy isPossessive, if isPossessive then m + 1 else m)

def brace? (extended repeatable : Bool) (rest : List Char) : Option (Sign × Nat) :=
  match repeatable, bounds? extended rest with
  | true, some ((least, most?), after) =>
    (quantifier? extended least most? after).map fun found =>
      (found.1, rest.length - after.length + found.2)
  | _, _ => some (literal '{', 0)

/-- The sign that begins with a character that is not skipped. -/
def visible? [Engine] (extended repeatable : Bool) (c : Char) (rest : List Char) : Option (Sign × Nat) :=
  match c with
  | '.' => some (anyChar, 0)
  | '^' => some (lineStart, 0)
  | '$' => some (lineEnd, 0)
  | '(' => group? extended rest
  | ')' => some (closing, 0)
  | '|' => some (bar, 0)
  | '[' =>
    (classLength rest).map fun length =>
      (charClass fun caseless => (readClass caseless rest).map (·.1), length)
  | '\\' => (Escape.read? false rest).map fun found => (escaped found.1, found.2)
  | '?' => quantifier? extended 0 (some 1) rest
  | '*' => quantifier? extended 0 none rest
  | '+' => quantifier? extended 1 none rest
  | '{' => brace? extended repeatable rest
  | _ => some (literal c, 0)

end Sign

/-- The sign at the character `c`, with `rest` after it, and how many characters of `rest` belong
to it. -/
def sign? [Engine] (extended repeatable : Bool) (c : Char) (rest : List Char) : Option (Sign × Nat) :=
  match ignoredFrom extended .blanks (c :: rest) with
  | none => none
  | some (n + 1) => some (.blank, n)
  | some 0 => Sign.visible? extended repeatable c rest

namespace Reader
variable [Engine]

def obeyEscape (r : Reader) : Escape → Option Reader
  | .char c => some (r.add (r.literal c))
  | .set s => some (r.add (.chars s))
  | .assertion test => some (r.add (.assertion test))
  | .property name =>
      (Engine.property? name).map fun set => r.add (.chars (set r.flags.caseless))
  | .group ref => r.referTo ref
  | .matchStart => some (r.add startMark)

def repeatLast (r : Reader) (least : Nat) (most? : Option Nat) (isLazy isPossessive : Bool) :
    Option Reader :=
  match r.parts.last with
  | none => none
  | some piece =>
    let node := Node.repetition piece least most? (isLazy == r.flags.swapGreed)
    let parts : Parts :=
      { r.parts with
        pieces := (if isPossessive then .atomic node else node) :: r.parts.pieces, last := none }
    if piece.isRepeatable && most?.all (least ≤ ·) then some { r with parts := parts } else none

/-- What the reader makes of a sign, apart from counting the groups that are open. -/
def obey (r : Reader) : Sign → Option Reader
  | .blank => some r
  | .literal c => some (r.add (r.literal c))
  | .anyChar => some (r.add (.chars (if r.flags.dotAll then .any else .notNewline)))
  | .lineStart =>
      some (r.add (.assertion (if r.flags.multiline then .lineStart else .textStart)))
  | .lineEnd => some (r.add (.assertion (if r.flags.multiline then .lineEnd else .textEnd)))
  | .charClass set => (set r.flags.caseless).map fun s => r.add (.chars s)
  | .escaped e => r.obeyEscape e
  | .bar => some { r with parts := r.parts.nextBranch }
  | .closing => r.closeGroup
  | .enter opener => some (r.enter opener)
  | .capture none => some (r.openCapture r.names)
  | .capture (some name) => some (r.openCapture ((name, r.groups + 1) :: r.names))
  | .flags change opens =>
      (change r.flags).map fun flags =>
        if opens then { r.enter (.plain r.flags) with flags := flags }
        else { r.add .empty with flags := flags }
  | .sameAs name => r.referTo (.name name)
  | .test ref => r.test ref
  | .ask => some ((r.enter .choice).enter .condition)
  | .quantifier least most? isLazy isPossessive => r.repeatLast least most? isLazy isPossessive

def follow (r : Reader) (s : Sign) : Option Reader := (if s.isGroup then r.reach else r).obey s

end Reader

theorem Flags.set_isSome (old flags : Flags) (value : Bool) (c : Char) :
    (old.set value c).isSome = (flags.set value c).isSome := by
  unfold Flags.set
  split
  case h_6 => split <;> rfl
  all_goals rfl

theorem readFlags_map_snd (old flags : Flags) (value : Bool) (count : Nat) (cs : List Char) :
    (readFlags old value count cs).map (·.2) = (readFlags flags value count cs).map (·.2) := by
  induction cs generalizing old flags value count with
  | nil => rfl
  | cons c rest ih =>
    simp only [readFlags]
    split
    · split <;> rfl
    · split
      · split <;> rfl
      · split
        · split
          · exact ih ..
          · rfl
        · have hset := Flags.set_isSome old flags value c
          cases hold : old.set value c with
          | none =>
            rw [hold, Option.isSome_none, eq_comm, Option.isSome_eq_false_iff, Option.isNone_iff_eq_none] at hset
            rw [hset]
          | some new =>
            rw [hold, Option.isSome_some, eq_comm] at hset
            obtain ⟨other, hother⟩ := Option.isSome_iff_exists.mp hset
            rw [hother]
            exact ih ..

namespace Reader

theorem isGroup_of_group? {extended : Bool} {rest : List Char} {found : Sign × Nat}
    (h : Sign.group? extended rest = some found) : found.1.isGroup = true := by
  unfold Sign.group? at h
  split at h
  · cases h
  · unfold Sign.opening? Sign.named? Sign.choice? at h
    split at h
    case h_5 | h_6 | h_7 | h_10 =>
      obtain ⟨-, -, rfl⟩ := Option.map_eq_some_iff.mp h
      rfl
    case h_9 =>
      split at h
      · obtain ⟨-, -, rfl⟩ := Option.map_eq_some_iff.mp h
        rfl
      · obtain rfl := Option.some.inj h
        rfl
    all_goals
      obtain rfl := Option.some.inj h
      rfl

theorem isQuantifier_of_quantifier? {extended : Bool} {least : Nat} {most? : Option Nat}
    {rest : List Char} {found : Sign × Nat}
    (h : Sign.quantifier? extended least most? rest = some found) :
    found.1.isQuantifier = true := by
  unfold Sign.quantifier? at h
  split at h
  · cases h
  · obtain rfl := Option.some.inj h
    rfl

theorem not_isGroup_of_isQuantifier {s : Sign} (h : s.isQuantifier = true) : s.isGroup = false := by
  cases s <;> first | rfl | cases h

variable [Engine] (r : Reader)

theorem quantify_eq (least : Nat) (most? : Option Nat) (rest : List Char) :
    r.quantify least most? rest =
      (Sign.quantifier? r.flags.extended least most? rest).bind fun found =>
        (r.obey found.1).map (·, found.2) := by
  unfold quantify Sign.quantifier?
  cases hlast : r.parts.last with
  | none =>
    cases ignoredFrom r.flags.extended .blanks rest with
    | none => rfl
    | some n => simp [obey, repeatLast, hlast]
  | some piece =>
    cases ignoredFrom r.flags.extended .blanks rest with
    | none => rfl
    | some n =>
      simp only [Option.bind_eq_bind, Option.bind_some, obey, repeatLast, hlast]
      split <;> rfl

theorem follow_of_not_isGroup {s : Sign} (h : s.isGroup = false) : r.follow s = r.obey s := by
  simp [follow, h]

theorem openNamed_eq (cs : List Char) (before : Nat) :
    r.openNamed cs before =
      (Sign.named? cs before).bind fun found => (r.obey found.1).map (·, found.2) := by
  unfold openNamed Sign.named?
  cases Escape.groupName? '>' cs <;> rfl

/-- Flags by themselves or at the front of a group. -/
theorem obey_flags (cs : List Char) (before : Nat) :
    (match readFlags r.flags true 0 cs with
      | none => none
      | some (flags, true, m) =>
        some ({ r.enter (.plain r.flags) with flags := flags }, before + m)
      | some (flags, false, m) => some ({ r.add .empty with flags := flags }, before + m)) =
      ((readFlags {} true 0 cs).map fun found =>
        (Sign.flags (fun old => (readFlags old true 0 cs).map (·.1)) found.2.1,
          before + found.2.2)).bind fun found => (r.obey found.1).map (·, found.2) := by
  have hsnd := readFlags_map_snd r.flags {} true 0 cs
  cases hnew : readFlags r.flags true 0 cs with
  | none =>
    rw [hnew, Option.map_none, eq_comm, Option.map_eq_none_iff] at hsnd
    simp [hsnd]
  | some new =>
    rw [hnew, Option.map_some, eq_comm] at hsnd
    obtain ⟨found, hfound, heq⟩ := Option.map_eq_some_iff.mp hsnd
    obtain ⟨flags, colon, m⟩ := new
    rw [hfound]
    cases colon <;> simp [obey, hnew, heq]

theorem choose_eq (cs : List Char) (before : Nat) :
    r.choose cs before =
      (Sign.choice? r.flags.extended cs before).bind fun found => (r.obey found.1).map (·, found.2) := by
  unfold choose Sign.choice?
  split
  · cases tested? r.flags.extended cs <;> rfl
  · rfl

theorem group_eq (rest : List Char) :
    r.group rest = (Sign.group? r.flags.extended rest).bind fun found =>
      (r.follow found.1).map (·, found.2) := by
  have hfollow : ∀ found, Sign.group? r.flags.extended rest = some found →
      r.follow found.1 = r.reach.obey found.1 := fun found hfound => by
    rw [follow, if_pos (isGroup_of_group? hfound)]
  rw [Option.bind_congr fun found hfound => by rw [hfollow found hfound]]
  unfold group Sign.group?
  cases ignoredFrom r.flags.extended .blanks rest with
  | none => rfl
  | some n =>
    dsimp only
    generalize rest.drop n = cs
    unfold Sign.opening?
    split
    case h_5 cs _ _ => simpa using r.reach.openNamed_eq cs (n + 2)
    case h_6 cs => simpa using r.reach.openNamed_eq cs (n + 3)
    case h_7 cs =>
      show _ = ((Escape.groupName? ')' cs).map fun found => (Sign.sameAs found.1, n + 3 + found.2)).bind _
      cases Escape.groupName? ')' cs <;> rfl
    case h_9 cs => exact r.reach.choose_eq cs (n + 2)
    case h_10 cs _ _ _ _ _ _ _ _ _ =>
      refine (r.reach.obey_flags cs (n + 1)).trans ?_
      simp
    case h_11 => simp [obey]
    all_goals rfl

theorem quantify_eq_follow (least : Nat) (most? : Option Nat) (rest : List Char) :
    r.quantify least most? rest =
      (Sign.quantifier? r.flags.extended least most? rest).bind fun found =>
        (r.follow found.1).map (·, found.2) := by
  rw [quantify_eq]
  cases hsign : Sign.quantifier? r.flags.extended least most? rest with
  | none => rfl
  | some found =>
    have hgroup := not_isGroup_of_isQuantifier (isQuantifier_of_quantifier? hsign)
    rw [Option.bind_some, Option.bind_some, r.follow_of_not_isGroup hgroup]

theorem brace_eq (rest : List Char) :
    (match r.parts.last, bounds? r.flags.extended rest with
      | some _, some ((least, most?), after) =>
        (r.quantify least most? after).map fun found =>
          (found.1, rest.length - after.length + found.2)
      | _, _ => some (r.add (r.literal '{'), 0)) =
      (Sign.brace? r.flags.extended r.parts.last.isSome rest).bind fun found =>
        (r.follow found.1).map (·, found.2) := by
  unfold Sign.brace?
  cases r.parts.last with
  | none => rfl
  | some piece =>
    cases bounds? r.flags.extended rest with
    | none => rfl
    | some found =>
      obtain ⟨⟨least, most?⟩, after⟩ := found
      simp only [Option.isSome_some, quantify_eq_follow]
      cases Sign.quantifier? r.flags.extended least most? after with
      | none => rfl
      | some sign => simp [Function.comp_def]

theorem escape_eq (rest : List Char) :
    r.escape rest = ((Escape.read? false rest).map fun found =>
      (Sign.escaped found.1, found.2)).bind fun found => (r.follow found.1).map (·, found.2) := by
  unfold escape
  cases Escape.read? false rest with
  | none => rfl
  | some found =>
    obtain ⟨e, n⟩ := found
    cases e with
    | property name => cases hset : Engine.property? name <;> simp [follow, Sign.isGroup, obey, obeyEscape, hset]
    | _ => rfl

theorem class_eq (rest : List Char) :
    ((readClass r.flags.caseless rest).map fun found => (r.add (.chars found.1), found.2)) =
      ((classLength rest).map fun length =>
        (Sign.charClass fun caseless => (readClass caseless rest).map (·.1), length)).bind
          fun found => (r.follow found.1).map (·, found.2) := by
  have hfollow : ∀ set, r.follow (.charClass set) = r.obey (.charClass set) :=
    fun _ => r.follow_of_not_isGroup rfl
  unfold readClass
  cases classLength rest with
  | none => rfl
  | some length => simp [hfollow, obey, Function.comp_def]

theorem step_eq (c : Char) (rest : List Char) :
    r.step c rest = (sign? r.flags.extended r.parts.last.isSome c rest).bind fun found =>
      (r.follow found.1).map (·, found.2) := by
  unfold step sign?
  cases ignoredFrom r.flags.extended .blanks (c :: rest) with
  | none => rfl
  | some n =>
    cases n with
    | succ n => rfl
    | zero =>
      dsimp only [Sign.visible?]
      split
      case h_4 => exact r.group_eq rest
      case h_7 => exact r.class_eq rest
      case h_8 => exact r.escape_eq rest
      case h_9 | h_10 | h_11 => exact r.quantify_eq_follow _ _ rest
      case h_12 => exact r.brace_eq rest
      case h_13 => simp [follow, Sign.isGroup, obey]
      all_goals rfl

end Reader
end PhrasePattern.Regex
