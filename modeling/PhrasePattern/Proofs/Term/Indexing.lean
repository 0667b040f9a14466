import PhrasePattern.Proofs.Term.Failing
import PhrasePattern.Proofs.Token.Tiling

/-! The parser with an index. The lexemes of a text, the end being the last of them, are looked up by
their places, and the parser moves an index over them. Such a parser might look up a lexeme that is not
there, cut the text within a character, or go deeper and deeper into its recursions and loops: then its
run has no answer, however deep it may go. A run follows the lexemes ahead if it ends with some answer,
from wherever they begin, and it settles if it does so at every depth that is great enough. There are
two ways to look up a lexeme, and nothing is said of what they find behind the end. -/
namespace PhrasePattern

open Filter (atTop)

/-- A text and what is found at each place of its lexemes: `peek` when the parser decides what to do,
and `fetch` when it has decided. -/
structure Tape where
  input : String
  peek : Nat → Option Lexeme
  fetch : Nat → Option Lexeme

namespace Tape

/-- A run from an index to an answer and the index where it stops. There is no answer if the run asks
for something that does not exist, or would have to go deeper than it may. -/
abbrev Run (α : Type) := ExceptT SyntaxError (StateT Nat Option) α

def Run.runAt {α : Type} (r : Run α) (i : Nat) : Option (Except SyntaxError α × Nat) :=
  StateT.run (ExceptT.run r) i

def unanswered {α : Type} : Run α := liftM (none : Option α)

def lookup (find : Nat → Option Lexeme) (offset : Nat) : Run Lexeme := do
  liftM (find ((← get) + offset))

def current (s : Tape) : Run Lexeme := lookup s.peek 0

/-- Go on to the next lexeme, unless this is the end. -/
def advance (s : Tape) : Run Unit := do
  let l ← s.current
  if l.token ≠ .endOfInput then modify (· + 1)

def skipSpace (s : Tape) : Run Bool := do
  match (← s.current).token with
  | .space _ =>
    s.advance
    return true
  | _ => return false

def unexpected (s : Tape) {α : Type} (expected : String) : Run α := do
  let l ← s.current
  match l.token with
  | .endOfInput => throw ⟨l.position, .unexpectedEnd⟩
  | token => throw ⟨l.position, .unexpectedToken expected token.description⟩

/-- The bytes of the text from `start` up to `stop`, which have to be boundaries of characters. -/
def slice (s : Tape) (start stop : Nat) : Run String :=
  if start ≤ stop ∧ String.Pos.Raw.isValid s.input ⟨start⟩ ∧
      String.Pos.Raw.isValid s.input ⟨stop⟩ then
    return String.Pos.Raw.extract s.input ⟨start⟩ ⟨stop⟩
  else unanswered

def nextWord (s : Tape) : Run (Option Nat) := do
  match (← s.current).token with
  | .space _ =>
    match (← lookup s.peek 1).token with
    | .word text =>
      let next ← lookup s.fetch 1
      s.advance
      s.advance
      return some (next.position + text.utf8ByteSize)
    | _ => return none
  | _ => return none

def lastWord (s : Tape) : Nat → Nat → Run Nat
  | 0, _ => unanswered
  | depth + 1, stop => do
    match ← s.nextWord with
    | some further => s.lastWord depth further
    | none => return stop

def literal (s : Tape) (depth : Nat) : Run Term := do
  let l ← s.current
  match l.token with
  | .word text =>
    s.advance
    let stop ← s.lastWord depth (l.position + text.utf8ByteSize)
    return .literal (← s.slice l.position stop)
  | _ => s.unexpected "word"

mutual

def term (s : Tape) : Nat → Run Term
  | 0 => unanswered
  | depth + 1 => do
    let l ← s.current
    match Term.bracket? l.token with
    | some form =>
      s.advance
      let items ← s.operandList form.closing depth
      if items.length < form.minimum then
        throw ⟨l.position, .tooFewOperands form.kind form.minimum items.length⟩
      else return .group form items
    | none =>
      match l.token with
      | .minus =>
        s.advance
        let _ ← s.skipSpace
        return .negation (← s.term depth)
      | .regex body =>
        s.advance
        return .regex body
      | .variableName symbol =>
        s.advance
        if (← s.current).token = .equals then
          s.advance
          return .assignment symbol (← s.term depth)
        return .reference symbol
      | .macroName name =>
        s.advance
        if (← s.current).token = .openParen then
          s.advance
          return .macroCall name (← s.operandList .closeParen depth)
        return .macroCall name []
      | .word _ => s.literal depth
      | _ => s.unexpected "term"

def operandList (s : Tape) (close : Token) : Nat → Run (List Term)
  | 0 => unanswered
  | depth + 1 => do
    let _ ← s.skipSpace
    if (← s.current).token = close then
      s.advance
      return []
    s.operands close depth

/-- One or more operands up to and including the token `close`. -/
def operands (s : Tape) (close : Token) : Nat → Run (List Term)
  | 0 => unanswered
  | depth + 1 => do
    match ← s.operand close depth with
    | (item, true) => return [item]
    | (item, false) => return item :: (← s.operands close depth)

def operand (s : Tape) (close : Token) : Nat → Run (Term × Bool)
  | 0 => unanswered
  | depth + 1 => do
    let item ← s.term depth
    let spaced ← s.skipSpace
    let l ← s.current
    if l.token = close then
      s.advance
      return (item, true)
    if l.token = .comma then
      s.advance
      let _ ← s.skipSpace
      return (item, false)
    if spaced then return (item, false)
    s.unexpected (Token.ticked "," ++ " or " ++ close.description)

end

def nextTerm (s : Tape) (depth : Nat) : Run (Option Term) := do
  let spaced ← s.skipSpace
  if (← s.current).token = .endOfInput then return none
  if spaced then return some (← s.term depth)
  s.unexpected "whitespace or end of input"

def terms (s : Tape) : Nat → Run (List Term)
  | 0 => unanswered
  | depth + 1 => do
    match ← s.nextTerm depth with
    | some t => return t :: (← s.terms depth)
    | none => return []

def parse (s : Tape) (depth : Nat) : Run Term := do
  let _ ← s.skipSpace
  let first ← s.term depth
  return Term.ofItems first (← s.terms depth)

structure IsAt (others : List Lexeme) (i : Nat) (ahead : List Lexeme) : Prop where
  le : i ≤ others.length
  drop : others.drop i = ahead

/-- From wherever the lexemes `ahead` begin, the run ends with `answer` where `stop` begins. -/
def Follows {α : Type} (others : List Lexeme) (r : Run α) (ahead : List Lexeme)
    (answer : Except SyntaxError α) (stop : List Lexeme) : Prop :=
  ∀ i, IsAt others i ahead → ∃ j, IsAt others j stop ∧ r.runAt i = some (answer, j)

def Settles {α : Type} (others : List Lexeme) (r : Nat → Run α) (ahead : List Lexeme)
    (answer : Except SyntaxError α) (stop : List Lexeme) : Prop :=
  ∀ᶠ n in atTop, Follows others (r n) ahead answer stop

def Finds (others : List Lexeme) (finish : Nat) (find : Nat → Option Lexeme) : Prop :=
  ∀ i ≤ others.length, find i = (others ++ [⟨.endOfInput, finish⟩])[i]?

structure Holds (s : Tape) (others : List Lexeme) (finish : Nat) : Prop where
  peek : Finds others finish s.peek
  fetch : Finds others finish s.fetch
  unended : ∀ l ∈ others, l.token ≠ .endOfInput
  tiles : Grammar.Tiles s.input others

section
variable {others ahead : List Lexeme} {i : Nat}

theorem IsAt.suffix (h : IsAt others i ahead) : ahead <:+ others :=
  h.drop ▸ List.drop_suffix i others

theorem IsAt.length (h : IsAt others i ahead) : i + ahead.length = others.length := by
  have hle := h.le
  rw [← h.drop, List.length_drop]
  omega

theorem IsAt.next {l : Lexeme} {rest : List Lexeme} (h : IsAt others i (l :: rest)) :
    IsAt others (i + 1) rest := by
  have hlength := h.length
  rw [List.length_cons] at hlength
  refine ⟨by omega, ?_⟩
  rw [← List.tail_drop, h.drop, List.tail_cons]

end

section
variable {α β : Type} {others ahead behind stop : List Lexeme}

theorem runAt_bind_ok {r : Run α} (f : α → Run β) {i j : Nat} {a : α}
    (h : r.runAt i = some (.ok a, j)) : (r >>= f).runAt i = (f a).runAt j := by
  have hr : StateT.run (ExceptT.run r) i = some (.ok a, j) := h
  rw [Run.runAt, ExceptT.run_bind, StateT.run_bind, hr]
  rfl

theorem runAt_bind_error {r : Run α} (f : α → Run β) {i j : Nat} {e : SyntaxError}
    (h : r.runAt i = some (.error e, j)) : (r >>= f).runAt i = some (.error e, j) := by
  have hr : StateT.run (ExceptT.run r) i = some (.error e, j) := h
  rw [Run.runAt, ExceptT.run_bind, StateT.run_bind, hr]
  rfl

theorem follows_pure (a : α) : Follows others (pure a) ahead (.ok a) ahead :=
  fun i h => ⟨i, h, rfl⟩

theorem follows_throw (e : SyntaxError) :
    Follows others (throw e : Run α) ahead (.error e) ahead :=
  fun i h => ⟨i, h, rfl⟩

theorem Follows.bind {r : Run α} {f : α → Run β} {a : α} {answer : Except SyntaxError β}
    (h : Follows others r ahead (.ok a) behind) (hf : Follows others (f a) behind answer stop) :
    Follows others (r >>= f) ahead answer stop := by
  intro i hi
  obtain ⟨j, hj, hr⟩ := h i hi
  obtain ⟨k, hk, hfa⟩ := hf j hj
  exact ⟨k, hk, (runAt_bind_ok f hr).trans hfa⟩

theorem Follows.bind_error {r : Run α} (f : α → Run β) {e : SyntaxError}
    (h : Follows others r ahead (.error e) stop) :
    Follows others (r >>= f) ahead (.error e) stop := by
  intro i hi
  obtain ⟨j, hj, hr⟩ := h i hi
  exact ⟨j, hj, runAt_bind_error f hr⟩

theorem Follows.map {r : Run α} (f : α → β) {answer : Except SyntaxError α}
    (h : Follows others r ahead answer stop) :
    Follows others (r >>= fun a => pure (f a)) ahead (answer.map f) stop := by
  cases answer with
  | error e => exact h.bind_error _
  | ok a => exact h.bind (follows_pure (f a))

theorem eventually_of_succ {p : Nat → Prop} (h : ∀ᶠ n in atTop, p (n + 1)) :
    ∀ᶠ n in atTop, p n := by
  rw [← Filter.map_add_atTop_eq_nat 1]
  exact h

section
variable {γ : Type} {r : Nat → Run α} {q : Nat → Run β} {p : Nat → Run γ}
  {first : Except SyntaxError α} {second : Except SyntaxError β} {third : Except SyntaxError γ}
  {ahead₁ stop₁ ahead₂ stop₂ : List Lexeme}

/-- What holds at one depth of a part holds at the next depth of the whole. -/
theorem Settles.step (h : Settles others r ahead first stop)
    (hq : ∀ n, Follows others (r n) ahead first stop →
      Follows others (q (n + 1)) ahead₁ second stop₁) : Settles others q ahead₁ second stop₁ :=
  eventually_of_succ (h.mono hq)

theorem Settles.step₂ (hr : Settles others r ahead first stop)
    (hq : Settles others q ahead₁ second stop₁)
    (hp : ∀ n, Follows others (r n) ahead first stop → Follows others (q n) ahead₁ second stop₁ →
      Follows others (p (n + 1)) ahead₂ third stop₂) : Settles others p ahead₂ third stop₂ :=
  eventually_of_succ ((hr.and hq).mono fun n h => hp n h.1 h.2)

end

theorem follows_of_suffix {r : Run α} {answer : Except SyntaxError α}
    (h : ahead <:+ others → Follows others r ahead answer stop) :
    Follows others r ahead answer stop :=
  fun i hi => h hi.suffix i hi

theorem settles_of_suffix {r : Nat → Run α} {answer : Except SyntaxError α}
    (h : ahead <:+ others → Settles others r ahead answer stop) :
    Settles others r ahead answer stop := by
  by_cases hsuffix : ahead <:+ others
  · exact h hsuffix
  · exact .of_forall fun n => follows_of_suffix fun hahead => absurd hahead hsuffix

end

section
variable {s : Tape} {others ahead behind rest : List Lexeme} {finish : Nat} {l : Lexeme}

theorem Holds.unended_of_suffix (hs : s.Holds others finish) (h : l :: rest <:+ others) :
    l.token ≠ .endOfInput :=
  hs.unended l (h.subset List.mem_cons_self)

theorem runAt_lookup (find : Nat → Option Lexeme) (offset i : Nat) :
    (lookup find offset).runAt i = (find (i + offset)).map fun l => (.ok l, i) := by
  have hrun : (lookup find offset).runAt i =
      Run.runAt (liftM (find (i + offset))) i := rfl
  rw [hrun]
  cases find (i + offset) <;> rfl

theorem follows_lookup {find : Nat → Option Lexeme} (hfind : Finds others finish find)
    {offset : Nat} (h : (ahead ++ [⟨.endOfInput, finish⟩])[offset]? = some l) :
    Follows others (lookup find offset) ahead (.ok l) ahead := by
  intro i hi
  have hlength := hi.length
  have hoffset := (List.getElem?_eq_some_iff.mp h).1
  rw [List.length_append, List.length_singleton] at hoffset
  have hplace : find (i + offset) = some l := by
    rw [hfind _ (by omega), ← List.getElem?_drop, List.drop_append_of_le_length hi.le, hi.drop, h]
  refine ⟨i, hi, ?_⟩
  rw [runAt_lookup, hplace]
  rfl

theorem follows_current (hs : s.Holds others finish) :
    Follows others s.current ahead (.ok (ahead.headD ⟨.endOfInput, finish⟩)) ahead :=
  follows_lookup hs.peek (by cases ahead <;> rfl)

theorem follows_advance (hs : s.Holds others finish) :
    Follows others s.advance (l :: rest) (.ok ()) rest := by
  refine follows_of_suffix fun hsuffix => (follows_current hs).bind ?_
  rw [List.headD_cons, if_pos (hs.unended_of_suffix hsuffix)]
  exact fun i h => ⟨i + 1, h.next, rfl⟩

theorem follows_skipSpace (hs : s.Holds others finish) :
    Follows others s.skipSpace ahead (.ok (Term.startsWithSpace ahead)) (Term.skipSpace ahead) := by
  refine (follows_current hs).bind ?_
  cases ahead with
  | nil => exact follows_pure false
  | cons l rest =>
    obtain ⟨token, position⟩ := l
    cases token with
    | space text => exact (follows_advance hs).bind (follows_pure true)
    | _ => exact follows_pure false

theorem follows_unexpected (hs : s.Holds others finish) {α : Type} (expected : String) :
    Follows others (s.unexpected expected : Run α) ahead
      (.error (Term.unexpected finish expected ahead).error) ahead := by
  refine follows_of_suffix fun hsuffix => (follows_current hs).bind ?_
  cases ahead with
  | nil => exact follows_throw _
  | cons l rest =>
    have hne := hs.unended_of_suffix hsuffix
    rw [List.headD_cons]
    split
    · rename_i hend
      exact absurd hend hne
    · exact follows_throw _

theorem follows_nextWord (hs : s.Holds others finish) {gap text : String} {place position : Nat} :
    Follows others s.nextWord (⟨.space gap, place⟩ :: ⟨.word text, position⟩ :: rest)
      (.ok (some (position + text.utf8ByteSize))) rest := by
  refine (follows_current hs).bind ((follows_lookup hs.peek rfl).bind ?_)
  refine (follows_lookup hs.fetch rfl).bind ?_
  exact (follows_advance hs).bind ((follows_advance hs).bind (follows_pure _))

theorem follows_nextWord_none (hs : s.Holds others finish)
    (h : ¬ Grammar.WordFollows ahead) : Follows others s.nextWord ahead (.ok none) ahead := by
  refine (follows_current hs).bind ?_
  cases ahead with
  | nil => exact follows_pure none
  | cons l rest =>
    obtain ⟨token, position⟩ := l
    cases token with
    | space gap =>
      cases rest with
      | nil => exact (follows_lookup hs.peek rfl).bind (follows_pure none)
      | cons next more =>
        refine (follows_lookup hs.peek rfl).bind ?_
        obtain ⟨token, position⟩ := next
        cases token with
        | word text => exact absurd trivial h
        | _ => exact follows_pure none
    | _ => exact follows_pure none

theorem settles_lastWord (hs : s.Holds others finish) {stop : Nat}
    (h : Grammar.Consecutive stop ahead) :
    Settles others (s.lastWord · stop) ahead
      (.ok (stop + (Term.moreWords ahead).1.utf8ByteSize)) (Term.moreWords ahead).2 := by
  fun_induction Term.moreWords ahead generalizing stop with
  | case1 gap place text position rest ih =>
    obtain ⟨hplace, hposition, hrest⟩ := h
    simp only [Token.spelling] at hposition hrest
    rw [← hposition] at hrest
    have hstop : stop + (gap ++ text ++ (Term.moreWords rest).1).utf8ByteSize =
        position + text.utf8ByteSize + (Term.moreWords rest).1.utf8ByteSize := by
      rw [String.utf8ByteSize_append, String.utf8ByteSize_append]
      omega
    rw [hstop]
    exact (ih hrest).step fun n hmore => (follows_nextWord hs).bind hmore
  | case2 ahead hnone =>
    refine eventually_of_succ (.of_forall fun n => ?_)
    refine (follows_nextWord_none hs ?_).bind (follows_pure _)
    unfold Grammar.WordFollows
    split
    · exact absurd rfl (hnone _ _ _ _ _)
    · exact id

theorem follows_slice {start stop : Nat} {text : String}
    (h : Grammar.IsSlice s.input start stop text) :
    Follows others (s.slice start stop) ahead (.ok text) ahead := by
  obtain ⟨before, after, hinput, rfl, rfl⟩ := h
  have hstart : String.Pos.Raw.IsValid s.input ⟨before.utf8ByteSize⟩ :=
    String.Pos.Raw.isValid_iff_exists_append.mpr
      ⟨before, text ++ after, by rw [hinput, String.append_assoc], rfl⟩
  have hstop : String.Pos.Raw.IsValid s.input ⟨before.utf8ByteSize + text.utf8ByteSize⟩ :=
    String.Pos.Raw.isValid_iff_exists_append.mpr
      ⟨before ++ text, after, hinput, by rw [← String.utf8ByteSize_append]; rfl⟩
  have hslice := extract_append before text after
  rw [← hinput] at hslice
  rw [slice, if_pos ⟨Nat.le_add_right _ _, by simpa using hstart, by simpa using hstop⟩, hslice]
  exact follows_pure text

theorem settles_literal (hs : s.Holds others finish) (text : String) (position : Nat)
    (rest : List Lexeme) :
    Settles others s.literal (⟨.word text, position⟩ :: rest)
      (.ok (.literal (text ++ (Term.moreWords rest).1))) (Term.moreWords rest).2 := by
  refine settles_of_suffix fun hsuffix => ?_
  have htiles := hs.tiles.of_suffix hsuffix
  have hslice := htiles.isSlice_moreWords
  obtain ⟨before, -, hposition, hrest⟩ := htiles
  simp only [Token.spelling] at hrest
  rw [← hposition] at hrest
  rw [String.utf8ByteSize_append, ← Nat.add_assoc] at hslice
  refine (settles_lastWord hs hrest).mono fun n hmore => ?_
  exact (follows_current hs).bind <| (follows_advance hs).bind <| hmore.bind <|
    (follows_slice hslice).bind <| follows_pure _

end

end Tape
end PhrasePattern
