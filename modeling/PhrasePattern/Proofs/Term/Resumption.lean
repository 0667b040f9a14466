import Mathlib.Logic.Function.Iterate
import PhrasePattern.Proofs.Term.IndexAgreement
import PhrasePattern.Proofs.Term.WellFormed
import PhrasePattern.Proofs.Token.Resumption

/-! A parser can be called again after any answer. From the place of any lexeme each of its steps ends
at the place of a lexeme, no lower than where it began, and a step that makes a loop go round again is
at a higher place behind it, so that all loops end. After a success nothing is left, and a call that
fails where it began is made again with the same lexemes ahead. -/
namespace PhrasePattern

open Filter (atTop)

namespace Tape

/-- The lexemes of the text are found at their places. What is found anywhere else is left open. -/
structure Carries (s : Tape) (input : String) (lexemes : List Lexeme) : Prop where
  text : s.input = input
  peek : ∀ i < lexemes.length, s.peek i = lexemes[i]?
  fetch : ∀ i < lexemes.length, s.fetch i = lexemes[i]?

/-- The tape on which the last lexeme stands for whatever is behind it when the parser decides, and
nothing does when it fetches. -/
def ofLexemes (input : String) (lexemes : List Lexeme) : Tape where
  input := input
  peek i := lexemes[min i (lexemes.length - 1)]?
  fetch i := lexemes[i]?

theorem carries_ofLexemes (input : String) (lexemes : List Lexeme) :
    (ofLexemes input lexemes).Carries input lexemes where
  text := rfl
  peek _ hi := congrArg (lexemes[·]?) (Nat.min_eq_left (Nat.le_sub_one_of_lt hi))
  fetch _ _ := rfl

theorem Carries.holds {s : Tape} {input : String} {tokens : List Token} {finish : Nat}
    (h : s.Carries input (Lexeme.placed 0 tokens ++ [⟨.endOfInput, finish⟩]))
    (hscan : Token.Scannable tokens) (hspell : input.toList = Token.spell tokens) :
    s.Holds (Lexeme.placed 0 tokens) finish where
  peek i hi := h.peek i (by simpa using Nat.lt_succ_of_le hi)
  fetch i hi := h.fetch i (by simpa using Nat.lt_succ_of_le hi)
  unended l hl hend := by
    have hproper := Grammar.allProper_placed 0 hscan l hl
    rw [hend] at hproper
    exact hproper
  tiles := h.text ▸ Grammar.tiles_placed hspell

/-- At every depth that is great enough the run from `i` ends with `answer` at `j`. -/
def Ends {α : Type} (r : Nat → Run α) (i : Nat) (answer : Except SyntaxError α) (j : Nat) : Prop :=
  ∀ᶠ n in atTop, (r n).runAt i = some (answer, j)

/-- From the place of any of so many lexemes the run ends at the place of one of them, no lower, and
higher if the answer is one that `takes` tells. -/
def Moves {α : Type} (size : Nat) (r : Nat → Run α) (takes : α → Prop) : Prop :=
  ∀ i < size, ∃ answer j, Ends r i answer j ∧ i ≤ j ∧ j < size ∧
    ∀ a, answer = .ok a → takes a → i < j

section
variable {α β : Type} {size i j k : Nat} {r : Nat → Run α} {f : Nat → α → Run β}

theorem ends_pure (a : α) : Ends (fun _ => pure a) i (.ok a) i := .of_forall fun _ => rfl

theorem Ends.bind {a : α} {answer : Except SyntaxError β} (h : Ends r i (.ok a) j)
    (hf : Ends (fun n => f n a) j answer k) : Ends (fun n => r n >>= f n) i answer k :=
  (h.and hf).mono fun n h => (runAt_bind_ok (f n) h.1).trans h.2

theorem Ends.bind_error {e : SyntaxError} (h : Ends r i (.error e) j) :
    Ends (fun n => r n >>= f n) i (.error e) j :=
  h.mono fun n h => runAt_bind_error (f n) h

theorem Ends.map {answer : Except SyntaxError α} (h : Ends r i answer j) (g : α → β) :
    Ends (fun n => r n >>= fun a => pure (g a)) i (answer.map g) j := by
  cases answer with
  | error e => exact h.bind_error
  | ok a => exact h.bind (ends_pure (g a))

theorem Ends.unique {first second : Except SyntaxError α} (h : Ends r i first j)
    (h' : Ends r i second k) : first = second ∧ j = k := by
  obtain ⟨n, hfirst, hsecond⟩ := (h.and h').exists
  cases hfirst.symm.trans hsecond
  exact ⟨rfl, rfl⟩

theorem moves_of_succ {takes : α → Prop} (h : Moves size (fun n => r (n + 1)) takes) :
    Moves size r takes := by
  intro i hi
  obtain ⟨answer, j, hends, hrest⟩ := h i hi
  exact ⟨answer, j, eventually_of_succ hends, hrest⟩

theorem moves_pure {takes : α → Prop} {a : α} (h : ¬ takes a) :
    Moves size (fun _ => pure a) takes := by
  intro i hi
  refine ⟨.ok a, i, ends_pure a, Nat.le_refl i, hi, fun b hb htakes => ?_⟩
  cases hb
  exact absurd htakes h

/-- One run after another takes something if either of them does. -/
theorem Moves.bind {first : α → Prop} {second : α → β → Prop} {takes : β → Prop}
    (h : Moves size r first) (hf : ∀ a, Moves size (fun n => f n a) (second a))
    (htakes : ∀ a b, takes b → first a ∨ second a b) :
    Moves size (fun n => r n >>= f n) takes := by
  intro i hi
  obtain ⟨answer, j, hends, hij, hj, hfirst⟩ := h i hi
  cases answer with
  | error e => exact ⟨.error e, j, hends.bind_error, hij, hj, fun b hb => nomatch hb⟩
  | ok a =>
    obtain ⟨result, k, hnext, hjk, hk, hsecond⟩ := hf a j hj
    refine ⟨result, k, hends.bind hnext, hij.trans hjk, hk, fun b hb hbtakes => ?_⟩
    rcases htakes a b hbtakes with ha | hab
    · exact Nat.lt_of_lt_of_le (hfirst a rfl ha) hjk
    · exact Nat.lt_of_le_of_lt hij (hsecond b hb hab)

theorem Moves.bind_left {takes : β → Prop} (h : Moves size r fun _ => True)
    (hf : ∀ a, Moves size (fun n => f n a) fun _ => False) :
    Moves size (fun n => r n >>= f n) takes :=
  h.bind hf fun _ _ _ => .inl trivial

theorem Moves.bind_right {first : α → Prop} {takes : β → Prop} (h : Moves size r first)
    (hf : ∀ a, Moves size (fun n => f n a) takes) : Moves size (fun n => r n >>= f n) takes :=
  h.bind hf fun _ _ => .inr

theorem Moves.ite {p q : Nat → Run α} {takes : α → Prop} (c : Prop) [Decidable c]
    (hp : Moves size p takes) (hq : Moves size q takes) :
    Moves size (fun n => if c then p n else q n) takes := by
  by_cases h : c
  · simpa only [if_pos h] using hp
  · simpa only [if_neg h] using hq

/-- A loop that goes round again only after it has taken something ends. -/
theorem Moves.loop {takes : α → Prop} {loop : Nat → Run β} (h : Moves size r takes)
    (hloop : ∀ n, loop (n + 1) = r n >>= f n)
    (hf : ∀ a, (∃ b, ∀ n, f n a = pure b) ∨
      takes a ∧ ∃ g : β → β, ∀ n, f n a = loop n >>= fun b => pure (g b)) :
    Moves size loop fun _ => False := by
  intro i hi
  -- Each round leaves fewer places in front of the index.
  induction hn : size - i using Nat.strongRecOn generalizing i with
  | _ n ih =>
    obtain ⟨answer, j, hends, hij, hj, hlt⟩ := h i hi
    suffices ∃ result k, Ends (fun n => r n >>= f n) i result k ∧ j ≤ k ∧ k < size by
      obtain ⟨result, k, hround, hjk, hk⟩ := this
      simp only [← hloop] at hround
      exact ⟨result, k, eventually_of_succ hround, hij.trans hjk, hk, fun _ _ => False.elim⟩
    cases answer with
    | error e => exact ⟨.error e, j, hends.bind_error, Nat.le_refl j, hj⟩
    | ok a =>
      rcases hf a with ⟨b, hstop⟩ | ⟨htakes, g, hagain⟩
      · refine ⟨.ok b, j, hends.bind ?_, Nat.le_refl j, hj⟩
        simp only [hstop]
        exact ends_pure b
      · have hshorter := hlt a rfl htakes
        obtain ⟨result, k, hrest, hjk, hk, -⟩ := ih (size - j) (by omega) j hj rfl
        refine ⟨result.map g, k, hends.bind ?_, hjk, hk⟩
        simp only [hagain]
        exact hrest.map g

theorem Settles.ends {others ahead stop : List Lexeme} {answer : Except SyntaxError α}
    (h : Settles others r ahead answer stop) (hi : IsAt others i ahead) :
    ∃ j, IsAt others j stop ∧ Ends r i answer j := by
  obtain ⟨depth, hdepth⟩ := h.exists
  obtain ⟨j, hj, -⟩ := hdepth i hi
  refine ⟨j, hj, h.mono fun n hn => ?_⟩
  obtain ⟨k, hk, hrun⟩ := hn i hi
  have hjk : k = j := Nat.add_right_cancel (hk.length.trans hj.length.symm)
  rw [hrun, hjk]

theorem Settles.moves {others : List Lexeme} {takes : α → Prop}
    (h : ∀ ahead, ∃ answer stop, Settles others r ahead answer stop ∧
      stop.length ≤ ahead.length ∧ ∀ a, answer = .ok a → takes a → stop.length < ahead.length) :
    Moves (others.length + 1) r takes := by
  intro i hi
  have hat : IsAt others i (others.drop i) := ⟨Nat.le_of_lt_succ hi, rfl⟩
  obtain ⟨answer, stop, hsettles, hle, hlt⟩ := h (others.drop i)
  obtain ⟨j, hj, hends⟩ := hsettles.ends hat
  have hahead := hat.length
  have hstop := hj.length
  refine ⟨answer, j, hends, by omega, by omega, fun a ha htakes => ?_⟩
  have hshorter := hlt a ha htakes
  omega

end

section
variable {s : Tape} {others : List Lexeme} {finish : Nat}

theorem moves_current (hs : s.Holds others finish) :
    Moves (others.length + 1) (fun _ => s.current) fun _ => False :=
  Settles.moves fun ahead =>
    ⟨_, ahead, .of_forall fun _ => follows_current hs, Nat.le_refl _, fun _ _ => False.elim⟩

theorem moves_skipSpace (hs : s.Holds others finish) :
    Moves (others.length + 1) (fun _ => s.skipSpace) fun _ => False :=
  Settles.moves fun ahead =>
    ⟨_, _, .of_forall fun _ => follows_skipSpace hs, Term.length_skipSpace_le ahead,
      fun _ _ => False.elim⟩

theorem moves_unexpected (hs : s.Holds others finish) {α : Type} (expected : String)
    (takes : α → Prop) : Moves (others.length + 1) (fun _ => s.unexpected expected) takes :=
  Settles.moves fun ahead =>
    ⟨_, ahead, .of_forall fun _ => follows_unexpected hs expected, Nat.le_refl _,
      fun _ ha => nomatch ha⟩

theorem moves_advance (hs : s.Holds others finish) :
    Moves (others.length + 1) (fun _ => s.advance) fun _ => False := by
  refine Settles.moves fun ahead => ?_
  cases ahead with
  | nil =>
    exact ⟨.ok (), [], .of_forall fun _ => (follows_current hs).bind (follows_pure ()),
      Nat.le_refl _, fun _ _ => False.elim⟩
  | cons l rest =>
    exact ⟨.ok (), rest, .of_forall fun _ => follows_advance hs, Nat.le_succ _,
      fun _ _ => False.elim⟩

theorem moves_nextWord (hs : s.Holds others finish) :
    Moves (others.length + 1) (fun _ => s.nextWord) fun stop => stop.isSome := by
  refine Settles.moves fun ahead => ?_
  by_cases h : Grammar.WordFollows ahead
  · unfold Grammar.WordFollows at h
    split at h
    · exact ⟨_, _, .of_forall fun _ => follows_nextWord hs, Nat.le_add_right _ 2,
        fun _ _ _ => Nat.lt_add_of_pos_right Nat.two_pos⟩
    · exact h.elim
  · refine ⟨_, _, .of_forall fun _ => follows_nextWord_none hs h, Nat.le_refl _,
      fun stop hstop hsome => ?_⟩
    cases hstop
    cases hsome

theorem moves_literal (hs : s.Holds others finish) :
    Moves (others.length + 1) s.literal fun _ => True := by
  refine Settles.moves fun ahead => ?_
  have hunexpected : Follows others (s.unexpected "word" : Run Term) ahead _ ahead :=
    follows_unexpected hs "word"
  cases ahead with
  | nil =>
    exact ⟨_, _, .of_forall fun _ => (follows_current hs).bind hunexpected, Nat.le_refl _,
      fun _ ha => nomatch ha⟩
  | cons l rest =>
    obtain ⟨token, position⟩ := l
    cases token with
    | word text =>
      have hle := Nat.lt_succ_of_le (Term.length_moreWords_le rest)
      exact ⟨_, _, settles_literal hs text position rest, Nat.le_of_lt hle, fun _ _ _ => hle⟩
    | _ =>
      exact ⟨_, _, .of_forall fun _ => (follows_current hs).bind hunexpected,
        Nat.le_refl _, fun _ ha => nomatch ha⟩

theorem moves_term (hs : s.Holds others finish) :
    Moves (others.length + 1) s.term fun _ => True := by
  refine Settles.moves fun ahead => ?_
  cases hread : Term.read finish ahead with
  | ok item =>
    exact ⟨_, _, settles_of_reads hs ⟨item.shorter, hread⟩, Nat.le_of_lt item.shorter,
      fun _ _ _ => item.shorter⟩
  | error f =>
    exact ⟨_, _, settles_of_fails hs (Term.fails_of_read hread), f.within, fun _ ha => nomatch ha⟩

theorem moves_operand (hs : s.Holds others finish) (close : Token) :
    Moves (others.length + 1) (s.operand close) fun _ => True := by
  refine moves_of_succ ?_
  simp only [operand]
  refine (moves_term hs).bind_left fun item => ?_
  refine (moves_skipSpace hs).bind_right fun spaced => (moves_current hs).bind_right fun l => ?_
  refine Moves.ite _ ?_ (Moves.ite _ ?_ (Moves.ite _ ?_ ?_))
  · exact (moves_advance hs).bind_right fun _ => moves_pure not_false
  · exact (moves_advance hs).bind_right fun _ => (moves_skipSpace hs).bind_right fun _ =>
      moves_pure not_false
  · exact moves_pure not_false
  · exact moves_unexpected hs _ _

theorem moves_operands (hs : s.Holds others finish) (close : Token) :
    Moves (others.length + 1) (s.operands close) fun _ => False := by
  refine (moves_operand hs close).loop (fun n => operands.eq_2 s close n) ?_
  rintro ⟨item, closed⟩
  cases closed with
  | true => exact .inl ⟨_, fun _ => rfl⟩
  | false => exact .inr ⟨trivial, _, fun _ => rfl⟩

theorem moves_operandList (hs : s.Holds others finish) (close : Token) :
    Moves (others.length + 1) (s.operandList close) fun _ => False := by
  refine moves_of_succ ?_
  simp only [operandList]
  refine (moves_skipSpace hs).bind_right fun _ => (moves_current hs).bind_right fun l => ?_
  refine Moves.ite _ ?_ (moves_operands hs close)
  exact (moves_advance hs).bind_right fun _ => moves_pure not_false

theorem moves_nextTerm (hs : s.Holds others finish) :
    Moves (others.length + 1) s.nextTerm fun t => t.isSome := by
  refine (moves_skipSpace hs).bind_right fun spaced => (moves_current hs).bind_right fun l => ?_
  refine Moves.ite _ (moves_pure (by decide)) (Moves.ite _ ?_ (moves_unexpected hs _ _))
  exact (moves_term hs).bind_left fun t => moves_pure not_false

theorem moves_terms (hs : s.Holds others finish) :
    Moves (others.length + 1) s.terms fun _ => False := by
  refine (moves_nextTerm hs).loop (fun n => terms.eq_2 s n) fun t => ?_
  cases t with
  | none => exact .inl ⟨_, fun _ => rfl⟩
  | some t => exact .inr ⟨rfl, _, fun _ => rfl⟩

theorem moves_parse (hs : s.Holds others finish) :
    Moves (others.length + 1) s.parse fun _ => True :=
  (moves_skipSpace hs).bind_right fun _ => (moves_term hs).bind_left fun _ =>
    (moves_terms hs).bind_right fun _ => moves_pure not_false

end

/-- How the steps of the parser move the index. A term takes a lexeme or more, and so does whatever
makes a loop go round again: one more term of an expression, one more word of a literal, and one more
operand. -/
structure Steps (s : Tape) (size : Nat) : Prop where
  advance : Moves size (fun _ => s.advance) fun _ => False
  skipSpace : Moves size (fun _ => s.skipSpace) fun _ => False
  parse : Moves size s.parse fun _ => True
  term : Moves size s.term fun _ => True
  literal : Moves size s.literal fun _ => True
  operandList : ∀ close, Moves size (s.operandList close) fun _ => False
  nextTerm : Moves size s.nextTerm fun t => t.isSome
  nextWord : Moves size (fun _ => s.nextWord) fun stop => stop.isSome
  operand : ∀ close, Moves size (s.operand close) fun _ => True

theorem Holds.steps {s : Tape} {others : List Lexeme} {finish : Nat} (hs : s.Holds others finish) :
    s.Steps (others.length + 1) where
  advance := moves_advance hs
  skipSpace := moves_skipSpace hs
  parse := moves_parse hs
  term := moves_term hs
  literal := moves_literal hs
  operandList := moves_operandList hs
  nextTerm := moves_nextTerm hs
  nextWord := moves_nextWord hs
  operand := moves_operand hs

end Tape

namespace Cursor

def after (c : Cursor) (n : Nat) : Cursor := (fun c => c.parse.2)^[n] c

def answer (c : Cursor) (n : Nat) : Except SyntaxError Term := (c.after n).parse.1

/-- The place of the next lexeme, the last one being the end. -/
def index (c : Cursor) (lexemes : List Lexeme) : Nat := lexemes.length - 1 - c.ahead.length

/-- What holds of any number of calls, one after another, for the lexemes of a text. -/
structure Resumes (c : Cursor) (input : String) (lexemes : List Lexeme) : Prop where
  first : c.index lexemes = 0
  ahead : ∀ n, (c.after n).ahead = lexemes.dropLast.drop ((c.after n).index lexemes)
  bounded : ∀ n, (c.after n).index lexemes < lexemes.length
  forward : ∀ n m, n ≤ m → (c.after n).index lexemes ≤ (c.after m).index lexemes
  runs : ∀ s : Tape, s.Carries input lexemes → ∀ n,
    Tape.Ends s.parse ((c.after n).index lexemes) (c.answer n) ((c.after (n + 1)).index lexemes)
  steps : ∀ s : Tape, s.Carries input lexemes → s.Steps lexemes.length
  spent : ∀ n t, c.answer n = .ok t → ∀ m, n < m →
    c.answer m = .error ⟨input.utf8ByteSize, .unexpectedEnd⟩
  stuck : ∀ n e, c.answer n = .error e →
    (c.after (n + 1)).index lexemes = (c.after n).index lexemes → ∀ m, n ≤ m →
      c.answer m = .error e ∧ (c.after m).index lexemes = (c.after n).index lexemes

theorem finish_parse (c : Cursor) : c.parse.2.finish = c.finish := by
  unfold parse
  split <;> rfl

theorem finish_after (c : Cursor) (n : Nat) : (c.after n).finish = c.finish :=
  Function.Iterate.rec (·.finish = c.finish) rfl (fun d hd => (finish_parse d).trans hd) n

theorem parse_of_ok {c : Cursor} {t : Term} (h : c.parse.1 = .ok t) :
    c.parse.2 = ⟨[], c.finish⟩ := by
  unfold parse at h ⊢
  split at h
  · rfl
  · cases h

theorem parse_spent (finish : Nat) :
    parse ⟨[], finish⟩ = (.error ⟨finish, .unexpectedEnd⟩, ⟨[], finish⟩) := by
  have hfails : Term.ExpressionFails finish [] ⟨finish, .unexpectedEnd⟩ [] := .first .ended
  obtain ⟨h, hread⟩ := hfails.readExpression_eq
  rw [parse, hread]

theorem after_of_ok {c : Cursor} {n : Nat} {t : Term} (h : c.answer n = .ok t) (k : Nat) :
    c.after (n + 1 + k) = ⟨[], c.finish⟩ := by
  have hspent : c.after (n + 1) = ⟨[], c.finish⟩ := by
    rw [after, Function.iterate_succ_apply', ← finish_after c n]
    exact parse_of_ok h
  have hstays : Function.IsFixedPt (fun c => c.parse.2) (c.after (n + 1)) := by
    rw [hspent, Function.IsFixedPt, parse_spent]
  exact (iterate_add_of_isFixedPt hstays k).trans hspent

section
variable {others : List Lexeme} {finish : Nat} {s : Tape} {c : Cursor}

theorem index_of_isAt {i : Nat} (h : Tape.IsAt others i c.ahead) (l : Lexeme) :
    c.index (others ++ [l]) = i := by
  have hlength := h.length
  rw [index, List.length_append, List.length_singleton]
  omega

theorem ends_parse (hs : s.Holds others c.finish) {i : Nat} (h : Tape.IsAt others i c.ahead)
    (l : Lexeme) : Tape.IsAt others (c.parse.2.index (others ++ [l])) c.parse.2.ahead ∧
      Tape.Ends s.parse i c.parse.1 (c.parse.2.index (others ++ [l])) := by
  obtain ⟨j, hj, hends⟩ := (Tape.settles_parse hs c.ahead).ends h
  rw [index_of_isAt hj]
  exact ⟨hj, hends⟩

theorem isAt_after (hs : s.Holds others finish) (l : Lexeme) (n : Nat) :
    Tape.IsAt others ((after ⟨others, finish⟩ n).index (others ++ [l]))
      (after ⟨others, finish⟩ n).ahead := by
  induction n with
  | zero =>
    have hstart : Tape.IsAt others 0 (after ⟨others, finish⟩ 0).ahead := ⟨Nat.zero_le _, rfl⟩
    rw [index_of_isAt hstart]
    exact hstart
  | succ n ih =>
    have hstep := ends_parse (c := after ⟨others, finish⟩ n) (by rwa [finish_after]) ih l
    rw [after, Function.iterate_succ_apply']
    exact hstep.1

theorem ends_answer (hs : s.Holds others finish) (l : Lexeme) (n : Nat) :
    Tape.Ends s.parse ((after ⟨others, finish⟩ n).index (others ++ [l]))
      (answer ⟨others, finish⟩ n) ((after ⟨others, finish⟩ (n + 1)).index (others ++ [l])) := by
  have hsucc : after ⟨others, finish⟩ (n + 1) = (after ⟨others, finish⟩ n).parse.2 :=
    Function.iterate_succ_apply' _ _ _
  rw [hsucc]
  exact (ends_parse (by rwa [finish_after]) (isAt_after hs l n) l).2

theorem index_le_index_add (hs : s.Holds others finish) (l : Lexeme) (n k : Nat) :
    (after ⟨others, finish⟩ n).index (others ++ [l]) ≤
      (after ⟨others, finish⟩ (n + k)).index (others ++ [l]) := by
  induction k with
  | zero => exact Nat.le_refl _
  | succ k ih =>
    have hle := (isAt_after hs l (n + k)).le
    obtain ⟨answer, j, hends, hforward, -⟩ := hs.steps.parse _ (Nat.lt_succ_of_le hle)
    rw [← Nat.add_assoc, ((ends_answer hs l (n + k)).unique hends).2]
    exact ih.trans hforward

theorem after_eq_of_index_eq (hs : s.Holds others finish) (l : Lexeme) {n : Nat}
    (h : (after ⟨others, finish⟩ (n + 1)).index (others ++ [l]) =
      (after ⟨others, finish⟩ n).index (others ++ [l])) :
    after ⟨others, finish⟩ (n + 1) = after ⟨others, finish⟩ n := by
  have hahead : (after ⟨others, finish⟩ (n + 1)).ahead = (after ⟨others, finish⟩ n).ahead := by
    rw [← (isAt_after hs l (n + 1)).drop, h, (isAt_after hs l n).drop]
  have hfinish : (after ⟨others, finish⟩ (n + 1)).finish = (after ⟨others, finish⟩ n).finish := by
    rw [finish_after, finish_after]
  exact congrArg₂ Cursor.mk hahead hfinish

end

theorem resumes_of_holds {input : String} {others : List Lexeme}
    (hs : ∀ s : Tape, s.Carries input (others ++ [⟨.endOfInput, input.utf8ByteSize⟩]) →
      s.Holds others input.utf8ByteSize) :
    Resumes ⟨others, input.utf8ByteSize⟩ input
      (others ++ [⟨.endOfInput, input.utf8ByteSize⟩]) := by
  have htape := hs _ (Tape.carries_ofLexemes input _)
  constructor
  case first => exact index_of_isAt ⟨Nat.zero_le _, rfl⟩ _
  case ahead =>
    intro n
    rw [List.dropLast_concat]
    exact (isAt_after htape _ n).drop.symm
  case bounded =>
    intro n
    rw [List.length_append]
    exact Nat.lt_succ_of_le (isAt_after htape _ n).le
  case forward =>
    intro n m hm
    obtain ⟨k, rfl⟩ := Nat.exists_eq_add_of_le hm
    exact index_le_index_add htape _ n k
  case runs => exact fun s hcarries n => ends_answer (hs s hcarries) _ n
  case steps =>
    intro s hcarries
    rw [List.length_append]
    exact (hs s hcarries).steps
  case spent =>
    intro n t hok m hm
    obtain ⟨k, rfl⟩ := Nat.exists_eq_add_of_le hm
    rw [answer, after_of_ok hok, parse_spent]
  case stuck =>
    intro n e herror hindex m hm
    obtain ⟨k, rfl⟩ := Nat.exists_eq_add_of_le hm
    have hfixed : Function.IsFixedPt (fun c => c.parse.2) (after ⟨others, input.utf8ByteSize⟩ n) :=
      (Function.iterate_succ_apply' _ _ _).symm.trans (after_eq_of_index_eq htape _ hindex)
    have hstays : after ⟨others, input.utf8ByteSize⟩ (n + k) = after ⟨others, input.utf8ByteSize⟩ n :=
      iterate_add_of_isFixedPt hfixed k
    refine ⟨?_, by rw [hstays]⟩
    rw [answer, hstays]
    exact herror

end Cursor

/-- However often a parser is called, each call ends, having looked up nothing behind the end and cut
the text only between characters; its index stays at the place of a lexeme and never goes back. After
a success every call meets the end of the text, and a call that fails where it began fails in the same
way forever. -/
theorem parser_resumes (input : String) (lexemes : List Lexeme) (h : tokenize input = .ok lexemes) :
    Cursor.start input = .ok (Cursor.ofLexemes lexemes) ∧
    lexemes.getLast? = some ⟨.endOfInput, input.utf8ByteSize⟩ ∧
    (Tape.ofLexemes input lexemes).Carries input lexemes ∧
    (Cursor.ofLexemes lexemes).Resumes input lexemes := by
  refine ⟨by rw [Cursor.start, h]; rfl, ?_⟩
  obtain ⟨tokens, hscan, hspell, rfl⟩ := (tokenize_eq_ok_iff input lexemes).mp h
  refine ⟨List.getLast?_concat, Tape.carries_ofLexemes input _, ?_⟩
  rw [Grammar.ofLexemes_append_end]
  exact Cursor.resumes_of_holds fun s hcarries => hcarries.holds hscan hspell

/-- The lexemes of a text with a construct that lacks an operand and a literal behind it. -/
def laterLexemes : List Lexeme :=
  [⟨.rigidOpen, 0⟩, ⟨.word "a", 2⟩, ⟨.closeBracket, 3⟩, ⟨.space " ", 4⟩, ⟨.word "b", 5⟩,
    ⟨.space "\u3000", 6⟩, ⟨.word "c", 9⟩, ⟨.endOfInput, 10⟩]

/-- The lexemes of a text with a token that begins no term. -/
def strayLexemes : List Lexeme :=
  [⟨.regex "é", 0⟩, ⟨.space " ", 4⟩, ⟨.closeBracket, 5⟩, ⟨.endOfInput, 6⟩]

theorem parser_resumes_instances :
    (tokenize "[!a] b\u3000c" = .ok laterLexemes ∧
      ((Cursor.ofLexemes laterLexemes).after 1).index laterLexemes = 3 ∧
      (Cursor.ofLexemes laterLexemes).answer 1 = .ok (.literal "b\u3000c") ∧
      ∀ m, 1 < m → (Cursor.ofLexemes laterLexemes).answer m = .error ⟨10, .unexpectedEnd⟩) ∧
    tokenize "/é/ ]" = .ok strayLexemes ∧
      ((Cursor.ofLexemes strayLexemes).after 1).index strayLexemes = 2 ∧
      ∀ m, 1 ≤ m → (Cursor.ofLexemes strayLexemes).answer m =
        .error ⟨5, .unexpectedToken "term" "`]`"⟩ := by
  have hlater : tokenize "[!a] b\u3000c" = .ok laterLexemes := by cbv
  have hstray : tokenize "/é/ ]" = .ok strayLexemes := by cbv
  have hread : (Cursor.ofLexemes laterLexemes).answer 1 = .ok (.literal "b\u3000c") := by cbv
  have hfailed : (Cursor.ofLexemes strayLexemes).answer 1 =
      .error ⟨5, .unexpectedToken "term" "`]`"⟩ := by cbv
  have hindex : ((Cursor.ofLexemes strayLexemes).after 2).index strayLexemes =
      ((Cursor.ofLexemes strayLexemes).after 1).index strayLexemes := by cbv
  obtain ⟨-, -, -, hresumes⟩ := parser_resumes _ _ hlater
  obtain ⟨-, -, -, hstuck⟩ := parser_resumes _ _ hstray
  exact ⟨⟨hlater, by cbv, hread, hresumes.spent 1 _ hread⟩, hstray, by cbv,
    fun m hm => (hstuck.stuck 1 _ hfailed hindex m hm).1⟩

end PhrasePattern
