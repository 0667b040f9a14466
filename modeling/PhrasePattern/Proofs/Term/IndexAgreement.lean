import PhrasePattern.Proofs.Term.Indexing

/-! The parser with an index agrees with the parser that takes lexemes off a list. From wherever the
lexemes ahead begin, it ends, with the same answer, and its index is then where the lexemes that are
left begin. What a construct gives is told once, for all answers to its parts. -/
namespace PhrasePattern.Tape

section
variable {s : Tape} {others ahead behind rest stop : List Lexeme} {finish : Nat} {l : Lexeme}
  {close : Token} {t : Term}

-- What a construct gives for an answer to its part, be it read or not. The part may go less deep,
-- by one; `term` at a depth that is not zero is its first step and what follows it, by definition.

theorem Settles.group (hs : s.Holds others finish) {form : Bracket}
    {answer : Except SyntaxError (List Term)}
    (h : Settles others (s.operandList form.closing) rest answer stop)
    (opens : l.token = form.opening) :
    Settles others s.term (l :: rest) (answer.bind fun items =>
      if items.length < form.minimum then
        .error ⟨l.position, .tooFewOperands form.kind form.minimum items.length⟩
      else .ok (.group form items)) stop := by
  refine h.step fun n h => ?_
  refine (follows_current hs).bind ?_
  rw [List.headD_cons, Term.bracket?_eq_some_iff.mpr opens]
  refine (follows_advance hs).bind ?_
  cases answer with
  | error e => exact h.bind_error _
  | ok items =>
    refine h.bind ?_
    dsimp only [Except.bind]
    split
    · exact follows_throw _
    · exact follows_pure _

theorem Settles.negation (hs : s.Holds others finish) {position : Nat}
    {answer : Except SyntaxError Term}
    (h : Settles others s.term (Term.skipSpace rest) answer stop) :
    Settles others s.term (⟨.minus, position⟩ :: rest) (answer.map .negation) stop := by
  refine h.step fun n h => ?_
  exact (follows_current hs).bind <| (follows_advance hs).bind <| (follows_skipSpace hs).bind <|
    h.map Term.negation

theorem settles_regex (hs : s.Holds others finish) {body : String} {position : Nat} :
    Settles others s.term (⟨.regex body, position⟩ :: rest) (.ok (.regex body)) rest := by
  refine eventually_of_succ (.of_forall fun n => ?_)
  exact (follows_current hs).bind <| (follows_advance hs).bind <| follows_pure _

theorem Settles.assignment (hs : s.Holds others finish) {symbol : String} {position place : Nat}
    {answer : Except SyntaxError Term} (h : Settles others s.term rest answer stop) :
    Settles others s.term (⟨.variableName symbol, position⟩ :: ⟨.equals, place⟩ :: rest)
      (answer.map (.assignment symbol)) stop := by
  refine h.step fun n h => ?_
  exact (follows_current hs).bind <| (follows_advance hs).bind <| (follows_current hs).bind <|
    (follows_advance hs).bind <| h.map (Term.assignment symbol)

theorem headD_ne {token : Token} (hend : token ≠ .endOfInput)
    (h : ∀ position body, ahead ≠ ⟨token, position⟩ :: body) :
    (ahead.headD ⟨.endOfInput, finish⟩).token ≠ token := by
  cases ahead with
  | nil => exact hend.symm
  | cons l rest =>
    obtain ⟨first, position⟩ := l
    rintro rfl
    exact h position rest rfl

theorem settles_reference (hs : s.Holds others finish) {symbol : String} {position : Nat}
    (alone : ∀ place body, rest ≠ ⟨.equals, place⟩ :: body) :
    Settles others s.term (⟨.variableName symbol, position⟩ :: rest) (.ok (.reference symbol))
      rest := by
  refine eventually_of_succ (.of_forall fun n => ?_)
  refine (follows_current hs).bind ((follows_advance hs).bind ((follows_current hs).bind ?_))
  rw [if_neg (headD_ne (by decide) alone)]
  exact follows_pure _

theorem Settles.arguments (hs : s.Holds others finish) {name : String} {position place : Nat}
    {answer : Except SyntaxError (List Term)}
    (h : Settles others (s.operandList .closeParen) rest answer stop) :
    Settles others s.term (⟨.macroName name, position⟩ :: ⟨.openParen, place⟩ :: rest)
      (answer.map (.macroCall name)) stop := by
  refine h.step fun n h => ?_
  exact (follows_current hs).bind <| (follows_advance hs).bind <| (follows_current hs).bind <|
    (follows_advance hs).bind <| h.map (Term.macroCall name)

theorem settles_macroName (hs : s.Holds others finish) {name : String} {position : Nat}
    (alone : ∀ place body, rest ≠ ⟨.openParen, place⟩ :: body) :
    Settles others s.term (⟨.macroName name, position⟩ :: rest) (.ok (.macroCall name []))
      rest := by
  refine eventually_of_succ (.of_forall fun n => ?_)
  refine (follows_current hs).bind ((follows_advance hs).bind ((follows_current hs).bind ?_))
  rw [if_neg (headD_ne (by decide) alone)]
  exact follows_pure _

theorem settles_words (hs : s.Holds others finish) {text : String} {position : Nat} :
    Settles others s.term (⟨.word text, position⟩ :: rest)
      (.ok (.literal (text ++ (Term.moreWords rest).1))) (Term.moreWords rest).2 := by
  refine (settles_literal hs text position rest).step fun n h => ?_
  exact (follows_current hs).bind h

theorem settles_term_stray (hs : s.Holds others finish)
    (bad : Grammar.startsTerm (ahead.headD ⟨.endOfInput, finish⟩).token = false) :
    Settles others s.term ahead (.error (Term.unexpected finish "term" ahead).error) ahead := by
  refine eventually_of_succ (.of_forall fun n => ?_)
  refine (follows_current hs).bind ?_
  generalize ahead.headD ⟨.endOfInput, finish⟩ = l at bad
  obtain ⟨token, position⟩ := l
  have hunexpected : Follows others (s.unexpected "term" : Run Term) ahead _ ahead :=
    follows_unexpected hs "term"
  cases token <;> first | exact hunexpected | cases bad

theorem Settles.operandList (hs : s.Holds others finish) {answer : Except SyntaxError (List Term)}
    (h : Settles others (s.operands close) (Term.skipSpace ahead) answer stop)
    (unclosed : ((Term.skipSpace ahead).headD ⟨.endOfInput, finish⟩).token ≠ close) :
    Settles others (s.operandList close) ahead answer stop := by
  refine h.step fun n h => ?_
  rw [Tape.operandList]
  refine (follows_skipSpace hs).bind ((follows_current hs).bind ?_)
  rw [if_neg unclosed]
  exact h

theorem settles_operandList_nil (hs : s.Holds others finish)
    (skip : Term.skipSpace ahead = l :: rest) (closes : l.token = close) :
    Settles others (s.operandList close) ahead (.ok []) rest := by
  refine eventually_of_succ (.of_forall fun n => ?_)
  rw [operandList]
  refine (follows_skipSpace hs).bind ?_
  rw [skip]
  refine (follows_current hs).bind ?_
  rw [List.headD_cons, if_pos closes]
  exact (follows_advance hs).bind (follows_pure _)

theorem Settles.operands_last (hs : s.Holds others finish)
    (h : Settles others s.term ahead (.ok t) behind) (skip : Term.skipSpace behind = l :: rest)
    (closes : l.token = close) : Settles others (s.operands close) ahead (.ok [t]) rest := by
  have hoperand : Settles others (s.operand close) ahead (.ok (t, true)) rest := by
    refine h.step fun n h => ?_
    rw [operand]
    refine h.bind ((follows_skipSpace hs).bind ?_)
    rw [skip]
    refine (follows_current hs).bind ?_
    rw [List.headD_cons, if_pos closes]
    exact (follows_advance hs).bind (follows_pure _)
  refine hoperand.step fun n h => ?_
  rw [operands]
  exact h.bind (follows_pure _)

theorem Settles.operands_more {answer : Except SyntaxError (List Term)}
    (h : Settles others (s.operand close) ahead (.ok (t, false)) behind)
    (hmore : Settles others (s.operands close) behind answer stop) :
    Settles others (s.operands close) ahead (answer.map (t :: ·)) stop := by
  refine h.step₂ hmore fun n h hmore => ?_
  rw [operands]
  exact h.bind (hmore.map (t :: ·))

theorem Settles.operand_comma (hs : s.Holds others finish)
    (h : Settles others s.term ahead (.ok t) behind) (skip : Term.skipSpace behind = l :: rest)
    (unclosed : l.token ≠ close) (comma : l.token = .comma) :
    Settles others (s.operand close) ahead (.ok (t, false)) (Term.skipSpace rest) := by
  refine h.step fun n h => ?_
  rw [operand]
  refine h.bind ((follows_skipSpace hs).bind ?_)
  rw [skip]
  refine (follows_current hs).bind ?_
  rw [List.headD_cons, if_neg unclosed, if_pos comma]
  exact (follows_advance hs).bind ((follows_skipSpace hs).bind (follows_pure _))

theorem Settles.operand_space (hs : s.Holds others finish)
    (h : Settles others s.term ahead (.ok t) behind)
    (unclosed : ((Term.skipSpace behind).headD ⟨.endOfInput, finish⟩).token ≠ close)
    (bare : ((Term.skipSpace behind).headD ⟨.endOfInput, finish⟩).token ≠ .comma)
    (spaced : Term.startsWithSpace behind = true) :
    Settles others (s.operand close) ahead (.ok (t, false)) (Term.skipSpace behind) := by
  refine h.step fun n h => ?_
  rw [operand]
  refine h.bind ((follows_skipSpace hs).bind ((follows_current hs).bind ?_))
  rw [if_neg unclosed, if_neg bare, if_pos spaced]
  exact follows_pure _

theorem Settles.operand_stray (hs : s.Holds others finish)
    (h : Settles others s.term ahead (.ok t) behind)
    (unclosed : ((Term.skipSpace behind).headD ⟨.endOfInput, finish⟩).token ≠ close)
    (bare : ((Term.skipSpace behind).headD ⟨.endOfInput, finish⟩).token ≠ .comma)
    (joined : Term.startsWithSpace behind = false) :
    Settles others (s.operand close) ahead (.error (Term.unexpected finish
      (Token.ticked "," ++ " or " ++ close.description) (Term.skipSpace behind)).error)
      (Term.skipSpace behind) := by
  refine h.step fun n h => ?_
  rw [operand]
  refine h.bind ((follows_skipSpace hs).bind ((follows_current hs).bind ?_))
  rw [if_neg unclosed, if_neg bare, if_neg (Bool.eq_false_iff.mp joined)]
  exact follows_unexpected hs _

theorem Settles.operands_error {e : SyntaxError}
    (h : Settles others (s.operand close) ahead (.error e) stop) :
    Settles others (s.operands close) ahead (.error e) stop := by
  refine h.step fun n h => ?_
  rw [operands]
  exact h.bind_error _

end

section
variable {s : Tape} {others : List Lexeme} {finish : Nat}

open Term (Reads ReadsOperands ReadsItems Fails OperandsFail ItemsFail)

def TermSettles (s : Tape) (others : List Lexeme) (finish : Nat) (ahead : List Lexeme) : Prop :=
  ∀ t rest, Reads finish ahead t rest → Settles others s.term ahead (.ok t) rest

def ItemsSettle (s : Tape) (others : List Lexeme) (finish : Nat) (ahead : List Lexeme) : Prop :=
  ∀ close items rest, ReadsItems finish close ahead items rest →
    Settles others (s.operands close) ahead (.ok items) rest

theorem settles_of_readsOperands (hs : s.Holds others finish) {close : Token}
    {ahead rest : List Lexeme} {items : List Term}
    (ih : ∀ behind : List Lexeme, behind.length ≤ ahead.length →
      ItemsSettle s others finish behind)
    (h : ReadsOperands finish close ahead items rest) :
    Settles others (s.operandList close) ahead (.ok items) rest := by
  obtain ⟨l, behind, hskip, ⟨hclose, rfl, rfl⟩ | ⟨hclose, hitems⟩⟩ := Term.readsOperands_iff.mp h
  · exact settles_operandList_nil hs hskip hclose
  · rw [← hskip] at hitems
    refine Settles.operandList hs (ih _ (Term.length_skipSpace_le ahead) _ _ _ hitems) ?_
    rw [hskip]
    exact hclose

theorem termSettles_of_shorter (hs : s.Holds others finish) {ahead : List Lexeme}
    (ih : ∀ behind : List Lexeme, behind.length < ahead.length →
      TermSettles s others finish behind ∧ ItemsSettle s others finish behind) :
    TermSettles s others finish ahead := by
  intro t rest h
  cases ahead with
  | nil => exact absurd h Term.not_reads_nil
  | cons l behind =>
    have hoperands : ∀ {close : Token} {ahead : List Lexeme} {items : List Term},
        ahead.length ≤ behind.length → ReadsOperands finish close ahead items rest →
          Settles others (s.operandList close) ahead (.ok items) rest :=
      fun hle => settles_of_readsOperands hs
        fun _ hbehind => (ih _ (Nat.lt_succ_of_le (Nat.le_trans hbehind hle))).2
    obtain ⟨token, position⟩ := l
    cases Term.reads_cons_iff.mp h with
    | bracket form items opens operands enough =>
      have hgroup := (hoperands (Nat.le_refl _) operands).group hs opens
      rwa [Except.bind, if_neg (Nat.not_lt.mpr enough)] at hgroup
    | negation operand sign read =>
      cases sign
      exact ((ih _ (Nat.lt_succ_of_le (Term.length_skipSpace_le behind))).1 _ _ read).negation hs
    | regex body token all =>
      cases token
      cases all
      exact settles_regex hs
    | assignment symbol operand place body token equals read =>
      cases token
      subst equals
      exact ((ih _ (Nat.lt_succ_of_lt (Nat.lt_succ_self _))).1 _ _ read).assignment hs
    | reference symbol token alone all =>
      cases token
      cases all
      exact settles_reference hs alone
    | macroCall name arguments place body token opens operands =>
      cases token
      subst opens
      exact (hoperands (Nat.le_succ _) operands).arguments hs
    | macroName name token alone all =>
      cases token
      cases all
      exact settles_macroName hs alone
    | literal text token all =>
      cases token
      cases all
      exact settles_words hs

theorem itemsSettle_of_shorter (hs : s.Holds others finish) {ahead : List Lexeme}
    (hterm : TermSettles s others finish ahead)
    (ih : ∀ behind : List Lexeme, behind.length < ahead.length →
      ItemsSettle s others finish behind) : ItemsSettle s others finish ahead := by
  intro close items rest h
  obtain ⟨first, more, behind, rfl, hread, hnext⟩ := Term.readsItems_iff.mp h
  have hfirst := hterm _ _ hread
  have hbehind : (Term.skipSpace behind).length < ahead.length :=
    Nat.lt_of_le_of_lt (Term.length_skipSpace_le behind) hread.1
  cases hnext with
  | last l skip closes => exact hfirst.operands_last hs skip closes
  | comma l beyond _ skip unclosed comma read =>
    rw [skip] at hbehind
    have hlt := Nat.lt_of_le_of_lt (Term.length_skipSpace_le beyond) (Nat.lt_of_succ_lt hbehind)
    exact (hfirst.operand_comma hs skip unclosed comma).operands_more (ih _ hlt _ _ _ read)
  | space l beyond _ skip unclosed bare spaced read =>
    have hhead : (Term.skipSpace behind).headD ⟨.endOfInput, finish⟩ = l := by rw [skip]; rfl
    rw [← skip] at read
    exact (hfirst.operand_space hs (hhead ▸ unclosed) (hhead ▸ bare) spaced).operands_more
      (ih _ hbehind _ _ _ read)

theorem settles_of_length_le (hs : s.Holds others finish) (n : Nat) :
    ∀ ahead : List Lexeme, ahead.length ≤ n →
      TermSettles s others finish ahead ∧ ItemsSettle s others finish ahead := by
  induction n with
  | zero =>
    intro ahead hn
    have hterm : TermSettles s others finish ahead :=
      termSettles_of_shorter hs fun behind hlt => absurd hlt (by omega)
    exact ⟨hterm, itemsSettle_of_shorter hs hterm fun behind hlt => absurd hlt (by omega)⟩
  | succ n ih =>
    intro ahead hn
    have hshorter : ∀ behind : List Lexeme, behind.length < ahead.length →
        TermSettles s others finish behind ∧ ItemsSettle s others finish behind :=
      fun behind hlt => ih behind (by omega)
    have hterm := termSettles_of_shorter hs hshorter
    exact ⟨hterm, itemsSettle_of_shorter hs hterm fun behind hlt => (hshorter behind hlt).2⟩

theorem settles_of_reads (hs : s.Holds others finish) {ahead rest : List Lexeme} {t : Term}
    (h : Reads finish ahead t rest) : Settles others s.term ahead (.ok t) rest :=
  (settles_of_length_le hs ahead.length ahead (Nat.le_refl _)).1 t rest h

theorem closing_ne_endOfInput (form : Bracket) : form.closing ≠ .endOfInput := by
  cases form <;> decide

theorem settles_term_nil (hs : s.Holds others finish) :
    Settles others s.term [] (.error ⟨finish, .unexpectedEnd⟩) [] :=
  settles_term_stray hs rfl

theorem settles_operands_of_term {close : Token} {ahead stop : List Lexeme} {e : SyntaxError}
    (h : Settles others s.term ahead (.error e) stop) :
    Settles others (s.operands close) ahead (.error e) stop := by
  refine Settles.operands_error (h.step fun n h => ?_)
  rw [operand]
  exact h.bind_error _

theorem settles_operands_ended (hs : s.Holds others finish) {close : Token}
    (hclose : close ≠ .endOfInput) {ahead behind : List Lexeme} {t : Term}
    (h : Settles others s.term ahead (.ok t) behind) (spent : Term.skipSpace behind = []) :
    Settles others (s.operands close) ahead (.error ⟨finish, .unexpectedEnd⟩) [] := by
  have hhead : ((Term.skipSpace behind).headD ⟨.endOfInput, finish⟩).token = .endOfInput := by
    rw [spent]
    rfl
  cases hspace : Term.startsWithSpace behind with
  | true =>
    have hoperand := h.operand_space hs (hhead ▸ hclose.symm) (by rw [hhead]; decide) hspace
    rw [spent] at hoperand
    exact hoperand.operands_more (settles_operands_of_term (settles_term_nil hs))
  | false =>
    have hoperand := h.operand_stray hs (hhead ▸ hclose.symm) (by rw [hhead]; decide) hspace
    rw [spent] at hoperand
    exact hoperand.operands_error

mutual

theorem settles_of_fails (hs : s.Holds others finish) {ahead stop : List Lexeme}
    {e : SyntaxError} : Fails finish ahead e stop → Settles others s.term ahead (.error e) stop
  | .ended => settles_term_nil hs
  | .stray bad => settles_term_stray hs bad
  | .operands form opens fails =>
      (settles_of_operandsFail hs (closing_ne_endOfInput form) fails).group hs opens
  | .tooFew form items opens read few => by
      have hoperands := settles_of_readsOperands hs
        (fun behind _ => (settles_of_length_le hs _ behind (Nat.le_refl _)).2) read
      have hgroup := hoperands.group hs opens
      rwa [Except.bind, if_pos few] at hgroup
  | .negation fails => (settles_of_fails hs fails).negation hs
  | .assignment fails => (settles_of_fails hs fails).assignment hs
  | .arguments fails => (settles_of_operandsFail hs (by decide) fails).arguments hs

theorem settles_of_operandsFail (hs : s.Holds others finish) {close : Token}
    (hclose : close ≠ .endOfInput) {ahead stop : List Lexeme} {e : SyntaxError} :
    OperandsFail finish close ahead e stop →
      Settles others (s.operandList close) ahead (.error e) stop
  | .ended spent => by
      refine Settles.operandList hs ?_ ?_
      · rw [spent]
        exact settles_operands_of_term (settles_term_nil hs)
      · rw [spent]
        exact hclose.symm
  | .items skip unclosed fails => by
      refine Settles.operandList hs ?_ ?_
      · rw [skip]
        exact settles_of_itemsFail hs hclose fails
      · rw [skip]
        exact unclosed

theorem settles_of_itemsFail (hs : s.Holds others finish) {close : Token}
    (hclose : close ≠ .endOfInput) {ahead stop : List Lexeme} {e : SyntaxError} :
    ItemsFail finish close ahead e stop →
      Settles others (s.operands close) ahead (.error e) stop
  | .item fails => settles_operands_of_term (settles_of_fails hs fails)
  | .ended read spent => settles_operands_ended hs hclose (settles_of_reads hs read) spent
  | .comma read skip unclosed comma fails =>
      ((settles_of_reads hs read).operand_comma hs skip unclosed comma).operands_more
        (settles_of_itemsFail hs hclose fails)
  | .space read skip unclosed bare spaced fails => by
      have hoperand : Settles others (s.operand close) _ _ _ :=
        (settles_of_reads hs read).operand_space hs (by rw [skip]; exact unclosed)
          (by rw [skip]; exact bare) spaced
      rw [skip] at hoperand
      exact hoperand.operands_more (settles_of_itemsFail hs hclose fails)
  | .stray read skip unclosed bare joined => by
      have hoperand : Settles others (s.operand close) _ _ _ :=
        (settles_of_reads hs read).operand_stray hs (by rw [skip]; exact unclosed)
          (by rw [skip]; exact bare) joined
      rw [skip] at hoperand
      exact hoperand.operands_error

end

theorem Settles.nextTerm (hs : s.Holds others finish) {ahead rest stop : List Lexeme} {l : Lexeme}
    {answer : Except SyntaxError Term} (h : Settles others s.term (l :: rest) answer stop)
    (skip : Term.skipSpace ahead = l :: rest) (spaced : Term.startsWithSpace ahead = true) :
    Settles others s.nextTerm ahead (answer.map some) stop := by
  refine h.mono fun n h => (follows_skipSpace hs).bind ?_
  rw [skip]
  refine follows_of_suffix fun hsuffix => (follows_current hs).bind ?_
  rw [List.headD_cons, if_neg (hs.unended_of_suffix hsuffix), if_pos spaced]
  exact h.map some

theorem settles_nextTerm_nil (hs : s.Holds others finish) {ahead : List Lexeme}
    (spent : Term.skipSpace ahead = []) : Settles others s.nextTerm ahead (.ok none) [] := by
  refine .of_forall fun n => (follows_skipSpace hs).bind ?_
  rw [spent]
  exact (follows_current hs).bind (follows_pure none)

theorem settles_nextTerm_stray (hs : s.Holds others finish) {ahead rest : List Lexeme} {l : Lexeme}
    (skip : Term.skipSpace ahead = l :: rest) (joined : Term.startsWithSpace ahead = false) :
    Settles others s.nextTerm ahead
      (.error ⟨l.position, .unexpectedToken "whitespace or end of input" l.token.description⟩)
      (l :: rest) := by
  refine .of_forall fun n => (follows_skipSpace hs).bind ?_
  rw [skip]
  refine follows_of_suffix fun hsuffix => (follows_current hs).bind ?_
  rw [List.headD_cons, if_neg (hs.unended_of_suffix hsuffix),
    if_neg (Bool.eq_false_iff.mp joined)]
  exact follows_unexpected hs _

theorem Settles.terms_cons {ahead behind stop : List Lexeme} {t : Term}
    {answer : Except SyntaxError (List Term)}
    (h : Settles others s.nextTerm ahead (.ok (some t)) behind)
    (hmore : Settles others s.terms behind answer stop) :
    Settles others s.terms ahead (answer.map (t :: ·)) stop := by
  refine h.step₂ hmore fun n h hmore => ?_
  rw [terms]
  exact h.bind (hmore.map (t :: ·))

theorem Settles.terms_error {ahead stop : List Lexeme} {e : SyntaxError}
    (h : Settles others s.nextTerm ahead (.error e) stop) :
    Settles others s.terms ahead (.error e) stop := by
  refine h.step fun n h => ?_
  rw [terms]
  exact h.bind_error _

theorem settles_nextTerm_of_reads (hs : s.Holds others finish) {ahead behind : List Lexeme}
    {t : Term} (spaced : Term.startsWithSpace ahead = true)
    (read : Reads finish (Term.skipSpace ahead) t behind) :
    Settles others s.nextTerm ahead (.ok (some t)) behind := by
  cases hskip : Term.skipSpace ahead with
  | nil =>
    rw [hskip] at read
    exact absurd read Term.not_reads_nil
  | cons l rest =>
    rw [hskip] at read
    exact (settles_of_reads hs read).nextTerm hs hskip spaced

theorem settles_of_readTail (hs : s.Holds others finish) {ahead : List Lexeme}
    {items : List Term} (h : Term.readTail finish ahead = .ok items) :
    Settles others s.terms ahead (.ok items) [] := by
  induction items generalizing ahead with
  | nil =>
    rcases Term.readTail_eq_ok_iff.mp h with ⟨spent, -⟩ | ⟨first, more, behind, heq, -⟩
    · refine (settles_nextTerm_nil hs spent).step fun n h => ?_
      rw [terms]
      exact h.bind (follows_pure [])
    · cases heq
  | cons t items ih =>
    rcases Term.readTail_eq_ok_iff.mp h with
      ⟨-, heq⟩ | ⟨first, more, behind, heq, spaced, read, hmore⟩
    · cases heq
    · cases heq
      exact (settles_nextTerm_of_reads hs spaced read).terms_cons (ih hmore)

theorem settles_of_tailFails (hs : s.Holds others finish) {ahead stop : List Lexeme}
    {e : SyntaxError} (h : Term.TailFails finish ahead e stop) :
    Settles others s.terms ahead (.error e) stop := by
  induction h with
  | item skip spaced fails => exact ((settles_of_fails hs fails).nextTerm hs skip spaced).terms_error
  | more spaced read fails ih => exact (settles_nextTerm_of_reads hs spaced read).terms_cons ih
  | stray skip joined => exact (settles_nextTerm_stray hs skip joined).terms_error

/-- The two parsers agree, in the answer and in where they stop. -/
theorem settles_parse (hs : s.Holds others finish) (ahead : List Lexeme) :
    Settles others s.parse ahead (Cursor.parse ⟨ahead, finish⟩).1
      (Cursor.parse ⟨ahead, finish⟩).2.ahead := by
  rw [Cursor.parse]
  cases hread : Term.readExpression finish ahead with
  | ok t =>
    obtain ⟨first, more, behind, rfl, hfirst, hmore⟩ := Term.readExpression_eq_ok_iff.mp hread
    have hparts := (settles_of_reads hs hfirst).and (settles_of_readTail hs hmore)
    exact hparts.mono fun n h =>
      (follows_skipSpace hs).bind (h.1.bind (h.2.map (Term.ofItems first)))
  | error f =>
    dsimp only
    cases Term.expressionFails_of_readExpression hread with
    | first fails =>
      exact (settles_of_fails hs fails).mono fun n h =>
        (follows_skipSpace hs).bind (h.bind_error _)
    | tail read fails =>
      have hparts := (settles_of_reads hs read).and (settles_of_tailFails hs fails)
      exact hparts.mono fun n h => (follows_skipSpace hs).bind (h.1.bind (h.2.bind_error _))

end

end PhrasePattern.Tape
