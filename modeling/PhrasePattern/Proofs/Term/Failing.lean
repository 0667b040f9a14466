import PhrasePattern.Proofs.Term.Agreement

/-! How reading fails. A failed reading is a relation between the lexemes ahead, the error and the
lexemes at which the reader stopped, built up from the place of the fault through the constructs
around it. It holds exactly if the parser fails with that error at that place. -/
namespace PhrasePattern
namespace Term

mutual

/-- No term is read from the lexemes ahead: `e` is reported at `stop`. -/
inductive Fails (finish : Nat) : List Lexeme → SyntaxError → List Lexeme → Prop
  | ended : Fails finish [] ⟨finish, .unexpectedEnd⟩ []
  | stray {l : Lexeme} {rest : List Lexeme} (bad : Grammar.startsTerm l.token = false) :
      Fails finish (l :: rest) ⟨l.position, .unexpectedToken "term" l.token.description⟩ (l :: rest)
  | operands {l : Lexeme} {rest stop : List Lexeme} {e : SyntaxError} (form : Bracket)
      (opens : l.token = form.opening) (fails : OperandsFail finish form.closing rest e stop) :
      Fails finish (l :: rest) e stop
  | tooFew {l : Lexeme} {rest stop : List Lexeme} (form : Bracket) (items : List Term)
      (opens : l.token = form.opening)
      (read : ReadsOperands finish form.closing rest items stop)
      (few : items.length < form.minimum) :
      Fails finish (l :: rest)
        ⟨l.position, .tooFewOperands form.kind form.minimum items.length⟩ stop
  | negation {position : Nat} {rest stop : List Lexeme} {e : SyntaxError}
      (fails : Fails finish (skipSpace rest) e stop) :
      Fails finish (⟨.minus, position⟩ :: rest) e stop
  | assignment {symbol : String} {position place : Nat} {body stop : List Lexeme} {e : SyntaxError}
      (fails : Fails finish body e stop) :
      Fails finish (⟨.variableName symbol, position⟩ :: ⟨.equals, place⟩ :: body) e stop
  | arguments {name : String} {position place : Nat} {body stop : List Lexeme} {e : SyntaxError}
      (fails : OperandsFail finish .closeParen body e stop) :
      Fails finish (⟨.macroName name, position⟩ :: ⟨.openParen, place⟩ :: body) e stop

inductive OperandsFail (finish : Nat) :
    Token → List Lexeme → SyntaxError → List Lexeme → Prop
  | ended {close : Token} {ahead : List Lexeme} (spent : skipSpace ahead = []) :
      OperandsFail finish close ahead ⟨finish, .unexpectedEnd⟩ []
  | items {close : Token} {ahead rest stop : List Lexeme} {l : Lexeme} {e : SyntaxError}
      (skip : skipSpace ahead = l :: rest) (unclosed : l.token ≠ close)
      (fails : ItemsFail finish close (l :: rest) e stop) : OperandsFail finish close ahead e stop

inductive ItemsFail (finish : Nat) : Token → List Lexeme → SyntaxError → List Lexeme → Prop
  | item {close : Token} {ahead stop : List Lexeme} {e : SyntaxError}
      (fails : Fails finish ahead e stop) : ItemsFail finish close ahead e stop
  | ended {close : Token} {ahead behind : List Lexeme} {t : Term}
      (read : Reads finish ahead t behind) (spent : skipSpace behind = []) :
      ItemsFail finish close ahead ⟨finish, .unexpectedEnd⟩ []
  | comma {close : Token} {ahead behind rest stop : List Lexeme} {t : Term} {l : Lexeme}
      {e : SyntaxError} (read : Reads finish ahead t behind) (skip : skipSpace behind = l :: rest)
      (unclosed : l.token ≠ close) (comma : l.token = .comma)
      (fails : ItemsFail finish close (skipSpace rest) e stop) :
      ItemsFail finish close ahead e stop
  | space {close : Token} {ahead behind rest stop : List Lexeme} {t : Term} {l : Lexeme}
      {e : SyntaxError} (read : Reads finish ahead t behind) (skip : skipSpace behind = l :: rest)
      (unclosed : l.token ≠ close) (bare : l.token ≠ .comma)
      (spaced : startsWithSpace behind = true) (fails : ItemsFail finish close (l :: rest) e stop) :
      ItemsFail finish close ahead e stop
  | stray {close : Token} {ahead behind rest : List Lexeme} {t : Term} {l : Lexeme}
      (read : Reads finish ahead t behind) (skip : skipSpace behind = l :: rest)
      (unclosed : l.token ≠ close) (bare : l.token ≠ .comma)
      (joined : startsWithSpace behind = false) :
      ItemsFail finish close ahead
        ⟨l.position, .unexpectedToken (Token.ticked "," ++ " or " ++ close.description)
          l.token.description⟩ (l :: rest)

end

inductive TailFails (finish : Nat) : List Lexeme → SyntaxError → List Lexeme → Prop
  | item {ahead stop rest : List Lexeme} {l : Lexeme} {e : SyntaxError}
      (skip : skipSpace ahead = l :: rest) (spaced : startsWithSpace ahead = true)
      (fails : Fails finish (l :: rest) e stop) : TailFails finish ahead e stop
  | more {ahead behind stop : List Lexeme} {t : Term} {e : SyntaxError}
      (spaced : startsWithSpace ahead = true) (read : Reads finish (skipSpace ahead) t behind)
      (fails : TailFails finish behind e stop) : TailFails finish ahead e stop
  | stray {ahead rest : List Lexeme} {l : Lexeme} (skip : skipSpace ahead = l :: rest)
      (joined : startsWithSpace ahead = false) :
      TailFails finish ahead
        ⟨l.position, .unexpectedToken "whitespace or end of input" l.token.description⟩ (l :: rest)

inductive ExpressionFails (finish : Nat) : List Lexeme → SyntaxError → List Lexeme → Prop
  | first {ahead stop : List Lexeme} {e : SyntaxError}
      (fails : Fails finish (skipSpace ahead) e stop) : ExpressionFails finish ahead e stop
  | tail {ahead behind stop : List Lexeme} {t : Term} {e : SyntaxError}
      (read : Reads finish (skipSpace ahead) t behind) (fails : TailFails finish behind e stop) :
      ExpressionFails finish ahead e stop

theorem startsTerm_eq_false {token : Token} (hbracket : bracket? token = none)
    (hminus : token ≠ .minus) (hregex : ∀ body, token ≠ .regex body)
    (hvariable : ∀ name, token ≠ .variableName name) (hcall : ∀ name, token ≠ .macroName name)
    (hword : ∀ text, token ≠ .word text) : Grammar.startsTerm token = false := by
  cases token with
  | minus => exact absurd rfl hminus
  | regex body => exact absurd rfl (hregex body)
  | variableName name => exact absurd rfl (hvariable name)
  | macroName name => exact absurd rfl (hcall name)
  | word text => exact absurd rfl (hword text)
  | flexOpen | rigidOpen | openAngle | openBrace => cases hbracket
  | _ => rfl

mutual

/-- The parser fails in no other way: the error of a construct is that of the part at which it
fails, passed on unchanged. -/
theorem fails_of_read {finish : Nat} {ahead : List Lexeme} {f : Failure ahead}
    (h : read finish ahead = .error f) : Fails finish ahead f.error f.rest := by
  match ahead with
  | [] =>
    rw [read] at h
    cases h
    exact .ended
  | ⟨token, position⟩ :: rest =>
    rw [read] at h
    split at h
    · rename_i form hform
      have opens := bracket?_eq_some_iff.mp hform
      split at h
      · rename_i g hoperands
        cases h
        exact .operands form opens (operandsFail_of_readOperands hoperands)
      · rename_i items hitems
        split at h
        · rename_i hfew
          cases h
          exact .tooFew form items.value opens ⟨items.shorter, hitems⟩ hfew
        · cases h
    · rename_i hnone
      dsimp only at h
      split at h
      · split at h
        · rename_i g hoperand
          cases h
          exact .negation (fails_of_read hoperand)
        · cases h
      · cases h
      · split at h
        · split at h
          · rename_i g hoperand
            cases h
            exact .assignment (fails_of_read hoperand)
          · cases h
        · cases h
      · split at h
        · split at h
          · rename_i g harguments
            cases h
            exact .arguments (operandsFail_of_readOperands harguments)
          · cases h
        · cases h
      · cases h
      · rename_i hminus hregex hvariable hcall hword
        cases h
        exact .stray (startsTerm_eq_false hnone hminus hregex hvariable hcall hword)
termination_by (ahead.length, 0)
decreasing_by
  · exact Prod.Lex.left _ _ (Nat.lt_succ_self _)
  · exact Prod.Lex.left _ _ (Nat.lt_succ_of_le (length_skipSpace_le rest))
  · rename rest = _ => hrest
    exact Prod.Lex.left _ _ (hrest ▸ Nat.lt_succ_of_lt (Nat.lt_succ_self _))
  · rename rest = _ => hrest
    exact Prod.Lex.left _ _ (hrest ▸ Nat.lt_succ_of_lt (Nat.lt_succ_self _))

theorem operandsFail_of_readOperands {finish : Nat} {close : Token} {ahead : List Lexeme}
    {f : Failure ahead} (h : readOperands finish close ahead = .error f) :
    OperandsFail finish close ahead f.error f.rest := by
  rw [readOperands] at h
  split at h
  · rename_i hskip
    cases h
    exact .ended hskip
  · rename_i l rest hskip
    have hle : (l :: rest).length ≤ ahead.length := hskip ▸ length_skipSpace_le ahead
    split at h
    · cases h
    · rename_i hclose
      split at h
      · rename_i g hitems
        cases h
        exact .items hskip hclose (itemsFail_of_readItems hitems)
      · cases h
termination_by (ahead.length, 2)
decreasing_by
  simp only [Prod.lex_def]
  omega

theorem itemsFail_of_readItems {finish : Nat} {close : Token} {ahead : List Lexeme}
    {f : Failure ahead} (h : readItems finish close ahead = .error f) :
    ItemsFail finish close ahead f.error f.rest := by
  rw [readItems] at h
  split at h
  · rename_i g hitem
    cases h
    exact .item (fails_of_read hitem)
  · rename_i item hitem
    have hread : Reads finish ahead item.value item.rest := ⟨item.shorter, hitem⟩
    split at h
    · rename_i hskip
      cases h
      exact .ended hread hskip
    · rename_i l rest hskip
      have hlt : (l :: rest).length < ahead.length :=
        Nat.lt_of_le_of_lt (hskip ▸ length_skipSpace_le item.rest) item.shorter
      dsimp only at h
      split at h
      · cases h
      · rename_i hclose
        split at h
        · rename_i hcomma
          split at h
          · rename_i g hothers
            cases h
            exact .comma hread hskip hclose hcomma (itemsFail_of_readItems hothers)
          · cases h
        · rename_i hcomma
          split at h
          · rename_i hspace
            split at h
            · rename_i g hothers
              cases h
              exact .space hread hskip hclose hcomma hspace (itemsFail_of_readItems hothers)
            · cases h
          · rename_i hspace
            cases h
            exact .stray hread hskip hclose hcomma (Bool.eq_false_iff.mpr hspace)
termination_by (ahead.length, 1)
decreasing_by
  · exact Prod.Lex.right _ Nat.zero_lt_one
  · exact Prod.Lex.left _ _ hlt
  · exact Prod.Lex.left _ _ (Nat.lt_of_le_of_lt (length_skipSpace_le _) (Nat.lt_of_succ_lt hlt))

end

theorem tailFails_of_readTail {finish : Nat} {ahead : List Lexeme} {f : Failure ahead}
    (h : readTail finish ahead = .error f) : TailFails finish ahead f.error f.rest := by
  rw [readTail] at h
  split at h
  · cases h
  · rename_i l rest hskip
    dsimp only at h
    split at h
    · rename_i hspace
      split at h
      · rename_i g hitem
        cases h
        exact .item hskip hspace (fails_of_read hitem)
      · rename_i item hitem
        have hlt : item.rest.length < ahead.length :=
          Nat.lt_of_lt_of_le item.shorter (hskip ▸ length_skipSpace_le ahead)
        have hread : Reads finish (skipSpace ahead) item.value item.rest := by
          rw [hskip]
          exact ⟨item.shorter, hitem⟩
        split at h
        · rename_i g hothers
          cases h
          exact .more hspace hread (tailFails_of_readTail hothers)
        · cases h
    · rename_i hspace
      cases h
      exact .stray hskip (Bool.eq_false_iff.mpr hspace)
termination_by ahead.length

theorem expressionFails_of_readExpression {finish : Nat} {ahead : List Lexeme} {f : Failure ahead}
    (h : readExpression finish ahead = .error f) :
    ExpressionFails finish ahead f.error f.rest := by
  rw [readExpression] at h
  split at h
  · rename_i g hfirst
    cases h
    exact .first (fails_of_read hfirst)
  · rename_i first hfirst
    split at h
    · rename_i g hothers
      cases h
      exact .tail ⟨first.shorter, hfirst⟩ (tailFails_of_readTail hothers)
    · cases h

section
variable {finish : Nat}

mutual

/-- The parser fails where it should, with that error. -/
theorem Fails.read_eq {ahead stop : List Lexeme} {e : SyntaxError} :
    Fails finish ahead e stop → ∃ h, read finish ahead = .error ⟨e, stop, h⟩
  | .ended => ⟨Nat.le_refl _, by rw [read]; rfl⟩
  | .stray (l := l) bad => by
      refine ⟨Nat.le_refl _, ?_⟩
      obtain ⟨token, position⟩ := l
      rw [read]
      cases token <;> first | rfl | cases bad
  | .operands form opens fails => by
      obtain ⟨h, hread⟩ := fails.readOperands_eq
      refine ⟨Nat.le_succ_of_le h, ?_⟩
      rw [read, bracket?_eq_some_iff.mpr opens]
      simp only [hread, Failure.widen]
  | .tooFew form items opens read few => by
      obtain ⟨h, hread⟩ := read
      refine ⟨Nat.le_succ_of_le (Nat.le_of_lt h), ?_⟩
      rw [Term.read, bracket?_eq_some_iff.mpr opens]
      simp only [hread, if_pos few]
  | .negation fails => by
      obtain ⟨h, hread⟩ := fails.read_eq
      refine ⟨Nat.le_succ_of_le (Nat.le_trans h (length_skipSpace_le _)), ?_⟩
      rw [read]
      simp only [bracket?, hread, Failure.widen]
  | .assignment fails => by
      obtain ⟨h, hread⟩ := fails.read_eq
      refine ⟨Nat.le_succ_of_le (Nat.le_succ_of_le h), ?_⟩
      rw [read]
      simp only [bracket?, hread, Failure.widen]
  | .arguments fails => by
      obtain ⟨h, hread⟩ := fails.readOperands_eq
      refine ⟨Nat.le_succ_of_le (Nat.le_succ_of_le h), ?_⟩
      rw [read]
      simp only [bracket?, hread, Failure.widen]

theorem OperandsFail.readOperands_eq {close : Token} {ahead stop : List Lexeme} {e : SyntaxError} :
    OperandsFail finish close ahead e stop →
      ∃ h, readOperands finish close ahead = .error ⟨e, stop, h⟩
  | .ended spent => by
      refine ⟨Nat.zero_le _, ?_⟩
      rw [readOperands]
      split
      · rfl
      · rename_i heq
        rw [spent] at heq
        cases heq
  | .items skip unclosed fails => by
      obtain ⟨h, hread⟩ := fails.readItems_eq
      refine ⟨Nat.le_trans h (skip ▸ length_skipSpace_le _), ?_⟩
      rw [readOperands]
      split <;> rename_i heq <;> rw [skip] at heq <;> cases heq
      simp only [if_neg unclosed, hread, Failure.widen]

theorem ItemsFail.readItems_eq {close : Token} {ahead stop : List Lexeme} {e : SyntaxError} :
    ItemsFail finish close ahead e stop →
      ∃ h, readItems finish close ahead = .error ⟨e, stop, h⟩
  | .item fails => by
      obtain ⟨h, hread⟩ := fails.read_eq
      refine ⟨h, ?_⟩
      rw [readItems]
      simp only [hread]
  | .ended read spent => by
      obtain ⟨h, hread⟩ := read
      refine ⟨Nat.zero_le _, ?_⟩
      rw [readItems]
      simp only [hread]
      split
      · rfl
      · rename_i heq
        rw [spent] at heq
        cases heq
  | .comma read skip unclosed comma fails => by
      obtain ⟨hbehind, hread⟩ := read
      obtain ⟨h, hothers⟩ := fails.readItems_eq
      have hle := skip ▸ length_skipSpace_le _
      have hrest := Nat.le_trans h (length_skipSpace_le _)
      simp only [List.length_cons] at hle
      refine ⟨by omega, ?_⟩
      rw [readItems]
      simp only [hread]
      split <;> rename_i heq <;> rw [skip] at heq <;> cases heq
      simp only [if_neg unclosed, if_pos comma, hothers, Failure.widen]
  | .space read skip unclosed bare spaced fails => by
      obtain ⟨hbehind, hread⟩ := read
      obtain ⟨h, hothers⟩ := fails.readItems_eq
      have hle := skip ▸ length_skipSpace_le _
      refine ⟨by omega, ?_⟩
      rw [readItems]
      simp only [hread]
      split <;> rename_i heq <;> rw [skip] at heq <;> cases heq
      simp only [if_neg unclosed, if_neg bare, if_pos spaced, hothers, Failure.widen]
  | .stray read skip unclosed bare joined => by
      obtain ⟨hbehind, hread⟩ := read
      have hle := skip ▸ length_skipSpace_le _
      refine ⟨by omega, ?_⟩
      rw [readItems]
      simp only [hread]
      split <;> rename_i heq <;> rw [skip] at heq <;> cases heq
      rw [if_neg unclosed, if_neg bare, if_neg (Bool.eq_false_iff.mp joined)]
      rfl

end

theorem TailFails.readTail_eq {ahead stop : List Lexeme} {e : SyntaxError}
    (h : TailFails finish ahead e stop) : ∃ h, readTail finish ahead = .error ⟨e, stop, h⟩ := by
  induction h with
  | item skip spaced fails =>
    obtain ⟨h, hread⟩ := fails.read_eq
    refine ⟨Nat.le_trans h (skip ▸ length_skipSpace_le _), ?_⟩
    rw [readTail]
    split <;> rename_i heq <;> rw [skip] at heq <;> cases heq
    simp only [if_pos spaced, hread, Failure.widen]
  | @more ahead behind stop t e spaced read fails ih =>
    obtain ⟨h, hothers⟩ := ih
    cases hskip : skipSpace ahead with
    | nil =>
      rw [hskip] at read
      exact absurd read not_reads_nil
    | cons l rest =>
      rw [hskip] at read
      obtain ⟨hbehind, hread⟩ := read
      have hle : (l :: rest).length ≤ ahead.length := hskip ▸ length_skipSpace_le ahead
      refine ⟨by omega, ?_⟩
      rw [readTail]
      split <;> rename_i heq <;> rw [hskip] at heq <;> cases heq
      simp only [if_pos spaced, hread, hothers, Failure.widen]
  | stray skip joined =>
    refine ⟨skip ▸ length_skipSpace_le _, ?_⟩
    rw [readTail]
    split <;> rename_i heq <;> rw [skip] at heq <;> cases heq
    rw [if_neg (Bool.eq_false_iff.mp joined)]
    rfl

theorem ExpressionFails.readExpression_eq {ahead stop : List Lexeme} {e : SyntaxError}
    (h : ExpressionFails finish ahead e stop) :
    ∃ h, readExpression finish ahead = .error ⟨e, stop, h⟩ := by
  cases h with
  | first fails =>
    obtain ⟨h, hread⟩ := fails.read_eq
    refine ⟨Nat.le_trans h (length_skipSpace_le ahead), ?_⟩
    rw [readExpression]
    simp only [hread, Failure.widen]
  | tail read fails =>
    obtain ⟨hbehind, hread⟩ := read
    obtain ⟨h, hothers⟩ := fails.readTail_eq
    have hle := length_skipSpace_le ahead
    refine ⟨by omega, ?_⟩
    rw [readExpression]
    simp only [hread, hothers, Failure.widen]

end
end Term

theorem parse_eq_readExpression {input : String} {tokens : List Token}
    (hscan : Token.Scannable tokens) (hspell : input.toList = Token.spell tokens) :
    parse input =
      (Term.readExpression input.utf8ByteSize (Lexeme.placed 0 tokens)).mapError (·.error) := by
  have htokens := (tokenize_eq_ok_iff input _).mpr ⟨tokens, hscan, hspell, rfl⟩
  simp only [parse, Cursor.start, htokens, Except.map, Except.bind,
    Grammar.ofLexemes_append_end, Cursor.parse]
  split <;> rename_i heq <;> rw [heq] <;> rfl

theorem parse_eq_error_iff {input : String} {tokens : List Token} {e : SyntaxError}
    (hscan : Token.Scannable tokens) (hspell : input.toList = Token.spell tokens) :
    parse input = .error e ↔
      ∃ stop, Term.ExpressionFails input.utf8ByteSize (Lexeme.placed 0 tokens) e stop := by
  rw [parse_eq_readExpression hscan hspell]
  constructor
  · intro h
    cases hread : Term.readExpression input.utf8ByteSize (Lexeme.placed 0 tokens) with
    | ok t =>
      rw [hread] at h
      cases h
    | error f =>
      rw [hread] at h
      cases h
      exact ⟨f.rest, Term.expressionFails_of_readExpression hread⟩
  · rintro ⟨stop, fails⟩
    obtain ⟨h, hread⟩ := fails.readExpression_eq
    rw [hread]
    rfl

end PhrasePattern
