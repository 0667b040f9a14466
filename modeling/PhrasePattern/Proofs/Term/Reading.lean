import PhrasePattern.Term.Parser

/-! What the parser does, one construct at a time. The functions of the parser return their results
with proofs about the lengths of what is left; here a successful reading is a relation between the
lexemes ahead, the term and the lexemes after it, and each function is described once by what it
does with the first lexeme. -/
namespace PhrasePattern
namespace Term

def Reads (finish : Nat) (ahead : List Lexeme) (t : Term) (after : List Lexeme) : Prop :=
  ∃ h, read finish ahead = .ok ⟨t, after, h⟩

def ReadsOperands (finish : Nat) (close : Token) (ahead : List Lexeme) (items : List Term)
    (after : List Lexeme) : Prop :=
  ∃ h, readOperands finish close ahead = .ok ⟨items, after, h⟩

def ReadsItems (finish : Nat) (close : Token) (ahead : List Lexeme) (items : List Term)
    (after : List Lexeme) : Prop :=
  ∃ h, readItems finish close ahead = .ok ⟨items, after, h⟩

section
variable {finish : Nat} {close : Token} {ahead after : List Lexeme} {t : Term} {items : List Term}

theorem bracket?_eq_some_iff {token : Token} {form : Bracket} :
    bracket? token = some form ↔ token = form.opening := by
  cases token <;> cases form <;> simp [bracket?, Bracket.opening]

/-- The constructs that a term can be, told by the first lexeme. -/
inductive FirstRead (finish : Nat) (l : Lexeme) (rest : List Lexeme) (after : List Lexeme) :
    Term → Prop
  | bracket (form : Bracket) (items : List Term) (opens : l.token = form.opening)
      (operands : ReadsOperands finish form.closing rest items after)
      (enough : form.minimum ≤ items.length) : FirstRead finish l rest after (.group form items)
  | negation (operand : Term) (sign : l.token = .minus)
      (read : Reads finish (skipSpace rest) operand after) :
      FirstRead finish l rest after (.negation operand)
  | regex (body : String) (token : l.token = .regex body) (all : after = rest) :
      FirstRead finish l rest after (.regex body)
  | assignment (symbol : String) (operand : Term) (position : Nat) (body : List Lexeme)
      (token : l.token = .variableName symbol) (equals : rest = ⟨.equals, position⟩ :: body)
      (read : Reads finish body operand after) :
      FirstRead finish l rest after (.assignment symbol operand)
  | reference (symbol : String) (token : l.token = .variableName symbol)
      (alone : ∀ position body, rest ≠ ⟨.equals, position⟩ :: body) (all : after = rest) :
      FirstRead finish l rest after (.reference symbol)
  | macroCall (name : String) (arguments : List Term) (position : Nat) (body : List Lexeme)
      (token : l.token = .macroName name) (opens : rest = ⟨.openParen, position⟩ :: body)
      (operands : ReadsOperands finish .closeParen body arguments after) :
      FirstRead finish l rest after (.macroCall name arguments)
  | macroName (name : String) (token : l.token = .macroName name)
      (alone : ∀ position body, rest ≠ ⟨.openParen, position⟩ :: body) (all : after = rest) :
      FirstRead finish l rest after (.macroCall name [])
  | literal (text : String) (token : l.token = .word text) (all : after = (moreWords rest).2) :
      FirstRead finish l rest after (.literal (text ++ (moreWords rest).1))

theorem firstRead_of_reads {l : Lexeme} {rest : List Lexeme}
    (h : Reads finish (l :: rest) t after) : FirstRead finish l rest after t := by
  obtain ⟨hlt, h⟩ := h
  rw [read] at h
  split at h
  · rename_i form hform
    split at h
    · cases h
    · rename_i items hitems
      split at h
      · cases h
      · rename_i henough
        cases h
        exact .bracket form items.value (bracket?_eq_some_iff.mp hform) ⟨items.shorter, hitems⟩
          (Nat.le_of_not_lt henough)
  · split at h
    · rename_i hminus
      split at h
      · cases h
      · rename_i operand hoperand
        cases h
        exact .negation operand.value hminus ⟨operand.shorter, hoperand⟩
    · rename_i body hregex
      cases h
      exact .regex body hregex rfl
    · rename_i symbol hvariable
      split at h
      · rename_i position body
        split at h
        · cases h
        · rename_i operand hoperand
          cases h
          exact .assignment symbol operand.value position body hvariable rfl
            ⟨operand.shorter, hoperand⟩
      · rename_i halone
        cases h
        exact .reference symbol hvariable (fun position body he => halone position body he) rfl
    · rename_i name hmacro
      split at h
      · rename_i position body
        split at h
        · cases h
        · rename_i arguments harguments
          cases h
          exact .macroCall name arguments.value position body hmacro rfl
            ⟨arguments.shorter, harguments⟩
      · rename_i halone
        cases h
        exact .macroName name hmacro (fun position body he => halone position body he) rfl
    · rename_i text hword
      cases h
      exact .literal text hword rfl
    · cases h

theorem reads_of_firstRead {l : Lexeme} {rest : List Lexeme}
    (h : FirstRead finish l rest after t) : Reads finish (l :: rest) t after := by
  obtain ⟨token, position⟩ := l
  cases h with
  | bracket form items opens operands enough =>
    obtain ⟨hlt, hread⟩ := operands
    refine ⟨Nat.lt_succ_of_lt hlt, ?_⟩
    rw [read, bracket?_eq_some_iff.mpr opens]
    simp only [hread, if_neg (Nat.not_lt.mpr enough)]
  | negation operand sign hoperand =>
    obtain ⟨hlt, hread⟩ := hoperand
    have hle := length_skipSpace_le rest
    cases sign
    refine ⟨Nat.lt_succ_of_lt (Nat.lt_of_lt_of_le hlt hle), ?_⟩
    rw [read]
    simp only [bracket?, hread]
  | regex body token all =>
    cases token
    cases all
    exact ⟨Nat.lt_succ_self _, by rw [read]; rfl⟩
  | assignment symbol operand place body token equals hoperand =>
    obtain ⟨hlt, hread⟩ := hoperand
    cases token
    subst equals
    refine ⟨Nat.lt_succ_of_lt (Nat.lt_succ_of_lt hlt), ?_⟩
    rw [read]
    simp only [bracket?, hread]
  | reference symbol token alone all =>
    cases token
    cases all
    refine ⟨Nat.lt_succ_self _, ?_⟩
    rw [read]
    simp only [bracket?]
  | macroCall name arguments place body token opens operands =>
    obtain ⟨hlt, hread⟩ := operands
    cases token
    subst opens
    refine ⟨Nat.lt_succ_of_lt (Nat.lt_succ_of_lt hlt), ?_⟩
    rw [read]
    simp only [bracket?, hread]
  | macroName name token alone all =>
    cases token
    cases all
    refine ⟨Nat.lt_succ_self _, ?_⟩
    rw [read]
    simp only [bracket?]
  | literal text token all =>
    cases token
    cases all
    exact ⟨Nat.lt_succ_of_le (length_moreWords_le rest), by rw [read]; rfl⟩

theorem reads_cons_iff {l : Lexeme} {rest : List Lexeme} :
    Reads finish (l :: rest) t after ↔ FirstRead finish l rest after t :=
  ⟨firstRead_of_reads, reads_of_firstRead⟩

theorem not_reads_nil : ¬ Reads finish [] t after := by
  rintro ⟨h, -⟩
  exact Nat.not_lt_zero _ h

theorem readsOperands_iff :
    ReadsOperands finish close ahead items after ↔ ∃ l rest, skipSpace ahead = l :: rest ∧
      (l.token = close ∧ items = [] ∧ after = rest ∨
        l.token ≠ close ∧ ReadsItems finish close (l :: rest) items after) := by
  constructor
  · rintro ⟨hlt, h⟩
    rw [readOperands] at h
    split at h
    · cases h
    · rename_i l rest hskip
      refine ⟨l, rest, hskip, ?_⟩
      split at h
      · rename_i hclose
        cases h
        exact .inl ⟨hclose, rfl, rfl⟩
      · rename_i hclose
        split at h
        · cases h
        · rename_i read hread
          cases h
          exact .inr ⟨hclose, read.shorter, hread⟩
  · rintro ⟨l, rest, hskip, h⟩
    have hle := length_skipSpace_le ahead
    rw [hskip] at hle
    rcases h with ⟨rfl, rfl, rfl⟩ | ⟨hclose, hlt, hread⟩
    · refine ⟨hle, ?_⟩
      rw [readOperands]
      split
      · rename_i hnil
        rw [hskip] at hnil
        cases hnil
      · rename_i m others heq
        rw [hskip] at heq
        cases heq
        rw [if_pos rfl]
    · refine ⟨Nat.lt_of_lt_of_le hlt hle, ?_⟩
      rw [readOperands]
      split
      · rename_i hnil
        rw [hskip] at hnil
        cases hnil
      · rename_i m others heq
        rw [hskip] at heq
        cases heq
        rw [if_neg hclose]
        simp only [hread]

/-- How a list of operands goes on behind an operand: `l` is the lexeme behind the space. -/
inductive NextRead (finish : Nat) (close : Token) (behind : List Lexeme) (after : List Lexeme) :
    List Term → Prop
  | last (l : Lexeme) (skip : skipSpace behind = l :: after) (closes : l.token = close) :
      NextRead finish close behind after []
  | comma (l : Lexeme) (rest : List Lexeme) (others : List Term)
      (skip : skipSpace behind = l :: rest) (open_ : l.token ≠ close) (comma : l.token = .comma)
      (read : ReadsItems finish close (skipSpace rest) others after) :
      NextRead finish close behind after others
  | space (l : Lexeme) (rest : List Lexeme) (others : List Term)
      (skip : skipSpace behind = l :: rest) (open_ : l.token ≠ close) (bare : l.token ≠ .comma)
      (spaced : startsWithSpace behind = true)
      (read : ReadsItems finish close (l :: rest) others after) :
      NextRead finish close behind after others

theorem nextRead_of_readsItems (h : ReadsItems finish close ahead items after) :
    ∃ first others behind, items = first :: others ∧ Reads finish ahead first behind ∧
      NextRead finish close behind after others := by
  obtain ⟨hlt, h⟩ := h
  rw [readItems] at h
  split at h
  · cases h
  · rename_i item hitem
    split at h
    · cases h
    · rename_i l rest hskip
      dsimp only at h
      split at h
      · rename_i hclose
        cases h
        exact ⟨_, _, _, rfl, ⟨item.shorter, hitem⟩, .last l hskip hclose⟩
      · rename_i hclose
        split at h
        · rename_i hcomma
          split at h
          · cases h
          · rename_i others hothers
            cases h
            exact ⟨_, _, _, rfl, ⟨item.shorter, hitem⟩,
              .comma l rest _ hskip hclose hcomma ⟨others.shorter, hothers⟩⟩
        · rename_i hcomma
          split at h
          · rename_i hspace
            split at h
            · cases h
            · rename_i others hothers
              cases h
              exact ⟨_, _, _, rfl, ⟨item.shorter, hitem⟩,
                .space l rest _ hskip hclose hcomma hspace ⟨others.shorter, hothers⟩⟩
          · cases h

theorem readsItems_of_nextRead {first : Term} {others : List Term} {behind : List Lexeme}
    (hfirst : Reads finish ahead first behind) (h : NextRead finish close behind after others) :
    ReadsItems finish close ahead (first :: others) after := by
  obtain ⟨hbehind, hread⟩ := hfirst
  have hle := length_skipSpace_le behind
  cases h with
  | last l skip closes =>
    rw [skip, List.length_cons] at hle
    refine ⟨by omega, ?_⟩
    rw [readItems]
    simp only [hread]
    split
    · rename_i hnil
      rw [skip] at hnil
      cases hnil
    · rename_i m rest heq
      rw [skip] at heq
      cases heq
      rw [if_pos closes]
  | comma l rest others skip open_ comma hothers =>
    obtain ⟨hlt, hothers⟩ := hothers
    have hrest := length_skipSpace_le rest
    rw [skip, List.length_cons] at hle
    refine ⟨by omega, ?_⟩
    rw [readItems]
    simp only [hread]
    split
    · rename_i hnil
      rw [skip] at hnil
      cases hnil
    · rename_i m rest heq
      rw [skip] at heq
      cases heq
      rw [if_neg open_, if_pos comma]
      simp only [hothers]
  | space l rest others skip open_ bare spaced hothers =>
    obtain ⟨hlt, hothers⟩ := hothers
    rw [skip] at hle
    refine ⟨by omega, ?_⟩
    rw [readItems]
    simp only [hread]
    split
    · rename_i hnil
      rw [skip] at hnil
      cases hnil
    · rename_i m rest heq
      rw [skip] at heq
      cases heq
      rw [if_neg open_, if_neg bare, if_pos spaced]
      simp only [hothers]

/-- Operands are read one after the other, each followed by a separator or by `close`. -/
theorem readsItems_iff :
    ReadsItems finish close ahead items after ↔ ∃ first others behind, items = first :: others ∧
      Reads finish ahead first behind ∧ NextRead finish close behind after others := by
  constructor
  · exact nextRead_of_readsItems
  · rintro ⟨first, others, behind, rfl, hfirst, h⟩
    exact readsItems_of_nextRead hfirst h

theorem readTail_eq_ok_iff :
    readTail finish ahead = .ok items ↔
      skipSpace ahead = [] ∧ items = [] ∨
      ∃ first others behind, items = first :: others ∧ startsWithSpace ahead = true ∧
        Reads finish (skipSpace ahead) first behind ∧ readTail finish behind = .ok others := by
  constructor
  · intro h
    rw [readTail] at h
    split at h
    · rename_i hskip
      cases h
      exact .inl ⟨hskip, rfl⟩
    · rename_i l rest hskip
      refine .inr ?_
      rw [hskip]
      split at h
      · rename_i hspace
        split at h
        · cases h
        · rename_i item hitem
          dsimp only at h
          split at h
          · cases h
          · rename_i others hothers
            cases h
            exact ⟨_, _, _, rfl, hspace, ⟨item.shorter, hitem⟩, hothers⟩
      · cases h
  · rintro (⟨hskip, rfl⟩ | ⟨first, others, behind, rfl, hspace, hfirst, hothers⟩)
    · rw [readTail]
      split
      · rfl
      · rename_i heq
        rw [hskip] at heq
        cases heq
    · rw [readTail]
      split
      · rename_i hnil
        rw [hnil] at hfirst
        exact absurd hfirst not_reads_nil
      · rename_i l rest hskip
        rw [hskip] at hfirst
        obtain ⟨hlt, hread⟩ := hfirst
        rw [if_pos hspace]
        simp only [hread, hothers]

theorem readExpression_eq_ok_iff :
    readExpression finish ahead = .ok t ↔ ∃ first others behind, t = ofItems first others ∧
      Reads finish (skipSpace ahead) first behind ∧ readTail finish behind = .ok others := by
  constructor
  · intro h
    rw [readExpression] at h
    split at h
    · cases h
    · rename_i first hfirst
      split at h
      · cases h
      · rename_i others hothers
        cases h
        exact ⟨_, _, _, rfl, ⟨first.shorter, hfirst⟩, hothers⟩
  · rintro ⟨first, others, behind, rfl, ⟨hlt, hread⟩, hothers⟩
    rw [readExpression]
    simp only [hread, hothers]

end
end Term

theorem parse_eq_ok_iff {input : String} {t : Term} :
    parse input = .ok t ↔ ∃ lexemes, tokenize input = .ok lexemes ∧
      Term.readExpression (Cursor.ofLexemes lexemes).finish (Cursor.ofLexemes lexemes).ahead =
        .ok t := by
  simp only [parse, Cursor.start, Cursor.parse]
  cases tokenize input with
  | error e => simp [Except.map, Except.bind]
  | ok lexemes =>
    simp only [Except.map, Except.bind, Except.ok.injEq, exists_eq_left']
    split <;> simp_all

end PhrasePattern
