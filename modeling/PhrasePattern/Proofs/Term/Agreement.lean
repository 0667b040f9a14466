import PhrasePattern.Proofs.Term.Grammar

/-! The parser accepts exactly what the grammar derives. The grammar takes the text of a literal from
the source, the parser puts it together from tokens; the two are the same where the lexemes lie
without gaps in the source, which is how the scanner places them. -/
namespace PhrasePattern
namespace Grammar

/-- Each lexeme starts where the one before it ends, the first one at `position`. -/
def Consecutive : (position : Nat) → List Lexeme → Prop
  | _, [] => True
  | position, l :: rest =>
    l.position = position ∧ Consecutive (position + l.token.spelling.utf8ByteSize) rest

def Tiles (input : String) (ahead : List Lexeme) : Prop :=
  ∃ before : String, input = before ++ String.ofList (Token.spell (ahead.map (·.token))) ∧
    Consecutive before.utf8ByteSize ahead

theorem consecutive_placed (position : Nat) (tokens : List Token) :
    Consecutive position (Lexeme.placed position tokens) := by
  induction tokens generalizing position with
  | nil => exact trivial
  | cons token others ih => exact ⟨rfl, ih _⟩

@[simp]
theorem map_token_placed (position : Nat) (tokens : List Token) :
    (Lexeme.placed position tokens).map (·.token) = tokens := by
  induction tokens generalizing position with
  | nil => rfl
  | cons token others ih => simp [Lexeme.placed, ih]

theorem tiles_placed {input : String} {tokens : List Token}
    (h : input.toList = Token.spell tokens) : Tiles input (Lexeme.placed 0 tokens) := by
  refine ⟨"", ?_, by simpa using consecutive_placed 0 tokens⟩
  rw [map_token_placed, ← h, String.ofList_toList, String.empty_append]

theorem Tiles.tail {input : String} {l : Lexeme} {rest : List Lexeme}
    (h : Tiles input (l :: rest)) : Tiles input rest := by
  obtain ⟨before, hinput, hposition, hrest⟩ := h
  refine ⟨before ++ l.token.spelling, ?_, ?_⟩
  · rw [hinput, List.map_cons, Token.spell_cons, String.ofList_append, String.ofList_toList,
      String.append_assoc]
  · rw [String.utf8ByteSize_append]
    exact hrest

theorem Tiles.of_suffix {input : String} {ahead rest : List Lexeme} (h : Tiles input ahead)
    (hrest : rest <:+ ahead) : Tiles input rest := by
  induction ahead with
  | nil => rw [List.suffix_nil.mp hrest]; exact h
  | cons l ahead ih =>
    rcases List.suffix_cons_iff.mp hrest with rfl | hrest
    · exact h
    · exact ih h.tail hrest

theorem spell_moreWords (ahead : List Lexeme) :
    Token.spell (ahead.map (·.token)) =
      (Term.moreWords ahead).1.toList ++ Token.spell ((Term.moreWords ahead).2.map (·.token)) := by
  fun_induction Term.moreWords ahead with
  | case1 gap place text position rest ih => simp [Token.spelling, ih]
  | case2 ahead => simp

theorem not_wordFollows_moreWords (ahead : List Lexeme) :
    ¬ WordFollows (Term.moreWords ahead).2 := by
  fun_induction Term.moreWords ahead with
  | case1 gap place text position rest ih => exact ih
  | case2 ahead hne =>
    intro h
    dsimp only at h
    unfold WordFollows at h
    split at h
    · exact hne _ _ _ _ _ rfl
    · exact h

theorem words_moreWords (text : String) (position : Nat) (ahead : List Lexeme)
    (h : Consecutive (position + text.utf8ByteSize) ahead) :
    Nonempty (Words (⟨.word text, position⟩ :: ahead)
      (position + (text ++ (Term.moreWords ahead).1).utf8ByteSize) (Term.moreWords ahead).2) := by
  fun_induction Term.moreWords ahead generalizing text position with
  | case1 gap place word position' rest ih =>
    obtain ⟨-, hplace, hrest⟩ := h
    rw [← hplace] at hrest
    obtain ⟨others⟩ := ih word position' hrest
    have hstop : position' + (word ++ (Term.moreWords rest).1).utf8ByteSize =
        position + (text ++ (gap ++ word ++ (Term.moreWords rest).1)).utf8ByteSize := by
      simp only [Token.spelling] at hplace
      simp only [String.utf8ByteSize_append]
      omega
    rw [← hstop]
    exact ⟨.more text position gap place others⟩
  | case2 ahead =>
    rw [String.append_empty]
    exact ⟨.last text position ahead⟩

theorem Tiles.isSlice_moreWords {input text : String} {position : Nat} {rest : List Lexeme}
    (h : Tiles input (⟨.word text, position⟩ :: rest)) :
    IsSlice input position (position + (text ++ (Term.moreWords rest).1).utf8ByteSize)
      (text ++ (Term.moreWords rest).1) := by
  obtain ⟨before, hinput, hposition, -⟩ := h
  refine ⟨before, String.ofList (Token.spell ((Term.moreWords rest).2.map (·.token))), ?_,
    hposition.symm, rfl⟩
  rw [hinput, List.map_cons, Token.spell_cons, spell_moreWords rest]
  simp [Token.spelling, String.ofList_append, String.append_assoc]

theorem Tiles.literalRule {input text : String} {position : Nat} {rest : List Lexeme}
    (h : Tiles input (⟨.word text, position⟩ :: rest)) :
    Nonempty (TermRule input (⟨.word text, position⟩ :: rest)
      (.literal (text ++ (Term.moreWords rest).1)) (Term.moreWords rest).2) := by
  have hslice := h.isSlice_moreWords
  obtain ⟨before, -, hposition, hrest⟩ := h
  rw [← hposition] at hrest
  obtain ⟨words⟩ := words_moreWords text position rest hrest
  exact ⟨.literal words (not_wordFollows_moreWords rest) hslice⟩

theorem Tiles.literal_eq {input text word : String} {position stop : Nat}
    {behind rest : List Lexeme} (h : Tiles input (⟨.word word, position⟩ :: behind))
    (words : Words (⟨.word word, position⟩ :: behind) stop rest) (maximal : ¬ WordFollows rest)
    (verbatim : IsSlice input position stop text) :
    text = word ++ (Term.moreWords behind).1 ∧ rest = (Term.moreWords behind).2 := by
  have hslice := h.isSlice_moreWords
  obtain ⟨before, -, hposition, hbehind⟩ := h
  rw [← hposition] at hbehind
  obtain ⟨words'⟩ := words_moreWords word position behind hbehind
  obtain ⟨rfl, rfl, -⟩ := words.unique words' maximal (not_wordFollows_moreWords behind)
  exact ⟨verbatim.unique hslice, rfl⟩

theorem gap_skipSpace (ahead : List Lexeme) : Nonempty (Gap ahead (Term.skipSpace ahead)) := by
  unfold Term.skipSpace
  split
  · exact ⟨.space _ _ _⟩
  · exact ⟨.none _⟩

def TermSound (input : String) (finish : Nat) (ahead : List Lexeme) : Prop :=
  ∀ t rest, Term.Reads finish ahead t rest → Nonempty (TermRule input ahead t rest)

def ItemsSound (input : String) (finish : Nat) (ahead : List Lexeme) : Prop :=
  ∀ close items rest, Term.ReadsItems finish close ahead items rest →
    Nonempty (ItemsRule input close ahead items rest)

section
variable {input : String} {finish : Nat} {ahead : List Lexeme}

theorem operandsRule_of_reads {close : Token} {items : List Term} {rest : List Lexeme}
    (ih : ∀ behind : List Lexeme, behind.length ≤ ahead.length → Tiles input behind →
      ItemsSound input finish behind)
    (hahead : Tiles input ahead) (h : Term.ReadsOperands finish close ahead items rest)
    (hne : items ≠ []) : Nonempty (OperandsRule input close ahead items rest) := by
  obtain ⟨l, behind, hskip, ⟨-, hnil, -⟩ | ⟨-, hitems⟩⟩ := Term.readsOperands_iff.mp h
  · exact absurd hnil hne
  · obtain ⟨gap⟩ := gap_skipSpace ahead
    rw [hskip] at gap
    obtain ⟨rule⟩ := ih _ gap.suffix.length_le (hahead.of_suffix gap.suffix) close items rest hitems
    exact ⟨.operands gap rule⟩

theorem macroEmpty_of_reads {rest : List Lexeme}
    (h : Term.ReadsOperands finish .closeParen ahead [] rest) :
    ∃ position, Nonempty (Gap ahead (⟨.closeParen, position⟩ :: rest)) := by
  obtain ⟨⟨token, position⟩, behind, hskip, ⟨hclose, -, rfl⟩ | ⟨-, hitems⟩⟩ :=
    Term.readsOperands_iff.mp h
  · obtain ⟨gap⟩ := gap_skipSpace ahead
    rw [hskip] at gap
    cases hclose
    exact ⟨position, ⟨gap⟩⟩
  · obtain ⟨first, others, behind, heq, -⟩ := Term.readsItems_iff.mp hitems
    cases heq

-- What is read behind the first lexeme is shorter, so it is derived; the construct adds its own tokens.
theorem termSound_of_shorter
    (ih : ∀ behind : List Lexeme, behind.length < ahead.length → Tiles input behind →
      TermSound input finish behind ∧ ItemsSound input finish behind)
    (hahead : Tiles input ahead) : TermSound input finish ahead := by
  intro t rest h
  cases ahead with
  | nil => exact absurd h Term.not_reads_nil
  | cons l behind =>
    obtain ⟨token, position⟩ := l
    have hitems : ∀ next : List Lexeme, next.length ≤ behind.length → Tiles input next →
        ItemsSound input finish next :=
      fun next hle hnext => (ih next (Nat.lt_succ_of_le hle) hnext).2
    cases Term.reads_cons_iff.mp h with
    | bracket form items opens operands enough =>
      have hne : items ≠ [] := by
        rintro rfl
        cases form <;> simp [Bracket.minimum] at enough
      obtain ⟨rule⟩ := operandsRule_of_reads hitems hahead.tail operands hne
      exact ⟨.bracket form position opens rule enough⟩
    | negation operand sign read =>
      cases sign
      obtain ⟨gap⟩ := gap_skipSpace behind
      obtain ⟨rule⟩ := (ih _ (Nat.lt_succ_of_le gap.suffix.length_le)
        (hahead.tail.of_suffix gap.suffix)).1 operand rest read
      exact ⟨.negation position gap rule⟩
    | regex body token all =>
      cases token
      cases all
      exact ⟨.regex body position _⟩
    | assignment symbol operand place body token equals read =>
      cases token
      subst equals
      obtain ⟨rule⟩ := (ih body (Nat.lt_succ_of_lt (Nat.lt_succ_self _)) hahead.tail.tail).1
        operand rest read
      exact ⟨.assignment symbol position place rule⟩
    | reference symbol token alone all =>
      cases token
      cases all
      exact ⟨.reference symbol position _⟩
    | macroCall name arguments place body token opens operands =>
      cases token
      subst opens
      cases arguments with
      | nil =>
        obtain ⟨closing, ⟨gap⟩⟩ := macroEmpty_of_reads operands
        exact ⟨.macroEmpty name position place closing gap⟩
      | cons first others =>
        obtain ⟨rule⟩ := operandsRule_of_reads
          (fun next hle => hitems next (Nat.le_succ_of_le hle)) hahead.tail.tail operands
          (List.cons_ne_nil _ _)
        exact ⟨.macroCall name position place rule⟩
    | macroName name token alone all =>
      cases token
      cases all
      exact ⟨.macroName name position _⟩
    | literal text token all =>
      cases token
      cases all
      exact hahead.literalRule

theorem itemsSound_of_shorter (hterm : TermSound input finish ahead)
    (ih : ∀ behind : List Lexeme, behind.length < ahead.length → Tiles input behind →
      ItemsSound input finish behind)
    (hahead : Tiles input ahead) : ItemsSound input finish ahead := by
  intro close items rest h
  obtain ⟨first, others, behind, rfl, hfirst, hnext⟩ := Term.readsItems_iff.mp h
  obtain ⟨rule⟩ := hterm first behind hfirst
  have hbehind : Tiles input behind := hahead.of_suffix rule.leaves.1
  obtain ⟨gap⟩ := gap_skipSpace behind
  cases hnext with
  | last l skip closes =>
    obtain ⟨token, position⟩ := l
    cases closes
    rw [skip] at gap
    exact ⟨.last position rule gap⟩
  | comma l next others skip open_ comma read =>
    obtain ⟨token, position⟩ := l
    cases comma
    rw [skip] at gap
    obtain ⟨after⟩ := gap_skipSpace next
    have separator : Separator behind (Term.skipSpace next) := .comma position gap after
    obtain ⟨rules⟩ := ih _ (Nat.lt_of_le_of_lt separator.suffix.length_le rule.leaves.2)
      (hbehind.of_suffix separator.suffix) close others rest read
    exact ⟨.more rule separator rules⟩
  | space l next others skip open_ bare spaced read =>
    obtain ⟨text, position, rfl⟩ : ∃ text position, behind = ⟨.space text, position⟩ :: l :: next := by
      unfold Term.startsWithSpace at spaced
      split at spaced
      · rename_i text position tail
        cases skip
        exact ⟨text, position, rfl⟩
      · cases spaced
    have separator : Separator (⟨.space text, position⟩ :: l :: next) (l :: next) :=
      .space text position _
    obtain ⟨rules⟩ := ih _ (Nat.lt_of_le_of_lt separator.suffix.length_le rule.leaves.2)
      (hbehind.of_suffix separator.suffix) close others rest read
    exact ⟨.more rule separator rules⟩

theorem sound_of_length_le (n : Nat) : ∀ ahead : List Lexeme, ahead.length ≤ n →
    Tiles input ahead → TermSound input finish ahead ∧ ItemsSound input finish ahead := by
  induction n with
  | zero =>
    intro ahead hn hahead
    have hterm : TermSound input finish ahead :=
      termSound_of_shorter (fun behind hlt => absurd hlt (by omega)) hahead
    exact ⟨hterm, itemsSound_of_shorter hterm (fun behind hlt => absurd hlt (by omega)) hahead⟩
  | succ n ih =>
    intro ahead hn hahead
    have hshorter : ∀ behind : List Lexeme, behind.length < ahead.length → Tiles input behind →
        TermSound input finish behind ∧ ItemsSound input finish behind :=
      fun behind hlt => ih behind (by omega)
    have hterm : TermSound input finish ahead := termSound_of_shorter hshorter hahead
    exact ⟨hterm, itemsSound_of_shorter hterm (fun behind hlt h => (hshorter behind hlt h).2) hahead⟩

theorem termRule_of_reads (hahead : Tiles input ahead) {t : Term} {rest : List Lexeme}
    (h : Term.Reads finish ahead t rest) : Nonempty (TermRule input ahead t rest) :=
  (sound_of_length_le ahead.length ahead (Nat.le_refl _) hahead).1 t rest h

theorem Gap.skipSpace_eq {token : Token} {position : Nat} {rest : List Lexeme}
    (g : Gap ahead (⟨token, position⟩ :: rest)) (h : ∀ text, token ≠ .space text) :
    Term.skipSpace ahead = ⟨token, position⟩ :: rest := by
  cases g with
  | none =>
    unfold Term.skipSpace
    split
    · rename_i heq
      cases heq
      exact absurd rfl (h _)
    · rfl
  | space => rfl

theorem Gap.skipSpace_eq_of_begins {behind : List Lexeme} (g : Gap ahead behind)
    (h : Begins startsTerm behind) : Term.skipSpace ahead = behind := by
  obtain ⟨token, position, rest, rfl, htoken⟩ := h
  exact g.skipSpace_eq (by rintro text rfl; cases htoken)

mutual

/-- What is derived, and followed by something that can follow a term, is read. -/
theorem TermRule.reads {ahead rest : List Lexeme} {t : Term} :
    TermRule input ahead t rest → Tiles input ahead → Settled rest →
      Term.Reads finish ahead t rest
  | .bracket form _ opens operands enough, hahead, _ =>
      Term.reads_cons_iff.mpr (.bracket form _ opens
        (operands.reads (isClosing_closing form) hahead.tail) enough)
  | .negation _ gap rule, hahead, hrest =>
      Term.reads_cons_iff.mpr (.negation _ rfl
        (gap.skipSpace_eq_of_begins rule.begins ▸
          rule.reads (hahead.tail.of_suffix gap.suffix) hrest))
  | .regex body _ _, _, _ => Term.reads_cons_iff.mpr (.regex body rfl rfl)
  | .assignment symbol _ _ rule, hahead, hrest =>
      Term.reads_cons_iff.mpr (.assignment symbol _ _ _ rfl rfl (rule.reads hahead.tail.tail hrest))
  | .reference symbol _ _, _, hrest =>
      Term.reads_cons_iff.mpr (.reference symbol rfl
        (fun _ _ heq => Settled.ne_equals (heq ▸ hrest)) rfl)
  | .macroName name _ _, _, hrest =>
      Term.reads_cons_iff.mpr (.macroName name rfl
        (fun _ _ heq => Settled.ne_openParen (heq ▸ hrest)) rfl)
  | .macroEmpty name _ _ _ gap, _, _ =>
      Term.reads_cons_iff.mpr (.macroCall name [] _ _ rfl rfl
        (Term.readsOperands_iff.mpr
          ⟨_, _, gap.skipSpace_eq (by simp), .inl ⟨rfl, rfl, rfl⟩⟩))
  | .macroCall name _ _ operands, hahead, _ =>
      Term.reads_cons_iff.mpr (.macroCall name _ _ _ rfl rfl
        (operands.reads rfl hahead.tail.tail))
  | .literal words maximal verbatim, hahead, _ => by
      obtain ⟨word, place, behind, heq⟩ := words.begins
      cases heq
      obtain ⟨rfl, rfl⟩ := hahead.literal_eq words maximal verbatim
      exact Term.reads_cons_iff.mpr (.literal word rfl rfl)

theorem OperandsRule.reads {close : Token} {ahead rest : List Lexeme} {items : List Term} :
    OperandsRule input close ahead items rest → isClosing close = true → Tiles input ahead →
      Term.ReadsOperands finish close ahead items rest
  | .operands gap rule, hclose, hahead => by
      have hitems := rule.reads hclose (hahead.of_suffix gap.suffix)
      obtain ⟨token, position, behind, rfl, htoken⟩ := rule.begins
      refine Term.readsOperands_iff.mpr
        ⟨_, _, gap.skipSpace_eq (by rintro text rfl; cases htoken), .inr ⟨?_, hitems⟩⟩
      rintro rfl
      rw [startsTerm_eq_false_of_isClosing hclose] at htoken
      cases htoken

theorem ItemsRule.reads {close : Token} {ahead rest : List Lexeme} {items : List Term} :
    ItemsRule input close ahead items rest → isClosing close = true → Tiles input ahead →
      Term.ReadsItems finish close ahead items rest
  | .last _ rule gap, hclose, hahead =>
      Term.readsItems_of_nextRead (rule.reads hahead (gap.settled_of_closing hclose))
        (.last _ (gap.skipSpace_eq (by rintro text rfl; cases hclose)) rfl)
  | .more rule separator others, hclose, hahead => by
      have hfirst := rule.reads hahead separator.settled
      have hothers := others.reads hclose
        (hahead.of_suffix (separator.suffix.trans rule.leaves.1))
      refine Term.readsItems_of_nextRead hfirst ?_
      obtain ⟨token, place, behind, rfl, htoken⟩ := others.begins
      cases separator with
      | comma position before after =>
        refine .comma ⟨.comma, position⟩ _ _ (before.skipSpace_eq (by simp)) ?_ rfl ?_
        · rintro rfl
          cases hclose
        · rw [after.skipSpace_eq (by rintro text rfl; cases htoken)]
          exact hothers
      | space text position =>
        refine .space ⟨token, place⟩ behind _ rfl ?_ ?_ rfl hothers
        · rintro rfl
          rw [startsTerm_eq_false_of_isClosing hclose] at htoken
          cases htoken
        · rintro rfl
          cases htoken

end

theorem tailRule_of_readTail {items : List Term} (hahead : Tiles input ahead)
    (h : Term.readTail finish ahead = .ok items) : Nonempty (TailRule input ahead items) := by
  induction items generalizing ahead with
  | nil =>
    rcases Term.readTail_eq_ok_iff.mp h with ⟨hskip, -⟩ | ⟨first, others, behind, heq, -⟩
    · obtain ⟨gap⟩ := gap_skipSpace ahead
      rw [hskip] at gap
      exact ⟨.done gap⟩
    · cases heq
  | cons item items ih =>
    rcases Term.readTail_eq_ok_iff.mp h with
      ⟨-, heq⟩ | ⟨first, others, behind, heq, hspace, hfirst, hothers⟩
    · cases heq
    · cases heq
      unfold Term.startsWithSpace at hspace
      split at hspace
      · rename_i text position next
        obtain ⟨rule⟩ := termRule_of_reads hahead.tail hfirst
        obtain ⟨tail⟩ := ih (hahead.tail.of_suffix rule.leaves.1) hothers
        exact ⟨.more text position rule tail⟩
      · cases hspace

theorem TailRule.readTail {items : List Term} (d : TailRule input ahead items)
    (hahead : Tiles input ahead) : Term.readTail finish ahead = .ok items := by
  induction d with
  | done gap =>
    refine Term.readTail_eq_ok_iff.mpr (.inl ⟨?_, rfl⟩)
    cases gap with
    | none => rfl
    | space => rfl
  | more text position rule others ih =>
    refine Term.readTail_eq_ok_iff.mpr (.inr ⟨_, _, _, rfl, rfl,
      rule.reads hahead.tail others.settled, ih (hahead.tail.of_suffix rule.leaves.1)⟩)

theorem expressionRule_of_readExpression {t : Term} (hahead : Tiles input ahead)
    (h : Term.readExpression finish ahead = .ok t) :
    Nonempty (ExpressionRule input ahead t) := by
  obtain ⟨first, others, behind, rfl, hfirst, hothers⟩ := Term.readExpression_eq_ok_iff.mp h
  obtain ⟨gap⟩ := gap_skipSpace ahead
  have hskip := hahead.of_suffix gap.suffix
  obtain ⟨rule⟩ := termRule_of_reads hskip hfirst
  obtain ⟨tail⟩ := tailRule_of_readTail (hskip.of_suffix rule.leaves.1) hothers
  cases others with
  | nil => exact ⟨.single gap rule tail⟩
  | cons second others => exact ⟨.several gap rule tail⟩

theorem ExpressionRule.readExpression {t : Term} (d : ExpressionRule input ahead t)
    (hahead : Tiles input ahead) : Term.readExpression finish ahead = .ok t := by
  refine Term.readExpression_eq_ok_iff.mpr ?_
  cases d with
  | single gap rule tail =>
    have hbehind := hahead.of_suffix gap.suffix
    refine ⟨_, [], _, rfl, ?_, tail.readTail (hbehind.of_suffix rule.leaves.1)⟩
    rw [gap.skipSpace_eq_of_begins rule.begins]
    exact rule.reads hbehind tail.settled
  | several gap rule tail =>
    have hbehind := hahead.of_suffix gap.suffix
    refine ⟨_, _, _, rfl, ?_, tail.readTail (hbehind.of_suffix rule.leaves.1)⟩
    rw [gap.skipSpace_eq_of_begins rule.begins]
    exact rule.reads hbehind tail.settled

end

theorem ofLexemes_append_end (position : Nat) (lexemes : List Lexeme) :
    Cursor.ofLexemes (lexemes ++ [⟨.endOfInput, position⟩]) = ⟨lexemes, position⟩ := by
  simp [Cursor.ofLexemes]

theorem parse_eq_ok_iff_rule {input : String} {t : Term} :
    parse input = .ok t ↔ ∃ tokens, Token.Scannable tokens ∧ input.toList = Token.spell tokens ∧
      Nonempty (ExpressionRule input (Lexeme.placed 0 tokens) t) := by
  rw [parse_eq_ok_iff]
  constructor
  · rintro ⟨lexemes, htokens, hread⟩
    obtain ⟨tokens, hscan, hspell, rfl⟩ := (tokenize_eq_ok_iff input lexemes).mp htokens
    rw [ofLexemes_append_end] at hread
    exact ⟨tokens, hscan, hspell, expressionRule_of_readExpression (tiles_placed hspell) hread⟩
  · rintro ⟨tokens, hscan, hspell, ⟨d⟩⟩
    refine ⟨_, (tokenize_eq_ok_iff input _).mpr ⟨tokens, hscan, hspell, rfl⟩, ?_⟩
    rw [ofLexemes_append_end]
    exact d.readExpression (tiles_placed hspell)

/-- An input is parsed as a term exactly if its tokens derive that term, and the derivation is the
only one. -/
theorem parse_eq_ok_iff_derivation (input : String) (t : Term) :
    (parse input = .ok t ↔ ∃ lexemes finish,
      tokenize input = .ok (lexemes ++ [⟨.endOfInput, finish⟩]) ∧
        Nonempty (ExpressionRule input lexemes t)) ∧
    ∀ (lexemes : List Lexeme) (u : Term) (d : ExpressionRule input lexemes t)
      (e : ExpressionRule input lexemes u), t = u ∧ HEq d e := by
  refine ⟨?_, fun lexemes u d e => d.unique e⟩
  rw [parse_eq_ok_iff_rule]
  constructor
  · rintro ⟨tokens, hscan, hspell, hrule⟩
    exact ⟨_, _, (tokenize_eq_ok_iff input _).mpr ⟨tokens, hscan, hspell, rfl⟩, hrule⟩
  · rintro ⟨lexemes, finish, htokens, hrule⟩
    obtain ⟨tokens, hscan, hspell, heq⟩ := (tokenize_eq_ok_iff input _).mp htokens
    obtain ⟨rfl, -⟩ := List.append_inj' heq rfl
    exact ⟨tokens, hscan, hspell, hrule⟩

end Grammar
end PhrasePattern
