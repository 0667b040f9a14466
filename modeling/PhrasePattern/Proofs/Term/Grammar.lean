import PhrasePattern.Proofs.Term.Reading
import PhrasePattern.Proofs.Token.Spelling

/-! The grammar of expressions, with its derivations as data, and the parser's agreement with it.

    expression := space? term ( space term )* space?
    operands   := space? term ( separator term )* space?
    separator  := space? ',' space?  |  space
    macro      := '#' name ( '(' space? ')'  |  '(' operands ')' )?
    literal    := word ( space word )*

In a call the blank that may stand behind the opening parenthesis is the one with which the operands
begin; there is no second one, since two blanks are never next to each other among the lexemes. A
derivation is indexed by the lexemes ahead, by the term and by the lexemes that are left. The one rule
beyond the grammar is that a literal is maximal. An expression is parsed exactly as the grammar
derives it, and no lexemes have two derivations. -/
namespace PhrasePattern
namespace Grammar

/-- The bytes of `input` from `start` up to `stop` are `text`. -/
def IsSlice (input : String) (start stop : Nat) (text : String) : Prop :=
  ∃ before after : String, input = before ++ text ++ after ∧ before.utf8ByteSize = start ∧
    start + text.utf8ByteSize = stop

inductive Gap : List Lexeme → List Lexeme → Type
  | none (ahead : List Lexeme) : Gap ahead ahead
  | space (text : String) (position : Nat) (ahead : List Lexeme) :
      Gap (⟨.space text, position⟩ :: ahead) ahead

/-- Words with a space between each two; the last one ends at the byte `stop`. -/
inductive Words : List Lexeme → (stop : Nat) → List Lexeme → Type
  | last (text : String) (position : Nat) (rest : List Lexeme) :
      Words (⟨.word text, position⟩ :: rest) (position + text.utf8ByteSize) rest
  | more (text : String) (position : Nat) (gap : String) (place : Nat) {ahead : List Lexeme}
      {stop : Nat} {rest : List Lexeme} (others : Words ahead stop rest) :
      Words (⟨.word text, position⟩ :: ⟨.space gap, place⟩ :: ahead) stop rest

/-- A literal that ends here could have gone on. -/
def WordFollows : List Lexeme → Prop
  | ⟨.space _, _⟩ :: ⟨.word _, _⟩ :: _ => True
  | _ => False

inductive Separator : List Lexeme → List Lexeme → Type
  | comma {ahead behind rest : List Lexeme} (position : Nat)
      (before : Gap ahead (⟨.comma, position⟩ :: behind)) (after : Gap behind rest) :
      Separator ahead rest
  | space (text : String) (position : Nat) (rest : List Lexeme) :
      Separator (⟨.space text, position⟩ :: rest) rest

mutual

inductive TermRule (input : String) : List Lexeme → Term → List Lexeme → Type
  | bracket {token : Token} {ahead rest : List Lexeme} {items : List Term} (form : Bracket)
      (position : Nat) (opens : token = form.opening)
      (operands : OperandsRule input form.closing ahead items rest)
      (enough : form.minimum ≤ items.length) :
      TermRule input (⟨token, position⟩ :: ahead) (.group form items) rest
  | negation {ahead behind rest : List Lexeme} {operand : Term} (position : Nat)
      (gap : Gap ahead behind) (rule : TermRule input behind operand rest) :
      TermRule input (⟨.minus, position⟩ :: ahead) (.negation operand) rest
  | regex (body : String) (position : Nat) (rest : List Lexeme) :
      TermRule input (⟨.regex body, position⟩ :: rest) (.regex body) rest
  | assignment {ahead rest : List Lexeme} {operand : Term} (symbol : String)
      (position place : Nat) (rule : TermRule input ahead operand rest) :
      TermRule input (⟨.variableName symbol, position⟩ :: ⟨.equals, place⟩ :: ahead)
        (.assignment symbol operand) rest
  | reference (symbol : String) (position : Nat) (rest : List Lexeme) :
      TermRule input (⟨.variableName symbol, position⟩ :: rest) (.reference symbol) rest
  | macroName (name : String) (position : Nat) (rest : List Lexeme) :
      TermRule input (⟨.macroName name, position⟩ :: rest) (.macroCall name []) rest
  | macroEmpty {ahead rest : List Lexeme} (name : String) (position opening closing : Nat)
      (gap : Gap ahead (⟨.closeParen, closing⟩ :: rest)) :
      TermRule input (⟨.macroName name, position⟩ :: ⟨.openParen, opening⟩ :: ahead)
        (.macroCall name []) rest
  | macroCall {ahead rest : List Lexeme} {arguments : List Term} (name : String)
      (position opening : Nat)
      (operands : OperandsRule input .closeParen ahead arguments rest) :
      TermRule input (⟨.macroName name, position⟩ :: ⟨.openParen, opening⟩ :: ahead)
        (.macroCall name arguments) rest
  | literal {token : Token} {position stop : Nat} {ahead rest : List Lexeme} {text : String}
      (words : Words (⟨token, position⟩ :: ahead) stop rest) (maximal : ¬ WordFollows rest)
      (verbatim : IsSlice input position stop text) :
      TermRule input (⟨token, position⟩ :: ahead) (.literal text) rest

/-- One operand or more, up to and including the token `close`. -/
inductive OperandsRule (input : String) : Token → List Lexeme → List Term → List Lexeme → Type
  | operands {close : Token} {ahead behind rest : List Lexeme} {items : List Term}
      (gap : Gap ahead behind) (rule : ItemsRule input close behind items rest) :
      OperandsRule input close ahead items rest

inductive ItemsRule (input : String) : Token → List Lexeme → List Term → List Lexeme → Type
  | last {close : Token} {ahead behind rest : List Lexeme} {item : Term} (position : Nat)
      (rule : TermRule input ahead item behind) (gap : Gap behind (⟨close, position⟩ :: rest)) :
      ItemsRule input close ahead [item] rest
  | more {close : Token} {ahead behind next rest : List Lexeme} {item : Term} {items : List Term}
      (rule : TermRule input ahead item behind) (separator : Separator behind next)
      (others : ItemsRule input close next items rest) :
      ItemsRule input close ahead (item :: items) rest

end

inductive TailRule (input : String) : List Lexeme → List Term → Type
  | done {ahead : List Lexeme} (gap : Gap ahead []) : TailRule input ahead []
  | more {ahead behind : List Lexeme} {item : Term} {items : List Term} (text : String)
      (position : Nat) (rule : TermRule input ahead item behind)
      (others : TailRule input behind items) :
      TailRule input (⟨.space text, position⟩ :: ahead) (item :: items)

inductive ExpressionRule (input : String) : List Lexeme → Term → Type
  | single {ahead behind rest : List Lexeme} {t : Term} (gap : Gap ahead behind)
      (rule : TermRule input behind t rest) (tail : TailRule input rest []) :
      ExpressionRule input ahead t
  | several {ahead behind rest : List Lexeme} {t u : Term} {items : List Term}
      (gap : Gap ahead behind) (rule : TermRule input behind t rest)
      (tail : TailRule input rest (u :: items)) :
      ExpressionRule input ahead (.concatenation (t :: u :: items))

def startsTerm : Token → Bool
  | .flexOpen | .rigidOpen | .openAngle | .openBrace | .minus => true
  | .variableName _ | .macroName _ | .regex _ | .word _ => true
  | _ => false

def endsTerm : Token → Bool
  | .space _ | .comma | .closeBracket | .closeAngle | .closeBrace | .closeParen => true
  | _ => false

def Begins (p : Token → Bool) (ahead : List Lexeme) : Prop :=
  ∃ token position rest, ahead = ⟨token, position⟩ :: rest ∧ p token = true

def isClosing : Token → Bool
  | .closeBracket | .closeAngle | .closeBrace | .closeParen => true
  | _ => false

theorem isClosing_closing (form : Bracket) : isClosing form.closing = true := by
  cases form <;> rfl

theorem startsTerm_eq_false_of_isClosing {token : Token} (h : isClosing token = true) :
    startsTerm token = false := by
  cases token <;> first | rfl | cases h

theorem endsTerm_of_isClosing {token : Token} (h : isClosing token = true) :
    endsTerm token = true := by
  cases token <;> first | rfl | cases h

theorem Words.begins {ahead rest : List Lexeme} {stop : Nat} (w : Words ahead stop rest) :
    ∃ text position behind, ahead = ⟨.word text, position⟩ :: behind := by
  cases w with
  | last text position => exact ⟨text, position, _, rfl⟩
  | more text position => exact ⟨text, position, _, rfl⟩

theorem TermRule.begins {input : String} {ahead rest : List Lexeme} {t : Term}
    (d : TermRule input ahead t rest) : Begins startsTerm ahead := by
  cases d with
  | bracket form position opens =>
    subst opens
    exact ⟨_, _, _, rfl, by cases form <;> rfl⟩
  | literal words =>
    obtain ⟨text, place, behind, heq⟩ := words.begins
    cases heq
    exact ⟨_, _, _, rfl, rfl⟩
  | _ => exact ⟨_, _, _, rfl, rfl⟩

theorem ItemsRule.begins {input : String} {close : Token} {ahead rest : List Lexeme}
    {items : List Term} (d : ItemsRule input close ahead items rest) : Begins startsTerm ahead := by
  cases d with
  | last position rule => exact rule.begins
  | more rule => exact rule.begins

/-- At least one lexeme of `ahead` was taken, and the lexemes left are `rest`. -/
def Leaves (ahead rest : List Lexeme) : Prop := rest <:+ ahead ∧ rest.length < ahead.length

theorem leaves_cons {l : Lexeme} {ahead rest : List Lexeme} (h : rest <:+ ahead) :
    Leaves (l :: ahead) rest :=
  ⟨h.trans (List.suffix_cons l ahead), Nat.lt_succ_of_le h.length_le⟩

theorem Leaves.of_suffix {ahead behind rest : List Lexeme} (h : Leaves behind rest)
    (hbehind : behind <:+ ahead) : Leaves ahead rest :=
  ⟨h.1.trans hbehind, Nat.lt_of_lt_of_le h.2 hbehind.length_le⟩

theorem Gap.suffix {ahead behind : List Lexeme} (g : Gap ahead behind) : behind <:+ ahead := by
  cases g with
  | none => exact List.suffix_refl _
  | space => exact List.suffix_cons _ _

theorem Separator.suffix {ahead behind : List Lexeme} (s : Separator ahead behind) :
    behind <:+ ahead := by
  cases s with
  | comma position before after =>
    exact after.suffix.trans ((List.suffix_cons _ _).trans before.suffix)
  | space => exact List.suffix_cons _ _

theorem Words.leaves {ahead rest : List Lexeme} {stop : Nat} (w : Words ahead stop rest) :
    Leaves ahead rest := by
  induction w with
  | last => exact leaves_cons (List.suffix_refl _)
  | more text position gap place others ih =>
    exact leaves_cons (ih.1.trans (List.suffix_cons _ _))

mutual

theorem TermRule.leaves {input : String} {ahead rest : List Lexeme} {t : Term} :
    TermRule input ahead t rest → Leaves ahead rest
  | .bracket _ _ _ operands _ => leaves_cons operands.leaves.1
  | .negation _ gap rule => leaves_cons (rule.leaves.1.trans gap.suffix)
  | .regex _ _ _ => leaves_cons (List.suffix_refl _)
  | .assignment _ _ _ rule => leaves_cons (rule.leaves.1.trans (List.suffix_cons _ _))
  | .reference _ _ _ => leaves_cons (List.suffix_refl _)
  | .macroName _ _ _ => leaves_cons (List.suffix_refl _)
  | .macroEmpty _ _ _ _ gap =>
      leaves_cons (((List.suffix_cons _ _).trans gap.suffix).trans (List.suffix_cons _ _))
  | .macroCall _ _ _ operands => leaves_cons (operands.leaves.1.trans (List.suffix_cons _ _))
  | .literal words _ _ => words.leaves

theorem OperandsRule.leaves {input : String} {close : Token} {ahead rest : List Lexeme}
    {items : List Term} : OperandsRule input close ahead items rest → Leaves ahead rest
  | .operands gap rule => rule.leaves.of_suffix gap.suffix

theorem ItemsRule.leaves {input : String} {close : Token} {ahead rest : List Lexeme}
    {items : List Term} : ItemsRule input close ahead items rest → Leaves ahead rest
  | .last _ rule gap => (leaves_cons (List.suffix_refl _)).of_suffix (gap.suffix.trans rule.leaves.1)
  | .more rule separator others => others.leaves.of_suffix (separator.suffix.trans rule.leaves.1)

end

theorem Gap.unique {ahead : List Lexeme} {token token' : Token} {position position' : Nat}
    {rest rest' : List Lexeme} (g : Gap ahead (⟨token, position⟩ :: rest))
    (g' : Gap ahead (⟨token', position'⟩ :: rest')) (h : ∀ text, token ≠ .space text)
    (h' : ∀ text, token' ≠ .space text) :
    token = token' ∧ position = position' ∧ rest = rest' ∧ HEq g g' := by
  cases g with
  | none =>
    cases g' with
    | none => exact ⟨rfl, rfl, rfl, HEq.rfl⟩
    | space text => exact absurd rfl (h text)
  | space text =>
    cases g' with
    | none => exact absurd rfl (h' text)
    | space => exact ⟨rfl, rfl, rfl, HEq.rfl⟩

theorem Gap.unique_of_begins {ahead behind behind' : List Lexeme} (g : Gap ahead behind)
    (g' : Gap ahead behind') (h : Begins startsTerm behind) (h' : Begins startsTerm behind') :
    behind = behind' ∧ HEq g g' := by
  obtain ⟨token, position, rest, rfl, htoken⟩ := h
  obtain ⟨token', position', rest', rfl, htoken'⟩ := h'
  obtain ⟨rfl, rfl, rfl, hgap⟩ := g.unique g' (by rintro text rfl; cases htoken)
    (by rintro text rfl; cases htoken')
  exact ⟨rfl, hgap⟩

theorem Gap.unique_nil {ahead : List Lexeme} (g g' : Gap ahead []) : g = g' := by
  cases g with
  | none => cases g' with | none => rfl
  | space => cases g' with | space => rfl

theorem Words.unique {ahead rest rest' : List Lexeme} {stop stop' : Nat}
    (w : Words ahead stop rest) (w' : Words ahead stop' rest') (h : ¬ WordFollows rest)
    (h' : ¬ WordFollows rest') : stop = stop' ∧ rest = rest' ∧ HEq w w' := by
  induction w with
  | last text position rest =>
    cases w' with
    | last => exact ⟨rfl, rfl, HEq.rfl⟩
    | more text position gap place others =>
      obtain ⟨word, position, behind, rfl⟩ := others.begins
      exact absurd trivial h
  | more text position gap place others ih =>
    cases w' with
    | last =>
      obtain ⟨word, position, behind, rfl⟩ := others.begins
      exact absurd trivial h'
    | more text position gap place others' =>
      obtain ⟨rfl, rfl, hwords⟩ := ih others' h
      cases hwords
      exact ⟨rfl, rfl, HEq.rfl⟩

theorem Separator.unique {ahead next next' : List Lexeme} (s : Separator ahead next)
    (s' : Separator ahead next') (h : Begins startsTerm next) (h' : Begins startsTerm next') :
    next = next' ∧ HEq s s' := by
  cases s with
  | comma position before after =>
    cases s' with
    | comma position' before' after' =>
      obtain ⟨-, rfl, rfl, hbefore⟩ := before.unique before' (by simp) (by simp)
      obtain ⟨rfl, hafter⟩ := after.unique_of_begins after' h h'
      cases hbefore
      cases hafter
      exact ⟨rfl, HEq.rfl⟩
    | space text position' =>
      cases before with
      | space =>
        obtain ⟨token, place, rest, heq, htoken⟩ := h'
        cases heq
        cases htoken
  | space text position =>
    cases s' with
    | comma position' before' after' =>
      cases before' with
      | space =>
        obtain ⟨token, place, rest, heq, htoken⟩ := h
        cases heq
        cases htoken
    | space => exact ⟨rfl, HEq.rfl⟩

theorem Separator.not_gap {close : Token} {ahead next rest : List Lexeme} {position : Nat}
    (hclose : isClosing close = true) (s : Separator ahead next)
    (g : Gap ahead (⟨close, position⟩ :: rest)) (h : Begins startsTerm next) : False := by
  cases s with
  | comma place before after =>
    obtain ⟨rfl, -⟩ := before.unique g (by simp) (by rintro text rfl; cases hclose)
    cases hclose
  | space text place =>
    cases g with
    | none => cases hclose
    | space =>
      obtain ⟨token, place, rest, heq, htoken⟩ := h
      cases heq
      rw [startsTerm_eq_false_of_isClosing hclose] at htoken
      cases htoken

theorem OperandsRule.not_gap {input : String} {close : Token} {ahead rest after : List Lexeme}
    {items : List Term} {position : Nat} (hclose : isClosing close = true)
    (d : OperandsRule input close ahead items rest) (g : Gap ahead (⟨close, position⟩ :: after)) :
    False := by
  cases d with
  | operands gap rule =>
    obtain ⟨token, place, behind, rfl, htoken⟩ := rule.begins
    obtain ⟨rfl, -⟩ := gap.unique g (by rintro text rfl; cases htoken)
      (by rintro text rfl; cases hclose)
    rw [startsTerm_eq_false_of_isClosing hclose] at htoken
    cases htoken

/-- Nothing follows that would make a name into a longer construct. -/
def Settled (rest : List Lexeme) : Prop := rest = [] ∨ Begins endsTerm rest

theorem Settled.ne_equals {position : Nat} {rest : List Lexeme} :
    ¬ Settled (⟨.equals, position⟩ :: rest) := by
  rintro (h | ⟨token, place, behind, heq, h⟩)
  · cases h
  · cases heq
    cases h

theorem Settled.ne_openParen {position : Nat} {rest : List Lexeme} :
    ¬ Settled (⟨.openParen, position⟩ :: rest) := by
  rintro (h | ⟨token, place, behind, heq, h⟩)
  · cases h
  · cases heq
    cases h

theorem Gap.settled_of_closing {close : Token} (hclose : isClosing close = true)
    {ahead rest : List Lexeme} {position : Nat} (g : Gap ahead (⟨close, position⟩ :: rest)) :
    Settled ahead := by
  cases g with
  | none => exact .inr ⟨_, _, _, rfl, endsTerm_of_isClosing hclose⟩
  | space => exact .inr ⟨_, _, _, rfl, rfl⟩

theorem Separator.settled {ahead next : List Lexeme} (s : Separator ahead next) :
    Settled ahead := by
  cases s with
  | comma position before after =>
    cases before with
    | none => exact .inr ⟨_, _, _, rfl, rfl⟩
    | space => exact .inr ⟨_, _, _, rfl, rfl⟩
  | space => exact .inr ⟨_, _, _, rfl, rfl⟩

theorem TailRule.settled {input : String} {ahead : List Lexeme} {items : List Term}
    (d : TailRule input ahead items) : Settled ahead := by
  cases d with
  | done gap =>
    cases gap with
    | none => exact .inl rfl
    | space => exact .inr ⟨_, _, _, rfl, rfl⟩
  | more => exact .inr ⟨_, _, _, rfl, rfl⟩

theorem eq_of_append_eq_append {first second first' second' : String}
    (h : first ++ second = first' ++ second') (hsize : first.utf8ByteSize = first'.utf8ByteSize) :
    first = first' := by
  have hchars := congrArg String.toList h
  rw [String.toList_append, String.toList_append] at hchars
  rcases List.append_eq_append_iff.mp hchars with ⟨extra, hextra, -⟩ | ⟨extra, hextra, -⟩
  all_goals
    have hstring := congrArg String.ofList hextra
    rw [String.ofList_append, String.ofList_toList, String.ofList_toList] at hstring
    rw [hstring, String.utf8ByteSize_append] at hsize
    have hempty : String.ofList extra = "" := String.utf8ByteSize_eq_zero_iff.mp (by omega)
    rw [hstring, hempty, String.append_empty]

theorem IsSlice.unique {input text text' : String} {start stop : Nat}
    (h : IsSlice input start stop text) (h' : IsSlice input start stop text') : text = text' := by
  obtain ⟨before, after, hinput, hstart, hstop⟩ := h
  obtain ⟨before', after', hinput', hstart', hstop'⟩ := h'
  rw [hinput, String.append_assoc, String.append_assoc] at hinput'
  have hbefore : before = before' := eq_of_append_eq_append hinput' (hstart.trans hstart'.symm)
  subst hbefore
  have htext : text ++ after = text' ++ after' := by simpa using hinput'
  exact eq_of_append_eq_append htext (by omega)

def TermUnique (input : String) (ahead : List Lexeme) : Prop :=
  ∀ {rest rest' : List Lexeme} {t t' : Term} (d : TermRule input ahead t rest)
    (d' : TermRule input ahead t' rest'), Settled rest → Settled rest' →
      t = t' ∧ rest = rest' ∧ HEq d d'

def ItemsUnique (input : String) (ahead : List Lexeme) : Prop :=
  ∀ {close : Token} {rest rest' : List Lexeme} {items items' : List Term},
    isClosing close = true → (d : ItemsRule input close ahead items rest) →
    (d' : ItemsRule input close ahead items' rest') → items = items' ∧ rest = rest' ∧ HEq d d'

theorem OperandsRule.unique {input : String} {close : Token} {ahead rest rest' : List Lexeme}
    {items items' : List Term} (hclose : isClosing close = true)
    (ih : ∀ behind : List Lexeme, behind.length ≤ ahead.length → ItemsUnique input behind)
    (d : OperandsRule input close ahead items rest)
    (d' : OperandsRule input close ahead items' rest') :
    items = items' ∧ rest = rest' ∧ HEq d d' := by
  cases d with
  | operands gap rule =>
    cases d' with
    | operands gap' rule' =>
      obtain ⟨rfl, hgap⟩ := gap.unique_of_begins gap' rule.begins rule'.begins
      obtain ⟨rfl, rfl, hrule⟩ := ih _ gap.suffix.length_le hclose rule rule'
      cases hgap
      cases hrule
      exact ⟨rfl, rfl, HEq.rfl⟩

-- The first token decides the rule; only a variable and a macro leave a choice, and there the
-- token behind the shorter reading cannot follow a term.
theorem termUnique_of_shorter {input : String} {ahead : List Lexeme}
    (ih : ∀ behind : List Lexeme, behind.length < ahead.length →
      TermUnique input behind ∧ ItemsUnique input behind) : TermUnique input ahead := by
  intro rest rest' t t' d d' h h'
  cases d with
  | bracket form position opens operands enough =>
    cases d' with
    | bracket form' position' opens' operands' enough' =>
      have hform : form = form' := by
        rw [opens] at opens'
        cases form <;> cases form' <;> first | rfl | cases opens'
      subst hform
      obtain ⟨rfl, rfl, hoperands⟩ := operands.unique (isClosing_closing form)
        (fun behind hle => (ih behind (Nat.lt_succ_of_le hle)).2) operands'
      cases hoperands
      exact ⟨rfl, rfl, HEq.rfl⟩
    | literal words maximal verbatim =>
      obtain ⟨text, place, behind, heq⟩ := words.begins
      cases heq
      cases form <;> cases opens
    | _ => cases form <;> cases opens
  | negation position gap rule =>
    cases d' with
    | bracket form' position' opens' => cases form' <;> cases opens'
    | negation position' gap' rule' =>
      obtain ⟨rfl, hgap⟩ := gap.unique_of_begins gap' rule.begins rule'.begins
      obtain ⟨rfl, rfl, hrule⟩ := (ih _ (Nat.lt_succ_of_le gap.suffix.length_le)).1 rule rule' h h'
      cases hgap
      cases hrule
      exact ⟨rfl, rfl, HEq.rfl⟩
    | literal words => cases words
  | regex body position =>
    cases d' with
    | bracket form' position' opens' => cases form' <;> cases opens'
    | regex => exact ⟨rfl, rfl, HEq.rfl⟩
    | literal words => cases words
  | assignment symbol position place rule =>
    cases d' with
    | bracket form' position' opens' => cases form' <;> cases opens'
    | assignment symbol' position' place' rule' =>
      obtain ⟨rfl, rfl, hrule⟩ := (ih _ (Nat.lt_succ_of_lt (Nat.lt_succ_self _))).1 rule rule' h h'
      cases hrule
      exact ⟨rfl, rfl, HEq.rfl⟩
    | reference => exact absurd h' Settled.ne_equals
    | literal words => cases words
  | reference symbol position =>
    cases d' with
    | bracket form' position' opens' => cases form' <;> cases opens'
    | assignment => exact absurd h Settled.ne_equals
    | reference => exact ⟨rfl, rfl, HEq.rfl⟩
    | literal words => cases words
  | macroName name position =>
    cases d' with
    | bracket form' position' opens' => cases form' <;> cases opens'
    | macroName => exact ⟨rfl, rfl, HEq.rfl⟩
    | macroEmpty => exact absurd h Settled.ne_openParen
    | macroCall => exact absurd h Settled.ne_openParen
    | literal words => cases words
  | macroEmpty name position opening closing gap =>
    cases d' with
    | bracket form' position' opens' => cases form' <;> cases opens'
    | macroName => exact absurd h' Settled.ne_openParen
    | macroEmpty name' position' opening' closing' gap' =>
      obtain ⟨-, rfl, rfl, hgap⟩ := gap.unique gap' (by simp) (by simp)
      cases hgap
      exact ⟨rfl, rfl, HEq.rfl⟩
    | macroCall name' position' opening' operands' =>
      exact (operands'.not_gap rfl gap).elim
    | literal words => cases words
  | macroCall name position opening operands =>
    cases d' with
    | bracket form' position' opens' => cases form' <;> cases opens'
    | macroName => exact absurd h' Settled.ne_openParen
    | macroEmpty name' position' opening' closing' gap' =>
      exact (operands.not_gap rfl gap').elim
    | macroCall name' position' opening' operands' =>
      obtain ⟨rfl, rfl, hoperands⟩ := operands.unique rfl
        (fun behind hle => (ih behind (Nat.lt_succ_of_le (Nat.le_succ_of_le hle))).2) operands'
      cases hoperands
      exact ⟨rfl, rfl, HEq.rfl⟩
    | literal words => cases words
  | literal words maximal verbatim =>
    obtain ⟨word, place, behind, heq⟩ := words.begins
    cases heq
    cases d' with
    | bracket form' position' opens' => cases form' <;> cases opens'
    | literal words' maximal' verbatim' =>
      obtain ⟨rfl, rfl, hwords⟩ := words.unique words' maximal maximal'
      cases verbatim.unique verbatim'
      cases hwords
      exact ⟨rfl, rfl, HEq.rfl⟩

theorem itemsUnique_of_shorter {input : String} {ahead : List Lexeme}
    (hterm : TermUnique input ahead)
    (ih : ∀ behind : List Lexeme, behind.length < ahead.length → ItemsUnique input behind) :
    ItemsUnique input ahead := by
  intro close rest rest' items items' hclose d d'
  cases d with
  | last position rule gap =>
    cases d' with
    | last position' rule' gap' =>
      obtain ⟨rfl, rfl, hrule⟩ := hterm rule rule' (gap.settled_of_closing hclose)
        (gap'.settled_of_closing hclose)
      obtain ⟨-, rfl, rfl, hgap⟩ := gap.unique gap' (by rintro text rfl; cases hclose)
        (by rintro text rfl; cases hclose)
      cases hrule
      cases hgap
      exact ⟨rfl, rfl, HEq.rfl⟩
    | more rule' separator' others' =>
      obtain ⟨rfl, rfl, -⟩ := hterm rule rule' (gap.settled_of_closing hclose)
        separator'.settled
      exact (separator'.not_gap hclose gap others'.begins).elim
  | more rule separator others =>
    cases d' with
    | last position' rule' gap' =>
      obtain ⟨rfl, rfl, -⟩ := hterm rule rule' separator.settled
        (gap'.settled_of_closing hclose)
      exact (separator.not_gap hclose gap' others.begins).elim
    | more rule' separator' others' =>
      obtain ⟨rfl, rfl, hrule⟩ := hterm rule rule' separator.settled separator'.settled
      obtain ⟨rfl, hseparator⟩ := separator.unique separator' others.begins others'.begins
      obtain ⟨rfl, rfl, hothers⟩ := ih _ (Nat.lt_of_le_of_lt separator.suffix.length_le rule.leaves.2) hclose
        others others'
      cases hrule
      cases hseparator
      cases hothers
      exact ⟨rfl, rfl, HEq.rfl⟩

theorem unique_of_length_le {input : String} (n : Nat) :
    ∀ ahead : List Lexeme, ahead.length ≤ n →
      TermUnique input ahead ∧ ItemsUnique input ahead := by
  induction n with
  | zero =>
    intro ahead hn
    have hterm : TermUnique input ahead :=
      termUnique_of_shorter fun behind hlt => absurd hlt (by omega)
    exact ⟨hterm, itemsUnique_of_shorter hterm fun behind hlt => absurd hlt (by omega)⟩
  | succ n ih =>
    intro ahead hn
    have hshorter : ∀ behind : List Lexeme, behind.length < ahead.length →
        TermUnique input behind ∧ ItemsUnique input behind :=
      fun behind hlt => ih behind (by omega)
    have hterm : TermUnique input ahead := termUnique_of_shorter hshorter
    exact ⟨hterm, itemsUnique_of_shorter hterm fun behind hlt => (hshorter behind hlt).2⟩

theorem TermRule.unique {input : String} {ahead rest rest' : List Lexeme} {t t' : Term}
    (d : TermRule input ahead t rest) (d' : TermRule input ahead t' rest') (h : Settled rest)
    (h' : Settled rest') : t = t' ∧ rest = rest' ∧ HEq d d' :=
  (unique_of_length_le ahead.length ahead (Nat.le_refl _)).1 d d' h h'

theorem TailRule.unique {input : String} {ahead : List Lexeme} {items items' : List Term}
    (d : TailRule input ahead items) (d' : TailRule input ahead items') :
    items = items' ∧ HEq d d' := by
  induction d generalizing items' with
  | done gap =>
    cases d' with
    | done gap' =>
      cases gap.unique_nil gap'
      exact ⟨rfl, HEq.rfl⟩
    | more text position rule others =>
      cases gap with
      | space =>
        obtain ⟨token, place, behind, heq, -⟩ := rule.begins
        cases heq
  | more text position rule others ih =>
    cases d' with
    | done gap' =>
      cases gap' with
      | space =>
        obtain ⟨token, place, behind, heq, -⟩ := rule.begins
        cases heq
    | more text' position' rule' others' =>
      obtain ⟨rfl, rfl, hrule⟩ := rule.unique rule' others.settled others'.settled
      obtain ⟨rfl, hothers⟩ := ih others'
      cases hrule
      cases hothers
      exact ⟨rfl, HEq.rfl⟩

/-- No lexemes have two derivations, whatever the terms they derive. -/
theorem ExpressionRule.unique {input : String} {ahead : List Lexeme} {t t' : Term}
    (d : ExpressionRule input ahead t) (d' : ExpressionRule input ahead t') :
    t = t' ∧ HEq d d' := by
  cases d with
  | single gap rule tail =>
    cases d' with
    | single gap' rule' tail' =>
      obtain ⟨rfl, hgap⟩ := gap.unique_of_begins gap' rule.begins rule'.begins
      obtain ⟨rfl, rfl, hrule⟩ := rule.unique rule' tail.settled tail'.settled
      obtain ⟨-, htail⟩ := tail.unique tail'
      cases hgap
      cases hrule
      cases htail
      exact ⟨rfl, HEq.rfl⟩
    | several gap' rule' tail' =>
      obtain ⟨rfl, -⟩ := gap.unique_of_begins gap' rule.begins rule'.begins
      obtain ⟨-, rfl, -⟩ := rule.unique rule' tail.settled tail'.settled
      cases (tail.unique tail').1
  | several gap rule tail =>
    cases d' with
    | single gap' rule' tail' =>
      obtain ⟨rfl, -⟩ := gap.unique_of_begins gap' rule.begins rule'.begins
      obtain ⟨-, rfl, -⟩ := rule.unique rule' tail.settled tail'.settled
      cases (tail.unique tail').1
    | several gap' rule' tail' =>
      obtain ⟨rfl, hgap⟩ := gap.unique_of_begins gap' rule.begins rule'.begins
      obtain ⟨rfl, rfl, hrule⟩ := rule.unique rule' tail.settled tail'.settled
      obtain ⟨heq, htail⟩ := tail.unique tail'
      cases heq
      cases hgap
      cases hrule
      cases htail
      exact ⟨rfl, HEq.rfl⟩

end Grammar
end PhrasePattern
