import PhrasePattern.SyntaxError
import PhrasePattern.Term
import PhrasePattern.Token.Scanner

/-! Terms read from tokens.

    expression := space? term ( space term )* space? end
    term       := open operands close  |  '-' space? term  |  regex
                | '$' symbol ( '=' term )?  |  '#' symbol ( '(' operands? ')' )?  |  literal
    operands   := space? term ( separator term )* space?
    separator  := space? ',' space?  |  space
    literal    := word ( space word )*

A literal takes as many words as it can. Every successful reading leaves fewer lexemes than it was
given, and a failed one leaves the lexemes at which it stopped. -/
namespace PhrasePattern

/-- A value read from `ahead`, and the lexemes after it. -/
structure Success (α : Type) (ahead : List Lexeme) where
  value : α
  rest : List Lexeme
  shorter : rest.length < ahead.length

/-- Why `ahead` could not be read, and the lexemes from where reading stopped. -/
structure Failure (ahead : List Lexeme) where
  error : SyntaxError
  rest : List Lexeme
  within : rest.length ≤ ahead.length

abbrev Reading (α : Type) (ahead : List Lexeme) := Except (Failure ahead) (Success α ahead)

def Failure.widen {inner outer : List Lexeme} (f : Failure inner)
    (h : inner.length ≤ outer.length) : Failure outer :=
  ⟨f.error, f.rest, Nat.le_trans f.within h⟩

namespace Term

def skipSpace : List Lexeme → List Lexeme
  | ⟨.space _, _⟩ :: rest => rest
  | ahead => ahead

def startsWithSpace : List Lexeme → Bool
  | ⟨.space _, _⟩ :: _ => true
  | _ => false

theorem length_skipSpace_le (ahead : List Lexeme) : (skipSpace ahead).length ≤ ahead.length := by
  unfold skipSpace
  split
  · exact Nat.le_succ _
  · exact Nat.le_refl _

/-- The next lexeme is not `expected`; `finish` is where the text ends. -/
def unexpected (finish : Nat) (expected : String) (ahead : List Lexeme) : Failure ahead :=
  match ahead with
  | [] => ⟨⟨finish, .unexpectedEnd⟩, [], Nat.le_refl _⟩
  | l :: rest =>
      ⟨⟨l.position, .unexpectedToken expected l.token.description⟩, l :: rest, Nat.le_refl _⟩

/-- The words that continue a literal, with the space in front of each. -/
def moreWords : List Lexeme → String × List Lexeme
  | ⟨.space gap, _⟩ :: ⟨.word text, _⟩ :: rest =>
      (gap ++ text ++ (moreWords rest).1, (moreWords rest).2)
  | ahead => ("", ahead)

theorem length_moreWords_le (ahead : List Lexeme) : (moreWords ahead).2.length ≤ ahead.length := by
  fun_induction moreWords ahead with
  | case1 gap p text q rest ih => simp only [List.length_cons]; omega
  | case2 ahead => exact Nat.le_refl _

/-- The construct that a token opens. -/
def bracket? : Token → Option Bracket
  | .flexOpen => some .flexible
  | .rigidOpen => some .rigid
  | .openAngle => some .conjunction
  | .openBrace => some .disjunction
  | _ => none

mutual

/-- One term. -/
def read (finish : Nat) (ahead : List Lexeme) : Reading Term ahead :=
  match ahead with
  | [] => .error (unexpected finish "term" [])
  | l :: rest =>
    match bracket? l.token with
    | some form =>
      match readOperands finish form.closing rest with
      | .error f => .error (f.widen (Nat.le_succ _))
      | .ok items =>
        if items.value.length < form.minimum then
          .error ⟨⟨l.position, .tooFewOperands form.kind form.minimum items.value.length⟩,
            items.rest, Nat.le_succ_of_le (Nat.le_of_lt items.shorter)⟩
        else .ok ⟨.group form items.value, items.rest, Nat.lt_succ_of_lt items.shorter⟩
    | none =>
      match l.token with
      | .minus =>
        match read finish (skipSpace rest) with
        | .error f => .error (f.widen (Nat.le_succ_of_le (length_skipSpace_le rest)))
        | .ok operand =>
          .ok ⟨.negation operand.value, operand.rest,
            Nat.lt_succ_of_lt (Nat.lt_of_lt_of_le operand.shorter (length_skipSpace_le rest))⟩
      | .regex body => .ok ⟨.regex body, rest, Nat.lt_succ_self _⟩
      | .variableName symbol =>
        match rest with
        | ⟨.equals, _⟩ :: body =>
          match read finish body with
          | .error f => .error (f.widen (Nat.le_succ_of_le (Nat.le_succ _)))
          | .ok operand =>
            .ok ⟨.assignment symbol operand.value, operand.rest,
              Nat.lt_succ_of_lt (Nat.lt_succ_of_lt operand.shorter)⟩
        | other => .ok ⟨.reference symbol, other, Nat.lt_succ_self _⟩
      | .macroName name =>
        match rest with
        | ⟨.openParen, _⟩ :: body =>
          match readOperands finish .closeParen body with
          | .error f => .error (f.widen (Nat.le_succ_of_le (Nat.le_succ _)))
          | .ok arguments =>
            .ok ⟨.macroCall name arguments.value, arguments.rest,
              Nat.lt_succ_of_lt (Nat.lt_succ_of_lt arguments.shorter)⟩
        | other => .ok ⟨.macroCall name [], other, Nat.lt_succ_self _⟩
      | .word text =>
        .ok ⟨.literal (text ++ (moreWords rest).1), (moreWords rest).2,
          Nat.lt_succ_of_le (length_moreWords_le rest)⟩
      | _ => .error (unexpected finish "term" (l :: rest))
termination_by (ahead.length, 0)
decreasing_by
  all_goals simp only [Prod.lex_def, List.length_cons]
  · omega
  · have := length_skipSpace_le rest
    omega
  · omega
  · omega

/-- Operands up to and including the token `close`; there may be none. -/
def readOperands (finish : Nat) (close : Token) (ahead : List Lexeme) :
    Reading (List Term) ahead :=
  match h : skipSpace ahead with
  | [] =>
    .error ((unexpected finish "term" []).widen (Nat.zero_le _))
  | l :: rest =>
    if l.token = close then
      .ok ⟨[], rest, by have := length_skipSpace_le ahead; rw [h] at this; exact this⟩
    else
      match readItems finish close (l :: rest) with
      | .error f => .error (f.widen (h ▸ length_skipSpace_le ahead))
      | .ok items =>
        .ok ⟨items.value, items.rest,
          Nat.lt_of_lt_of_le items.shorter (h ▸ length_skipSpace_le ahead)⟩
termination_by (ahead.length, 2)
decreasing_by
  have hle := length_skipSpace_le ahead
  rw [h] at hle
  simp only [Prod.lex_def]
  omega

/-- One or more operands up to and including the token `close`. -/
def readItems (finish : Nat) (close : Token) (ahead : List Lexeme) : Reading (List Term) ahead :=
  match read finish ahead with
  | .error f => .error f
  | .ok item =>
    match h : skipSpace item.rest with
    | [] => .error ((unexpected finish "term" []).widen (Nat.zero_le _))
    | l :: rest =>
      have hrest : rest.length < item.rest.length := by
        have := length_skipSpace_le item.rest
        rw [h] at this
        exact this
      if l.token = close then
        .ok ⟨[item.value], rest, Nat.lt_trans hrest item.shorter⟩
      else if l.token = .comma then
        have hlen := Nat.lt_of_le_of_lt (length_skipSpace_le rest) (Nat.lt_trans hrest item.shorter)
        match readItems finish close (skipSpace rest) with
        | .error f => .error (f.widen (Nat.le_of_lt hlen))
        | .ok items => .ok ⟨item.value :: items.value, items.rest, Nat.lt_trans items.shorter hlen⟩
      else if startsWithSpace item.rest then
        have hlen := Nat.lt_of_le_of_lt (length_skipSpace_le item.rest) item.shorter
        match readItems finish close (l :: rest) with
        | .error f => .error (f.widen (Nat.le_of_lt (h ▸ hlen)))
        | .ok items =>
          .ok ⟨item.value :: items.value, items.rest, Nat.lt_trans items.shorter (h ▸ hlen)⟩
      else
        .error ((unexpected finish (Token.ticked "," ++ " or " ++ close.description)
          (l :: rest)).widen (Nat.le_trans hrest (Nat.le_of_lt item.shorter)))
termination_by (ahead.length, 1)
decreasing_by
  · exact Prod.Lex.right _ Nat.zero_lt_one
  · exact Prod.Lex.left _ _ hlen
  · exact Prod.Lex.left _ _ (h ▸ hlen)

end

/-- The terms after the first one, up to the end of the text. -/
def readTail (finish : Nat) (ahead : List Lexeme) : Except (Failure ahead) (List Term) :=
  match h : skipSpace ahead with
  | [] => .ok []
  | l :: rest =>
    have hle : (l :: rest).length ≤ ahead.length := h ▸ length_skipSpace_le ahead
    if startsWithSpace ahead then
      match read finish (l :: rest) with
      | .error f => .error (f.widen hle)
      | .ok item =>
        have hlt := Nat.lt_of_lt_of_le item.shorter hle
        match readTail finish item.rest with
        | .error f => .error (f.widen (Nat.le_of_lt hlt))
        | .ok items => .ok (item.value :: items)
    else .error ((unexpected finish "whitespace or end of input" (l :: rest)).widen hle)
termination_by ahead.length

/-- Several terms side by side make a concatenation. -/
def ofItems (first : Term) : List Term → Term
  | [] => first
  | others => .concatenation (first :: others)

def readExpression (finish : Nat) (ahead : List Lexeme) : Except (Failure ahead) Term :=
  match read finish (skipSpace ahead) with
  | .error f => .error (f.widen (length_skipSpace_le ahead))
  | .ok first =>
    match readTail finish first.rest with
    | .error f =>
      .error (f.widen (Nat.le_trans (Nat.le_of_lt first.shorter) (length_skipSpace_le ahead)))
    | .ok others => .ok (ofItems first.value others)

end Term

/-- The lexemes that are still to be parsed, without the mark of the end, and the byte offset at
which the text ends. -/
structure Cursor where
  ahead : List Lexeme
  finish : Nat
  deriving DecidableEq, Repr

namespace Cursor

def ofLexemes (lexemes : List Lexeme) : Cursor :=
  ⟨lexemes.dropLast, (lexemes.getLast?.map (·.position)).getD 0⟩

def start (input : String) : Except SyntaxError Cursor := (tokenize input).map ofLexemes

/-- Parse all that is left. After a success nothing is left; after a failure, what follows the
point of failure. -/
def parse (cursor : Cursor) : Except SyntaxError Term × Cursor :=
  match Term.readExpression cursor.finish cursor.ahead with
  | .ok t => (.ok t, ⟨[], cursor.finish⟩)
  | .error f => (.error f.error, ⟨f.rest, cursor.finish⟩)

end Cursor

def parse (input : String) : Except SyntaxError Term :=
  (Cursor.start input).bind fun cursor => cursor.parse.1

end PhrasePattern
