import PhrasePattern.SyntaxError
import PhrasePattern.Text.Category
import PhrasePattern.Token

/-! Reading tokens off the front of a text. A scanner can be asked for the next token again after
any answer: at the end and in front of a character that starts no token it stays where it is, and
every other answer moves it forward. -/
namespace PhrasePattern

def isSymbolChar (c : Char) : Bool := c.isAlphanum || c == '_' || c == '.'

def isWordChar (c : Char) : Bool := c.isAlphanum

/-- The text still to be read and the byte offset of its first character. -/
structure Scanner where
  rest : List Char
  position : Nat
  deriving DecidableEq, Repr

namespace Scanner

def start (input : String) : Scanner := ⟨input.toList, 0⟩

/-- The scanner behind `text`. -/
def past (s : Scanner) (text : String) (rest : List Char) : Scanner :=
  ⟨rest, s.position + text.utf8ByteSize⟩

def found (s : Scanner) (token : Token) (rest : List Char) :
    Except SyntaxError Lexeme × Scanner :=
  (.ok ⟨token, s.position⟩, s.past token.spelling rest)

/-- The name after the sigil of a variable or a macro. -/
def nextSymbol (s : Scanner) (sigil : Char) (token : String → Token) (rest : List Char) :
    Except SyntaxError Lexeme × Scanner :=
  match rest.takeWhile isSymbolChar with
  | [] =>
      let after := s.past (String.singleton sigil) rest
      (.error ⟨after.position, .missingSymbol sigil⟩, after)
  | name => s.found (token (String.ofList name)) (rest.dropWhile isSymbolChar)

/-- The body of a regular expression, up to the closing slash. -/
def nextRegex (s : Scanner) (rest : List Char) : Except SyntaxError Lexeme × Scanner :=
  match rest.dropWhile (· != '/') with
  | [] => (.error ⟨s.position, .unterminatedRegex⟩, s.past (String.ofList ('/' :: rest)) [])
  | _ :: after =>
      match rest.takeWhile (· != '/') with
      | [] => (.error ⟨s.position, .emptyRegex⟩, s.past "//" after)
      | body => s.found (.regex (String.ofList body)) after

def punctuation? : Char → Option Token
  | ']' => some .closeBracket
  | '<' => some .openAngle
  | '>' => some .closeAngle
  | '{' => some .openBrace
  | '}' => some .closeBrace
  | '(' => some .openParen
  | ')' => some .closeParen
  | ',' => some .comma
  | '-' => some .minus
  | '=' => some .equals
  | _ => none

def next (s : Scanner) : Except SyntaxError Lexeme × Scanner :=
  match s.rest with
  | [] => (.ok ⟨.endOfInput, s.position⟩, s)
  | c :: rest =>
    if Text.isSpace c then
      s.found (.space (String.ofList (c :: rest.takeWhile Text.isSpace)))
        (rest.dropWhile Text.isSpace)
    else if isWordChar c then
      s.found (.word (String.ofList (c :: rest.takeWhile isWordChar))) (rest.dropWhile isWordChar)
    else if c = '[' then
      match rest with
      | '!' :: inner => s.found .rigidOpen inner
      | _ => s.found .flexOpen rest
    else if c = '$' then s.nextSymbol '$' .variableName rest
    else if c = '#' then s.nextSymbol '#' .macroName rest
    else if c = '/' then s.nextRegex rest
    else
      match punctuation? c with
      | some token => s.found token rest
      | none => (.error ⟨s.position, .unexpectedChar c⟩, s)

theorem nextSymbol_shorter (s : Scanner) (sigil : Char) (token : String → Token)
    (rest : List Char) : (s.nextSymbol sigil token rest).2.rest.length ≤ rest.length := by
  unfold nextSymbol
  split
  · exact Nat.le_refl _
  · exact (List.dropWhile_suffix _).length_le

theorem nextRegex_shorter (s : Scanner) (rest : List Char) :
    (s.nextRegex rest).2.rest.length ≤ rest.length := by
  unfold nextRegex
  have h := (List.dropWhile_suffix (l := rest) (· != '/')).length_le
  split
  · exact Nat.zero_le _
  · rename_i after heq
    rw [heq] at h
    simp only [List.length_cons] at h
    split
    · exact Nat.le_of_succ_le h
    · exact Nat.le_of_succ_le h

theorem next_shorter (s : Scanner) (l : Lexeme) (s' : Scanner) (h : s.next = (.ok l, s'))
    (hl : l.token ≠ .endOfInput) : s'.rest.length < s.rest.length := by
  have hs' : s' = s.next.2 := by rw [h]
  have hok : s.next.1 = .ok l := by rw [h]
  subst hs'
  unfold next at hok ⊢
  split
  · rename_i heq
    simp only [heq, Except.ok.injEq] at hok
    subst hok
    exact absurd rfl hl
  · rename_i c rest heq
    simp only [heq] at hok
    rw [heq, List.length_cons]
    split
    · exact Nat.lt_succ_of_le (List.dropWhile_suffix _).length_le
    · split
      · exact Nat.lt_succ_of_le (List.dropWhile_suffix _).length_le
      · split
        · split
          · exact Nat.lt_succ_of_lt (Nat.lt_succ_self _)
          · exact Nat.lt_succ_self _
        · split
          · exact Nat.lt_succ_of_le (nextSymbol_shorter _ _ _ _)
          · split
            · exact Nat.lt_succ_of_le (nextSymbol_shorter _ _ _ _)
            · split
              · exact Nat.lt_succ_of_le (nextRegex_shorter _ _)
              · split
                · exact Nat.lt_succ_self _
                · rename_i hspace hword hbracket hdollar hnumber hslash _ hnone
                  rw [if_neg hspace, if_neg hword, if_neg hbracket, if_neg hdollar,
                    if_neg hnumber, if_neg hslash, hnone] at hok
                  cases hok

/-- All lexemes up to the end of the text, which is the last one. -/
def lexemes (s : Scanner) : Except SyntaxError (List Lexeme) :=
  match _h : s.next with
  | (.error e, _) => .error e
  | (.ok l, after) =>
    if _hl : l.token = .endOfInput then .ok [l]
    else after.lexemes.map (l :: ·)
termination_by s.rest.length
decreasing_by exact next_shorter s l after _h _hl

end Scanner

def tokenize (input : String) : Except SyntaxError (List Lexeme) := (Scanner.start input).lexemes

end PhrasePattern
