/-! What can be wrong with the text of an expression, and how it is reported. -/
namespace PhrasePattern

inductive SyntaxFault
  | unexpectedChar (c : Char)
  | unexpectedToken (expected found : String)
  | unexpectedEnd
  | unterminatedRegex
  | emptyRegex
  | missingSymbol (sigil : Char)
  | tooFewOperands (construct : String) (minimum found : Nat)
  deriving DecidableEq, Repr

def SyntaxFault.message : SyntaxFault → String
  | .unexpectedChar c => "unexpected character '" ++ String.singleton c ++ "'"
  | .unexpectedToken expected found => "expected " ++ expected ++ ", found " ++ found
  | .unexpectedEnd => "unexpected end of input"
  | .unterminatedRegex => "unterminated regex"
  | .emptyRegex => "empty regex"
  | .missingSymbol sigil => "expected a symbol after '" ++ String.singleton sigil ++ "'"
  | .tooFewOperands construct minimum found =>
      construct ++ " needs at least " ++ toString minimum ++ " operand(s), found " ++
        toString found

/-- A fault and the byte offset at which it was noticed. -/
structure SyntaxError where
  position : Nat
  fault : SyntaxFault
  deriving DecidableEq, Repr

def SyntaxError.message (e : SyntaxError) : String :=
  e.fault.message ++ " at position " ++ toString e.position

end PhrasePattern
