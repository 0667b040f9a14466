/-! The tokens of an expression. A token keeps enough of the text to be spelled out again, so the
spellings of the tokens of an expression, one after the other, are the expression. -/
namespace PhrasePattern

inductive Token
  | flexOpen
  | rigidOpen
  | closeBracket
  | openAngle
  | closeAngle
  | openBrace
  | closeBrace
  | openParen
  | closeParen
  | comma
  | minus
  | equals
  | variableName (name : String)
  | macroName (name : String)
  | regex (body : String)
  | word (text : String)
  | space (text : String)
  | endOfInput
  deriving DecidableEq, Repr

namespace Token

def spelling : Token → String
  | flexOpen => "["
  | rigidOpen => "[!"
  | closeBracket => "]"
  | openAngle => "<"
  | closeAngle => ">"
  | openBrace => "\x7b"
  | closeBrace => "\x7d"
  | openParen => "("
  | closeParen => ")"
  | comma => ","
  | minus => "-"
  | equals => "="
  | variableName name => "$" ++ name
  | macroName name => "#" ++ name
  | regex body => "/" ++ body ++ "/"
  | word text => text
  | space text => text
  | endOfInput => ""

def ticked (text : String) : String := "`" ++ text ++ "`"

/-- The token as error messages name it. -/
def description (token : Token) : String :=
  match token with
  | variableName _ => "variable " ++ ticked token.spelling
  | macroName _ => "macro " ++ ticked token.spelling
  | regex _ => "regex " ++ ticked token.spelling
  | word _ => "word " ++ ticked token.spelling
  | space _ => "whitespace"
  | endOfInput => "end of input"
  | _ => ticked token.spelling

end Token

/-- A token and the byte offset where it starts. -/
structure Lexeme where
  token : Token
  position : Nat
  deriving DecidableEq, Repr

end PhrasePattern
