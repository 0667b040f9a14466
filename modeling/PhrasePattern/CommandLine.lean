import PhrasePattern.CommandLine.Arguments
import PhrasePattern.Pattern
import PhrasePattern.Term.Outline

/-! The program that parses, compiles and matches expressions given on the command line. -/
namespace PhrasePattern.CommandLine
variable [Regex.Engine]

/-- What the program prints and the code it ends with. -/
structure Outcome where
  code : Nat
  output : String
  errors : String
  deriving DecidableEq, Repr

inductive Paint
  | bold
  | cyan
  | green
  | yellow
  | red
  | boldRed
  | boldGreen

def Paint.codes : Paint → String
  | bold => "1"
  | cyan => "36"
  | green => "32"
  | yellow => "33"
  | red => "31"
  | boldRed => "1;31"
  | boldGreen => "1;32"

/-- Text in a style, if colours are wanted. -/
def paint (color : Bool) (style : Paint) (text : String) : String :=
  if color then "\x1b[" ++ style.codes ++ "m" ++ text ++ "\x1b[0m" else text

def lines (texts : List String) : String := String.join (texts.map (· ++ "\n"))

def failure (color : Bool) (message : String) : Outcome :=
  ⟨1, "", paint color .boldRed "Error:" ++ " " ++ message⟩

/-- The message of a regular expression's error is not followed by the end of the line, because
an explanation may follow. -/
def patternFailure (color : Bool) (e : PatternError) : Outcome :=
  match e with
  | .expression _ => failure color (e.message ++ "\n")
  | .regex _ _ => failure color e.message

def traceText (color : Bool) : Option Trace → String
  | none => ""
  | some trace =>
      lines [paint color .bold "Steps:"] ++ trace.render (paint color .cyan) ++ "\n"

def runParse (color : Bool) (expression : String) : Outcome :=
  match parse expression with
  | .error e => failure color (e.message ++ "\n")
  | .ok t =>
    ⟨0, lines ([paint color .bold "Parsed expression",
        "  Input: " ++ paint color .cyan expression, "  Kind:  " ++ t.kind, "",
        paint color .bold "Tree:"] ++ t.outline), ""⟩

def runCompile (color : Bool) (expression : String) (vars : Vars) (debug : Bool) : Outcome :=
  match (Pattern.mk expression .empty).compile .none vars none debug with
  | (.error e, _) => patternFailure color e
  | (.ok compiled, _) =>
    ⟨0, traceText color compiled.trace ++
      lines [paint color .bold "Output:", "  " ++ paint color .green compiled.source], ""⟩

def captureLines (color : Bool) (captures : Vars) : List String :=
  if captures.isEmpty then []
  else
    ["", paint color .bold "Captures:"] ++
      captures.entries.map fun entry => "  $" ++ entry.1 ++ " = " ++ paint color .green entry.2

def runMatch (color : Bool) (expression utterance : String) (vars : Vars) (debug : Bool) :
    Outcome :=
  match (Pattern.mk expression .empty).matchUtterance utterance vars none debug with
  | (.error e, _, _) => patternFailure color e
  | (.ok result, _, _) =>
    let head := traceText color result.pattern.trace ++
      lines ["  Pattern:   " ++ paint color .cyan result.pattern.source,
        "  Utterance: " ++ paint color .yellow utterance, ""]
    if result.matched then
      ⟨0, head ++ lines (paint color .boldGreen "✓ Match" :: captureLines color result.captures),
        ""⟩
    else ⟨1, head ++ lines [paint color .red "✗ No match"], ""⟩

def helpText : List String :=
  [about, "", "Usage: natex <COMMAND>", "", "Commands:",
    "  parse    Parse an expression and print its tree",
    "  compile  Compile an expression to a regular expression",
    "  match    Match an utterance against an expression",
    "  help     Print this message or the help of the given subcommand(s)", "", "Options:",
    "  -h, --help     Print help", "  -V, --version  Print version"]

def firstLine (text : String) : String := String.ofList (text.toList.takeWhile (· != '\n'))

def run (color : Bool) (arguments : List String) : Outcome :=
  match read arguments with
  | .error e => ⟨2, "", firstLine e.message⟩
  | .ok (.parse expression) => runParse color expression
  | .ok (.compile expression vars debug) => runCompile color expression (Dict.ofList vars) debug
  | .ok (.matchUtterance expression utterance vars debug) =>
      runMatch color expression utterance (Dict.ofList vars) debug
  | .ok .version => ⟨0, "natex 0.1.0\n", ""⟩
  | .ok .help => ⟨0, lines helpText, ""⟩

end PhrasePattern.CommandLine
