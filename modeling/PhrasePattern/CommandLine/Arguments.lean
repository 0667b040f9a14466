/-! What the command line asks for, as clap 4 reads it. The definitions stand for rules of that library:
options may stand anywhere after the name of the command; after two hyphens all that follows is taken as it
stands; the value of an option is only looked at when the next argument, or the end, shows that it is
complete; a switch may be given once, and asking for help ends the reading. Of the message for an error there
is the first line only, without the usage and the suggestions below it. -/
namespace PhrasePattern.CommandLine

inductive Command
  | parse (expression : String)
  | compile (expression : String) (vars : List (String × String)) (debug : Bool)
  | matchUtterance (expression utterance : String) (vars : List (String × String)) (debug : Bool)
  | version
  | help
  deriving DecidableEq, Repr

inductive UsageError
  | noCommand
  | unknownCommand (name : String)
  | unexpectedArgument (argument : String)
  | unexpectedValue (value option : String)
  | repeatedOption (option : String)
  | missingValue
  | malformedVariable (value : String)
  | missingArguments
  deriving DecidableEq, Repr

def about : String := "Natex - natural language patterns compiled to regular expressions"

def variableOption : String := "--var <NAME=VALUE>"

def UsageError.message : UsageError → String
  | noCommand => about
  | unknownCommand name => "error: unrecognized subcommand '" ++ name ++ "'"
  | unexpectedArgument argument => "error: unexpected argument '" ++ argument ++ "' found"
  | unexpectedValue value option =>
      "error: unexpected value '" ++ value ++ "' for '" ++ option ++
        "' found; no more were expected"
  | repeatedOption option => "error: the argument '" ++ option ++ "' cannot be used multiple times"
  | missingValue =>
      "error: a value is required for '" ++ variableOption ++ "' but none was supplied"
  | malformedVariable value =>
      "error: invalid value '" ++ value ++ "' for '" ++ variableOption ++
        "': expected NAME=VALUE, got `" ++ value ++ "`"
  | missingArguments => "error: the following required arguments were not provided:"

/-- The parts before and after the first equals sign. -/
def splitEquals (cs : List Char) : Option (String × String) :=
  match cs.dropWhile (· != '=') with
  | [] => none
  | _ :: after => some (String.ofList (cs.takeWhile (· != '=')), String.ofList after)

/-- A variable given as a name, which is not empty, and a value. -/
def readVariable (text : String) : Except UsageError (String × String) :=
  match splitEquals text.toList with
  | some (name, value) =>
      if name = "" then .error (.malformedVariable text) else .ok (name, value)
  | none => .error (.malformedVariable text)

/-- What a command takes. -/
structure Signature where
  positionals : Nat
  /-- Whether it takes variables and can show its steps. -/
  compiles : Bool

/-- A variable option that has not been looked at yet. -/
inductive Pending
  | nothing
  | awaiting
  | given (value : String)

structure Collected where
  positionals : List String := []
  vars : List (String × String) := []
  debug : Bool := false
  pending : Pending := .nothing
  /-- Two hyphens were read. -/
  literally : Bool := false
  help : Bool := false

namespace Collected

def settle (c : Collected) : Except UsageError Collected :=
  match c.pending with
  | .nothing => .ok c
  | .awaiting => .error .missingValue
  | .given text =>
      (readVariable text).map fun entry => { c with vars := c.vars ++ [entry], pending := .nothing }

def positional (sig : Signature) (c : Collected) (text : String) : Except UsageError Collected :=
  if c.positionals.length < sig.positionals then
    c.settle.map fun c => { c with positionals := c.positionals ++ [text] }
  else .error (.unexpectedArgument text)

def setDebug (c : Collected) : Except UsageError Collected :=
  c.settle.bind fun c =>
    if c.debug then .error (.repeatedOption "--debug") else .ok { c with debug := true }

def long (sig : Signature) (c : Collected) (name : String) (value? : Option String) :
    Except UsageError Collected :=
  if sig.compiles && name = "var" then
    c.settle.bind fun c =>
      match value? with
      | none => .ok { c with pending := .awaiting }
      | some value => { c with pending := .given value }.settle
  else if sig.compiles && name = "debug" then
    match value? with
    | none => c.setDebug
    | some value => .error (.unexpectedValue value "--debug")
  else if name = "help" then .ok { c with help := true }
  else .error (.unexpectedArgument ("--" ++ name))

/-- Options of one letter, several of which may follow one hyphen. -/
def short (sig : Signature) (c : Collected) : List Char → Except UsageError Collected
  | [] => .ok c
  | letter :: others =>
    if sig.compiles && letter = 'd' then c.setDebug.bind fun c => c.short sig others
    else if letter = 'h' then .ok { c with help := true }
    else .error (.unexpectedArgument ("-" ++ String.singleton letter))

def take (sig : Signature) (c : Collected) (text : String) : Except UsageError Collected :=
  if c.literally then c.positional sig text
  else
    match text.toList with
    | ['-', '-'] => .ok { c with literally := true }
    | '-' :: '-' :: rest =>
      match splitEquals rest with
      | some (name, value) => c.long sig name (some value)
      | none => c.long sig (String.ofList rest) none
    | '-' :: letter :: letters => c.short sig (letter :: letters)
    | _ =>
      match c.pending with
      | .awaiting => .ok { c with pending := .given text }
      | _ => c.positional sig text

def takeAll (sig : Signature) (c : Collected) : List String → Except UsageError Collected
  | [] => c.settle
  | text :: others =>
    (c.take sig text).bind fun c => if c.help then .ok c else c.takeAll sig others

end Collected

/-- The command that the arguments collected for `name` make. -/
def finish (name : String) (c : Collected) : Except UsageError Command :=
  if c.help then .ok .help
  else
    match name, c.positionals with
    | "parse", [expression] => .ok (.parse expression)
    | "compile", [expression] => .ok (.compile expression c.vars c.debug)
    | "match", [expression, utterance] => .ok (.matchUtterance expression utterance c.vars c.debug)
    | _, _ => .error .missingArguments

def signature? : String → Option Signature
  | "parse" => some ⟨1, false⟩
  | "compile" => some ⟨1, true⟩
  | "match" => some ⟨2, true⟩
  | _ => none

/-- Letters in front of the name of a command. -/
def leadingLetter (letter : Char) : Except UsageError Command :=
  if letter = 'V' then .ok .version
  else if letter = 'h' then .ok .help
  else .error (.unexpectedArgument ("-" ++ String.singleton letter))

def leadingOption (name : String) (value? : Option String) : Except UsageError Command :=
  match name, value? with
  | "version", none => .ok .version
  | "help", none => .ok .help
  | "version", some value => .error (.unexpectedValue value "--version")
  | "help", some value => .error (.unexpectedValue value "--help")
  | _, _ => .error (.unexpectedArgument ("--" ++ name))

def read (arguments : List String) : Except UsageError Command :=
  match arguments with
  | [] => .error .noCommand
  | first :: others =>
    match signature? first with
    | some sig => (({} : Collected).takeAll sig others).bind (finish first)
    | none =>
      match first.toList with
      | ['-', '-'] =>
        match others with
        | [] => .error .noCommand
        | name :: _ =>
          if (signature? name).isSome then .error (.unexpectedArgument name)
          else .error (.unknownCommand name)
      | '-' :: '-' :: rest =>
        match splitEquals rest with
        | some (name, value) => leadingOption name (some value)
        | none => leadingOption (String.ofList rest) none
      | '-' :: letter :: _ => leadingLetter letter
      | _ => if first = "help" then .ok .help else .error (.unknownCommand first)

end PhrasePattern.CommandLine
