import PhrasePattern.Log
import PhrasePattern.Ngrams
import PhrasePattern.Text.Quoted
import PhrasePattern.Value

/-! Macros: named functions that make a value out of the utterance, the variables and arguments. A
macro may fail or crash; the call then has a value that matches nothing, and the rest of the
expression is not affected. -/
namespace PhrasePattern

abbrev Vars := Dict String

inductive MacroError
  | missingArgument (index : Nat)
  | invalidArgument (index : Nat) (reason : String)
  | failed (message : String)
  deriving DecidableEq, Repr

def MacroError.message : MacroError → String
  | missingArgument index => "missing argument " ++ toString index
  | invalidArgument index reason => "invalid argument " ++ toString index ++ ": " ++ reason
  | failed message => message

inductive MacroResult
  | returned (value : Value)
  | failed (error : MacroError)
  /-- The macro broke off; it may have left a message. -/
  | crashed (message? : Option String)
  deriving DecidableEq

abbrev Macro := Ngrams → Vars → List Value → MacroResult

abbrev Registry := Dict Macro

namespace Registry

def describe (registry : Registry) : String :=
  "\x7b" ++ ", ".intercalate (registry.names.map Text.quote) ++ "\x7d"

/-- The value of a call, and what there is to report about it. -/
def invoke (registry : Registry) (name : String) (ngrams : Ngrams) (vars : Vars)
    (arguments : List Value) : Value × Log :=
  match registry.get? name with
  | none =>
    (.text (unknownMacro name), Log.event .warn "macro not found" [("macro_name", name)])
  | some run =>
    match run ngrams vars arguments with
    | .returned value => (value, [])
    | .failed error =>
      (.text (failedMacro name),
        Log.event .warn "macro failed" [("macro_name", name), ("error", error.message)])
    | .crashed message? =>
      (.text (failedMacro name),
        Log.event .warn "macro panicked"
          [("macro_name", name), ("panic", message?.getD "non-string panic payload")])

end Registry
end PhrasePattern
