import PhrasePattern.Term.Parser
import PhrasePattern.Trace

/-! Patterns: an expression with the macros it may call. A pattern is compiled anew whenever it is
matched, because what it compiles to depends on the variables and on the utterance. -/
namespace PhrasePattern
variable [Regex.Engine]

/-- When a regular expression let the matching down. -/
inductive RegexStage
  /-- It is not a regular expression, or one whose program grows too large. -/
  | build
  /-- The search for a match was given up. -/
  | search
  deriving DecidableEq, Repr

inductive PatternError
  | expression (e : SyntaxError)
  | regex (stage : RegexStage) (source : String)
  deriving DecidableEq, Repr

def PatternError.message : PatternError → String
  | expression e => "syntax error: " ++ e.message
  | regex _ source => "regex error in `" ++ source ++ "`:"

structure CompiledPattern where
  /-- The regular expression, without anchors. -/
  source : String
  groups : GroupTable
  trace : Option Trace
  deriving DecidableEq, Repr

namespace CompiledPattern

def anchored (p : CompiledPattern) : String := "^(?:" ++ p.source ++ ")$"

/-- The symbols whose groups took part in the match, with the text they matched. -/
def capturesOf (p : CompiledPattern) (regex : Regex) (text : Regex.Subject)
    (found : Regex.Match) : Vars :=
  Dict.ofList (p.groups.entries.filterMap fun entry =>
    (found.named? regex text entry.1).map (entry.2, ·))

/-- The captured variables, if the pattern matches the utterance. -/
def fullMatch (p : CompiledPattern) (utterance : String) : Except PatternError (Option Vars) :=
  match Regex.build? p.anchored with
  | none => .error (.regex .build p.anchored)
  | some regex =>
    let text := utterance.toList.toArray
    match regex.find text with
    | none => .error (.regex .search p.anchored)
    | some none => .ok none
    | some (some found) => .ok (some (p.capturesOf regex text found))

theorem fullMatch_eq_ok {p : CompiledPattern} {utterance : String} {regex : Regex} {answer : Option Regex.Match}
    (hbuild : Regex.build? p.anchored = some regex)
    (hfind : regex.find utterance.toList.toArray = some answer) :
    p.fullMatch utterance = .ok (answer.map (p.capturesOf regex utterance.toList.toArray)) := by
  rw [fullMatch, hbuild]
  dsimp only
  rw [hfind]
  cases answer <;> rfl

/-- Matching fails over the anchored expression or tells what there is to find. -/
theorem fullMatch_cases (p : CompiledPattern) (utterance : String) :
    (∃ stage, p.fullMatch utterance = .error (.regex stage p.anchored)) ∨
      ∃ regex answer, Regex.build? p.anchored = some regex ∧
        regex.find utterance.toList.toArray = some answer ∧
        p.fullMatch utterance = .ok (answer.map (p.capturesOf regex utterance.toList.toArray)) := by
  unfold fullMatch
  split
  · exact .inl ⟨_, rfl⟩
  · rename_i regex hbuild
    dsimp only
    split
    · exact .inl ⟨_, rfl⟩
    · rename_i hfind
      exact .inr ⟨regex, none, hbuild, hfind, rfl⟩
    · rename_i found hfind
      exact .inr ⟨regex, some found, hbuild, hfind, rfl⟩

end CompiledPattern

structure Pattern where
  expression : String
  macros : Registry

structure MatchResult where
  matched : Bool
  pattern : CompiledPattern
  captures : Vars
  deriving DecidableEq

namespace Pattern

def display (p : Pattern) : String := "Natex(" ++ p.expression ++ ")"

def describe (p : Pattern) : String :=
  "Natex \x7b expression: " ++ Text.quote p.expression ++ ", macros: " ++ p.macros.describe ++
    " \x7d"

/-- The pattern's own macros under those of the caller. -/
def registry (p : Pattern) (extra : Option Registry) : Registry :=
  match extra with
  | some callers => p.macros.overlay callers
  | none => p.macros

/-- The variables in one line, each with its value, in the order of these texts. -/
def listing (vars : Vars) : String :=
  let texts := vars.entries.map fun entry => entry.1 ++ "=" ++ entry.2
  ", ".intercalate (texts.mergeSort fun s t => decide (s ≤ t))

def announcement (env : Environment) : Log :=
  Log.event .debug "natex compilation"
    [("input", env.ngrams.text), ("macros", " ".intercalate env.macros.names),
      ("vars", listing env.vars)]

def compile (p : Pattern) (ngrams : Ngrams) (vars : Vars) (extra : Option Registry)
    (debug : Bool) : Except PatternError CompiledPattern × Log :=
  let env : Environment := ⟨vars, p.registry extra, ngrams⟩
  let start := Log.span "compile_with" [("expression", p.expression)] ++
    if debug then announcement env else []
  match parse p.expression with
  | .error e => (.error (.expression e), start)
  | .ok t =>
    let c := Compilation.ofTerm env t
    if debug then
      let trace := Trace.replay t c.reductions c.fragment
      (.ok ⟨c.fragment, c.groups, some trace⟩,
        start ++ c.log ++
          trace.flatMap fun step => Log.event .debug step.rendering [("step", step.label)])
    else (.ok ⟨c.fragment, c.groups, none⟩, start ++ c.log)

/-- The result of matching an utterance, the variables after it, and what was reported. Captured
texts become values of variables; without a match the variables stay as they are. -/
def matchUtterance (p : Pattern) (utterance : String) (vars : Vars) (extra : Option Registry)
    (debug : Bool) : Except PatternError MatchResult × Vars × Log :=
  let start := Log.span "matches" [("utterance", utterance)]
  match p.compile (.ofUtterance utterance) vars extra debug with
  | (.error e, log) => (.error e, vars, start ++ log)
  | (.ok compiled, log) =>
    match compiled.fullMatch utterance with
    | .error e => (.error e, vars, start ++ log)
    | .ok captured =>
      let finish : Log := [⟨false, .debug, "natex match",
        [("matched", .flag captured.isSome), ("pattern", .text compiled.source)]⟩]
      (.ok ⟨captured.isSome, compiled, captured.getD .empty⟩,
        (captured.map vars.overlay).getD vars, start ++ log ++ finish)

end Pattern

/-- The regular expression for an expression without variables and macros. -/
def compileExpression (expression : String) : Except PatternError String × Log :=
  match parse expression with
  | .error e => (.error (.expression e), [])
  | .ok t =>
    let c := Compilation.ofTerm ⟨.empty, .empty, .none⟩ t
    (.ok c.fragment, c.log)

end PhrasePattern
