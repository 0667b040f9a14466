import PhrasePattern.Pattern

/-! A pattern and variables that live through a series of requests. -/
namespace PhrasePattern

structure Session where
  pattern : Pattern
  vars : Vars
  /-- What the last successful request to compile gave. -/
  last : Option CompiledPattern

namespace Session
variable [Regex.Engine]

inductive Request
  | replace (pattern : Pattern)
  | setMacros (macros : Registry)
  | set (name value : String)
  | unset (name : String)
  | compile (ngrams : Ngrams) (extra : Option Registry) (debug : Bool)
  | fullMatch (utterance : String)
  | matching (utterance : String) (extra : Option Registry) (debug : Bool)
  | describe

inductive Reply
  | done
  | removed (found : Bool)
  /-- A compiled pattern, and whether it equals the one before it. -/
  | compiled (pattern : CompiledPattern) (sameAsLast : Option Bool)
  | captured (captures : Option Vars)
  /-- There is no compiled pattern to match with. -/
  | nothing
  | matched (result : MatchResult)
  | failed (error : PatternError)
  | described (pattern : Pattern)

def start (pattern : Pattern) (vars : Vars) : Session := ⟨pattern, vars, none⟩

def handle (s : Session) : Request → Reply × Log × Session
  | .replace pattern => (.done, [], { s with pattern := pattern })
  | .setMacros macros => (.done, [], { s with pattern := { s.pattern with macros := macros } })
  | .set name value => (.done, [], { s with vars := s.vars.insert name value })
  | .unset name => (.removed (s.vars.contains name), [], { s with vars := s.vars.erase name })
  | .compile ngrams extra debug =>
    match s.pattern.compile ngrams s.vars extra debug with
    | (.ok compiled, log) =>
      (.compiled compiled (s.last.map (decide <| · = compiled)), log,
        { s with last := some compiled })
    | (.error e, log) => (.failed e, log, s)
  | .fullMatch utterance =>
    match s.last with
    | none => (.nothing, [], s)
    | some compiled =>
      match compiled.fullMatch utterance with
      | .ok captures => (.captured captures, [], s)
      | .error e => (.failed e, [], s)
  | .matching utterance extra debug =>
    match s.pattern.matchUtterance utterance s.vars extra debug with
    | (.ok result, vars, log) => (.matched result, log, { s with vars := vars })
    | (.error e, vars, log) => (.failed e, log, { s with vars := vars })
  | .describe => (.described s.pattern, [], s)

end Session
end PhrasePattern
