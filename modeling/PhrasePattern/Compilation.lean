import PhrasePattern.GroupTable
import PhrasePattern.Macro
import PhrasePattern.Regex
import PhrasePattern.Term

/-! Terms compiled to regular expressions. Every node is compiled after its children, from left to
right, by the one rule for its kind; what an assignment binds is known to all nodes after it. -/
namespace PhrasePattern

/-- What a compilation may consult. -/
structure Environment where
  vars : Vars
  macros : Registry
  ngrams : Ngrams

/-- A node, other than a literal, that was compiled. -/
structure Reduction where
  path : Path
  rule : String
  fragment : String
  deriving DecidableEq, Repr

/-- A result together with the groups bound after it and what was reported meanwhile. -/
structure Ruled where
  value : Value
  groups : GroupTable
  log : Log

/-- Whether the value is a regular expression where the groups bound so far exist. -/
def isWellFormed [Regex.Engine] (groups : GroupTable) (value : Value) : Bool :=
  match value with
  | .bool _ => true
  | .absent => true
  | _ =>
    let bound := groups.entries.map fun entry => "(?P<" ++ entry.1 ++ ">)"
    Regex.isWellFormed (String.join bound ++ value.fragment)

def backreferenceTo (group : String) : String := "\\k<" ++ group ++ ">"

namespace Rule

def flexible (fragments : List String) : String := ".*?" ++ ".*?".intercalate fragments ++ ".*?"

def rigid (fragments : List String) : String := "\\W+".intercalate fragments

def conjunction (fragments : List String) : String :=
  String.join (fragments.map fun fragment => ".*?(?=.*?" ++ fragment ++ ")") ++ ".*"

def disjunction (fragments : List String) : String := "(?:" ++ "|".intercalate fragments ++ ")"

def bracket : Bracket → List String → String
  | .flexible => flexible
  | .rigid => rigid
  | .conjunction => conjunction
  | .disjunction => disjunction

def negation (fragment : String) : String := "(?:(?:(?!.*" ++ fragment ++ ".*$).)+)"

def capture (group fragment : String) : String := "(?P<" ++ group ++ ">" ++ fragment ++ ")"

theorem toList_flexible (fragments : List String) : (flexible fragments).toList =
    ".*?".toList ++ ((".*?".intercalate fragments).toList ++ ".*?".toList) := by
  rw [flexible, String.toList_append, String.toList_append, List.append_assoc]

theorem toList_conjunction_cons (fragment : String) (fragments : List String) :
    (conjunction (fragment :: fragments)).toList =
      (".*?".toList ++ (['(', '?', '='] ++ ((".*?".toList ++ fragment.toList) ++ [')']))) ++
        (conjunction fragments).toList := by
  simp [conjunction]

theorem toList_disjunction (fragments : List String) : (disjunction fragments).toList =
    ['(', '?', ':'] ++ (("|".intercalate fragments).toList ++ [')']) := by
  rw [disjunction, String.toList_append, String.toList_append, List.append_assoc]
  rfl

theorem toList_negation (fragment : String) : (negation fragment).toList = ['(', '?', ':'] ++
    (((['(', '?', ':'] ++ (((['(', '?', '!'] ++ ((".*".toList ++ (fragment.toList ++
      (".*".toList ++ ['$']))) ++ [')'])) ++ ['.']) ++ [')'])) ++ ['+']) ++ [')']) := by
  simp [negation]

variable [Regex.Engine]

/-- A bound symbol is the text of its group again; any other is looked up among the variables. -/
def reference (env : Environment) (groups : GroupTable) (symbol : String) : Ruled :=
  match groups.group? symbol with
  | some group => ⟨.text (backreferenceTo group), groups, []⟩
  | none =>
    match env.vars.get? symbol with
    | some value =>
      if isWellFormed groups (.text value) then ⟨.text value, groups, []⟩
      else
        ⟨.text (invalidReference symbol), groups,
          Log.event .warn "variable is malformed regex" [("symbol", symbol), ("value", value)]⟩
    | none =>
      ⟨.text (unresolvedReference symbol), groups,
        Log.event .warn "unresolved reference" [("symbol", symbol)]⟩

/-- The first assignment of a symbol captures; the others are references to the first. -/
def assignment (groups : GroupTable) (symbol fragment : String) : Ruled :=
  match groups.group? symbol with
  | some group =>
    ⟨.text (backreferenceTo group), groups,
      Log.event .warn "symbol already bound, reassignment is a backreference"
        [("symbol", symbol)]⟩
  | none => ⟨.text (capture (groups.bind symbol).1 fragment), (groups.bind symbol).2, []⟩

def macroCall (env : Environment) (groups : GroupTable) (name : String)
    (arguments : List Value) : Ruled :=
  let called := env.macros.invoke name env.ngrams env.vars arguments
  if isWellFormed groups called.1 then ⟨called.1, groups, called.2⟩
  else
    ⟨.text (failedMacro name), groups,
      called.2 ++ Log.event .warn "macro returned malformed regex"
        [("macro_name", name), ("fragment", called.1.fragment)]⟩

/-- The value of a term from the values of its children. -/
def apply (env : Environment) (groups : GroupTable) (t : Term) (operands : List Value) : Ruled :=
  let fragments := operands.map Value.fragment
  match t with
  | .group form _ => ⟨.text (bracket form fragments), groups, []⟩
  | .negation _ => ⟨.text (negation (String.join fragments)), groups, []⟩
  | .regex body => ⟨.text body, groups, []⟩
  | .reference symbol => reference env groups symbol
  | .assignment symbol _ => assignment groups symbol (String.join fragments)
  | .macroCall name _ => macroCall env groups name operands
  | .literal text => ⟨.text text, groups, []⟩
  | .concatenation _ => ⟨.text (" ".intercalate fragments), groups, []⟩

end Rule

variable [Regex.Engine]

/-- What compiling one or several terms leads to. -/
structure Reduced (α : Type) where
  value : α
  groups : GroupTable
  reductions : List Reduction
  log : Log

/-- An only child as a list of children. -/
def Reduced.single (r : Reduced Value) : Reduced (List Value) :=
  ⟨[r.value], r.groups, r.reductions, r.log⟩

/-- Apply the rule for `t`, found at `path`, after its children were compiled. -/
def conclude (env : Environment) (path : Path) (t : Term) (children : Reduced (List Value)) :
    Reduced Value :=
  let ruled := Rule.apply env children.groups t children.value
  if t.isLiteral then ⟨ruled.value, ruled.groups, children.reductions, children.log ++ ruled.log⟩
  else
    let fragment := ruled.value.fragment
    ⟨ruled.value, ruled.groups, children.reductions ++ [⟨path, t.kind, fragment⟩],
      children.log ++ ruled.log ++
        Log.event .trace "reduced" [("rule", t.kind), ("fragment", fragment)]⟩

mutual

def reduce (env : Environment) (path : Path) (groups : GroupTable) : Term → Reduced Value
  | .group form items =>
      conclude env path (.group form items) (reduceAll env path 0 groups items)
  | .negation operand =>
      conclude env path (.negation operand) (reduce env (path ++ [0]) groups operand).single
  | .regex body => conclude env path (.regex body) ⟨[], groups, [], []⟩
  | .reference symbol => conclude env path (.reference symbol) ⟨[], groups, [], []⟩
  | .assignment symbol operand =>
      conclude env path (.assignment symbol operand)
        (reduce env (path ++ [0]) groups operand).single
  | .macroCall name arguments =>
      conclude env path (.macroCall name arguments) (reduceAll env path 0 groups arguments)
  | .literal text => conclude env path (.literal text) ⟨[], groups, [], []⟩
  | .concatenation items =>
      conclude env path (.concatenation items) (reduceAll env path 0 groups items)

/-- The children of the node at `path`, counted from `index`. -/
def reduceAll (env : Environment) (path : Path) (index : Nat) (groups : GroupTable) :
    List Term → Reduced (List Value)
  | [] => ⟨[], groups, [], []⟩
  | t :: others =>
    let first := reduce env (path ++ [index]) groups t
    let rest := reduceAll env path (index + 1) first.groups others
    ⟨first.value :: rest.value, rest.groups, first.reductions ++ rest.reductions,
      first.log ++ rest.log⟩

end

structure Compilation where
  fragment : String
  groups : GroupTable
  reductions : List Reduction
  log : Log

namespace Compilation

/-- Compile a term with nothing bound before it. -/
def ofTerm (env : Environment) (t : Term) : Compilation :=
  let reduced := reduce env [] .empty t
  ⟨reduced.value.fragment, reduced.groups, reduced.reductions, reduced.log⟩

/-- Keep the reductions only if they are asked for. -/
def recording (c : Compilation) (record : Bool) : Compilation :=
  if record then c else { c with reductions := [] }

end Compilation
end PhrasePattern
