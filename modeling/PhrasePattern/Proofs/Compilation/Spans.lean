import PhrasePattern.Compilation
import PhrasePattern.Proofs.Regex.Realization

/-! The meaning of a term: the spans of the utterance that it matches, by recursion over the term and
without regular expressions. Positions count characters. Covered are the terms without regular
expressions and assignments, whose references are unresolved and whose macros are unknown, fail, or
return a truth value or nothing. -/
namespace PhrasePattern
variable [Regex.Engine]

open Relation (Comp)
open Regex (SpanSet Subject At)

def Through (p : Nat → Prop) : SpanSet := fun i j => i ≤ j ∧ ∀ k, i ≤ k → k < j → p k

section
variable (u : Subject)

def Line : SpanSet := Through (At u (· != '\n'))

/-- One or more characters that do not belong to words. -/
def Break : SpanSet := fun i j => i < j ∧ Through (At u fun c => !Text.isWordCharacter c) i j

def Spells (chars : List Char) : SpanSet :=
  fun i j => j = i + chars.length ∧ ∀ k, k < chars.length → u[i + k]? = chars[k]?

end

/-- Spans in order with a gap between each two. -/
def Joined (gap : SpanSet) : List SpanSet → SpanSet
  | [] => Eq
  | [S] => S
  | S :: others => Comp S (Comp gap (Joined gap others))

namespace Meaning

variable (u : Subject)

def flexible (operands : List SpanSet) : SpanSet :=
  Comp (Line u) (Comp (Joined (Line u) operands) (Line u))

def rigid (operands : List SpanSet) : SpanSet := Joined (Break u) operands

/-- Every operand is found on the line, from the start of the span on. -/
def conjunction (operands : List SpanSet) : SpanSet :=
  fun i j => Line u i j ∧ ∀ S ∈ operands, ∃ a b, Line u i a ∧ S a b

def disjunction (operands : List SpanSet) : SpanSet := fun i j => ∃ S ∈ operands, S i j

def bracket : Bracket → List SpanSet → SpanSet
  | .flexible => flexible u
  | .rigid => rigid u
  | .conjunction => conjunction u
  | .disjunction => disjunction

/-- The operand is not found, with the rest of the text on the same line, from the start of the span
on. -/
def negation (operand : SpanSet) : SpanSet :=
  fun i j => i < j ∧ Line u i j ∧ ¬ ∃ a b, Line u i a ∧ operand a b ∧ Line u b u.size

def concatenation (operands : List SpanSet) : SpanSet := Joined (Spells u [' ']) operands

/-- What comes of calling a macro; nothing is the result of a macro that is not known. -/
def call : Option MacroResult → SpanSet
  | some (.returned (.bool true)) => Line u
  | some (.returned .absent) => Eq
  | _ => fun _ _ => False

end Meaning

def Environment.outcome (env : Environment) (name : String) (arguments : List Term) :
    Option MacroResult :=
  (env.macros.get? name).map fun run =>
    run env.ngrams env.vars (reduceAll env [] 0 .empty arguments).value

/-- The macro gave a piece of a regular expression. -/
def IsFragment : Option MacroResult → Prop
  | some (.returned (.text _)) => True
  | some (.returned (.alternatives _)) => True
  | _ => False

/-- The macro gave something that cannot match: it is not known, it failed, or it said no. -/
def IsDead : Option MacroResult → Prop
  | some (.returned (.bool b)) => b = false
  | some (.returned _) => False
  | _ => True

namespace Term

section
variable (env : Environment) (u : Subject)

mutual

/-- The spans that the term matches. -/
def Spans : Term → SpanSet
  | group form items => Meaning.bracket u form (spansAll items)
  | negation operand => Meaning.negation u (Spans operand)
  | macroCall name arguments => Meaning.call u (env.outcome name arguments)
  | literal text => Spells u text.toList
  | concatenation items => Meaning.concatenation u (spansAll items)
  | regex _ | reference _ | assignment _ _ => fun _ _ => False

def spansAll : List Term → List SpanSet
  | [] => []
  | t :: others => Spans t :: spansAll others

end

@[simp]
theorem spansAll_nil : spansAll env u [] = [] := rfl

@[simp]
theorem spansAll_cons (t : Term) (others : List Term) :
    spansAll env u (t :: others) = t.Spans env u :: spansAll env u others := rfl

theorem length_spansAll (items : List Term) : (spansAll env u items).length = items.length := by
  induction items with
  | nil => simp
  | cons t others ih => rw [spansAll_cons, List.length_cons, ih, List.length_cons]

theorem spans_group (form : Bracket) (items : List Term) :
    (group form items).Spans env u = Meaning.bracket u form (spansAll env u items) := rfl

theorem spans_negation (operand : Term) :
    (negation operand).Spans env u = Meaning.negation u (operand.Spans env u) := rfl

theorem spans_reference (symbol : String) :
    (reference symbol).Spans env u = fun _ _ => False := rfl

theorem spans_macroCall (name : String) (arguments : List Term) :
    (macroCall name arguments).Spans env u = Meaning.call u (env.outcome name arguments) := rfl

theorem spans_literal (text : String) :
    (literal text).Spans env u = Spells u text.toList := rfl

theorem spans_concatenation (items : List Term) :
    (concatenation items).Spans env u = Meaning.concatenation u (spansAll env u items) := rfl

end

section
variable (env : Environment)

mutual

/-- The term is built from what the meaning covers. -/
def Supported : Term → Prop
  | group _ items => AllSupported items
  | negation operand => Supported operand
  | reference symbol => env.vars.get? symbol = none
  | macroCall name arguments =>
      AllSupported arguments ∧ ¬ IsFragment (env.outcome name arguments)
  | literal _ => True
  | concatenation items => AllSupported items
  | regex _ | assignment _ _ => False

def AllSupported : List Term → Prop
  | [] => True
  | t :: others => Supported t ∧ AllSupported others

end

variable {env} in
theorem allSupported_iff {items : List Term} :
    AllSupported env items ↔ ∀ t ∈ items, t.Supported env := by
  induction items with
  | nil => simp [AllSupported]
  | cons t others ih => simp [AllSupported, ih]

mutual

/-- Something in the term stands for text that cannot match: an unresolved reference or the call of
a macro. -/
def HasDeadLeaf : Term → Prop
  | group _ items => AnyDeadLeaf items
  | negation operand => HasDeadLeaf operand
  | reference _ => True
  | macroCall name arguments => IsDead (env.outcome name arguments)
  | concatenation items => AnyDeadLeaf items
  | literal _ | regex _ | assignment _ _ => False

def AnyDeadLeaf : List Term → Prop
  | [] => False
  | t :: others => HasDeadLeaf t ∨ AnyDeadLeaf others

end

end
end Term
end PhrasePattern
