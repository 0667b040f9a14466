import PhrasePattern.Compilation
import PhrasePattern.Term.Surface

/-! The steps of a compilation, each shown as the whole expression with the nodes compiled so far
written as regular expressions. -/
namespace PhrasePattern

structure TraceStep where
  label : String
  rendering : String
  deriving DecidableEq, Repr

abbrev Trace := List TraceStep

namespace Trace

/-- Macro calls are labelled by name and other nodes by the rule that was applied. -/
def labelOf (t : Term) (reduction : Reduction) : String :=
  match t.at? reduction.path with
  | some (.macroCall name _) => "#" ++ name
  | _ => reduction.rule

/-- One step for each reduction, after those in `compiled`. -/
def stepsFrom (t : Term) (compiled : List (Path × String)) : List Reduction → Trace
  | [] => []
  | reduction :: others =>
    let compiled := compiled ++ [(reduction.path, reduction.fragment)]
    ⟨labelOf t reduction, t.partialSurface compiled⟩ :: stepsFrom t compiled others

def replay (t : Term) (reductions : List Reduction) (fragment : String) : Trace :=
  ⟨"Original", t.surface⟩ :: stepsFrom t [] reductions ++ [⟨"Final", fragment⟩]

def labelWidth : Nat := 18

/-- Fill up with spaces on the right. -/
def padded (label : String) : String :=
  label ++ String.ofList (List.replicate (labelWidth - label.length) ' ')

def line (showLabel : String → String) (step : TraceStep) : String :=
  "  " ++ showLabel (padded step.label) ++ " " ++ step.rendering ++ "\n"

def render (showLabel : String → String) (trace : Trace) : String :=
  String.join (trace.map (line showLabel))

end Trace
end PhrasePattern
