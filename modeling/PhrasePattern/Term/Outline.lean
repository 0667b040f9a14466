import PhrasePattern.Term
import PhrasePattern.Text.Quoted

/-! The tree of a term drawn over several lines, one field or item to a line. -/
namespace PhrasePattern.Term

def indent (lines : List String) : List String := lines.map ("    " ++ ·)

/-- Put `text` after the last line. -/
def closeWith (text : String) : List String → List String
  | [] => []
  | [line] => [line ++ text]
  | line :: next :: others => line :: closeWith text (next :: others)

/-- Put `label` before the first line. -/
def labelWith (label : String) : List String → List String
  | [] => []
  | line :: others => (label ++ line) :: others

def outlineList : List (List String) → List String
  | [] => ["[]"]
  | items => ["["] ++ indent (items.map (closeWith ",")).flatten ++ ["]"]

def outlineTuple (name : String) (field : List String) : List String :=
  [name ++ "("] ++ indent (closeWith "," field) ++ [")"]

def outlineRecord (name : String) (fields : List (String × List String)) : List String :=
  [name ++ " \x7b"] ++
    indent (fields.map fun field => closeWith "," (labelWith (field.1 ++ ": ") field.2)).flatten ++
    ["\x7d"]

def outlineName : Bracket → String
  | .flexible => "FlexibleSequence"
  | .rigid => "RigidSequence"
  | .conjunction => "Conjunction"
  | .disjunction => "Disjunction"

mutual

def outline : Term → List String
  | group form items => outlineTuple (outlineName form) (outlineList (outlines items))
  | negation operand => outlineTuple "Negation" (outline operand)
  | regex body => outlineTuple "Regex" [Text.quote body]
  | reference symbol => outlineTuple "Reference" [Text.quote symbol]
  | assignment symbol operand =>
      outlineRecord "Assignment" [("symbol", [Text.quote symbol]), ("term", outline operand)]
  | macroCall name arguments =>
      outlineRecord "MacroCall"
        [("name", [Text.quote name]), ("args", outlineList (outlines arguments))]
  | literal text => outlineTuple "Literal" [Text.quote text]
  | concatenation items => outlineTuple "Concatenation" (outlineList (outlines items))

def outlines : List Term → List (List String)
  | [] => []
  | t :: others => outline t :: outlines others

end

end PhrasePattern.Term
