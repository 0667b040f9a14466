import PhrasePattern.Term

/-! Terms written back as expressions. Any node may be shown as some other text instead, which is
how an expression looks while it is only partly compiled. -/
namespace PhrasePattern.Term

def enclose (form : Bracket) (inner : String) : String :=
  form.opening.spelling ++ inner ++ form.closing.spelling

mutual

/-- The term as an expression, except that the node at a path `p` with `shown p = some text` is
written as `text`. -/
def surfaceWith (shown : Path → Option String) (t : Term) : String :=
  match shown [] with
  | some text => text
  | none =>
    match t with
    | group form items => enclose form (", ".intercalate (surfacesWith shown 0 items))
    | negation operand => "-" ++ surfaceWith (fun p => shown (0 :: p)) operand
    | regex body => "/" ++ body ++ "/"
    | reference symbol => "$" ++ symbol
    | assignment symbol operand =>
        "$" ++ symbol ++ "=" ++ surfaceWith (fun p => shown (0 :: p)) operand
    | macroCall name [] => "#" ++ name
    | macroCall name (first :: others) =>
        "#" ++ name ++ "(" ++
          ", ".intercalate (surfaceWith (fun p => shown (0 :: p)) first ::
            surfacesWith shown 1 others) ++ ")"
    | literal text => text
    | concatenation items => " ".intercalate (surfacesWith shown 0 items)

/-- The children of a node, counted from `index`. -/
def surfacesWith (shown : Path → Option String) (index : Nat) : List Term → List String
  | [] => []
  | t :: others =>
      surfaceWith (fun p => shown (index :: p)) t :: surfacesWith shown (index + 1) others

end

/-- The term as an expression. -/
def surface (t : Term) : String := t.surfaceWith fun _ => none

/-- The text for a path in a list of compiled nodes; later entries take precedence. -/
def lookupPath (compiled : List (Path × String)) (path : Path) : Option String :=
  (compiled.reverse.find? fun entry => entry.1 == path).map (·.2)

/-- The term with the nodes in `compiled` written as the texts they were compiled to. -/
def partialSurface (t : Term) (compiled : List (Path × String)) : String :=
  t.surfaceWith (lookupPath compiled)

end PhrasePattern.Term
