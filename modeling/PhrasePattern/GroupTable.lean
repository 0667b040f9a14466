/-! The capture groups of a compilation: which group stands for which symbol. -/
namespace PhrasePattern

/-- Pairs of a group and the symbol bound to it, in the order of binding. -/
structure GroupTable where
  entries : List (String × String)
  deriving DecidableEq, Repr

namespace GroupTable

def empty : GroupTable := ⟨[]⟩

def group? (table : GroupTable) (symbol : String) : Option String :=
  (table.entries.find? (·.2 == symbol)).map (·.1)

def isBound (table : GroupTable) (symbol : String) : Bool := (table.group? symbol).isSome

def isTaken (table : GroupTable) (group : String) : Bool := table.entries.any (·.1 == group)

/-- Whether the symbol can serve as the name of a group. -/
def isIdentifier (symbol : String) : Bool :=
  match symbol.toList with
  | [] => false
  | c :: rest => (c.isAlpha || c == '_') && rest.all fun d => d.isAlphanum || d == '_'

def generatedName (n : Nat) : String := "_natex" ++ toString n

/-- The first name with a number from `n` on that is not taken. One of `tries + 1` many is free if
the table has at most `tries` entries. -/
def freshName (table : GroupTable) (n : Nat) : (tries : Nat) → String
  | 0 => generatedName n
  | tries + 1 =>
    if table.isTaken (generatedName n) then table.freshName (n + 1) tries else generatedName n

/-- The name that a symbol gets when it is bound. -/
def newName (table : GroupTable) (symbol : String) : String :=
  if isIdentifier symbol && !table.isTaken symbol then symbol
  else table.freshName table.entries.length table.entries.length

/-- The group of the symbol, and the table in which it is bound. -/
def bind (table : GroupTable) (symbol : String) : String × GroupTable :=
  match table.group? symbol with
  | some group => (group, table)
  | none => (table.newName symbol, ⟨table.entries ++ [(table.newName symbol, symbol)]⟩)

end GroupTable
end PhrasePattern
