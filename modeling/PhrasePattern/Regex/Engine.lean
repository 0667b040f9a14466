import PhrasePattern.Regex.CharSet

/-! Patterns are handed to fancy-regex in version 0.14, which leaves what needs no backtracking to the
automata of regex. The modules on regular expressions say how this engine reads an expression and which
match it finds. What they do not say is a parameter: the tables of the properties of characters, how much
an expression may grow when it is compiled, and how long a search may go on. Whatever is proved about
matching holds for every choice of these. -/
namespace PhrasePattern.Regex

class Engine where
  /-- The set of a property, by what is written behind the backslash, and given whether capital letters
  are not told from small ones. -/
  property? : String → Option (Bool → CharSet)
  /-- Whether the program for an expression keeps within the limit on its size. -/
  fits : String → Bool
  /-- The number of choices that a search may give up. -/
  searchLimit : Nat

namespace Engine

/-- The limit on searches that is set if nothing else is asked for, no limit on programs, and the
properties that have escapes of their own. -/
scoped instance standard : Engine where
  property?
    | "p\x7bNd\x7d" => some fun _ => .digit
    | "P\x7bNd\x7d" => some fun _ => .compl .digit
    | "p\x7bWhite_Space\x7d" => some fun _ => .space
    | "P\x7bWhite_Space\x7d" => some fun _ => .compl .space
    | _ => none
  fits _ := true
  searchLimit := 1000000

end Engine
end PhrasePattern.Regex
