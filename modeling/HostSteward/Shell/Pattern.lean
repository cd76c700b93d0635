/-!
# Patterns

A pattern is matched against a whole text. Characters mean themselves if they are quoted.
Patterns with brackets are not followed.
-/

namespace HostSteward.Shell

inductive PatternPart where
  | many
  | one
  | exactly (c : Char)
deriving DecidableEq

abbrev Pattern := List PatternPart

namespace Pattern

def part? (c : Char) (isQuoted : Bool) : Option PatternPart :=
  if isQuoted then some (.exactly c)
  else match c with
    | '*' => some .many
    | '?' => some .one
    | '[' => none
    | c => some (.exactly c)

def ends : List Char → List (List Char)
  | [] => [[]]
  | c :: cs => (c :: cs) :: ends cs

def fits : Pattern → List Char → Bool
  | [], cs => cs.isEmpty
  | .many :: rest, cs => (ends cs).any (fits rest)
  | _ :: _, [] => false
  | .one :: rest, _ :: cs => fits rest cs
  | .exactly d :: rest, c :: cs => c = d && fits rest cs

end Pattern

end HostSteward.Shell
