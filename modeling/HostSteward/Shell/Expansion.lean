import HostSteward.Shell.Pattern
import HostSteward.Shell.Session
import HostSteward.Shell.Sum

/-!
# Expanded words

What a word stands for is a row of characters, in which it is kept what was quoted and where
fields may be parted.
-/

namespace HostSteward.Shell

inductive Atom where
  /-- A character, at which fields may be parted if it is a separator. -/
  | char (c : Char) (isQuoted : Bool) (parts : Bool)
  /-- There is a field, even if it is empty. -/
  | presence
  /-- One field ends and another one begins. -/
  | cut
deriving DecidableEq

namespace Atom

def ofValue (isQuoted : Bool) (cs : List Char) : List Atom :=
  (if isQuoted then [presence] else []) ++ cs.map (char · isQuoted (!isQuoted))

/-- A text of the script, at which fields are not parted. -/
def ofText (isQuoted : Bool) (cs : List Char) : List Atom :=
  (if isQuoted then [presence] else []) ++ cs.map (char · isQuoted false)

def loosen : Atom → Atom
  | char c isQuoted _ => char c isQuoted (!isQuoted)
  | a => a

def joined (atoms : List Atom) : String :=
  String.ofList (atoms.flatMap fun
    | char c _ _ => [c]
    | cut => [' ']
    | presence => [])

def pattern? (atoms : List Atom) : Option Pattern :=
  (atoms.mapM fun
    | char c isQuoted _ => (Pattern.part? c isQuoted).map ([·])
    | cut => some [.exactly ' ']
    | presence => some []).map List.flatten

/-- Fields under way: the present one, if it has begun, and whether the last one ended with
blanks only. -/
structure Parting where
  fields : List (List Char) := []
  current : Option (List Char) := none
  isAfterBlank : Bool := false

namespace Parting

def finish (p : Parting) : Parting :=
  { p with fields := p.fields ++ p.current.toList, current := none }

def add (separators : List Char) (p : Parting) (a : Atom) : Parting :=
  match a with
  | char c _ parts =>
    if parts && separators.contains c then
      if [' ', '\t', '\n'].contains c then
        if p.current.isSome then { p.finish with isAfterBlank := true } else p
      else if p.isAfterBlank && p.current.isNone then { p with isAfterBlank := false }
      else { fields := p.fields ++ [p.current.getD []] }
    else { p with current := some (p.current.getD [] ++ [c]), isAfterBlank := false }
  | presence => { p with current := some (p.current.getD []), isAfterBlank := false }
  | cut => { p.finish with isAfterBlank := false }

end Parting

def fields (separators : List Char) (atoms : List Atom) : List String :=
  (atoms.foldl (Parting.add separators) {}).finish.fields.map String.ofList

end Atom

/-- All arguments as a value, together or each for itself. -/
def argumentAtoms (s : Session) (isQuoted : Bool) (isTogether : Bool) : List Atom :=
  if isQuoted && isTogether then
    let separator := s.separators.head?.toList
    Atom.ofValue true (separator.intercalate (s.arguments.map String.toList))
  else [Atom.cut].intercalate (s.arguments.map fun a => Atom.ofValue isQuoted a.toList)

end HostSteward.Shell
