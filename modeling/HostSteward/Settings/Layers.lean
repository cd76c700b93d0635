import HostSteward.Settings.Json
import HostSteward.Text.Lowercase

/-!
# Layers of settings

Settings are put together from layers, each of which is laid over the ones before it. Two
tables are merged member by member, anything else is replaced. The names of settings do not
depend on case, those inside an array do. A layer may address a setting by a path.
-/

namespace HostSteward.Settings

def tableMembers : Json → List (String × Json)
  | .object members => members
  | _ => []

def arrayItems : Json → List Json
  | .array items => items
  | _ => []

mutual

/-- What is there once `above` is laid over `below`. A table without members leaves alone
what is below it. -/
def merge (below : Json) : Json → Json
  | .object members => mergeMembers below members
  | .null => .null
  | .bool b => .bool b
  | .int n => .int n
  | .real x => .real x
  | .string s => .string s
  | .array items => .array items

def mergeMembers (below : Json) : List (String × Json) → Json
  | [] => below
  | (name, above) :: rest =>
    let members := tableMembers below
    let name := Text.lowercase name
    let value := merge ((members.lookup name).getD (.object [])) above
    mergeMembers (.object (setMember members name value)) rest

end

/-! ## Paths -/

inductive PathStep where
  | member (name : String)
  | item (index : Int)
deriving DecidableEq

namespace PathStep

def isNameChar (c : Char) : Bool := c.isAlphanum || c = '_' || c = '-' || c = ' '

def isSpace (c : Char) : Bool := c = ' ' || c = '\t'

/-- An index in brackets, after the opening one. A plus sign has no place in it. -/
def index? (cs : List Char) : Option (Int × List Char) := do
  let inside := (cs.dropWhile isSpace).takeWhile (· ≠ ']')
  let n ← if inside.head? = some '+' then none
    else Numeral.readInt64? (inside.reverse.dropWhile isSpace).reverse
  match (cs.dropWhile isSpace).dropWhile (· ≠ ']') with
  | ']' :: rest => some (n, rest)
  | _ => none

def name? (cs : List Char) : Option (String × List Char) :=
  if (cs.takeWhile isNameChar).isEmpty then none
  else some (String.ofList (cs.takeWhile isNameChar), cs.dropWhile isNameChar)

def further? : Nat → List Char → Option (List PathStep)
  | 0, _ => none
  | _ + 1, [] => some []
  | fuel + 1, '.' :: rest => do
    let (name, rest) ← name? rest
    return .member name :: (← further? fuel rest)
  | fuel + 1, '[' :: rest => do
    let (index, rest) ← index? rest
    return .item index :: (← further? fuel rest)
  | _ + 1, _ => none

def read? (cs : List Char) : Option (List PathStep) := do
  let (name, rest) ← name? cs
  return .member name :: (← further? (rest.length + 1) rest)

/-- The path of a name; a name that writes no path is a single step. -/
def ofName (name : String) : List PathStep :=
  let name := Text.lowercase name
  (read? name.toList).getD [.member name]

end PathStep

/-- More items than this have no place in an array. -/
def longestArray : Nat := 0x1000000

/-- The position of an index in an array of a length; a negative one counts from the end.
There is none before the beginning, nor beyond the longest array. -/
def position? (index : Int) (length : Nat) : Option Nat :=
  if 0 ≤ index then if index.toNat < longestArray then some index.toNat else none
  else if index.natAbs ≤ length then some (length - index.natAbs)
  else none

/-- Sets an item; the array is filled up with nulls as far as needed. -/
def setItem (items : List Json) (i : Nat) (value : Json) : List Json :=
  (items ++ List.replicate (i + 1 - items.length) Json.null).set i value

/-- Lays a value over what is at a path, unless a position on the way cannot be had. What is
no table or array on the way is replaced. -/
def place? (value : Json) : List PathStep → Json → Option Json
  | [], below => some (merge below value)
  | [.member name], below =>
    let members := tableMembers below
    let value := merge ((members.lookup name).getD (.object [])) value
    some (.object (setMember members name value))
  | .member name :: path, below => do
    let members := tableMembers below
    let value ← place? value path ((members.lookup name).getD .null)
    return .object (setMember members name value)
  | [.item index], below => do
    let items := arrayItems below
    return .array (setItem items (← position? index items.length) value)
  | .item index :: path, below => do
    let items := arrayItems below
    let i ← position? index items.length
    return .array (setItem items i (← place? value path (items[i]?.getD .null)))

def layOver? (below : Json) (layer : List (String × Json)) : Option Json :=
  layer.foldlM (fun below (name, value) => place? value (PathStep.ofName name) below) below

end HostSteward.Settings
