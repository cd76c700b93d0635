import HostSteward.Toml.Scalar

/-!
# Definitions in TOML

A document defines tables by headers and values by dotted keys, each of them once. A table
that only came about on the way to another one may still get a header of its own; one that
came about by dotted keys may be extended by dotted keys only. A table whose first key is a
certain one stands for the date and time that the text of this key says.
-/

namespace HostSteward.Toml

inductive Origin where
  /-- By a header of its own. -/
  | header
  /-- On the way to a table below it. -/
  | implied
  /-- By a dotted key. -/
  | dotted
deriving DecidableEq

/-- A list of tables is defined table by table, and only its last table may still change. -/
inductive Node where
  | text (s : String)
  /-- Any other value. -/
  | value (j : Json)
  | table (origin : Origin) (members : List (String × Node))
  | tables (earlier : List Json) (last : List (String × Node))

abbrev Members := List (String × Node)

def dateTimeKey : String := "$__toml_private_datetime"

namespace Node

def dateTime? : Node → Option Json
  | .text s => (dateTimeText? s.toList).map fun cs => .string (String.ofList cs)
  | .value _ | .table _ _ | .tables _ _ => none

mutual

/-- The value of a node, unless a table in it should be a date and time but is not. -/
def toJson? : Node → Option Json
  | .text s => some (.string s)
  | .value j => some j
  | .table _ members => tableToJson? members
  | .tables earlier last => (tableToJson? last).map fun last => .array (earlier ++ [last])

def tableToJson? : List (String × Node) → Option Json
  | [] => some (.object [])
  | (name, n) :: rest =>
    if name = dateTimeKey then n.dateTime?
    else do
      let first ← toJson? n
      let rest ← membersToJson? rest
      return Json.Reader.tidy ((name, first) :: rest)

def membersToJson? : List (String × Node) → Option (List (String × Json))
  | [] => some []
  | (name, n) :: rest => do
    let first ← toJson? n
    let rest ← membersToJson? rest
    return (name, first) :: rest

end

end Node

namespace Members

def toJson? (ms : Members) : Option Json := Node.tableToJson? ms

/-- Puts a member in the place of one of the same name, or at the end. -/
def set (ms : Members) (name : String) (n : Node) : Members :=
  if ms.any (·.1 = name) then ms.map fun m => if m.1 = name then (name, n) else m
  else ms ++ [(name, n)]

/-- Changes the table at a path, which leads through the last tables of lists. Tables that
are missing on the way come about. -/
def within? (f : Members → Option Members) : List String → Members → Option Members
  | [], ms => f ms
  | name :: path, ms =>
    match ms.lookup name with
    | none => (within? f path []).map fun inner => ms.set name (.table .implied inner)
    | some (.table origin inner) =>
      (within? f path inner).map fun inner => ms.set name (.table origin inner)
    | some (.tables earlier last) =>
      (within? f path last).map fun last => ms.set name (.tables earlier last)
    | some (.text _) | some (.value _) => none

/-- Defines a value by a dotted key. The key may lead through implied tables and lists of
tables, but the value itself must go to the table of the header or to one made by dotted
keys, which is what `ready` says. -/
def assign? (value : Node) (ready : Bool) : List String → Members → Option Members
  | [], _ => none
  | [name], ms =>
    if ready && (ms.lookup name).isNone then some (ms ++ [(name, value)]) else none
  | name :: path, ms =>
    match ms.lookup name with
    | none => (assign? value true path []).map fun inner => ms.set name (.table .dotted inner)
    | some (.table .dotted inner) =>
      (assign? value true path inner).map fun inner => ms.set name (.table .dotted inner)
    | some (.table .implied inner) =>
      (assign? value false path inner).map fun inner => ms.set name (.table .implied inner)
    | some (.tables earlier last) =>
      (assign? value false path last).map fun last => ms.set name (.tables earlier last)
    | some (.table .header _) | some (.text _) | some (.value _) => none

/-- Gives a table its header. A table that was there goes to the end. -/
def openTable? (name : String) (ms : Members) : Option Members :=
  match ms.lookup name with
  | none => some (ms.set name (.table .header []))
  | some (.table .implied inner) =>
    some (ms.filter (·.1 ≠ name) ++ [(name, .table .header inner)])
  | some _ => none

def openElement? (name : String) (ms : Members) : Option Members :=
  match ms.lookup name with
  | none => some (ms.set name (.tables [] []))
  | some (.tables earlier last) =>
    (toJson? last).map fun last => ms.set name (.tables (earlier ++ [last]) [])
  | some _ => none

end Members

inductive Statement where
  | assignment (path : List String) (value : Node)
  | table (path : List String)
  | element (path : List String)

structure Document where
  heading : List String := []
  root : Members := []

namespace Document

def enter? (d : Document) (path : List String) (f : String → Members → Option Members) :
    Option Document := do
  let name ← path.getLast?
  let root ← d.root.within? (f name) path.dropLast
  return ⟨path, root⟩

def add? (d : Document) : Statement → Option Document
  | .assignment path value => do
    return { d with root := ← d.root.within? (Members.assign? value true path) d.heading }
  | .table path => d.enter? path Members.openTable?
  | .element path => d.enter? path Members.openElement?

/-- The document of some statements, unless one of them defines something again. -/
def ofStatements? (statements : List Statement) : Option Document :=
  statements.foldlM add? {}

end Document

end HostSteward.Toml
