import HostSteward.Json

/-!
# Records and maps in JSON

A record is an object whose members are found by name, or an array of its fields in
order. Unknown members are ignored, surplus items are not. A field with a default may be
absent; a field that may be null may be absent from an object only. A map is an object whose
members are named by the keys.
-/

namespace HostSteward.Json

structure Record where
  byName : Bool
  value : String → Option Json

/-- Reads an object or an array of at most the given fields. -/
def record? (fields : List String) : Json → Option Record
  | .object members => some ⟨true, fun name => members.lookup name⟩
  | .array items =>
    if items.length ≤ fields.length then some ⟨false, fun name => (fields.zip items).lookup name⟩
    else none
  | _ => none

def nullable? {α : Type} (f : Json → Option α) : Json → Option (Option α)
  | .null => some none
  | j => (f j).map some

namespace Record

variable {α : Type} (r : Record)

def required (name : String) (f : Json → Option α) : Option α := (r.value name).bind f

def withDefault (name : String) (default : α) (f : Json → Option α) : Option α :=
  match r.value name with
  | none => some default
  | some j => f j

def optional (name : String) (f : Json → Option α) : Option (Option α) :=
  match r.value name with
  | none => if r.byName then some none else none
  | some j => nullable? f j

end Record

def onlyMember? : Json → Option (String × Json)
  | .object [member] => some member
  | _ => none

/-- A bare name: a string, or an object whose only member is that name with null. -/
def variantName? (j : Json) : Option String :=
  match j with
  | .string s => some s
  | j => match j.onlyMember? with
    | some (name, .null) => some name
    | _ => none

/-- A tag with an optional content, written as members of those names or as an array of
both. The tag is a bare name in an object, but only a string in an array. -/
def tagged? (tag content : String) : Json → Option (String × Option Json)
  | .object members => do
    return (← (← members.lookup tag).variantName?, members.lookup content)
  | .array [.string name, c] => some (name, some c)
  | _ => none

/-! ## Maps -/

variable {κ ν : Type}

/-- The object for the entries of a map. A key names a member, so its form has to be a text. -/
def keyed? (key : κ → Json) (value : ν → Json) (entries : List (κ × ν)) : Option Json :=
  (entries.mapM fun e => (key e.1).string?.map (·, value e.2)).map .object

def ofKeyed? (key : Json → Option κ) (value : Json → Option ν) (j : Json) :
    Option (List (κ × ν)) := do
  (← j.object?).mapM fun m => do return (← key (.string m.1), ← value m.2)

end HostSteward.Json
