import HostSteward.Json.Record

/-!
# Changes

A host change alters the host's configuration and may imply one change inside every
server in its scope.
-/

namespace HostSteward

inductive Scope where
  | host
  | group (name : String)
  | server (name : String)
deriving DecidableEq

structure ServerChange where
  operation : String
  payload : Json
deriving DecidableEq

structure HostChange where
  operation : String
  scope : Scope
  payload : Json
  serverChange : Option ServerChange
deriving DecidableEq

namespace Scope

def toJson : Scope → Json
  | .host => .object [("type", .string "host")]
  | .group name => .object [("type", .string "server_group"), ("name", .string name)]
  | .server name => .object [("type", .string "server"), ("name", .string name)]

def ofJson? (j : Json) : Option Scope := do
  let (tag, content) ← j.tagged? "type" "name"
  match tag, content with
  | "host", none => some .host
  | "host", some .null => some .host
  | "server_group", some (.string name) => some (.group name)
  | "server", some (.string name) => some (.server name)
  | _, _ => none

end Scope

namespace ServerChange

def toJson (c : ServerChange) : Json :=
  .object [("operation", .string c.operation), ("payload", c.payload)]

def ofJson? (j : Json) : Option ServerChange := do
  let r ← j.record? ["operation", "payload"]
  return {
    operation := ← r.required "operation" Json.string?
    payload := ← r.withDefault "payload" .null some
  }

end ServerChange

namespace HostChange

/-- A change without payload that no server takes part in. -/
def plain (operation : String) (scope : Scope) : HostChange := ⟨operation, scope, .null, none⟩

def withPayload (c : HostChange) (payload : Json) : HostChange := { c with payload }

def withServerChange (c : HostChange) (change : ServerChange) : HostChange :=
  { c with serverChange := some change }

def toJson (c : HostChange) : Json :=
  .object [("operation", .string c.operation), ("scope", c.scope.toJson),
    ("payload", c.payload), ("server_update", Json.option ServerChange.toJson c.serverChange)]

def ofJson? (j : Json) : Option HostChange := do
  let r ← j.record? ["operation", "scope", "payload", "server_update"]
  return {
    operation := ← r.required "operation" Json.string?
    scope := ← r.required "scope" Scope.ofJson?
    payload := ← r.withDefault "payload" .null some
    serverChange := ← r.withDefault "server_update" none (Json.nullable? ServerChange.ofJson?)
  }

end HostChange

end HostSteward
