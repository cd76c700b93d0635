import HostSteward.Settings

/-!
# The JSON form of settings

Every field of a section has a default, the sections themselves are required. A partial
configuration is laid over the defaults section by section.
-/

namespace HostSteward

namespace BootMode

def label : BootMode → String
  | .fresh => "fresh"
  | .restart => "restart"

def all : List BootMode := [.fresh, .restart]

def toJson (b : BootMode) : Json := .string b.label

def ofJson? (j : Json) : Option BootMode := do
  let name ← j.variantName?
  all.find? (·.label = name)

end BootMode

namespace Json

def uint16? (j : Json) : Option UInt16 := (j.natBelow? UInt16.size).map .ofNat

def uint32? (j : Json) : Option UInt32 := (j.natBelow? UInt32.size).map .ofNat

def uint64? (j : Json) : Option UInt64 := (j.natBelow? UInt64.size).map .ofNat

end Json

namespace HostSettings

def toJson (s : HostSettings) : Json :=
  .object [("name", .string s.name), ("boot_mode", s.bootMode.toJson),
    ("controller_port", .nat s.controllerPort.toNat)]

def ofJson? (j : Json) : Option HostSettings := do
  let r ← j.record? ["name", "boot_mode", "controller_port"]
  let d : HostSettings := {}
  return {
    name := ← r.withDefault "name" d.name Json.string?
    bootMode := ← r.withDefault "boot_mode" d.bootMode BootMode.ofJson?
    controllerPort := ← r.withDefault "controller_port" d.controllerPort Json.uint16?
  }

end HostSettings

namespace LifecycleSettings

def toJson (s : LifecycleSettings) : Json :=
  .object [("start_poll_attempts", .nat s.startPollAttempts.toNat),
    ("start_poll_interval_ms", .nat s.startPollInterval.toNat),
    ("auto_restart", .bool s.autoRestart),
    ("max_restarts", .nat s.maxRestarts.toNat),
    ("restart_base_delay_ms", .nat s.restartBaseDelay.toNat),
    ("restart_max_delay_ms", .nat s.restartMaxDelay.toNat)]

def ofJson? (j : Json) : Option LifecycleSettings := do
  let r ← j.record? ["start_poll_attempts", "start_poll_interval_ms", "auto_restart",
    "max_restarts", "restart_base_delay_ms", "restart_max_delay_ms"]
  let d : LifecycleSettings := {}
  return {
    startPollAttempts := ← r.withDefault "start_poll_attempts" d.startPollAttempts Json.uint32?
    startPollInterval := ←
      r.withDefault "start_poll_interval_ms" d.startPollInterval Json.uint64?
    autoRestart := ← r.withDefault "auto_restart" d.autoRestart Json.bool?
    maxRestarts := ← r.withDefault "max_restarts" d.maxRestarts Json.uint32?
    restartBaseDelay := ← r.withDefault "restart_base_delay_ms" d.restartBaseDelay Json.uint64?
    restartMaxDelay := ← r.withDefault "restart_max_delay_ms" d.restartMaxDelay Json.uint64?
  }

end LifecycleSettings

namespace ChangeSettings

def toJson (s : ChangeSettings) : Json :=
  .object [("allow_overall_rollback", .bool s.allowOverallRollback),
    ("concurrent_servers", .bool s.concurrentServers)]

def ofJson? (j : Json) : Option ChangeSettings := do
  let r ← j.record? ["allow_overall_rollback", "concurrent_servers"]
  let d : ChangeSettings := {}
  return {
    allowOverallRollback := ←
      r.withDefault "allow_overall_rollback" d.allowOverallRollback Json.bool?
    concurrentServers := ← r.withDefault "concurrent_servers" d.concurrentServers Json.bool?
  }

end ChangeSettings

namespace SystemSettings

def toJson (s : SystemSettings) : Json :=
  .object [("event_bus_capacity", .nat s.busCapacity.toNat)]

def ofJson? (j : Json) : Option SystemSettings := do
  let r ← j.record? ["event_bus_capacity"]
  let d : SystemSettings := {}
  return { busCapacity := ← r.withDefault "event_bus_capacity" d.busCapacity Json.uint64? }

end SystemSettings

namespace ServerSpec

def envOfJson? (j : Json) : Option (OrderedMap String String) := do
  let members ← j.object?
  let vars ← members.mapM fun (name, value) => value.string?.map (name, ·)
  return .ofList vars

def envToJson (env : OrderedMap String String) : Json :=
  .object (env.entries.map fun (name, value) => (name, .string value))

def toJson (s : ServerSpec) : Json :=
  .object [("name", .string s.name), ("group", .string s.group),
    ("auto_start", .bool s.autoStart), ("command", .strings s.command),
    ("working_dir", Json.option .string s.workingDir), ("env", envToJson s.env)]

def ofJson? (j : Json) : Option ServerSpec := do
  let r ← j.record? ["name", "group", "auto_start", "command", "working_dir", "env"]
  return {
    name := ← r.required "name" Json.string?
    group := ← r.required "group" Json.string?
    autoStart := ← r.withDefault "auto_start" true Json.bool?
    command := ← r.withDefault "command" [] (Json.listOf? Json.string?)
    workingDir := ← r.withDefault "working_dir" none (Json.nullable? Json.string?)
    env := ← r.withDefault "env" .empty envOfJson?
  }

end ServerSpec

namespace Settings

def toJson (s : Settings) : Json :=
  .object [("host", s.host.toJson), ("lifecycle", s.lifecycle.toJson),
    ("updates", s.changes.toJson), ("system", s.system.toJson),
    ("servers", .array (s.servers.map ServerSpec.toJson))]

def ofJson? (j : Json) : Option Settings := do
  let r ← j.record? ["host", "lifecycle", "updates", "system", "servers"]
  return {
    host := ← r.required "host" HostSettings.ofJson?
    lifecycle := ← r.required "lifecycle" LifecycleSettings.ofJson?
    changes := ← r.required "updates" ChangeSettings.ofJson?
    system := ← r.required "system" SystemSettings.ofJson?
    servers := ← r.withDefault "servers" [] (Json.listOf? ServerSpec.ofJson?)
  }

/-- Sets a member, keeping the order of the others. -/
def setMember (members : List (String × Json)) (name : String) (value : Json) :
    List (String × Json) :=
  if members.any (·.1 = name) then
    members.map fun m => if m.1 = name then (name, value) else m
  else members ++ [(name, value)]

/-- Where both are objects the fields are combined, elsewhere the upper value wins. -/
def layer (lower upper : Json) : Json :=
  match lower, upper with
  | .object below, .object above =>
    .object (above.foldl (fun ms m => setMember ms m.1 m.2) below)
  | _, upper => upper

def overlay? (members : List (String × Json)) : Option Settings :=
  let base := match ({} : Settings).toJson with
    | .object base => base
    | _ => []
  let place (ms : List (String × Json)) (m : String × Json) :=
    match ms.lookup m.1 with
    | some below => setMember ms m.1 (layer below m.2)
    | none => setMember ms m.1 m.2
  ofJson? (.object (members.foldl place base))

end Settings

end HostSteward
