import HostSteward.Settings.Json

/-!
# Lenient reading of settings

Layered settings are read by what they can stand for: a number for a text or a switch, a
text for a number, a single-member table for a boot mode. Ranges are still checked.
-/

namespace HostSteward

namespace Lenient

def lower (s : String) : String := String.ofList (s.toList.map Char.toLower)

/-- Switches can be written in words. -/
def word? (s : String) : Option Bool :=
  if ["true", "on", "yes"].contains (lower s) then some true
  else if ["false", "off", "no"].contains (lower s) then some false
  else none

def text? : Json → Option String
  | .string s => some s
  | .bool b => some (if b then "true" else "false")
  | .int n => some (if n < 0 then "-" ++ Numeral.text n.natAbs else Numeral.text n.natAbs)
  | .real x => some x.text
  | .null | .array _ | .object _ => none

def flag? : Json → Option Bool
  | .bool b => some b
  | .int n => some (n ≠ 0)
  | .real x => some x.isNonzero
  | .string s => if s = "1" then some true else if s = "0" then some false else word? s
  | .null | .array _ | .object _ => none

def number? : Json → Option Nat
  | .bool b => some b.toNat
  | .int n => if 0 ≤ n ∧ n.toNat < UInt64.size then some n.toNat else none
  | .real x => some x.toUInt64Range
  | .string s => (word? s).map Bool.toNat |>.or (Numeral.readUInt64? s.toList)
  | .null | .array _ | .object _ => none

def numberBelow? (bound : Nat) (j : Json) : Option Nat := do
  let n ← number? j
  if n < bound then some n else none

def uint16? (j : Json) : Option UInt16 := (numberBelow? UInt16.size j).map .ofNat

def uint32? (j : Json) : Option UInt32 := (numberBelow? UInt32.size j).map .ofNat

def uint64? (j : Json) : Option UInt64 := (numberBelow? UInt64.size j).map .ofNat

/-- A table or the fields in order; what goes beyond the fields is ignored. -/
def record? (fields : List String) : Json → Option Json.Record
  | .object members => some ⟨true, fun name => members.lookup name⟩
  | .array items => some ⟨false, fun name => (fields.zip items).lookup name⟩
  | _ => none

def bootMode? (j : Json) : Option BootMode := do
  let name ← match j with
    | .string s => some s
    | j => j.onlyMember?.map (·.1)
  BootMode.all.find? (·.label = lower name)

def hostSettings? (j : Json) : Option HostSettings := do
  let r ← record? ["name", "boot_mode", "controller_port"] j
  let d : HostSettings := {}
  return {
    name := ← r.withDefault "name" d.name text?
    bootMode := ← r.withDefault "boot_mode" d.bootMode bootMode?
    controllerPort := ← r.withDefault "controller_port" d.controllerPort uint16?
  }

def lifecycleSettings? (j : Json) : Option LifecycleSettings := do
  let r ← record? ["start_poll_attempts", "start_poll_interval_ms", "auto_restart",
    "max_restarts", "restart_base_delay_ms", "restart_max_delay_ms"] j
  let d : LifecycleSettings := {}
  return {
    startPollAttempts := ← r.withDefault "start_poll_attempts" d.startPollAttempts uint32?
    startPollInterval := ← r.withDefault "start_poll_interval_ms" d.startPollInterval uint64?
    autoRestart := ← r.withDefault "auto_restart" d.autoRestart flag?
    maxRestarts := ← r.withDefault "max_restarts" d.maxRestarts uint32?
    restartBaseDelay := ← r.withDefault "restart_base_delay_ms" d.restartBaseDelay uint64?
    restartMaxDelay := ← r.withDefault "restart_max_delay_ms" d.restartMaxDelay uint64?
  }

def changeSettings? (j : Json) : Option ChangeSettings := do
  let r ← record? ["allow_overall_rollback", "concurrent_servers"] j
  let d : ChangeSettings := {}
  return {
    allowOverallRollback := ← r.withDefault "allow_overall_rollback" d.allowOverallRollback flag?
    concurrentServers := ← r.withDefault "concurrent_servers" d.concurrentServers flag?
  }

def systemSettings? (j : Json) : Option SystemSettings := do
  let r ← record? ["event_bus_capacity"] j
  let d : SystemSettings := {}
  return { busCapacity := ← r.withDefault "event_bus_capacity" d.busCapacity uint64? }

def env? (j : Json) : Option (OrderedMap String String) := do
  let vars ← (← j.object?).mapM fun (name, value) => (text? value).map (name, ·)
  return .ofList vars

def serverSpec? (j : Json) : Option ServerSpec := do
  let r ← record? ["name", "group", "auto_start", "command", "working_dir", "env"] j
  return {
    name := ← r.required "name" text?
    group := ← r.required "group" text?
    autoStart := ← r.withDefault "auto_start" true flag?
    command := ← r.withDefault "command" [] (Json.listOf? text?)
    workingDir := ← r.withDefault "working_dir" none (Json.nullable? text?)
    env := ← r.withDefault "env" .empty env?
  }

def settings? (j : Json) : Option Settings := do
  let r ← record? ["host", "lifecycle", "updates", "system", "servers"] j
  return {
    host := ← r.required "host" hostSettings?
    lifecycle := ← r.required "lifecycle" lifecycleSettings?
    changes := ← r.required "updates" changeSettings?
    system := ← r.required "system" systemSettings?
    servers := ← r.withDefault "servers" [] (Json.listOf? serverSpec?)
  }

end Lenient

end HostSteward
