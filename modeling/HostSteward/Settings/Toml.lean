import HostSteward.Settings.Json
import HostSteward.Toml.Quoted

/-!
# The TOML form of settings

Settings are written section by section; a settings file that holds this text gives the
same settings again. An integer that does not fit 64 signed bits has no TOML form, and a
string with too many quotes in a row breaks the writer.
-/

namespace HostSteward

namespace Toml

inductive WriteFault where
  | integerTooLarge
  /-- The writer broke down over a string. -/
  | overrun
deriving DecidableEq

def line (key : String) (value : List Char) : List Char :=
  writeKey key.toList ++ [' ', '=', ' '] ++ value ++ ['\n']

def boolValue (b : Bool) : List Char := if b then "true".toList else "false".toList

def stringValue (s : String) : List Char := writeString s.toList

/-- Up to one element stands on the line of the key, more stand on lines of their own. -/
def stringArray : List String → List Char
  | [] => ['[', ']']
  | [s] => '[' :: stringValue s ++ [']']
  | items =>
    ['[', '\n'] ++ items.flatMap (fun s => "    ".toList ++ stringValue s ++ [',', '\n']) ++ [']']

def header (name : String) : List Char := '[' :: name.toList ++ [']', '\n']

def arrayHeader (name : String) : List Char := ['[', '['] ++ name.toList ++ [']', ']', '\n']

/-- Only integers of 64 signed bits can be written. -/
def writeInteger (n : Nat) : Except WriteFault (List Char) :=
  if Numeral.fitsInt64 n then .ok (Numeral.digits n) else .error .integerTooLarge

end Toml

open Toml

namespace HostSettings

def toToml (s : HostSettings) : List Char :=
  header "host" ++ line "name" (stringValue s.name) ++
    line "boot_mode" (stringValue s.bootMode.label) ++
    line "controller_port" (Numeral.digits s.controllerPort.toNat)

end HostSettings

namespace LifecycleSettings

def toToml (s : LifecycleSettings) : Except Toml.WriteFault (List Char) := do
  return header "lifecycle" ++
    line "start_poll_attempts" (Numeral.digits s.startPollAttempts.toNat) ++
    line "start_poll_interval_ms" (← writeInteger s.startPollInterval.toNat) ++
    line "auto_restart" (boolValue s.autoRestart) ++
    line "max_restarts" (Numeral.digits s.maxRestarts.toNat) ++
    line "restart_base_delay_ms" (← writeInteger s.restartBaseDelay.toNat) ++
    line "restart_max_delay_ms" (← writeInteger s.restartMaxDelay.toNat)

end LifecycleSettings

namespace ChangeSettings

def toToml (s : ChangeSettings) : List Char :=
  header "updates" ++ line "allow_overall_rollback" (boolValue s.allowOverallRollback) ++
    line "concurrent_servers" (boolValue s.concurrentServers)

end ChangeSettings

namespace SystemSettings

def toToml (s : SystemSettings) : Except Toml.WriteFault (List Char) := do
  return header "system" ++ line "event_bus_capacity" (← writeInteger s.busCapacity.toNat)

end SystemSettings

namespace ServerSpec

def envToToml (env : OrderedMap String String) : List Char :=
  header "servers.env" ++ env.entries.flatMap fun (name, value) => line name (stringValue value)

def texts (s : ServerSpec) : List String :=
  s.name :: s.group :: s.command ++ s.workingDir.toList ++ s.env.entries.map (·.2)

def toToml (s : ServerSpec) : List Char :=
  arrayHeader "servers" ++ line "name" (stringValue s.name) ++
    line "group" (stringValue s.group) ++ line "auto_start" (boolValue s.autoStart) ++
    line "command" (stringArray s.command) ++
    (match s.workingDir with
      | none => []
      | some dir => line "working_dir" (stringValue dir)) ++
    '\n' :: envToToml s.env

end ServerSpec

namespace Settings

def texts (s : Settings) : List String := s.host.name :: s.servers.flatMap ServerSpec.texts

/-- Integers are looked at before anything is written. An empty list of servers comes first,
before any section. -/
def toToml (s : Settings) : Except Toml.WriteFault String := do
  let sections := [s.host.toToml, ← s.lifecycle.toToml, s.changes.toToml, ← s.system.toToml]
  if s.texts.any (overruns ·.toList) then throw .overrun
  let blocks :=
    if s.servers.isEmpty then line "servers" (stringArray []) :: sections
    else sections ++ s.servers.map ServerSpec.toToml
  return String.ofList (List.intercalate ['\n'] blocks)

end Settings

end HostSteward
