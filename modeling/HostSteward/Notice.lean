import HostSteward.Duration
import HostSteward.Phase

/-!
# Notices from the process supervisor

What the supervisor tells the host about processes, servers and its own connection.
-/

namespace HostSteward

/-- One registration of a process name at the supervisor. A name that is removed and added
again gets a new incarnation. -/
abbrev Incarnation := UInt64

structure ProcessInfo where
  name : String
  running : Bool
deriving DecidableEq

inductive Notice where
  | processAdded (process : String)
  | processStarted (process : String)
  | processStopped (process : String) (incarnation : Incarnation) (uptime : Duration)
  | processRemoved (process : String)
  | inventory (processes : List ProcessInfo)
  | shutdownRequested
  | connectionFailed (cause : String)
  | connectionFinished
  | serverAvailable (process : String)
  | serverStarted (process : String)
  | serverStartFailed (process : String)
  | serverStopped (process : String)
  | serverReconnected (process : String) (phase : Phase)
  | serverDown (process : String)
  | serverDisconnected (process : String)
deriving DecidableEq

namespace ProcessInfo

def toJson (p : ProcessInfo) : Json :=
  .object [("name", .string p.name), ("running", .bool p.running)]

def ofJson? (j : Json) : Option ProcessInfo := do
  let r ← j.record? ["name", "running"]
  return {
    name := ← r.required "name" Json.string?
    running := ← r.required "running" Json.bool?
  }

end ProcessInfo

namespace Duration

def toJson (d : Duration) : Json :=
  .object [("secs", .nat d.seconds), ("nanos", .nat d.subsecond)]

/-- Reads seconds and nanoseconds; unlike other records this one has no further members. -/
def ofJson? (j : Json) : Option Duration := do
  let members := match j with
    | .object members => members
    | _ => []
  if members.all fun m => m.1 = "secs" || m.1 = "nanos" then
    let r ← j.record? ["secs", "nanos"]
    ofParts? (← r.required "secs" (Json.natBelow? UInt64.size))
      (← r.required "nanos" (Json.natBelow? UInt32.size))
  else none

end Duration

namespace Notice

def process? : Notice → Option String
  | .processAdded p | .processStarted p | .processStopped p _ _ | .processRemoved p
  | .serverAvailable p | .serverStarted p | .serverStartFailed p | .serverStopped p
  | .serverReconnected p _ | .serverDown p | .serverDisconnected p => some p
  | .inventory _ | .shutdownRequested | .connectionFailed _ | .connectionFinished => none

/-- The name by which filters select a notice. -/
def kind : Notice → String
  | .processAdded _ => "process_added"
  | .processStarted _ => "process_started"
  | .processStopped _ _ _ => "process_stopped"
  | .processRemoved _ => "process_removed"
  | .inventory _ => "inventory"
  | .shutdownRequested => "connection_shutdown"
  | .connectionFailed _ => "connection_failure"
  | .connectionFinished => "connection_finished"
  | .serverAvailable _ => "server_available"
  | .serverStarted _ => "server_started"
  | .serverStartFailed _ => "server_start_failed"
  | .serverStopped _ => "server_stopped"
  | .serverReconnected _ _ => "server_reconnected"
  | .serverDown _ => "server_down"
  | .serverDisconnected _ => "server_connection_closed"

def description : Notice → String
  | .processAdded p => "Process " ++ p ++ " added"
  | .processStarted p => "Process " ++ p ++ " started"
  | .processStopped p incarnation uptime =>
    "Process " ++ p ++ " (incarnation " ++ Numeral.text incarnation.toNat ++ ") stopped after "
      ++ Numeral.text uptime.milliseconds ++ " ms"
  | .processRemoved p => "Process " ++ p ++ " removed"
  | .inventory processes => "Inventory of " ++ Numeral.text processes.length ++ " processes"
  | .shutdownRequested => "Supervisor requested shutdown"
  | .connectionFailed cause => "Supervisor connection failed: " ++ cause
  | .connectionFinished => "Supervisor connection closed"
  | .serverAvailable p => "Server " ++ p ++ " available"
  | .serverStarted p => "Server " ++ p ++ " started"
  | .serverStartFailed p => "Server " ++ p ++ " failed to start"
  | .serverStopped p => "Server " ++ p ++ " stopped"
  | .serverReconnected p phase => "Server " ++ p ++ " reconnected in state " ++ phase.label
  | .serverDown p => "Server " ++ p ++ " down"
  | .serverDisconnected p => "Server " ++ p ++ " closed its connection"

/-- A notice about a process is an object of its name; the fields are an object as well. -/
def named (name : String) (fields : List (String × Json)) : Json :=
  .object [(name, .object fields)]

def aboutProcess (name process : String) : Json := named name [("process_name", .string process)]

def toJson : Notice → Json
  | .processAdded p => aboutProcess "ProcessAdded" p
  | .processStarted p => aboutProcess "ProcessStarted" p
  | .processStopped p incarnation uptime =>
    named "ProcessStopped" [("process_name", .string p), ("incarnation", .nat incarnation.toNat),
      ("uptime", uptime.toJson)]
  | .processRemoved p => aboutProcess "ProcessRemoved" p
  | .inventory processes =>
    named "Inventory" [("processes", .array (processes.map ProcessInfo.toJson))]
  | .shutdownRequested => .string "ConnectionShutdown"
  | .connectionFailed cause => named "ConnectionFailure" [("cause", .string cause)]
  | .connectionFinished => .string "ConnectionFinished"
  | .serverAvailable p => aboutProcess "ServerAvailable" p
  | .serverStarted p => aboutProcess "ServerStarted" p
  | .serverStartFailed p => aboutProcess "ServerStartFailed" p
  | .serverStopped p => aboutProcess "ServerStopped" p
  | .serverReconnected p phase =>
    named "ServerReconnected" [("process_name", .string p), ("state", phase.toJson)]
  | .serverDown p => aboutProcess "ServerDown" p
  | .serverDisconnected p => aboutProcess "ServerConnectionClosed" p

/-- The notices that carry nothing but the name of a process. -/
def ofProcess? (name process : String) : Option Notice :=
  match name with
  | "ProcessAdded" => some (.processAdded process)
  | "ProcessStarted" => some (.processStarted process)
  | "ProcessRemoved" => some (.processRemoved process)
  | "ServerAvailable" => some (.serverAvailable process)
  | "ServerStarted" => some (.serverStarted process)
  | "ServerStartFailed" => some (.serverStartFailed process)
  | "ServerStopped" => some (.serverStopped process)
  | "ServerDown" => some (.serverDown process)
  | "ServerConnectionClosed" => some (.serverDisconnected process)
  | _ => none

def ofFields? (name : String) (fields : Json) : Option Notice := do
  let r : Json.Record := ⟨true, fun field => fields.get? field⟩
  let process := r.required "process_name" Json.string?
  match name with
  | "ProcessStopped" =>
    let incarnation ← r.required "incarnation" (Json.natBelow? UInt64.size)
    let uptime ← r.required "uptime" Duration.ofJson?
    return .processStopped (← process) (.ofNat incarnation) uptime
  | "Inventory" =>
    return .inventory (← r.required "processes" (Json.listOf? ProcessInfo.ofJson?))
  | "ConnectionFailure" => return .connectionFailed (← r.required "cause" Json.string?)
  | "ServerReconnected" =>
    return .serverReconnected (← process) (← r.required "state" Phase.ofJson?)
  | name => ofProcess? name (← process)

def ofJson? (j : Json) : Option Notice :=
  match j.variantName? with
  | some "ConnectionShutdown" => some .shutdownRequested
  | some "ConnectionFinished" => some .connectionFinished
  | _ => do
    let (name, fields) ← j.onlyMember?
    ofFields? name fields

end Notice

end HostSteward
