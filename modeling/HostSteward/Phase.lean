import HostSteward.Json.Record

/-!
# Phases of a server's life

A tracked server is in one `Phase`; operators see the coarser `Status`.
-/

namespace HostSteward

inductive Status where
  | doesNotExist
  | disabled
  | stopped
  | starting
  | started
  | stopping
  | failed
deriving DecidableEq

inductive Phase where
  | booting
  | available
  | starting
  | started
  | stopping
  | stopped
  | failed
  | maxFailed
deriving DecidableEq

namespace Status

def all : List Status :=
  [.doesNotExist, .disabled, .stopped, .starting, .started, .stopping, .failed]

def label : Status → String
  | .doesNotExist => "DOES_NOT_EXIST"
  | .disabled => "DISABLED"
  | .stopped => "STOPPED"
  | .starting => "STARTING"
  | .started => "STARTED"
  | .stopping => "STOPPING"
  | .failed => "FAILED"

def toJson (s : Status) : Json := .string s.label

def ofJson? (j : Json) : Option Status := do
  let name ← j.variantName?
  all.find? (·.label = name)

theorem ofJson?_toJson (s : Status) : ofJson? s.toJson = some s := by
  cases s <;> rfl

end Status

namespace Phase

def all : List Phase :=
  [.booting, .available, .starting, .started, .stopping, .stopped, .failed, .maxFailed]

def label : Phase → String
  | .booting => "BOOTING"
  | .available => "AVAILABLE"
  | .starting => "STARTING"
  | .started => "STARTED"
  | .stopping => "STOPPING"
  | .stopped => "STOPPED"
  | .failed => "FAILED"
  | .maxFailed => "MAX_FAILED"

def status : Phase → Status
  | .booting | .available | .starting => .starting
  | .started => .started
  | .stopping => .stopping
  | .stopped => .stopped
  | .failed | .maxFailed => .failed

/-- A server that reconnects in one of these phases has to be launched again. -/
def relaunchedOnReconnect : Phase → Bool
  | .booting | .available | .starting | .failed => true
  | .started | .stopping | .stopped | .maxFailed => false

def isTerminal : Phase → Bool
  | .stopped | .maxFailed => true
  | _ => false

def toJson (p : Phase) : Json := .string p.label

def ofJson? (j : Json) : Option Phase := do
  let name ← j.variantName?
  all.find? (·.label = name)

theorem ofJson?_toJson (p : Phase) : ofJson? p.toJson = some p := by
  cases p <;> rfl

end Phase

end HostSteward
