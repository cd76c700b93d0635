import HostSteward.HostModel
import HostSteward.RestartBudget
import HostSteward.Server

/-!
# The steward of a host

The steward looks after the servers of one host: it launches them, follows what the
supervisor says about them, restarts them within their budget and serves operators. This
module has its state; what it does are the programs of the modules below `Steward`.
-/

namespace HostSteward

/-- A restart that was decided on and waits for its time. It is meant for one server record
and no other. -/
structure PendingRestart where
  ticket : Nat
  number : Nat
  process : String
  delay : Duration
deriving DecidableEq

structure Steward where
  settings : Settings
  model : HostModel
  /-- There is a connection to a domain controller. -/
  inDomain : Bool
  roster : Roster := .empty
  budget : RestartBudget
  stopping : Bool := false
  /-- The servers have been launched once. -/
  launched : Bool := false
  /-- The steward has stopped: nothing pending is carried out any more. -/
  cancelled : Bool := false
  nextNumber : Nat := 0
  nextTicket : Nat := 0
  restarts : List PendingRestart := []
  journal : List Entry := []
deriving DecidableEq

namespace Steward

/-- A steward for checked settings. Without a host model of its own it takes the servers of
the settings for its model. -/
def make (settings : Settings) (model : Option HostModel) (inDomain : Bool) : Steward where
  settings := settings
  model := model.getD { host := settings.host.name, servers := settings.servers }
  inDomain := inDomain
  budget := .ofPolicy (.ofLifecycle settings.lifecycle)

def hostName (h : Steward) : String := h.model.host

def statusOf (h : Steward) (s : ServerSpec) : Status :=
  match h.roster.get? s.processName with
  | some server => server.phase.status
  | none => if s.autoStart then .stopped else .disabled

def status (h : Steward) (name : String) : Status :=
  match h.model.server? name with
  | some s => h.statusOf s
  | none => .doesNotExist

def statuses (h : Steward) : OrderedMap Identity Status :=
  .ofList (h.model.servers.map fun s => (h.model.identity s, h.statusOf s))

def server? (h : Steward) (name : String) : Option Server := h.roster.get? (processName name)

end Steward

end HostSteward
