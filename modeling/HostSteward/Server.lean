import HostSteward.Journal
import HostSteward.Supervisor

/-!
# Tracked servers

The host's record of one server: its phase, what was odd about it, and the registration it
made at the supervisor. Every record has a number of its own, which tells a server from a
later one of the same name.
-/

namespace HostSteward

structure Diagnostic where
  phase : Phase
  message : String
deriving DecidableEq

structure Server where
  number : Nat
  identity : Identity
  spec : ServerSpec
  phase : Phase
  diagnostics : List Diagnostic := []
  incarnation : Option Incarnation := none
deriving DecidableEq

namespace Server

/-- As many of the latest diagnostics are kept. -/
def maxDiagnostics : Nat := 32

def ofSpec (number : Nat) (host : String) (spec : ServerSpec) (phase : Phase) : Server where
  number := number
  identity := spec.identity host
  spec := spec
  phase := phase

def process (s : Server) : String := s.identity.processName

def withPhase (s : Server) (phase : Phase) : Server := { s with phase }

def diagnose (s : Server) (message : String) : Server :=
  let all := s.diagnostics ++ [⟨s.phase, message⟩]
  { s with diagnostics := all.drop (all.length - maxDiagnostics) }

def mismatch (s : Server) (expected : List Phase) (operation : String) : String :=
  operation ++ " in state " ++ s.phase.label ++ ", expected " ++
    String.intercalate " or " (expected.map Phase.label)

/-- A phase that an operation does not expect leaves a diagnostic and nothing else. -/
def check (s : Server) (expected : List Phase) (operation : String) : Server :=
  if s.phase ∈ expected then s else s.diagnose (s.mismatch expected operation)

def checkEntry? (s : Server) (expected : List Phase) (operation : String) : Option Entry :=
  if s.phase ∈ expected then none
  else some (.warning ("Server " ++ s.process ++ ": " ++ s.mismatch expected operation))

/-- Whether a notice about an incarnation concerns this server. One that never registered a
process takes every incarnation for its own. -/
def owns (s : Server) (incarnation : Incarnation) : Bool :=
  match s.incarnation with
  | none => true
  | some own => own = incarnation

def registered (s : Server) (incarnation : Incarnation) : Server :=
  { s with incarnation := some incarnation }

end Server

structure Roster where
  servers : OrderedMap String Server := .empty
deriving DecidableEq

namespace Roster

def empty : Roster := {}

def get? (r : Roster) (process : String) : Option Server := r.servers.get? process

def contains (r : Roster) (process : String) : Bool := r.servers.contains process

def insert (r : Roster) (s : Server) : Except Failure Roster :=
  if r.contains s.process then .error (.alreadyRegistered s.process)
  else .ok ⟨r.servers.insert s.process s⟩

def remove (r : Roster) (process : String) : Roster := ⟨r.servers.erase process⟩

def tracks (r : Roster) (process : String) (number : Nat) : Bool :=
  match r.get? process with
  | some s => s.number = number
  | none => false

/-- Removes a process name only if it is still tracked by the server of a number. -/
def removeSame (r : Roster) (process : String) (number : Nat) : Roster :=
  if r.tracks process number then r.remove process else r

def update (r : Roster) (number : Nat) (f : Server → Server) : Roster :=
  ⟨r.servers.mapValues fun _ s => if s.number = number then f s else s⟩

def processes (r : Roster) : List String := r.servers.keys

def all (r : Roster) : List Server := r.servers.values

def size (r : Roster) : Nat := r.servers.size

end Roster

end HostSteward
