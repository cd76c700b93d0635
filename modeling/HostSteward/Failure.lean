import HostSteward.Bus
import HostSteward.Settings.Validation

/-!
# Failures

Everything that can go wrong between the host and the parties it works with. The kinds of failures
are known, but what the other parties have to say about them is up to these parties.
-/

namespace HostSteward

inductive Failure where
  | configuration (message : String)
  | io (message : String)
  | serialization (message : String)
  | deserialization (message : String)
  | system (message : String)
  | supervisor (process message : String)
  | unknownServer (name : String)
  | alreadyRegistered (process : String)
  | domainConnection (message : String)
  | startup (message : String)
  | bus (fault : BusFault)
deriving DecidableEq

namespace Failure

def message : Failure → String
  | .configuration message => "Configuration error: " ++ message
  | .io message => "IO error: " ++ message
  | .serialization message => "Serialization error: " ++ message
  | .deserialization message => "Deserialization error: " ++ message
  | .system message => "System error: " ++ message
  | .supervisor process message => "Process supervisor error for " ++ process ++ ": " ++ message
  | .unknownServer name => "No server named " ++ name ++ " is configured on this host"
  | .alreadyRegistered process => "Server process " ++ process ++ " is already registered"
  | .domainConnection message => "Domain controller connection error: " ++ message
  | .startup message => "Host controller startup failed: " ++ message
  | .bus fault => "Event bus error: " ++ fault.message

def settings (problem : SettingsProblem) : Failure := .configuration problem.message

def noSupervisor : Failure := .system "A process supervisor must be specified"

def notRegistered (process : String) : Failure := .supervisor process "process is not registered"

def noCommand (process : String) : Failure := .supervisor process "no command configured"

/-- A start of the host that found no supervisor, or was refused by the domain, carries the text of
what went wrong there. -/
def supervisorUnavailable (cause : Failure) : Failure :=
  .startup ("supervisor unavailable: " ++ cause.message)

@[inherit_doc supervisorUnavailable]
def registrationFailed (cause : Failure) : Failure :=
  .startup ("registration failed: " ++ cause.message)

end Failure

end HostSteward
