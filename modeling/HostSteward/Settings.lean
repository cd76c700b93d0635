import HostSteward.Identity
import HostSteward.Duration

/-!
# Settings of the host

What a host is configured with: its own name and boot, the lifecycle of its servers, how
changes are distributed, and the servers themselves. Every number has the width that the
settings file may use.
-/

namespace HostSteward

inductive BootMode where
  | fresh
  | restart
deriving DecidableEq

structure HostSettings where
  name : String := "local"
  bootMode : BootMode := .fresh
  controllerPort : UInt16 := 9999
deriving DecidableEq

/-- Times are in milliseconds. -/
structure LifecycleSettings where
  startPollAttempts : UInt32 := 50
  startPollInterval : UInt64 := 100
  autoRestart : Bool := false
  maxRestarts : UInt32 := 5
  restartBaseDelay : UInt64 := 1000
  restartMaxDelay : UInt64 := 60000
deriving DecidableEq

structure ChangeSettings where
  allowOverallRollback : Bool := true
  concurrentServers : Bool := false
deriving DecidableEq

structure SystemSettings where
  busCapacity : UInt64 := 256
deriving DecidableEq

structure ServerSpec where
  name : String
  group : String
  autoStart : Bool := true
  command : List String := []
  workingDir : Option String := none
  env : OrderedMap String String := .empty
deriving DecidableEq

structure Settings where
  host : HostSettings := {}
  lifecycle : LifecycleSettings := {}
  changes : ChangeSettings := {}
  system : SystemSettings := {}
  servers : List ServerSpec := []
deriving DecidableEq

instance : Inhabited Settings := ⟨{}⟩

namespace LifecycleSettings

def pollInterval (l : LifecycleSettings) : Duration := .ofMilliseconds l.startPollInterval

end LifecycleSettings

namespace ServerSpec

def processName (s : ServerSpec) : String := HostSteward.processName s.name

def identity (s : ServerSpec) (host : String) : Identity := ⟨host, s.group, s.name⟩

/-- The same server with only its name, group, start flag and command. -/
def essentials (s : ServerSpec) : ServerSpec :=
  { name := s.name, group := s.group, autoStart := s.autoStart, command := s.command }

end ServerSpec

end HostSteward
