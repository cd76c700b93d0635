import HostSteward.Settings
import HostSteward.Text.Blank

/-!
# Checking settings

`Settings.problem?` is the first problem of a configuration in a fixed order of checks.
-/

namespace HostSteward

inductive SettingsProblem where
  | blankHostName
  | noStartPolls
  | baseDelayAboveMaximum
  | noBusCapacity
  | blankServerName
  | serverWithoutGroup (server : String)
  | serverRepeated (server : String)
deriving DecidableEq

namespace SettingsProblem

def message : SettingsProblem → String
  | .blankHostName => "Host name must not be empty"
  | .noStartPolls => "Lifecycle start_poll_attempts must be greater than 0"
  | .baseDelayAboveMaximum =>
    "Lifecycle restart_base_delay_ms must not exceed restart_max_delay_ms"
  | .noBusCapacity => "Event bus capacity must be greater than 0"
  | .blankServerName => "Server name must not be empty"
  | .serverWithoutGroup server => "Server " ++ server ++ " must belong to a server group"
  | .serverRepeated server => "Server " ++ server ++ " is configured more than once"

end SettingsProblem

namespace ServerSpec

def problem? (seen : List String) : List ServerSpec → Option SettingsProblem
  | [] => none
  | s :: rest =>
    if Text.isBlank s.name then some .blankServerName
    else if Text.isBlank s.group then some (.serverWithoutGroup s.name)
    else if s.name ∈ seen then some (.serverRepeated s.name)
    else problem? (s.name :: seen) rest

end ServerSpec

namespace Settings

def problem? (s : Settings) : Option SettingsProblem :=
  if Text.isBlank s.host.name then some .blankHostName
  else if s.lifecycle.startPollAttempts = 0 then some .noStartPolls
  else if s.lifecycle.restartMaxDelay < s.lifecycle.restartBaseDelay then
    some .baseDelayAboveMaximum
  else if s.system.busCapacity = 0 then some .noBusCapacity
  else ServerSpec.problem? [] s.servers

end Settings

end HostSteward
