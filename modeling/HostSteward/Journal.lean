/-!
# The journal

What the host reports about its own work, one entry after another.
-/

namespace HostSteward

inductive Severity where
  | error
  | warning
  | info
deriving DecidableEq

namespace Severity

def label : Severity → String
  | .error => "ERROR"
  | .warning => "WARN"
  | .info => "INFO"

end Severity

structure Entry where
  severity : Severity
  text : String
deriving DecidableEq

namespace Entry

def error (text : String) : Entry := ⟨.error, text⟩

def warning (text : String) : Entry := ⟨.warning, text⟩

def info (text : String) : Entry := ⟨.info, text⟩

end Entry

end HostSteward
