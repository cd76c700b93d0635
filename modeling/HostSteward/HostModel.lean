import HostSteward.Change
import HostSteward.Outcome
import HostSteward.Settings

/-!
# The host model

The host's own configuration: which servers it has and which changes it accepted. A change
is refused only if it addresses a server that is not configured.
-/

namespace HostSteward

structure HostModel where
  host : String
  servers : List ServerSpec
  accepted : List HostChange := []
deriving DecidableEq

namespace HostModel

def server? (m : HostModel) (name : String) : Option ServerSpec :=
  m.servers.find? (·.name = name)

theorem processName_of_server? {m : HostModel} {name : String} {spec : ServerSpec}
    (h : m.server? name = some spec) : spec.processName = HostSteward.processName name := by
  have hname : spec.name = name := by simpa using List.find?_some h
  unfold ServerSpec.processName
  rw [hname]

def identity (m : HostModel) (s : ServerSpec) : Identity := s.identity m.host

def verdict (m : HostModel) (c : HostChange) : Verdict :=
  match c.scope with
  | .host => .affecting []
  | .group group => .affecting ((m.servers.filter (·.group = group)).map m.identity)
  | .server name =>
    match m.server? name with
    | some s => .affecting [m.identity s]
    | none =>
      .refused ⟨"No server named " ++ name ++ " is configured on host " ++ m.host⟩

/-- Judges changes in order and keeps those that were not refused. -/
def apply (m : HostModel) (changes : List HostChange) : List Verdict × HostModel :=
  (changes.map m.verdict,
    { m with accepted := m.accepted ++ changes.filter (fun c => (m.verdict c).hostFault.isNone) })

end HostModel

end HostSteward
