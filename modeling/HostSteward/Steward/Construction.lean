import HostSteward.Steward

/-!
# Construction

A steward is made from settings that pass every check and needs a supervisor. Unless it is
given a bus it makes one of the configured capacity, and some of them cannot be had.
-/

namespace HostSteward.Steward

structure Parts where
  settings : Settings := {}
  model : Option HostModel := none
  hasSupervisor : Bool := true
  inDomain : Bool := false
  bus : Option (Bus Nat) := none

inductive Construction where
  | made (host : Steward) (bus : Bus Nat)
  | refused (cause : Failure)
  | noBus (shortage : Bus.Shortage)

/-- The settings are checked first, then the supervisor; the bus comes last. -/
def construct (memory : Nat) (parts : Parts) : Construction :=
  match parts.settings.problem? with
  | some problem => .refused (.settings problem)
  | none =>
    if parts.hasSupervisor then
      let host := make parts.settings parts.model parts.inDomain
      match parts.bus with
      | some bus => .made host bus
      | none =>
        match Bus.make Nat memory parts.settings.system.busCapacity with
        | .ok bus => .made host bus
        | .error shortage => .noBus shortage
    else .refused .noSupervisor

end HostSteward.Steward
