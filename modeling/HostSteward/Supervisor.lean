import HostSteward.Failure

/-!
# Commands to the process supervisor

The host asks the supervisor to register, start, stop and forget processes. An accepted
registration is answered with its incarnation.
-/

namespace HostSteward

structure Launch where
  command : List String := []
  workingDir : Option String := none
  env : OrderedMap String String := .empty
deriving DecidableEq

def ServerSpec.launch (s : ServerSpec) : Launch := ⟨s.command, s.workingDir, s.env⟩

inductive Command where
  | add (process : String) (launch : Launch)
  | start (process : String)
  | stop (process : String)
  | remove (process : String)
  | requestInventory
  | shutdown
deriving DecidableEq

namespace Command

abbrev Answer : Command → Type
  | .add _ _ => Except Failure Incarnation
  | _ => Except Failure Unit

def process? : Command → Option String
  | .add p _ | .start p | .stop p | .remove p => some p
  | .requestInventory | .shutdown => none

end Command

end HostSteward
