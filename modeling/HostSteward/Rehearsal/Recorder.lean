import HostSteward.Supervisor

/-!
# A recording supervisor

For rehearsals: a supervisor that keeps every command it gets, launches nothing, and fails
where it is told to.
-/

namespace HostSteward.Rehearsal

inductive Verb where
  | add
  | start
  | stop
  | remove
deriving DecidableEq

structure Sabotage where
  process : String
  verb : Option Verb
deriving DecidableEq

structure Recorder where
  commands : List Command := []
  sabotage : List Sabotage := []
  inventoryFails : Bool := false
  registrations : UInt64 := 0

namespace Recorder

def fails (r : Recorder) (process : String) (verb : Verb) : Bool :=
  r.sabotage.any fun s => s.process = process && (s.verb = none || s.verb = some verb)

def fail (r : Recorder) (process : String) (verb : Option Verb) : Recorder :=
  { r with sabotage := r.sabotage ++ [⟨process, verb⟩] }

def recover (r : Recorder) (process : String) : Recorder :=
  { r with sabotage := r.sabotage.filter (·.process ≠ process) }

def record (r : Recorder) (c : Command) : Recorder := { r with commands := r.commands ++ [c] }

def reply (r : Recorder) (process : String) (verb : Verb) : Except Failure Unit :=
  if r.fails process verb then .error (.supervisor process "injected failure") else .ok ()

/-- Registrations are numbered from one; failed ones take no number. -/
def answer (r : Recorder) (c : Command) : Recorder × c.Answer :=
  let r := r.record c
  match c with
  | .add p _ =>
    match r.reply p .add with
    | .error e => (r, .error e)
    | .ok () => ({ r with registrations := r.registrations + 1 }, .ok (r.registrations + 1))
  | .start p => (r, r.reply p .start)
  | .stop p => (r, r.reply p .stop)
  | .remove p => (r, r.reply p .remove)
  | .requestInventory =>
    (r, if r.inventoryFails then .error (.supervisor "inventory" "supervisor unreachable") else .ok ())
  | .shutdown => (r, .ok ())

def commandsFor (r : Recorder) (process : String) : List Command :=
  r.commands.filter (·.process? = some process)

def shutdowns (r : Recorder) : Nat := (r.commands.filter (· = .shutdown)).length

end Recorder

end HostSteward.Rehearsal
