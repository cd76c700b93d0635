import HostSteward.Distribution.Dispatch
import HostSteward.Rehearsal.Clock

/-!
# Executors for rehearsals

An executor applies a batch of changes inside a server. The scripted one answers what it
was told to, or with success; the detached one has no way to reach a server; the fixed one
gives the same answer to every batch.
-/

namespace HostSteward.Rehearsal

inductive ExecutorKind where
  | scripted
  | detached
  | fixed (outcomes : List Outcome)

structure Executor where
  kind : ExecutorKind := .scripted
  /-- Outcomes in store for the servers of a name. -/
  scripts : OrderedMap String (List Outcome) := .empty
  unreachable : List String := []
  /-- How long a batch is held, in nanoseconds. -/
  delay : Nat := 0
  received : List Delivery := []
  inFlight : Nat := 0
  maxInFlight : Nat := 0

namespace Executor

def success (c : ServerChange) : Outcome :=
  .succeeded (.object [("operation", .string c.operation)])

def accept (x : Executor) (d : Delivery) : Executor :=
  match x.kind with
  | .scripted =>
    { x with
      received := x.received ++ [d]
      inFlight := x.inFlight + 1
      maxInFlight := max x.maxInFlight (x.inFlight + 1) }
  | _ => x

def scripted (script : List Outcome) (changes : List ServerChange) : List Outcome :=
  script.take changes.length ++ (changes.drop script.length).map success

def answer (x : Executor) (d : Delivery) : Executor × Except Failure (List Outcome) :=
  match x.kind with
  | .detached =>
    let fault : Fault := ⟨"server " ++ d.server.text ++ " has no management channel"⟩
    (x, .ok (d.changes.map fun _ => .failed fault))
  | .fixed outcomes => (x, .ok outcomes)
  | .scripted =>
    let x := { x with inFlight := x.inFlight - 1 }
    if x.unreachable.contains d.server.server then
      (x, .error (.system ("connection to " ++ d.server.text ++ " refused")))
    else
      let script := (x.scripts.get? d.server.server).getD []
      ({ x with scripts := x.scripts.insert d.server.server (script.drop d.changes.length) },
        .ok (scripted script d.changes))

def holds (x : Executor) : Nat :=
  match x.kind with
  | .scripted => waitFor x.delay
  | _ => 0

def receivedFor (x : Executor) (server : String) : List Delivery :=
  x.received.filter (·.server.server = server)

end Executor

end HostSteward.Rehearsal
