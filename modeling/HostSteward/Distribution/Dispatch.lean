import HostSteward.Distribution.Plan
import HostSteward.Server

/-!
# Dispatching changes to servers

Changes go to a server in batches. A batch looks up its server, waits until no other batch
of that server is under way, is delivered as a whole and is settled by the answer. A list
of batches is dispatched one after another or all at once.
-/

namespace HostSteward

structure Delivery where
  server : Identity
  changes : List ServerChange
  rollback : Bool
deriving DecidableEq

inductive Address where
  | identity (id : Identity)
  | name (server : String)
deriving DecidableEq

namespace Address

def process : Address → String
  | .identity id => id.processName
  | .name server => processName server

def fault : Address → Fault
  | .identity id => .unknownServer id
  | .name server => .noServerNamed server

end Address

inductive Progress where
  | idle
  | queued (server : Server)
  | inFlight (server : Server)
  | settled (outcomes : List Outcome)
deriving DecidableEq

structure Batch where
  address : Address
  changes : List ServerChange
  rollback : Bool
  progress : Progress := .idle
deriving DecidableEq

namespace Batch

def outcomes? (b : Batch) : Option (List Outcome) :=
  match b.progress with
  | .settled outcomes => some outcomes
  | _ => none

def isSettled (b : Batch) : Bool := b.outcomes?.isSome

def settle (b : Batch) (outcomes : List Outcome) : Batch := { b with progress := .settled outcomes }

def failAll (b : Batch) (fault : Fault) : Batch :=
  b.settle (b.changes.map fun _ => .failed fault)

/-- A batch waits for its server. One for a server that is not tracked fails at once, and an
empty one has nothing to deliver. -/
def begin (b : Batch) (server : Option Server) : Batch :=
  match server with
  | none => b.failAll b.address.fault
  | some server => if b.changes.isEmpty then b.settle [] else { b with progress := .queued server }

def isFor (number : Nat) (b : Batch) : Bool :=
  match b.progress with
  | .inFlight server => server.number = number
  | _ => false

def delivery (b : Batch) (server : Server) : Delivery := ⟨server.identity, b.changes, b.rollback⟩

/-- There is one outcome for each change: missing ones are filled up with a fault, surplus
ones are dropped. -/
def fit (server : Server) (count : Nat) (outcomes : List Outcome) : List Outcome :=
  let fault : Fault := ⟨"server " ++ server.identity.text ++ " returned no response for this update"⟩
  outcomes.take count ++ List.replicate (count - outcomes.length) (.failed fault)

def answer (b : Batch) (server : Server) : Except Failure (List Outcome) → Batch
  | .ok outcomes => b.settle (fit server b.changes.length outcomes)
  | .error e => b.failAll ⟨e.message⟩

def answerEntry? (b : Batch) (server : Server) : Except Failure (List Outcome) → Option Entry
  | .ok outcomes =>
    if outcomes.length = b.changes.length then none
    else some (.warning ("Server " ++ server.identity.text ++ " answered " ++
      Numeral.text b.changes.length ++ " updates with " ++ Numeral.text outcomes.length ++
      " responses"))
  | .error e => some (.warning
      ("Failed to apply updates to server " ++ server.identity.text ++ ": " ++ e.message))

end Batch

structure Dispatch where
  batches : List Batch
  concurrent : Bool

namespace Dispatch

/-- The batches of a plan, one for each server in ascending order. -/
def ofPlan (p : Plan) (rollback concurrent : Bool) : Dispatch where
  batches := p.shares.entries.map fun (id, share) =>
    { address := .identity id, changes := share.map (·.2), rollback }
  concurrent := concurrent

def single (address : Address) (changes : List ServerChange) (rollback : Bool) : Dispatch where
  batches := [{ address, changes, rollback }]
  concurrent := false

/-- A batch may begin when it is its turn: at once if all are dispatched together, else after
the ones before it. -/
def mayBegin (d : Dispatch) (i : Nat) : Bool :=
  d.concurrent || (d.batches.take i).all (·.isSettled)

def isFree (d : Dispatch) (number : Nat) : Bool := !d.batches.any (Batch.isFor number)

def outcomes (d : Dispatch) : List (List Outcome) := d.batches.map fun b => b.outcomes?.getD []

def answers (d : Dispatch) : List (Identity × List Outcome) :=
  d.batches.filterMap fun b => match b.address with
    | .identity id => some (id, b.outcomes?.getD [])
    | .name _ => none

end Dispatch

end HostSteward
