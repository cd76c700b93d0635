import HostSteward.Steward

/-!
# Programs of the steward

A `Program` runs on the steward's state until it needs another party, hands out a request
and goes on with the answer. While it waits other programs may run, so it goes on with
whatever the state is by then. `Program.run` carries a program through against a world
that answers every request.
-/

namespace HostSteward

inductive Request where
  | command (c : Command)
  | register (host : String)
  | unregister
  | wait (d : Duration)
deriving DecidableEq

namespace Request

abbrev Answer : Request → Type
  | .command c => c.Answer
  | .register _ => Except Failure Unit
  | .unregister => Except Failure Unit
  | .wait _ => Unit

end Request

/-- A program that is done, or one that waits for an answer. -/
inductive Program (α : Type) where
  | done (host : Steward) (value : α)
  | ask (host : Steward) (request : Request) (resume : Steward → request.Answer → Program α)

namespace Program

variable {α β : Type}

def andThen (next : α → Steward → Program β) : Program α → Program β
  | .done host value => next value host
  | .ask host request resume => .ask host request fun host answer => andThen next (resume host answer)

/-- A world answers a request. Waiting may change the state of the steward as well. -/
abbrev World (σ : Type) := σ → Steward → (request : Request) → σ × Steward × request.Answer

def run {σ : Type} (world : World σ) (s : σ) : Program α → σ × Steward × α
  | .done host value => (s, host, value)
  | .ask host request resume =>
    let (s, host, answer) := world s host request
    run world s (resume host answer)

theorem run_andThen {σ : Type} (world : World σ) (s : σ) (p : Program α)
    (next : α → Steward → Program β) :
    run world s (p.andThen next) =
      let (s, host, value) := run world s p
      run world s (next value host) := by
  induction p generalizing s with
  | done host value => rfl
  | ask host request resume ih => exact ih _ _ _

end Program

def Operation (α : Type) : Type := Steward → Program α

namespace Operation

variable {α β : Type}

instance : Monad Operation where
  pure value := fun host => .done host value
  bind o next := fun host => (o host).andThen next

def current : Operation Steward := fun host => .done host host

def modify (f : Steward → Steward) : Operation Unit := fun host => .done (f host) ()

def ask (request : Request) : Operation request.Answer :=
  fun host => .ask host request fun host answer => .done host answer

def command (c : Command) : Operation c.Answer := ask (.command c)

def tell (e : Entry) : Operation Unit := modify fun host => { host with journal := host.journal ++ [e] }

def tellAny (e : Option Entry) : Operation Unit :=
  match e with
  | none => pure ()
  | some e => tell e

/-- Changes a tracked server, unless it is no longer tracked. -/
def updateServer (number : Nat) (f : Server → Server) : Operation Unit :=
  modify fun host => { host with roster := host.roster.update number f }

def setPhase (s : Server) (phase : Phase) : Operation Unit :=
  updateServer s.number (·.withPhase phase)

/-- Notes a phase that an operation does not expect; the operation goes on all the same. -/
def checkPhase (s : Server) (expected : List Phase) (operation : String) : Operation Unit := do
  tellAny (s.checkEntry? expected operation)
  updateServer s.number (·.check expected operation)

end Operation

/-- An operation that ends at its first failure. -/
abbrev Attempt := ExceptT Failure Operation

namespace Attempt

def register (s : Server) : Attempt Unit := do
  ExceptT.lift (Operation.setPhase s .booting)
  let incarnation ← ExceptT.mk (Operation.command (.add s.process s.spec.launch))
  ExceptT.lift (Operation.updateServer s.number (·.registered incarnation))

def start (s : Server) : Attempt Unit := ExceptT.mk (Operation.command (.start s.process))

def stop (s : Server) : Attempt Unit := do
  ExceptT.lift (Operation.setPhase s .stopping)
  ExceptT.mk (Operation.command (.stop s.process))

def remove (s : Server) : Attempt Unit := ExceptT.mk (Operation.command (.remove s.process))

end Attempt

end HostSteward
