import HostSteward.Rehearsal.Executor
import HostSteward.Rehearsal.Recorder
import HostSteward.Steward.Construction
import HostSteward.Steward.Reactions
import HostSteward.Steward.Requests

/-!
# Rehearsals in virtual time

A `Stage` sets a steward among recording parties and gives it a clock that moves only when
the program at hand waits. Beside that program there are tasks, which take turns in the order
in which they got ready and take no time: loops that read the bus, watches that wait for the
end of the steward, and what timers were set for. On its way the clock stops at every moment
at which a timer is due.
-/

namespace HostSteward

namespace Rehearsal

structure Domain where
  refuses : Bool := false
  registered : List String := []
  unregistered : Nat := 0

inductive Signal where
  | term
  | int
deriving DecidableEq

namespace Signal

def label : Signal → String
  | .term => "SIGTERM"
  | .int => "SIGINT"

def entry : Signal → Entry
  | .term => .info "Received SIGTERM signal"
  | .int => .info "Received SIGINT signal (Ctrl+C)"

end Signal

inductive Ending where
  | stopped
  | signal (s : Signal)
deriving DecidableEq

namespace Ending

def text : Ending → String
  | .stopped => "Stopped"
  | .signal s => "Signal(\"" ++ s.label ++ "\")"

end Ending

/-- A watch waits for a signal or for the steward to stop, and then stops the steward. Each
signal is listened for once. -/
structure Watch where
  listening : List Signal := [.term, .int]
  ending : Option Ending := none

/-- Something that goes on beside the program at hand. Loops and watches have numbers. -/
inductive Task where
  | restart (r : PendingRestart)
  | notice (n : Notice)
  | loop (i : Nat)
  | watch (i : Nat)
deriving DecidableEq

structure Timer where
  due : Nat
  task : Task

/-- Everything around the steward. Times are in nanoseconds. -/
structure Backstage where
  recorder : Recorder := {}
  domain : Domain := {}
  executor : Executor := {}
  now : Nat := 0
  timers : List Timer := []
  /-- The tasks that will have their turns next. -/
  ready : List Task := []
  /-- Loops that broke off and go on when nothing else is ready. -/
  resting : List Task := []
  /-- Restarts with smaller tickets have become tasks already. -/
  nextTicket : Nat := 0
  bus : Bus Nat
  /-- Whether each loop has ended. -/
  loops : List Bool := []
  watches : List Watch := []

structure Stage where
  steward : Steward
  backstage : Backstage

namespace Backstage

def register (b : Backstage) (host : String) : Backstage × Except Failure Unit :=
  if b.domain.refuses then
    (b, .error (.domainConnection ("registration of " ++ host ++ " refused")))
  else
    ({ b with domain := { b.domain with registered := b.domain.registered ++ [host] } }, .ok ())

def unregister (b : Backstage) : Backstage :=
  { b with domain := { b.domain with unregistered := b.domain.unregistered + 1 } }

/-- Answers every request at once; waiting takes no time. -/
def atOnce : Program.World Backstage := fun b host request =>
  match request with
  | .command c =>
    let (recorder, answer) := b.recorder.answer c
    ({ b with recorder }, host, answer)
  | .register name =>
    let (b, answer) := b.register name
    (b, host, answer)
  | .unregister => (b.unregister, host, .ok ())
  | .wait _ => (b, host, ())

def plan (b : Backstage) (task : Task) (delay : Nat) : Backstage :=
  if delay = 0 then { b with ready := b.ready ++ [task] }
  else { b with timers := b.timers ++ [⟨b.now + waitFor delay, task⟩] }

/-- Makes tasks of restarts that were decided on since the last time. -/
def adopt (b : Backstage) (host : Steward) : Backstage :=
  let fresh := host.restarts.filter (b.nextTicket ≤ ·.ticket)
  let b := fresh.foldl (fun b r => b.plan (.restart r) r.delay.nanoseconds) b
  { b with nextTicket := host.nextTicket }

end Backstage

namespace Stage

def perform {α : Type} (s : Stage) (o : Operation α) : Stage × α :=
  let (b, host, value) := (o s.steward).run Backstage.atOnce s.backstage
  (⟨host, b.adopt host⟩, value)

def carryOut (s : Stage) (o : Operation Unit) : Stage := (s.perform o).1

def make (steward : Steward) (bus : Bus Nat) (executor : Executor) : Stage :=
  ⟨steward, { bus, executor }⟩

def tracking (host : String) (servers : List ServerSpec) (phase : Phase) (executor : Executor) :
    Except Failure Stage :=
  let s := make (.make {} (some { host, servers }) false) { size := 1 } executor
  servers.foldlM (fun s spec =>
    let (s, tracked) := s.perform (Steward.track spec phase).run
    tracked.map fun _ => s) s

def tell (s : Stage) (e : Entry) : Stage :=
  { s with steward := { s.steward with journal := s.steward.journal ++ [e] } }

/-! ## Loops -/

def endLoop (s : Stage) (i : Nat) : Stage :=
  { s with backstage := { s.backstage with
      loops := s.backstage.loops.set i true
      bus := s.backstage.bus.unsubscribe i } }

def startLoop (s : Stage) : Stage :=
  let b := s.backstage
  { s with backstage := { b with
      bus := b.bus.subscribe b.loops.length .all
      loops := b.loops ++ [false] } }

/-- A loop has something to do if there is a notice for it, or when the steward has stopped. -/
def loopIsDue (s : Stage) (i : Nat) : Bool :=
  s.backstage.loops[i]? = some false && (s.steward.cancelled ||
    match s.backstage.bus.receive? i with
    | none | some (.nothing, _) => false
    | some _ => true)

/-- The number of notices that a loop takes before it gives way. -/
def turnLength : Nat := 128

/-- A loop takes notices until there are none or the steward has stopped. If it has taken as
many as it may, it breaks off to go on later. -/
def readBus (i : Nat) : Nat → Stage → Stage
  | 0, s => { s with backstage := { s.backstage with
      resting := s.backstage.resting ++ [.loop i] } }
  | left + 1, s =>
    if s.steward.cancelled then s.endLoop i
    else
      match s.backstage.bus.receive? i with
      | none => s
      | some (reception, bus) =>
        let s := { s with backstage := { s.backstage with bus } }
        match reception with
        | .notice n => readBus i left (s.carryOut (Steward.handle n))
        | .lagged count =>
          readBus i left <| (s.tell (.warning ("Receiver 'host-controller' lagged behind by " ++
            Numeral.text count ++ " events"))).tell
              (.warning ("Host controller missed " ++ Numeral.text count ++ " supervisor events"))
        | .nothing => s
        | .closed => s.endLoop i

/-! ## Watches -/

def setWatch (s : Stage) (i : Nat) (w : Watch) : Stage :=
  { s with backstage := { s.backstage with watches := s.backstage.watches.set i w } }

def endWatch (s : Stage) (i : Nat) (w : Watch) (ending : Ending) : Stage :=
  let s := (s.setWatch i { w with ending := some ending }).tell
    (.info ("Shutdown initiated: " ++ ending.text))
  (s.perform Steward.stop).1.tell (.info "Host controller shutdown complete")

def watchIsDue (s : Stage) (i : Nat) : Bool :=
  s.steward.cancelled && s.backstage.watches[i]?.any (·.ending.isNone)

def turnWatch (s : Stage) (i : Nat) : Stage :=
  match s.backstage.watches[i]? with
  | none => s
  | some w => if s.watchIsDue i then s.endWatch i w .stopped else s

def startWatch (s : Stage) : Stage :=
  let s := s.tell (.info ("Host controller " ++ s.steward.hostName ++ " is running"))
  { s with backstage := { s.backstage with watches := s.backstage.watches ++ [{}] } }

/-- Every watch that still listens for the signal notes it; those that are not over end. -/
def signal (s : Stage) (g : Signal) : Stage :=
  let heard := (List.range s.backstage.watches.length).filter fun i =>
    match s.backstage.watches[i]? with
    | some w => w.listening.contains g
    | none => false
  let s := heard.foldl (fun s _ => s.tell g.entry) s
  heard.foldl (fun s i => match s.backstage.watches[i]? with
    | none => s
    | some w =>
      let w := { w with listening := w.listening.filter (· ≠ g) }
      if w.ending.isNone then s.endWatch i w (.signal g) else s.setWatch i w) s

/-! ## Turns -/

def runTask (s : Stage) (t : Task) : Stage :=
  match t with
  | .restart r => s.carryOut (Steward.fire r)
  | .notice n => s.carryOut (Steward.handle n)
  | .loop i => readBus i turnLength s
  | .watch i => s.turnWatch i

def rouse (s : Stage) : Stage :=
  let b := s.backstage
  let loops := (List.range b.loops.length).filter s.loopIsDue
  let watches := (List.range b.watches.length).filter s.watchIsDue
  let due := loops.map Task.loop ++ watches.map Task.watch
  let fresh := due.filter fun t => !b.ready.contains t && !b.resting.contains t
  { s with backstage := { b with ready := b.ready ++ fresh } }

/-- Tasks have their turns, at most as many as are given. -/
def takeTurns : Nat → Stage → Stage
  | 0, s => s
  | fuel + 1, s =>
    let s := s.rouse
    let b := s.backstage
    match b.ready with
    | t :: ready => takeTurns fuel (runTask { s with backstage := { b with ready } } t)
    | [] =>
      if b.resting.isEmpty then s
      else takeTurns fuel { s with backstage := { b with ready := b.resting, resting := [] } }

/-- More turns than there can be at one moment: each loop has one for each notice, with a few
more to end, and what a task and a loop handle may lead to a restart each time. -/
def turnBound (b : Backstage) : Nat :=
  2 * (b.ready.length + b.watches.length + b.loops.length * (b.bus.retained.length + 4)) + 1

/-- Everything that takes no time is done. -/
def settle (s : Stage) : Stage := takeTurns (turnBound s.backstage) s

/-! ## Time -/

def arrive (s : Stage) (moment : Nat) : Stage :=
  let b := s.backstage
  let (due, timers) := b.timers.partition (·.due ≤ moment)
  { s with backstage := { b with
      now := max b.now moment
      timers
      ready := b.ready ++ due.map (·.task) } }

/-- Stops at every moment before a limit at which something is due. -/
def passTo (limit : Nat) : Nat → Stage → Stage
  | 0, s => s
  | fuel + 1, s =>
    match (s.backstage.timers.map (·.due)).min? with
    | none => s
    | some moment => if limit ≤ moment then s else passTo limit fuel (s.arrive moment).settle

/-- Lets the clock go on to a moment. What is due at that very moment has its turn later. A
notice may lead to one more timer, a restart leads to none, which bounds their number. -/
def advance (s : Stage) (moment : Nat) : Stage :=
  if moment ≤ s.backstage.now then s
  else
    let s := s.settle
    (passTo moment (2 * s.backstage.timers.length + 1) s).arrive moment

def pause (s : Stage) (time : Nat) : Stage := s.advance (s.backstage.now + waitFor time)

def schedule (s : Stage) (delay : Nat) (n : Notice) : Stage :=
  { s with backstage := s.backstage.plan (.notice n) delay }

/-- Waiting lets the clock go on; all other requests are answered at once. -/
def inTime : Program.World Backstage := fun b host request =>
  match request with
  | .wait d =>
    let s := advance ⟨host, b.adopt host⟩ (b.now + waitFor d.nanoseconds)
    (s.backstage, s.steward, ())
  | request => Backstage.atOnce b host request

def performInTime {α : Type} (s : Stage) (o : Operation α) : Stage × α :=
  let (b, host, value) := (o s.steward).run inTime s.backstage
  (⟨host, b.adopt host⟩, value)

/-! ## Publishing -/

def publish (s : Stage) (n : Notice) : Stage × Option Nat :=
  let s := match n.publicationEntry? with
    | none => s
    | some e => s.tell e
  match s.backstage.bus.publish? n with
  | none => (s, none)
  | some bus => ({ s with backstage := { s.backstage with bus } }, some bus.subscriberCount)

/-! ## Dispatching changes -/

/-- A dispatch under way: the time at which each batch in flight will be answered. -/
structure Traffic where
  dispatch : Dispatch
  answersAt : List (Nat × Nat) := []

namespace Traffic

def setBatch (t : Traffic) (i : Nat) (b : Batch) : Traffic :=
  { t with dispatch := { t.dispatch with batches := t.dispatch.batches.set i b } }

end Traffic

def answerBatch (s : Stage) (t : Traffic) (i : Nat) (b : Batch) (server : Server) :
    Stage × Traffic :=
  let (executor, answer) := s.backstage.executor.answer (b.delivery server)
  let s := { s with backstage := { s.backstage with executor } }
  let s := match b.answerEntry? server answer with
    | none => s
    | some e => s.tell e
  (s, { t.setBatch i (b.answer server answer) with
    answersAt := t.answersAt.filter (·.1 ≠ i) })

def deliverBatch (s : Stage) (t : Traffic) (i : Nat) (b : Batch) (server : Server) :
    Stage × Traffic :=
  if t.dispatch.isFree server.number then
    let executor := s.backstage.executor.accept (b.delivery server)
    let s := { s with backstage := { s.backstage with executor } }
    let b := { b with progress := .inFlight server }
    let t := t.setBatch i b
    if executor.holds = 0 then s.answerBatch t i b server
    else (s, { t with answersAt := t.answersAt ++ [(i, s.backstage.now + executor.holds)] })
  else (s, t)

/-- Takes the batch at a position as far as it gets at the present moment. -/
def turnBatch (p : Stage × Traffic) (i : Nat) : Stage × Traffic :=
  let (s, t) := p
  match t.dispatch.batches[i]? with
  | none => p
  | some b =>
    match b.progress with
    | .settled _ => p
    | .inFlight server =>
      if t.answersAt.any fun (j, moment) => j = i && moment ≤ s.backstage.now then
        s.answerBatch t i b server
      else p
    | .queued server => s.deliverBatch t i b server
    | .idle =>
      if t.dispatch.mayBegin i then
        let b := b.begin (s.steward.roster.get? b.address.process)
        let t := t.setBatch i b
        match b.progress with
        | .queued server => s.deliverBatch t i b server
        | _ => (s, t)
      else p

/-- Goes over the batches, then lets time pass to the next answer, until all are settled. -/
def runTraffic : Nat → Stage → Traffic → Stage × Dispatch
  | 0, s, t => (s, t.dispatch)
  | fuel + 1, s, t =>
    let (s, t) := (List.range t.dispatch.batches.length).foldl turnBatch (s, t)
    match (t.answersAt.map (·.2)).min? with
    | none => (s, t.dispatch)
    | some moment => runTraffic fuel (s.advance moment) t

def dispatch (s : Stage) (d : Dispatch) : Stage × Dispatch :=
  runTraffic (d.batches.length + 1) s { dispatch := d }

def distribute (s : Stage) (changes : List HostChange) (verdicts : List Verdict)
    (rollback : Bool) (concurrent : Bool) : Stage × List Report :=
  let plan := Plan.make changes verdicts
  let s := match Plan.warning? changes verdicts with
    | none => s
    | some e => s.tell e
  let (s, d) := s.dispatch (.ofPlan plan rollback concurrent)
  (s, plan.conclude d.answers)

/-- Applies changes to the host model and sends their parts to the servers. -/
def applyChanges (s : Stage) (changes : List HostChange) : Stage × List Report :=
  let (verdicts, model) := s.steward.model.apply changes
  let settings := s.steward.settings.changes
  let s := { s with steward := { s.steward with model } }
  s.distribute changes verdicts settings.allowOverallRollback settings.concurrentServers

end Stage

end Rehearsal

end HostSteward
