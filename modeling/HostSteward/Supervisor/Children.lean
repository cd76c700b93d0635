import HostSteward.Supervisor

/-!
# Servers as child processes

A supervisor that runs the servers as children of the host itself. A registered process is
launched by the first start command; the next one acknowledges that it has booted. Every
child is watched: when it has ended, its watcher clears the process, then publishes the exit.
The steps of children and watchers come at any time between commands.
-/

namespace HostSteward

inductive ChildStage where
  | alive
  | ended
  /-- Its watcher has cleared the process. -/
  | cleared
  /-- Its watcher has published the exit. -/
  | reported
deriving DecidableEq

structure Child where
  process : String
  incarnation : Incarnation
  launch : Launch
  /-- The child was told to stop. -/
  told : Bool := false
  stage : ChildStage := .alive
deriving DecidableEq

structure Running where
  child : Nat
  booted : Bool := false
deriving DecidableEq

structure Registration where
  incarnation : Incarnation
  launch : Launch
  running : Option Running := none
deriving DecidableEq

/-- Children are numbered in the order of their launch. -/
structure ChildSupervisor where
  processes : OrderedMap String Registration := .empty
  nextIncarnation : Incarnation := 1
  children : List Child := []
deriving DecidableEq

structure Response (α : Type) where
  supervisor : ChildSupervisor
  answer : Except Failure α
  notices : List Notice := []

namespace ChildSupervisor

def runningCount (s : ChildSupervisor) : Nat :=
  (s.processes.values.filter (·.running.isSome)).length

def updateChild (s : ChildSupervisor) (i : Nat) (f : Child → Child) : ChildSupervisor :=
  { s with children := s.children.modify i f }

def tellToStop (s : ChildSupervisor) (r : Running) : ChildSupervisor :=
  s.updateChild r.child fun c => { c with told := true }

def setRunning (s : ChildSupervisor) (process : String) (r : Registration)
    (running : Option Running) : ChildSupervisor :=
  { s with processes := s.processes.insert process { r with running } }

/-! ## Commands -/

def add (s : ChildSupervisor) (process : String) (launch : Launch) : Response Incarnation :=
  if s.processes.contains process then
    { supervisor := s, answer := .error (.alreadyRegistered process) }
  else
    let r : Registration := { incarnation := s.nextIncarnation, launch }
    { supervisor := { s with
        processes := s.processes.insert process r
        nextIncarnation := s.nextIncarnation + 1 }
      answer := .ok r.incarnation
      notices := [.processAdded process] }

def spawn (s : ChildSupervisor) (process : String) (r : Registration) : ChildSupervisor :=
  let child : Child := { process, incarnation := r.incarnation, launch := r.launch }
  { s with children := s.children ++ [child] }.setRunning process r
    (some { child := s.children.length })

/-- The machine's part in a launch is `attempt`, which may succeed, or fail and say why. -/
def start (attempt : Launch → Except String Unit) (s : ChildSupervisor)
    (process : String) : Response Unit :=
  match s.processes.get? process with
  | none => { supervisor := s, answer := .error (.notRegistered process) }
  | some r =>
    match r.running with
    | some running =>
      if running.booted then { supervisor := s, answer := .ok () }
      else
        { supervisor := s.setRunning process r (some { running with booted := true })
          answer := .ok ()
          notices := [.serverStarted process] }
    | none =>
      if r.launch.command.isEmpty then
        { supervisor := s, answer := .error (.noCommand process) }
      else
        match attempt r.launch with
        | .error message => { supervisor := s, answer := .error (.supervisor process message) }
        | .ok () =>
          { supervisor := s.spawn process r
            answer := .ok ()
            notices := [.processStarted process, .serverAvailable process] }

def stop (s : ChildSupervisor) (process : String) : Response Unit :=
  { supervisor := ((s.processes.get? process).bind (·.running)).elim s s.tellToStop
    answer := .ok () }

/-- A process that is removed is told to stop as well. -/
def remove (s : ChildSupervisor) (process : String) : Response Unit :=
  if s.processes.contains process then
    { supervisor := { (s.stop process).supervisor with processes := s.processes.erase process }
      answer := .ok ()
      notices := [.processRemoved process] }
  else { supervisor := s, answer := .ok () }

def inventory (s : ChildSupervisor) : List ProcessInfo :=
  s.processes.entries.map fun (process, r) => ⟨process, r.running.isSome⟩

def shutdown (s : ChildSupervisor) : Response Unit :=
  { supervisor := { s.processes.keys.foldl (fun s p => (s.stop p).supervisor) s with
      processes := .empty }
    answer := .ok ()
    notices := [.connectionFinished] }

def obey (attempt : Launch → Except String Unit) (s : ChildSupervisor) :
    (c : Command) → ChildSupervisor × c.Answer × List Notice
  | .add p launch => let r := s.add p launch; (r.supervisor, r.answer, r.notices)
  | .start p => let r := s.start attempt p; (r.supervisor, r.answer, r.notices)
  | .stop p => let r := s.stop p; (r.supervisor, r.answer, r.notices)
  | .remove p => let r := s.remove p; (r.supervisor, r.answer, r.notices)
  | .requestInventory => (s, .ok (), [.inventory s.inventory])
  | .shutdown => let r := s.shutdown; (r.supervisor, r.answer, r.notices)

/-! ## Children and their watchers -/

def childEnds (s : ChildSupervisor) (i : Nat) : ChildSupervisor :=
  s.updateChild i fun c => if c.stage = .alive then { c with stage := .ended } else c

/-- The watcher of an ended child clears its process, if that is still of the same
incarnation: the name may have been removed and registered again meanwhile. -/
def clearProcess (s : ChildSupervisor) (i : Nat) : ChildSupervisor :=
  match s.children[i]? with
  | none => s
  | some c =>
    if c.stage = .ended then
      let s := s.updateChild i fun c => { c with stage := .cleared }
      match s.processes.get? c.process with
      | none => s
      | some r => if r.incarnation = c.incarnation then s.setRunning c.process r none else s
    else s

def reportExit (s : ChildSupervisor) (i : Nat) (uptime : Duration) :
    ChildSupervisor × List Notice :=
  match s.children[i]? with
  | none => (s, [])
  | some c =>
    if c.stage = .cleared then
      (s.updateChild i fun c => { c with stage := .reported },
        [.processStopped c.process c.incarnation uptime])
    else (s, [])

def seeOff (s : ChildSupervisor) (i : Nat) : ChildSupervisor :=
  (((s.childEnds i).clearProcess i).reportExit i (.ofMilliseconds 0)).1

end ChildSupervisor

end HostSteward
