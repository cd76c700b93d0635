import HostSteward.FileTree
import HostSteward.Lifetime
import HostSteward.Shell.Reader
import HostSteward.Shell.Signal

/-!
# Sessions of a shell

What a shell knows while it runs a script: the time, its parameters and files, what it does
about signals, and the processes it left in the background. Times are counted from the launch
of the shell. Signals that others will send are known in advance, with the moment of their
arrival. Texts go through channels, which stand under numbers: 0 is read from, 1 is written to.
-/

namespace HostSteward.Shell

/-- A variable; it may be marked before it has a value. -/
structure Setting where
  value : Option String
  isExported : Bool := false
  isFixed : Bool := false
deriving DecidableEq

structure Job where
  process : Nat
  number : Nat
  ends : Lifetime
  status : Nat := 0
  /-- The shell that started it may wait for it. -/
  isOwn : Bool := true
  /-- Its end was noticed. -/
  isGone : Bool := false
  /-- Somebody has asked how it went, so its number can be used again. -/
  isSettled : Bool := false
deriving DecidableEq

/-- A signal to a shell, and the background process that sends it. -/
structure Arrival where
  moment : Lifetime
  signal : Nat
  target : Nat
  sender : Option Nat := none
deriving DecidableEq

/-- A text that is read from its beginning and written at its end: pieces, each with the moment
since when it is there, and the moment after which there will be no more. -/
structure Stream where
  texts : List (Lifetime × List Char) := []
  ends : Lifetime := .lasts 0
deriving DecidableEq

inductive Channel where
  /-- There is nothing to be read, and what is written is lost. -/
  | nowhere
  | stream (number : Nat)
  /-- The end of a file. -/
  | file (place : Place)
deriving DecidableEq

structure Session where
  tree : FileTree
  now : Lifetime := .lasts 0
  name : String := "sh"
  arguments : List String := []
  settings : List (String × Setting) := []
  functions : List (String × Command) := []
  /-- How the last command went; zero means well. -/
  status : Nat := 0
  /-- How the last commands went whose output was asked for, since the last simple command. -/
  outputStatus : Option Nat := none
  options : List Char := []
  /-- What is done about signals; an empty text stands for nothing. -/
  traps : List (Nat × String) := []
  process : Nat := 1000
  /-- The processes of the scripts that run this one. -/
  ancestors : List Nat := []
  /-- The script runs in its process and not beside it. -/
  isMain : Bool := true
  arrivals : List Arrival := []
  /-- Signals that came and were not yet reacted to. -/
  caught : List Nat := []
  jobs : List Job := []
  lastJob : Option Nat := none
  nextProcess : Nat := 1001
  channels : List (Nat × Channel) := [(0, .nowhere), (1, .nowhere), (2, .nowhere)]
  streams : List Stream := []
  /-- The settings that the running functions restore at their ends. -/
  locals : List (List (String × Option Setting)) := []
  /-- The number of loops around the running command. -/
  loops : Nat := 0
  /-- The number of functions that are being run inside one another. -/
  depth : Nat := 0

/-- Why a command does not come to its ordinary end. -/
inductive Halt where
  /-- The shell is left, after what it does at its end. -/
  | exits (status : Nat)
  /-- Another program takes its place. -/
  | gone (status : Nat)
  | returns (status : Nat)
  | breaks (loops : Nat)
  | continues (loops : Nat)
  /-- A command was used in a wrong way. -/
  | fails
  | dies
  /-- Time does not go on, or nothing is known about it. -/
  | stuck
deriving DecidableEq

abbrev Run := ExceptT Halt (StateM Session)

namespace Session

/-! ## Parameters -/

def text? (s : Session) (name : String) : Option String :=
  (s.settings.lookup name).bind (·.value)

def put (s : Session) (name : String) (v : Setting) : Session :=
  { s with settings := (name, v) :: s.settings.filter (·.1 ≠ name) }

def restore (s : Session) (name : String) (v : Option Setting) : Session :=
  match v with
  | some v => s.put name v
  | none => { s with settings := s.settings.filter (·.1 ≠ name) }

/-- What programs are told. -/
def environment (s : Session) : List (String × String) :=
  s.settings.filterMap fun (name, v) => if v.isExported then v.value.map (name, ·) else none

def separators (s : Session) : List Char :=
  match s.text? "IFS" with
  | some text => text.toList
  | none => [' ', '\t', '\n']

def parameter? (s : Session) (name : String) : Option String :=
  match name with
  | "#" => some (Numeral.text s.arguments.length)
  | "?" => some (Numeral.text s.status)
  | "$" => some (Numeral.text s.process)
  | "!" => s.lastJob.map Numeral.text
  | "-" => some (String.ofList s.options)
  | "0" => some s.name
  | name =>
    match Numeral.read? name.toList with
    | some n => s.arguments[n - 1]?
    | none => s.text? name

/-! ## Files -/

def searchPath (s : Session) : List String :=
  match s.text? "PATH" with
  | some path => (path.toList.splitOn ':').map String.ofList
  | none => [""]

def node? (s : Session) (path : String) : Option FileNode :=
  match s.tree.find path with
  | .ok place => s.tree.node? place
  | .error _ => none

inductive Found where
  | program (name : String)
  /-- A file that cannot be run. -/
  | barred
  | missing
deriving DecidableEq

def foundAt (s : Session) (path : String) : Found :=
  match s.tree.find path with
  | .error _ => .missing
  | .ok place =>
    match s.tree.node? place with
    | some .program => .program (place.getLastD "")
    | some (.file _) | some (.directory _) => .barred
    | none => .missing

/-- Looks for a program. On the search path directories do not count. -/
def find (s : Session) (command : String) : Found :=
  if command.toList.contains '/' then s.foundAt command
  else
    let found := s.searchPath.filterMap fun dir =>
      let path := if dir.isEmpty then command else dir ++ "/" ++ command
      if (s.node? path).any FileNode.isDirectory then none
      else match s.foundAt path with
        | .missing => none
        | found => some found
    (found.find? (· ≠ .barred)).getD (if found.isEmpty then .missing else .barred)

/-- The place of a file that may not be there yet. -/
def placeFor? (s : Session) (path : String) : Option Place := do
  let t := s.tree
  let place ← ((FileTree.parts path).dropLast.foldlM t.step (t.start path)).toOption
  let name := (FileTree.parts path).getLastD ""
  if name = "" ∨ name = "." ∨ name = ".." ∨ FileTree.longestName < name.utf8ByteSize then none
  else
    match t.node? (t.inside place name), t.node? place with
    | some (.directory _), _ => none
    | some _, _ | none, some (.directory false) => some (t.inside place name)
    | none, _ => none

/-! ## Channels and processes -/

def stream (s : Session) (number : Nat) : Stream := (s.streams[number]?).getD {}

def setStream (s : Session) (number : Nat) (st : Stream) : Session :=
  { s with streams := s.streams.set number st }

def addStream (s : Session) (st : Stream) : Session × Nat :=
  ({ s with streams := s.streams ++ [st] }, s.streams.length)

def connect (s : Session) (number : Nat) (c : Option Channel) : Session :=
  { s with channels := c.toList.map (number, ·) ++ s.channels.filter (·.1 ≠ number) }

/-- The number of the next job, and the jobs without the one that had it. -/
def nextJob (s : Session) : Nat × List Job :=
  let isTaken (n : Nat) : Bool := s.jobs.any fun j => j.isOwn && j.number = n && !j.isSettled
  let number := ((List.range (s.jobs.length + 1)).map (· + 1)).find? fun n => !isTaken n
  let number := number.getD (s.jobs.length + 1)
  (number, s.jobs.filter fun j => !j.isOwn || j.number ≠ number)

/-- The job that a word after a percent sign means. -/
def job? (s : Session) (word : List Char) : Option Job :=
  let own := s.jobs.filter (·.isOwn)
  match word with
  | [] | ['%'] | ['+'] => own.getLast?
  | ['-'] => own.dropLast.getLast?
  | number => (Numeral.read? number).bind fun n => own.find? (·.number = n)

def arrivalsBy (s : Session) (moment : Lifetime) : List Arrival :=
  let here := s.arrivals.filter fun a => a.target = s.process && a.moment.within moment
  here.mergeSort fun a b => a.moment.within b.moment

end Session

/-! ## Time and signals -/

namespace Run

def session : Run Session := get

def update (f : Session → Session) : Run Unit := modify f

def halt {α : Type} (h : Halt) : Run α := throw h

def lose {α : Type} : Run α := do
  update fun s => { s with now := .unknown }
  halt .stuck

/-- Handles the signals that have come by a moment in the order of their arrival: they are
harmless, caught, or the end. A process that is stopped is not followed. -/
def receive (moment : Lifetime) : List Arrival → Run Unit
  | [] => return ()
  | a :: rest => do
    if a.moment.within moment then
      update fun s => { s with arrivals := s.arrivals.erase a }
      let trap ← if Signal.isFinal a.signal then pure none
        else pure ((← session).traps.lookup a.signal)
      match trap with
      | some "" => pure ()
      | some _ => update fun s => { s with caught := s.caught ++ [a.signal] }
      | none =>
        if a.signal = Signal.stop then lose
        if !Signal.isHarmless a.signal then
          update fun s => { s with now := a.moment.both s.now }
          halt .dies
    receive moment rest

/-- Time goes on to a moment, unless it is a moment before. -/
def reach (moment : Lifetime) : Run Unit := do
  let s ← session
  let moment := s.now.both moment
  if s.isMain then receive moment (s.arrivalsBy moment)
  let moment := (← session).now.both moment
  update fun s => { s with now := moment }
  if !moment.isOver then halt .stuck

def spend (time : Lifetime) : Run Unit := do reach ((← session).now.add time)

def endless {α : Type} : Run α := do
  reach .endless
  halt .stuck

/-- Waits for a moment; a signal that is caught comes in between. Answers that signal. -/
def awaitMoment (moment : Lifetime) : Run (Option Nat) := do
  let s ← session
  let early := (s.arrivalsBy (s.now.both moment)).find? fun a =>
    !Signal.isFinal a.signal && (s.traps.lookup a.signal).any (!·.isEmpty)
  match s.isMain, early with
  | true, some a =>
    reach a.moment
    return some a.signal
  | _, _ =>
    reach moment
    return none

def signalShell (target signal : Nat) : Run Unit := do
  update fun s => { s with
    arrivals := s.arrivals ++ [{ moment := s.now, signal, target }] }
  reach (← session).now

/-- Sends a signal to a process in the background, which ends if it still runs. What it would
have sent later does not come. -/
def signalJob (job : Job) (signal : Nat) : Run Unit := do
  let now := (← session).now
  if !(job.ends.within now || Signal.isHarmless signal || Signal.isFromTerminal signal) then
    if signal = Signal.stop then lose
    update fun s => { s with
      jobs := s.jobs.map fun j =>
        if j.process = job.process then { j with ends := now, status := 128 + signal } else j
      arrivals := s.arrivals.filter fun a =>
        a.sender ≠ some job.process || a.moment.within now }

/-- The shell notices what ended in the background before. -/
def notice : Run Unit :=
  update fun s => { s with
    jobs := s.jobs.map fun j =>
      if j.ends.within s.now && j.ends ≠ s.now then { j with isGone := true } else j }

/-- A process has ended that the shell waited for. -/
def noticeEnd : Run Unit := do
  notice
  let s ← session
  if s.isMain && (s.traps.lookup Signal.childEnded).any (!·.isEmpty) then
    update fun s => { s with caught := s.caught ++ [Signal.childEnded] }

/-! ## Texts -/

def write (cs : List Char) : Run Nat := do
  let s ← session
  match s.channels.lookup 1 with
  | none => return if cs.isEmpty then 0 else 1
  | some .nowhere => return 0
  | some (.stream number) =>
    let st := s.stream number
    update (·.setStream number { st with texts := st.texts ++ [(s.now, cs)] })
    return 0
  | some (.file place) =>
    let old := match s.tree.node? place with
      | some (.file text) => text
      | _ => ""
    update fun s => { s with tree := s.tree.add place (.file (old ++ String.ofList cs)) }
    return 0

/-- The next line of some texts, the moment it is there, whether it is a whole one, and what
is left. -/
def firstLine (ends : Lifetime) (acc : List Char) :
    List (Lifetime × List Char) → List Char × Lifetime × Bool × List (Lifetime × List Char)
  | [] => (acc, ends, false, [])
  | (moment, cs) :: rest =>
    match cs.dropWhile (· ≠ '\n') with
    | [] => firstLine ends (acc ++ cs) rest
    | _ :: after => (acc ++ cs.takeWhile (· ≠ '\n'), moment, true, (moment, after) :: rest)

def readLine : Run (List Char × Bool) := do
  let s ← session
  match s.channels.lookup 0 with
  | some (.stream number) =>
    let st := s.stream number
    let (line, moment, isWhole, texts) := firstLine st.ends [] st.texts
    update (·.setStream number { st with texts })
    reach moment
    return (line, isWhole)
  | _ => return ([], false)

def readAll : Run (Option (List Char)) := do
  let s ← session
  match s.channels.lookup 0 with
  | some (.stream number) =>
    let st := s.stream number
    update (·.setStream number { st with texts := [] })
    reach st.ends
    return some (st.texts.flatMap (·.2))
  | some .nowhere => return some []
  | none | some (.file _) => return none

def assign (name value : String) : Run Unit := do
  let s ← session
  let old := s.settings.lookup name
  if old.any (·.isFixed) then halt .fails
  let isExported := old.any (·.isExported) || s.options.contains 'a'
  update fun s => s.put name { value := some value, isExported }

end Run

end HostSteward.Shell
