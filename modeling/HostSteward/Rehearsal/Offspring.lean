import HostSteward.Rehearsal.Clock
import HostSteward.Supervisor.Children
import HostSteward.Supervisor.Lifetime
import HostSteward.Supervisor.Machine

/-!
# Rehearsals with child processes

Time passes only while somebody waits for an exit, and only then exits are noticed: those of
the children whose time has come by the end of the wait, and of those that were told to
stop. An exit that was noticed earlier is not waited for again.
-/

namespace HostSteward.Rehearsal

structure Offspring where
  supervisor : ChildSupervisor := {}
  machine : Machine := .standard
  now : Nat := 0
  /-- When each child comes to its end, counted from the beginning. -/
  ends : List Lifetime := []
  /-- Exits that were noticed and not yet waited for. -/
  exits : List (String × Incarnation) := []

namespace Offspring

/-- Carries out a command. Children that it launches begin now. -/
def obey (o : Offspring) (c : Command) : Offspring × c.Answer × List Notice :=
  let attempt := fun l => (o.machine.launch l).mapError LaunchFault.message
  let (supervisor, answer, notices) := o.supervisor.obey attempt c
  let launched := supervisor.children.drop o.supervisor.children.length
  let ends := launched.map fun c => (Lifetime.lasts o.now).add (o.machine.lifetime c.launch)
  ({ o with supervisor, ends := o.ends ++ ends }, answer, notices)

/-- When a child ends: now, if it was told to stop, and otherwise once its time is over.
Nothing may be known about that. -/
def endOf (o : Offspring) (i : Nat) : Lifetime :=
  match o.supervisor.children[i]? with
  | none => .endless
  | some c => if c.told then .lasts o.now else o.ends[i]?.getD .unknown

def isAlive (o : Offspring) (i : Nat) : Bool :=
  o.supervisor.children[i]?.any (·.stage = .alive)

/-- Sees off the living children that are due by a moment, to which the clock goes on. -/
def passTo (o : Offspring) (moment : Nat) (due : Nat → Bool) : Offspring :=
  let numbers := (List.range o.supervisor.children.length).filter fun i => o.isAlive i && due i
  { o with
    now := moment
    supervisor := numbers.foldl ChildSupervisor.seeOff o.supervisor
    exits := o.exits ++ numbers.filterMap fun i =>
      o.supervisor.children[i]?.map fun c => (c.process, c.incarnation) }

def isDue (o : Offspring) (moment i : Nat) : Bool := (o.endOf i).within (.lasts moment)

def patience : Nat := 5 * second

def child? (o : Offspring) (process : String) (incarnation : Incarnation) : Option Nat :=
  (List.range o.supervisor.children.length).find? fun i =>
    o.isAlive i && o.supervisor.children[i]?.any fun c =>
      c.process = process && c.incarnation = incarnation

/-- When the exit of a child is there for somebody who waits from now on. A program that
nothing is known about ends for whoever waits. -/
def exitTime? (o : Offspring) (i : Nat) : Option Nat :=
  match o.endOf i with
  | .lasts moment => if moment ≤ o.now + patience then some (max o.now moment) else none
  | .endless => none
  | .unknown => some o.now

def awaitExit (o : Offspring) (process : String) (incarnation : Incarnation) :
    Offspring × Bool :=
  let exit := (process, incarnation)
  if o.exits.contains exit then ({ o with exits := o.exits.erase exit }, true)
  else
    match (o.child? process incarnation).bind fun i => (o.exitTime? i).map (i, ·) with
    | some (i, moment) =>
      let o := o.passTo moment fun j => j = i || o.isDue moment j
      ({ o with exits := o.exits.erase exit }, true)
    | none => (o.passTo (o.now + patience) (o.isDue (o.now + patience)), false)

end Offspring

end HostSteward.Rehearsal
