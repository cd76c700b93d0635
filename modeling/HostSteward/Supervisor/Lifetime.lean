import HostSteward.Shell.Evaluation
import HostSteward.Supervisor.Machine

/-!
# How long children run

A child that was launched sleeps for a time, runs a script that does, or ends at once, since
there is nothing for it to read.
-/

namespace HostSteward

namespace Machine

def scriptDepth : Nat := 20000

def sessionOf (m : Machine) (l : Launch) : Shell.Session :=
  let tree := match l.workingDir with
    | none => m.tree
    | some dir => (m.tree.enter dir).toOption.getD m.tree
  let inherited := [("PATH", String.intercalate ":" m.searchPath), ("HOME", "/root"),
    ("PWD", "/" ++ String.intercalate "/" tree.here)]
  let s : Shell.Session := { tree }
  (inherited ++ l.env.entries).foldl (fun s (name, value) =>
    s.put name { value, isExported := true }) s

def lifetime (m : Machine) (l : Launch) : Lifetime :=
  (Shell.shell scriptDepth (Shell.program scriptDepth l.command) (m.sessionOf l)).2.now

end Machine

end HostSteward
