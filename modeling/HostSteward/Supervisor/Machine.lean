import HostSteward.FileTree
import HostSteward.Supervisor

/-!
# The machine that programs are launched on

As far as launching is concerned a machine is its files and a search path. A launch enters
the working directory first; a program named without a slash is then looked for along the
search path, parts of which may be relative.
-/

namespace HostSteward

inductive LaunchFault where
  | path (fault : PathFault)
  | permissionDenied
  | argumentTooLong
  /-- A text that is handed over holds a NUL character. -/
  | nulCharacter
deriving DecidableEq

namespace LaunchFault

def message : LaunchFault → String
  | .path .notFound => "No such file or directory (os error 2)"
  | .path .notADirectory => "Not a directory (os error 20)"
  | .path .nameTooLong => "File name too long (os error 36)"
  | .permissionDenied => "Permission denied (os error 13)"
  | .argumentTooLong => "Argument list too long (os error 7)"
  | .nulCharacter => "nul byte found in provided data"

end LaunchFault

structure Machine where
  tree : FileTree
  /-- Where programs are looked for, unless a launch has a search path of its own. -/
  searchPath : List String

namespace Machine

def standard : Machine where
  tree := .standard
  searchPath := ["/usr/local/sbin", "/usr/local/bin", "/usr/sbin", "/usr/bin", "/sbin", "/bin"]

/-- All texts that a launch hands over to the program or to the machine. -/
def texts (l : Launch) : List String :=
  l.command ++ l.workingDir.toList ++ l.env.entries.map fun (name, value) => name ++ "=" ++ value

def longestArgument : Nat := 131071

def hasLongArgument (l : Launch) : Bool :=
  (l.command ++ l.env.entries.map fun (name, value) => name ++ "=" ++ value).any
    (longestArgument < ·.utf8ByteSize)

def run (t : FileTree) (l : Launch) (path : String) : Except LaunchFault Unit :=
  match t.find path with
  | .error fault => .error (.path fault)
  | .ok place =>
    if t.node? place ≠ some .program then .error .permissionDenied
    else if hasLongArgument l then .error .argumentTooLong
    else .ok ()

def searchPathOf (m : Machine) (l : Launch) : List String :=
  match l.env.get? "PATH" with
  | none => m.searchPath
  | some path => (path.toList.splitOn ':').map String.ofList

/-- A part of a search path that is too long for a path counts as empty, and the last part not
at all. -/
def directories (path : List String) : List String :=
  path.dropLast.map (fun dir => if FileTree.longestPath < dir.utf8ByteSize then "" else dir) ++
    path.getLast?.toList.filter (·.utf8ByteSize ≤ FileTree.longestPath)

/-- Runs the first program of a name along a search path. What is not there is passed over,
and so is what may not be run; that is the fault in the end, if there was any, and else the
fault of the last part of the path. -/
def search (t : FileTree) (l : Launch) (name : String) (fault : LaunchFault) :
    List String → Except LaunchFault Unit
  | [] => .error fault
  | dir :: rest =>
    match run t l (if dir.isEmpty then name else dir ++ "/" ++ name) with
    | .ok () => .ok ()
    | .error .permissionDenied => search t l name .permissionDenied rest
    | .error (.path .notFound) => search t l name (later (.path .notFound)) rest
    | .error (.path .notADirectory) => search t l name (later (.path .notADirectory)) rest
    | .error other => .error other
where
  later (next : LaunchFault) : LaunchFault := if fault = .permissionDenied then fault else next

def launch (m : Machine) (l : Launch) : Except LaunchFault Unit := do
  if (texts l).any (·.toList.contains '\x00') then throw .nulCharacter
  let t ← match l.workingDir with
    | none => pure m.tree
    | some dir => (m.tree.enter dir).mapError .path
  match l.command with
  | [] => throw (.path .notFound)
  | program :: _ =>
    if program.isEmpty then throw (.path .notFound)
    else if program.toList.contains '/' then run t l program
    else if FileTree.longestName < program.utf8ByteSize then throw (.path .nameTooLong)
    else search t l program (.path .notFound) (directories (m.searchPathOf l))

end Machine

end HostSteward
