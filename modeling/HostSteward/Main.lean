import HostSteward.CommandLine.Response

/-!
# The command

Reads what the answer depends on, prints the answer and exits.
-/

namespace HostSteward.CommandLine

/-- The text of a file, if it can be read. -/
def textOf? (path : String) : IO (Option String) := do
  try
    return some (← IO.FS.readFile path)
  catch _ => return none

def readFiles : List String → IO (List (String × String))
  | [] => return []
  | path :: rest => do
    match ← textOf? path with
    | some text => return (path, text) :: (← readFiles rest)
    | none => readFiles rest

def variablesOf (text : String) : List (String × String) :=
  (text.toList.splitOn '\x00').filterMap fun entry =>
    match entry.dropWhile (· ≠ '=') with
    | [] => none
    | _ :: value =>
      some (String.ofList (entry.takeWhile (· ≠ '=')), String.ofList value)

/-- The memory of the machine, in bytes, by its own account. -/
def memoryOf (text : String) : Nat :=
  let words := (text.toList.splitOn '\n').filterMap fun line =>
    if "MemTotal:".toList.isPrefixOf line then
      some (String.ofList (line.filter Char.isDigit)) else none
  1024 * (words.head?.bind String.toNat?).getD 0

end HostSteward.CommandLine

open HostSteward HostSteward.CommandLine in
def main (arguments : List String) : IO UInt32 := do
  let path := match Arguments.read arguments with
    | .options given => (given.value? .config).getD defaultConfig
    | _ => defaultConfig
  let files ← readFiles (Settings.candidates path)
  let environment := variablesOf ((← textOf? "/proc/self/environ").getD "")
  let memory := memoryOf ((← textOf? "/proc/meminfo").getD "")
  match respond memory (FileTree.standard.withFiles files) environment arguments with
  | some response =>
    IO.print response.output
    IO.eprint response.errors
    return (response.exit.getD 134).toUInt32
  | none =>
    IO.eprintln "Error: this command does not run servers; use --dry-run or --validate-config"
    return 1
