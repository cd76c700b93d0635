import HostSteward.Shell.Condition

/-!
# Commands of the shell itself

The commands that a shell carries out without running other commands. Each answers how it
went; zero means well. Those that change the shell itself end it if they are used in a wrong
way. Of some commands, and of some ways to use the others, nothing is known here.
-/

namespace HostSteward.Shell

open Run

/-- Commands that change the shell itself. -/
def specialBuiltins : List String :=
  [".", ":", "break", "continue", "eval", "exec", "exit", "export", "readonly", "return", "set",
    "shift", "times", "trap", "unset"]

def ordinaryBuiltins : List String :=
  ["[", "alias", "bg", "cd", "chdir", "command", "echo", "false", "fg", "getopts", "hash",
    "jobs", "kill", "local", "printf", "pwd", "read", "test", "true", "type", "ulimit", "umask",
    "unalias", "wait"]

namespace Builtin

def isName (text : String) : Bool := Reader.isName text.toList

/-- The name and the value of an assignment, or just a name. -/
def definition (text : String) : String × Option String :=
  match text.toList.dropWhile (· ≠ '=') with
  | [] => (text, none)
  | _ :: value => (String.ofList (text.toList.takeWhile (· ≠ '=')), some (String.ofList value))

def operands (arguments : List String) : Run (List String) := do
  match arguments with
  | [] => return []
  | first :: rest =>
    match first.toList with
    | ['-', '-'] => return rest
    | '-' :: _ :: _ => halt .fails
    | _ => return arguments

/-! ## Parameters -/

def mark (f : Setting → Setting) (arguments : List String) : Run Nat := do
  for text in arguments.filter (· ≠ "-p") do
    let (name, value) := definition text
    if !isName name then halt .fails
    match value with
    | some value => assign name value
    | none => pure ()
    update fun s => s.put name (f ((s.settings.lookup name).getD { value := none }))
  return 0

def unset (arguments : List String) : Run Nat := do
  for name in arguments.filter fun a => a ≠ "-f" && a ≠ "-v" do
    if arguments.head? = some "-f" then
      update fun s => { s with functions := s.functions.filter (·.1 ≠ name) }
    else
      if !isName name || ((← session).settings.lookup name).any (·.isFixed) then halt .fails
      update (·.restore name none)
  return 0

def optionLetters : List Char := ['a', 'e', 'f', 'n', 'u', 'v', 'x']

def optionNames : List (String × Char) :=
  [("allexport", 'a'), ("errexit", 'e'), ("noglob", 'f'), ("noexec", 'n'), ("nounset", 'u'),
    ("verbose", 'v'), ("xtrace", 'x')]

def switch (options : List Char) (isOn : Bool) (letter : Char) : List Char :=
  let others := options.filter (· ≠ letter)
  if isOn then others ++ [letter] else others

/-- Options at the beginning of arguments, and the arguments after them. What comes after two
dashes is no option. -/
def options? (letters options : List Char) :
    List String → Option (List Char × Option (List String))
  | [] => some (options, none)
  | argument :: rest =>
    match argument.toList, rest with
    | ['-', '-'], rest | ['-'], rest => some (options, some rest)
    | ['-', 'o'], name :: rest => do
      options? letters (switch options true (← optionNames.lookup name)) rest
    | ['+', 'o'], name :: rest => do
      options? letters (switch options false (← optionNames.lookup name)) rest
    | sign :: cs, rest =>
      if sign ≠ '-' ∧ sign ≠ '+' then some (options, some (argument :: rest))
      else if cs.all (letters.contains ·) then
        options? letters (cs.foldl (fun os l => switch os (sign = '-') l) options) rest
      else none
    | [], rest => some (options, some (argument :: rest))

def set (words : List String) : Run Nat := do
  match options? optionLetters (← session).options words with
  | none => lose
  | some (options, arguments) =>
    update fun s => { s with options, arguments := arguments.getD s.arguments }
    return 0

def shift (words : List String) : Run Nat := do
  let s ← session
  match (words.head?.map (Numeral.read? ·.toList)).getD (some 1) with
  | some n =>
    if s.arguments.length < n then halt .fails
    update fun s => { s with arguments := s.arguments.drop n }
    return 0
  | none => halt .fails

/-- Declares variables of the running function, without which the shell ends. -/
def declare (arguments : List String) : Run Nat := do
  if (← session).locals.isEmpty then halt (.exits 2)
  for text in arguments do
    let (name, value) := definition text
    if !isName name then halt (.exits 2)
    update fun s => { s with
      locals := ((name, s.settings.lookup name) :: s.locals.headD []) :: s.locals.drop 1 }
    match value with
    | some value => assign name value
    | none => pure ()
  return 0

/-- The fields of a line for a number of variables; the last one gets the rest. -/
def share (separators : List Char) : Nat → List Char → List (List Char)
  | 0, _ => []
  | n + 1, cs =>
    let isBlank (c : Char) : Bool := separators.contains c && [' ', '\t', '\n'].contains c
    let cs := cs.dropWhile isBlank
    if n = 0 then [(cs.reverse.dropWhile isBlank).reverse]
    else
      let rest := (cs.dropWhile (!separators.contains ·)).dropWhile isBlank
      let rest := match rest with
        | c :: after => if separators.contains c then after else rest
        | [] => []
      cs.takeWhile (!separators.contains ·) :: share separators n rest

def read (arguments : List String) : Run Nat := do
  let names := arguments.filter (· ≠ "-r")
  if names.any (·.startsWith "-") then lose
  if names.isEmpty || !names.all isName then halt .fails
  let (line, isWhole) ← readLine
  if line.contains '\\' then lose
  for (name, value) in names.zip (share (← session).separators names.length line) do
    assign name (String.ofList value)
  return if isWhole then 0 else 1

/-! ## Texts and conditions -/

/-- Writes a text in which some characters are not what is written. -/
def writeUnless (signs : List Char) (text : String) : Run Nat := do
  if text.toList.any (signs.contains ·) && (← session).channels.lookup 1 ≠ some .nowhere then lose
  write text.toList

def echo (arguments : List String) : Run Nat :=
  match arguments with
  | "-n" :: words => writeUnless ['\\'] (String.intercalate " " words)
  | words => writeUnless ['\\'] (String.intercalate " " words ++ "\n")

def printf (arguments : List String) : Run Nat :=
  match arguments with
  | [] => halt .fails
  | format :: _ => if format.toList.contains '%' then lose else writeUnless ['\\'] format

def test (words : List String) : Run Nat := do
  match Condition.value? (← session) words with
  | some true => return 0
  | some false => return 1
  | none => return 2

/-! ## Directories -/

def straightened (path : String) : String :=
  let place := (FileTree.parts path).foldl (fun place part =>
    if part = "" ∨ part = "." then place
    else if part = ".." then place.dropLast
    else place ++ [part]) []
  "/" ++ String.intercalate "/" place

def cd (arguments : List String) : Run Nat := do
  let s ← session
  let old := (s.text? "PWD").getD "/"
  let path ← match arguments with
    | [] => pure ((s.text? "HOME").getD "")
    | "-" :: _ => pure ((s.text? "OLDPWD").getD "")
    | path :: _ => if path.startsWith "-" then lose else pure path
  let path := straightened (if FileTree.isAbsolute path then path else old ++ "/" ++ path)
  match s.tree.enter path with
  | .error _ => halt .fails
  | .ok tree =>
    update fun s => { s with tree }
    assign "OLDPWD" old
    assign "PWD" path
    if arguments.head? = some "-" then write (path ++ "\n").toList else return 0

/-! ## Signals and processes -/

/-- Sets an action for occasions up to one that there is not. -/
def setTraps (action : Option String) : List String → Run Nat
  | [] => return 0
  | occasion :: rest => do
    match Signal.ofOccasion? occasion with
    | none => return 1
    | some n =>
      update fun s => { s with
        traps := action.toList.map (n, ·) ++ s.traps.filter (·.1 ≠ n) }
      setTraps action rest

def trap (arguments : List String) : Run Nat := do
  match ← operands arguments with
  | [] => return 0
  | first :: rest =>
    if rest.isEmpty || ((Numeral.read? first.toList).any (· ≤ Signal.last)) then
      setTraps none (first :: rest)
    else setTraps (if first = "-" then none else some first) rest

/-- Sends a signal to a process of some number; answers whether there is one. -/
def sendTo (signal process : Nat) : Run Bool := do
  let s ← session
  if (s.process :: s.ancestors).contains process || process = 0 then
    if signal ≠ 0 then signalShell (if process = 0 then s.process else process) signal
    return true
  else
    match s.jobs.find? (·.process = process) with
    | none => return s.text? "PPID" = some (Numeral.text process)
    | some job =>
      if job.isGone then return false
      signalJob job signal
      return true

/-- Sends a signal to processes, one after another. The processes of a job cannot be reached by
its number. -/
def send (signal : Nat) : List String → Run Nat
  | [] => return 0
  | word :: rest => do
    notice
    let s ← session
    let reached ← match word.toList with
      | '%' :: name => if (s.job? name).isSome then pure false else halt .fails
      | '-' :: number => if (Numeral.read? number).isSome then pure false else halt .fails
      | number =>
        match Numeral.read? number with
        | some n => sendTo signal n
        | none => halt .fails
    let status ← send signal rest
    return if reached then status else 1

def kill (arguments : List String) : Run Nat := do
  let (signal, processes) : Option Nat × List String := match arguments with
    | "-s" :: name :: processes => (Signal.ofText? name, processes)
    | "--" :: rest => (some 15, rest)
    | first :: rest =>
      match first.toList with
      | '-' :: name => (Signal.ofText? (String.ofList name), rest)
      | _ => (some 15, arguments)
    | [] => (none, [])
  if arguments.head? = some "-l" then lose
  let processes := if processes.head? = some "--" then processes.drop 1 else processes
  match signal with
  | some signal => if processes.isEmpty then halt .fails else send signal processes
  | none => halt .fails

/-- Waits for processes in the background, one after another. A signal that is caught ends
the waiting. -/
def waitFor : List Job → Run Nat
  | [] => return 0
  | j :: rest => do
    let signal ← awaitMoment j.ends
    match if rest.isEmpty ∧ j.ends.within (← session).now then none else signal with
    | some signal => return 128 + signal
    | none =>
      update fun s => { s with
        jobs := s.jobs.map fun k =>
          if k.process = j.process then { k with isGone := true, isSettled := true } else k }
      if rest.isEmpty then return j.status else waitFor rest

/-- Waits for what words mean; those that mean nothing count if there are no others. -/
def waitForAll (last : Nat) : List String → Run Nat
  | [] => return last
  | word :: rest => do
    let s ← session
    let job ← match word.toList with
      | '%' :: name =>
        match s.job? name with
        | some j => pure (some j)
        | none => halt .fails
      | number =>
        match Numeral.read? number with
        | some n => pure (s.jobs.find? fun j => j.isOwn && j.process = n)
        | none => halt .fails
    match job with
    | none => waitForAll last rest
    | some j =>
      let status ← waitFor [j]
      if (← session).caught.isEmpty then waitForAll status rest else return status

def wait (arguments : List String) : Run Nat := do
  match ← operands arguments with
  | [] =>
    let status ← waitFor ((← session).jobs.filter (·.isOwn))
    return if 128 < status && !(← session).caught.isEmpty then status else 0
  | words => waitForAll 127 words

/-! ## What is there -/

def isKnown (s : Session) (word : String) : Bool :=
  specialBuiltins.contains word || ordinaryBuiltins.contains word ||
    Reader.reserved.contains word || (s.functions.lookup word).isSome ||
    match s.find word with
    | .program _ => true
    | .barred | .missing => false

def describe (words : List String) : Run Nat := do
  let s ← session
  let status ← write (words.flatMap fun w => if isKnown s w then (w ++ "\n").toList else [])
  return if words.all (isKnown s ·) then status else 127

/-- Leaves loops, one unless told otherwise; where there are none, nothing happens. -/
def leave (how : Nat → Halt) (words : List String) : Run Nat := do
  match (words.head?.map (Numeral.read? ·.toList)).getD (some 1) with
  | none | some 0 => halt .fails
  | some n =>
    let depth := (← session).loops
    if depth = 0 then return 0 else halt (how (min n depth))

def status (words : List String) : Run Nat := do
  match words with
  | [] => return (← session).status
  | word :: _ =>
    match Numeral.read? word.toList with
    | some n => return n
    | none => halt .fails

def run (name : String) (arguments : List String) : Run Nat := do
  match name with
  | ":" | "true" | "times" | "umask" | "ulimit" | "jobs" => return 0
  | "false" => return 1
  | "break" => leave .breaks arguments
  | "continue" => leave .continues arguments
  | "exit" => halt (.exits (← status arguments))
  | "return" => halt (.returns (← status arguments))
  | "export" => mark (fun v => { v with isExported := true }) arguments
  | "readonly" => mark (fun v => { v with isFixed := true }) arguments
  | "set" => set arguments
  | "shift" => shift arguments
  | "trap" => trap arguments
  | "unset" => unset arguments
  | "[" => if arguments.getLast? = some "]" then test arguments.dropLast else return 2
  | "test" => test arguments
  | "cd" | "chdir" => cd arguments
  | "echo" => echo arguments
  | "printf" => printf arguments
  | "pwd" => write (((← session).text? "PWD").getD "/" ++ "\n").toList
  | "read" => read arguments
  | "kill" => kill arguments
  | "wait" => wait arguments
  | "local" => declare arguments
  | "type" => describe arguments
  | "fg" | "bg" => halt .fails
  | _ => lose

end Builtin

end HostSteward.Shell
