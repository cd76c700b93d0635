import HostSteward.CommandLine.Arguments
import HostSteward.Settings.Sources
import HostSteward.Settings.Toml
import HostSteward.Steward.Construction

/-!
# What the command line answers

The command prints the default settings, checks the settings, or goes as far as making the
steward. What it prints and how it exits depends on the files and variables it finds.
-/

namespace HostSteward.CommandLine

structure Response where
  /-- The exit code, unless the system ended the command. -/
  exit : Option Nat
  output : String := ""
  errors : String := ""
deriving DecidableEq

namespace Response

def success (output : String) : Response := { exit := some 0, output }

def failure (errors : String) : Response := { exit := some 1, errors }

def misuse : Response where
  exit := some 2
  errors := "error: the arguments are not understood\n\nFor more information, try '--help'.\n"

/-- The command ends where it cannot go on at all. -/
def crash (reason : String) : Response := { exit := some 101, errors := reason ++ "\n" }

def outOfMemory : Response := { exit := none, errors := "memory allocation failed\n" }

def warn (r : Response) (warning : String) : Response := { r with errors := warning ++ r.errors }

end Response

def versionText : String := "host-controller 0.1.0\n"

def defaultsText : String :=
  "# Host Controller Configuration File\n" ++
  "# This is the default configuration with all available options\n" ++
  "#\n" ++
  "# Servers are declared as [[servers]] tables, for example:\n" ++
  "#   [[servers]]\n" ++
  "#   name = \"server-one\"\n" ++
  "#   group = \"main-server-group\"\n" ++
  "#   command = [\"/opt/app/bin/server\", \"--port\", \"8080\"]\n" ++
  "\n" ++ (({} : Settings).toToml.toOption.getD "") ++ "\n"

def knownFormats : List String := ["json", "compact", "pretty"]

/-- A log format that is not known is replaced by the default one. -/
def formatWarning (given : Given) : String :=
  match given.value? .logFormat with
  | none => ""
  | some format =>
    if knownFormats.contains format then ""
    else "Warning: Unknown log format '" ++ format ++ "', using default\n"

/-- The path of a log file in a directory. Its name ends in a date, whichever it is. -/
def logPath (dir : String) : String :=
  let entered := dir.isEmpty || dir.toList.getLast? = some '/'
  dir ++ (if entered then "" else "/") ++ "host-controller.log.0000-00-00"

/-- The tree in which the log files have their directory, if they can have one. -/
def prepareLogs? (t : FileTree) (given : Given) : Option FileTree :=
  match given.value? .logDir with
  | none => some t
  | some dir =>
    if FileTree.longestPath < (logPath dir).utf8ByteSize then none else t.makeDirectories? dir

def checkText (settings : Settings) : Response :=
  match settings.problem? with
  | none => .success "✓ Configuration is valid\n"
  | some problem => .failure ("✗ Configuration validation failed: " ++ problem.message ++ "\n")

/-- The answer where a bus cannot be had. -/
def lacking : Bus.Shortage → Response
  | .capacity => .crash "there is no event bus of the configured capacity"
  | .memory => .outOfMemory

/-- Makes a bus, then a steward on it, as far as both can be made. -/
def makeSteward (memory : Nat) (settings : Settings) : Except Response Steward := do
  let bus ← (Bus.make Nat memory settings.system.busCapacity).mapError lacking
  match Steward.construct memory { settings, bus := some bus } with
  | .made steward _ => return steward
  | .refused cause => throw (.failure ("Error: " ++ cause.message ++ "\n"))
  | .noBus shortage => throw (lacking shortage)

def dryRunText (steward : Steward) : String :=
  "✓ Dry run completed successfully - " ++ Numeral.text steward.statuses.size ++
    " servers configured\n"

/-- What follows once the settings are to be loaded; nothing if the servers are to run. -/
def proceed (memory : Nat) (t : FileTree) (environment : List (String × String)) (given : Given) :
    Option Response :=
  let path := (given.value? .config).getD defaultConfig
  match Settings.load t environment path with
  | .error .badIndex => some (.crash "a setting is addressed by an index that no array has")
  | .error _ => some (.failure ("Error: Failed to load configuration from " ++ path ++ "\n"))
  | .ok settings =>
    if given.has .validateConfig then some (checkText settings)
    else
      match makeSteward memory settings with
      | .error response => some response
      | .ok steward =>
        if given.has .dryRun then some (.success (dryRunText steward)) else none

/-- The answer to a command line; there is none if the servers are to run. -/
def respond (memory : Nat) (t : FileTree) (environment : List (String × String))
    (arguments : List String) : Option Response :=
  match Arguments.read arguments with
  | .wrong => some .misuse
  | .question .version _ => some (.success versionText)
  | .question _ byLetter => some (.success (helpText byLetter))
  | .options given =>
    if given.has .printConfig then some (.success defaultsText)
    else
      let response : Option Response := match prepareLogs? t given with
        | none => some (.crash "the log files cannot be opened")
        | some t => proceed memory t environment given
      response.map (·.warn (formatWarning given))

end HostSteward.CommandLine
