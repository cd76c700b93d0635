/-!
# Arguments of the command line

Options have a long name and often a letter; letters can be combined. An option that takes a
value finds it after an equals sign, after its letter or in the next argument. Each option
may be given once, and there are no arguments besides options.
-/

namespace HostSteward.CommandLine

inductive Switch where
  | config
  | debug
  | verbose
  | quiet
  | validateConfig
  | printConfig
  | dryRun
  | logFormat
  | logDir
  | help
  | version
deriving DecidableEq

namespace Switch

def all : List Switch :=
  [config, debug, verbose, quiet, validateConfig, printConfig, dryRun, logFormat, logDir, help,
    version]

def longName : Switch → String
  | config => "config"
  | debug => "debug"
  | verbose => "verbose"
  | quiet => "quiet"
  | validateConfig => "validate-config"
  | printConfig => "print-config"
  | dryRun => "dry-run"
  | logFormat => "log-format"
  | logDir => "log-dir"
  | help => "help"
  | version => "version"

def letter? : Switch → Option Char
  | config => some 'c'
  | debug => some 'd'
  | verbose => some 'v'
  | quiet => some 'q'
  | help => some 'h'
  | version => some 'V'
  | validateConfig | printConfig | dryRun | logFormat | logDir => none

def valueName? : Switch → Option String
  | config => some "CONFIG"
  | logFormat => some "FORMAT"
  | logDir => some "DIR"
  | _ => none

def takesValue (s : Switch) : Bool := s.valueName?.isSome

/-- Options that are answered at once, whatever comes after them. -/
def isQuestion (s : Switch) : Bool := s = help || s = version

def description : Switch → String
  | config => "Path to TOML configuration file"
  | debug => "Enable debug level logging"
  | verbose => "Enable verbose info level logging"
  | quiet => "Enable quiet mode - only log errors"
  | validateConfig => "Validate configuration file and exit without starting any server"
  | printConfig => "Print default configuration in TOML format and exit"
  | dryRun => "Perform dry run - build the host controller but don't start servers"
  | logFormat => "Log output format: json, pretty, or compact"
  | logDir => "Directory for daily rotated log files"
  | help => "Print help"
  | version => "Print version"

def ofLongName? (name : List Char) : Option Switch := all.find? (·.longName.toList = name)

def ofLetter? (c : Char) : Option Switch := all.find? (·.letter? = some c)

end Switch

/-- The options given, the last one first; those without a value hold an empty one. -/
abbrev Given := List (Switch × String)

inductive Reading where
  /-- An option may still wait for its value in the next argument. -/
  | reading (given : Given) (waiting : Option Switch)
  /-- Two dashes have ended the options. -/
  | ended (given : Given)
  | question (s : Switch) (byLetter : Bool)
  | wrong

namespace Reading

def give (given : Given) (s : Switch) (value : String) : Reading :=
  if given.any (·.1 = s) then .wrong else .reading ((s, value) :: given) none

/-- Options by their letters; the rest of the argument is the value of one that takes it. -/
def letters (given : Given) : List Char → Reading
  | [] => .reading given none
  | c :: rest =>
    match Switch.ofLetter? c with
    | none => .wrong
    | some s =>
      if s.takesValue then
        match rest with
        | [] => .reading given (some s)
        | '=' :: value => give given s (String.ofList value)
        | value => give given s (String.ofList value)
      else if given.any (·.1 = s) then .wrong
      else if s.isQuestion then .question s true
      else letters ((s, "") :: given) rest

/-- An option by its long name. -/
def long (given : Given) (cs : List Char) : Reading :=
  match Switch.ofLongName? (cs.takeWhile (· ≠ '=')), cs.dropWhile (· ≠ '=') with
  | none, _ => .wrong
  | some s, [] =>
    if s.takesValue then .reading given (some s)
    else if s.isQuestion then .question s false
    else give given s ""
  | some s, _ :: value => if s.takesValue then give given s (String.ofList value) else .wrong

def next : Reading → String → Reading
  | .reading given waiting, argument =>
    match argument.toList, waiting with
    | '-' :: _ :: _, some _ => .wrong
    | _, some s => give given s argument
    | ['-', '-'], none => .ended given
    | '-' :: '-' :: cs, none => long given cs
    | '-' :: c :: cs, none => letters given (c :: cs)
    | _, none => .wrong
  | .ended _, _ => .wrong
  | .question s byLetter, _ => .question s byLetter
  | .wrong, _ => .wrong

end Reading

inductive Arguments where
  | options (given : Given)
  | question (s : Switch) (byLetter : Bool)
  | wrong

namespace Arguments

def read (arguments : List String) : Arguments :=
  match arguments.foldl Reading.next (.reading [] none) with
  | .reading given none | .ended given => .options given
  | .question s byLetter => .question s byLetter
  | .reading _ (some _) | .wrong => .wrong

end Arguments

namespace Given

def has (given : Given) (s : Switch) : Bool := given.any (·.1 = s)

def value? (given : Given) (s : Switch) : Option String := given.lookup s

end Given

/-! ## Help -/

def about : String := "Host-level controller for managed server processes"

def longAbout : String :=
  "Launches and supervises the server processes configured for this host, tracks their " ++
    "lifecycle, and routes configuration updates to the servers they affect."

def defaultConfig : String := "host-controller.toml"

def spaces (n : Nat) : String := String.ofList (List.replicate n ' ')

namespace Switch

def spelling (s : Switch) : String :=
  (match s.letter? with
    | some c => "  -" ++ String.ofList [c] ++ ", --"
    | none => "      --") ++ s.longName ++
    (match s.valueName? with
    | some name => " <" ++ name ++ ">"
    | none => "")

def explanation (s : Switch) (short : Bool) : String :=
  match s, short with
  | config, true => s.description ++ " [default: " ++ defaultConfig ++ "]"
  | config, false =>
    s.description ++ "\n" ++ spaces 10 ++ "\n" ++ spaces 10 ++ "[default: " ++ defaultConfig ++ "]"
  | .help, true => s.description ++ " (see more with '--help')"
  | .help, false => s.description ++ " (see a summary with '-h')"
  | _, _ => s.description

end Switch

def helpText (short : Bool) : String :=
  let width := (Switch.all.map (·.spelling.length)).foldl max 0
  let entry (s : Switch) : String :=
    if short then
      s.spelling ++ spaces (width + 2 - s.spelling.length) ++ s.explanation true
    else s.spelling ++ "\n" ++ spaces 10 ++ s.explanation false
  (if short then about else longAbout) ++ "\n\nUsage: host-controller [OPTIONS]\n\nOptions:\n" ++
    String.intercalate (if short then "\n" else "\n\n") (Switch.all.map entry) ++ "\n"

end HostSteward.CommandLine
