import HostSteward.FileTree
import HostSteward.Settings.Layers
import HostSteward.Settings.Lenient
import HostSteward.Toml.Reader

/-!
# Where settings come from

The defaults are the lowest layer, then comes a file, then the environment. A file that is
not there, or of no known format, adds nothing.
-/

namespace HostSteward.Settings

inductive LoadFault where
  /-- The file is not well-formed. -/
  | malformed
  /-- A setting has a value that it cannot have, or one is missing. -/
  | invalid
  /-- A setting is addressed by an index that no array has. -/
  | badIndex
deriving DecidableEq

/-! ## The file -/

inductive FileFormat where
  | toml
  | json
deriving DecidableEq

namespace FileFormat

def fileExtension : FileFormat → List Char
  | .toml => ['t', 'o', 'm', 'l']
  | .json => ['j', 's', 'o', 'n']

def all : List FileFormat := [.toml, .json]

end FileFormat

/-- The extension of a file name, which may not start with its point. -/
def extension? (name : List Char) : Option (List Char) :=
  let tail := name.reverse.takeWhile (· ≠ '.')
  if tail.length + 1 < name.length then some tail.reverse else none

def formatOf? (name : List Char) : Option FileFormat :=
  FileFormat.all.find? fun f => extension? name = some f.fileExtension

def namedParts (path : List Char) : List (List Char) :=
  ((path.splitOn '/').reverse.dropWhile fun part => part.isEmpty || part = ['.']).reverse

def nameOf? (path : String) : Option (List Char) :=
  (namedParts path.toList).getLast?.filter (· ≠ ['.', '.'])

def withExtension (path : String) (f : FileFormat) : String :=
  String.ofList (['/'].intercalate (namedParts path.toList) ++ '.' :: f.fileExtension)

/-- The text of a file, and its format if it is known. The file may be named without its
extension; another file of the very name comes first. -/
def locate? (t : FileTree) (path : String) : Option (String × FileFormat) :=
  let path := t.fullPath path
  match nameOf? path, t.text? path with
  | none, _ => none
  | some name, some text => (formatOf? name).map (text, ·)
  | some _, none => FileFormat.all.findSome? fun f => (t.text? (withExtension path f)).map (·, f)

def candidates (path : String) : List String :=
  path :: FileFormat.all.map (withExtension path)

mutual

/-- Integers beyond 64 signed bits are held as floating-point numbers. -/
def narrow : Json → Json
  | .int n => if Numeral.fitsInt64 n then .int n else .real (.ofRatio (n < 0) n.natAbs 1)
  | .array items => .array (narrowItems items)
  | .object members => .object (narrowMembers members)
  | .null => .null
  | .bool b => .bool b
  | .real x => .real x
  | .string s => .string s

def narrowItems : List Json → List Json
  | [] => []
  | j :: rest => narrow j :: narrowItems rest

def narrowMembers : List (String × Json) → List (String × Json)
  | [] => []
  | (name, j) :: rest => (name, narrow j) :: narrowMembers rest

end

def readFile? (text : String) (format : FileFormat) : Option (List (String × Json)) :=
  match format with
  | .toml => (Toml.read? text).bind Json.object?
  | .json => ((Json.read? text).map narrow).bind Json.object?

/-! ## The environment -/

/-- A decimal numeral with an optional fraction and exponent, or one of the names of infinity
and of no number. -/
def readReal? (cs : List Char) : Option Binary64 :=
  let (negative, cs) := Toml.sign cs
  let named := String.ofList (cs.map Char.toLower)
  if named = "inf" ∨ named = "infinity" then some (.infinite negative)
  else if named = "nan" then some .nan
  else
    let whole := cs.takeWhile Char.isDigit
    let rest := cs.dropWhile Char.isDigit
    let (places, rest) := match rest with
      | '.' :: rest => (rest.takeWhile Char.isDigit, rest.dropWhile Char.isDigit)
      | rest => ([], rest)
    let value (e : Int) : Binary64 :=
      .ofDecimal negative (Nat.ofDigitChars 10 (whole ++ places) 0) (e - places.length)
    if whole.isEmpty && places.isEmpty then none
    else match rest with
      | [] => some (value 0)
      | c :: rest =>
        if c = 'e' ∨ c = 'E' then (Numeral.readSigned? rest).map value else none

/-- What a variable stands for: a switch, an integer, a number or a text. -/
def variableValue (value : String) : Json :=
  let lower := Text.lowercase value
  if lower = "true" then .bool true
  else if lower = "false" then .bool false
  else
    match Numeral.readInt64? value.toList with
    | some n => .int n
    | none =>
      match readReal? value.toList with
      | some x => .real x
      | none => .string value

/-- Two underscores stand for a point. -/
def withPoints : List Char → List Char
  | '_' :: '_' :: rest => '.' :: withPoints rest
  | c :: rest => c :: withPoints rest
  | [] => []

def variableStart : List Char := "hostctl_".toList

def variableName? (name : String) : Option String :=
  let cs := (Text.lowercase name).toList
  if cs.take variableStart.length = variableStart then
    some (String.ofList (withPoints (cs.drop variableStart.length)))
  else none

def variableLayer (environment : List (String × String)) : List (String × Json) :=
  environment.filterMap fun (name, value) =>
    (variableName? name).map fun name => (name, variableValue value)

/-! ## Loading -/

def preset (parent name : String) (value : Json) : String × Json := (parent ++ "." ++ name, value)

/-- The lowest layer: a value for every setting that the sources may leave out. -/
def presets : List (String × Json) :=
  [preset "host" "name" (.string "local"),
    preset "host" "boot_mode" (.string "fresh"),
    preset "host" "controller_port" (.nat 9999),
    preset "lifecycle" "start_poll_attempts" (.nat 50),
    preset "lifecycle" "start_poll_interval_ms" (.nat 100),
    preset "lifecycle" "auto_restart" (.bool false),
    preset "lifecycle" "max_restarts" (.nat 5),
    preset "lifecycle" "restart_base_delay_ms" (.nat 1000),
    preset "lifecycle" "restart_max_delay_ms" (.nat 60000),
    preset "updates" "allow_overall_rollback" (.bool true),
    preset "updates" "concurrent_servers" (.bool false),
    preset "system" "event_bus_capacity" (.nat 256),
    ("servers", .array [])]

def fileLayer (t : FileTree) (path : String) : Except LoadFault (List (String × Json)) :=
  match locate? t path with
  | none => .ok []
  | some (text, format) => match readFile? text format with
    | some members => .ok members
    | none => .error .malformed

def conclude : Option Json → Except LoadFault Settings
  | none => .error .badIndex
  | some merged => match Lenient.settings? merged with
    | some settings => .ok settings
    | none => .error .invalid

def settle (layers : List (String × Json)) : Except LoadFault Settings :=
  conclude (layOver? (.object []) (presets ++ layers))

def load (t : FileTree) (environment : List (String × String)) (path : String) :
    Except LoadFault Settings := do
  settle ((← fileLayer t path) ++ variableLayer environment)

end HostSteward.Settings
