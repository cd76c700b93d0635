import HostSteward.Shell.Session

/-!
# Conditions

Conditions about texts, numbers and files, connected by words. With few words their number says
how they are to be understood. A condition may make no sense.
-/

namespace HostSteward.Shell.Condition

/-- A decimal integer of 64 bits with blanks around it. -/
def integer? (text : String) : Option Int := do
  let cs := (text.toList.dropWhile Char.isWhitespace).reverse.dropWhile Char.isWhitespace
  let n ← Numeral.readSigned? cs.reverse
  if -9223372036854775808 ≤ n ∧ n ≤ 9223372036854775807 then some n else none

def isUnary (op : String) : Bool :=
  ["-r", "-w", "-x", "-c", "-b", "-d", "-p", "-u", "-g", "-k", "-s", "-h", "-L", "-O", "-G",
    "-S", "-e", "-f", "-n", "-z", "-t"].contains op

def isBinary (op : String) : Bool :=
  ["=", "!=", "<", ">", "-eq", "-ne", "-gt", "-ge", "-lt", "-le", "-nt", "-ot", "-ef"].contains op

/-- Devices are files of their own kind. -/
def isDevice (place : Place) : Bool := place.head? = some "dev"

def ofFile (s : Session) (op path : String) : Bool :=
  match s.tree.find path with
  | .error _ => false
  | .ok place =>
    match s.tree.node? place, op with
    | some (.directory _), op => ["-e", "-d", "-r", "-w", "-x", "-s", "-O", "-G"].contains op
    | some .program, op => ["-e", "-f", "-r", "-w", "-x", "-s", "-O", "-G"].contains op
    | some (.file text), "-s" => text ≠ "" && place.headD "" ≠ "proc"
    | some (.file _), "-f" => !isDevice place
    | some (.file _), "-c" => isDevice place
    | some (.file _), op => ["-e", "-r", "-w", "-O", "-G"].contains op
    | none, _ => false

def unary (s : Session) (op a : String) : Bool :=
  match op with
  | "-n" => a ≠ ""
  | "-z" => a = ""
  | "-h" | "-L" => (s.tree.links.lookup ((FileTree.parts a).drop 1)).isSome
  | op => ofFile s op a

def binary? (s : Session) (op a b : String) : Option Bool :=
  match op with
  | "=" => some (a = b)
  | "!=" => some (a ≠ b)
  | "<" => some (a < b)
  | ">" => some (b < a)
  | "-nt" => some ((s.node? a).isSome && (s.node? b).isNone)
  | "-ot" => some ((s.node? a).isNone && (s.node? b).isSome)
  | "-ef" =>
    match s.tree.find a, s.tree.find b with
    | .ok x, .ok y => some (x = y)
    | _, _ => some false
  | op => do
    let m ← integer? a
    let n ← integer? b
    match op with
    | "-eq" => some (m = n)
    | "-ne" => some (m ≠ n)
    | "-gt" => some (n < m)
    | "-ge" => some (n ≤ m)
    | "-lt" => some (m < n)
    | "-le" => some (m ≤ n)
    | _ => none

mutual

def either? (s : Session) : Nat → List String → Option (Bool × List String)
  | 0, _ => none
  | fuel + 1, words => do
    let (a, rest) ← both? s fuel words
    match rest with
    | "-o" :: rest =>
      let (b, rest) ← either? s fuel rest
      return (a || b, rest)
    | rest => return (a, rest)

def both? (s : Session) : Nat → List String → Option (Bool × List String)
  | 0, _ => none
  | fuel + 1, words => do
    let (a, rest) ← single? s fuel words
    match rest with
    | "-a" :: rest =>
      let (b, rest) ← both? s fuel rest
      return (a && b, rest)
    | rest => return (a, rest)

def single? (s : Session) : Nat → List String → Option (Bool × List String)
  | 0, _ => none
  | fuel + 1, words =>
    match words with
    | [] => none
    | a :: op :: b :: rest =>
      if isBinary op then (binary? s op a b).map (·, rest)
      else if a = "!" then (single? s fuel (op :: b :: rest)).map fun (v, rest) => (!v, rest)
      else if a = "(" then
        match either? s fuel (op :: b :: rest) with
        | some (v, ")" :: rest) => some (v, rest)
        | _ => none
      else if isUnary a then some (unary s a op, b :: rest)
      else some (a ≠ "", op :: b :: rest)
    | a :: rest =>
      if a = "!" ∧ !rest.isEmpty then (single? s fuel rest).map fun (v, rest) => (!v, rest)
      else match rest with
        | [b] => if isUnary a then some (unary s a b, []) else some (a ≠ "", [b])
        | rest => some (a ≠ "", rest)

end

def value? (s : Session) (words : List String) : Option Bool :=
  match words with
  | [] => some false
  | [a] => some (a ≠ "")
  | ["!", a] => some (a = "")
  | ["(", a, ")"] => some (a ≠ "")
  | words =>
    match either? s (4 * (words.length + 1)) words with
    | some (v, []) => some v
    | _ => none

end HostSteward.Shell.Condition
