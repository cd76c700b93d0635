import HostSteward.Json.Reader
import HostSteward.Lifetime

/-!
# Sleeping

A sleep is asked for by one or more times: decimal or hexadecimal numbers of seconds, or of the
unit that follows them. There are two options, which say something instead of sleeping, and
anything else is refused.
-/

namespace HostSteward.Shell.Sleep

inductive Amount where
  | ratio (numerator denominator : Nat)
  | infinite
deriving DecidableEq

/-- The seconds of a unit of time, which may be left out. -/
def unit? : List Char → Option Nat
  | [] | ['s'] => some 1
  | ['m'] => some 60
  | ['h'] => some 3600
  | ['d'] => some 86400
  | _ => none

/-- Exponents are not looked at beyond this. -/
def furthestPower : Nat := 5000

/-- Digits times a power of a base. -/
def scaled (digits base : Nat) (power : Int) : Amount :=
  if digits = 0 then .ratio 0 1
  else if (furthestPower : Int) < power then .infinite
  else if power < -(furthestPower : Int) then .ratio 0 1
  else if 0 ≤ power then .ratio (digits * Nat.pow base power.toNat) 1
  else .ratio digits (Nat.pow base power.natAbs)

/-- The exponent after one of two letters, if there is one. -/
def power (letters : List Char) (cs : List Char) : Int × List Char :=
  match cs with
  | [] => (0, [])
  | c :: rest =>
    let (isNegative, after) : Bool × List Char := match rest with
      | '-' :: after => (true, after)
      | '+' :: after => (false, after)
      | after => (false, after)
    match Numeral.read? (after.takeWhile Char.isDigit) with
    | some n =>
      if letters.contains c then
        (if isNegative then -(n : Int) else n, after.dropWhile Char.isDigit)
      else (0, cs)
    | none => (0, cs)

/-- The digits before and after a point, and the rest; there must be a digit. -/
def digits? (isDigit : Char → Bool) (cs : List Char) :
    Option (List Char × List Char × List Char) :=
  let whole := cs.takeWhile isDigit
  let rest := cs.dropWhile isDigit
  let (places, rest) := match rest with
    | '.' :: after => (after.takeWhile isDigit, after.dropWhile isDigit)
    | rest => ([], rest)
  if whole.isEmpty && places.isEmpty then none else some (whole, places, rest)

def isHexDigit (c : Char) : Bool := (Json.Reader.hexDigit? c).isSome

def hexValue (cs : List Char) : Nat :=
  cs.foldl (fun n c => 16 * n + (Json.Reader.hexDigit? c).getD 0) 0

def decimal? (cs : List Char) : Option (Amount × List Char) :=
  (digits? Char.isDigit cs).map fun (whole, places, rest) =>
    let (e, rest) := power ['e', 'E'] rest
    (scaled (Nat.ofDigitChars 10 (whole ++ places) 0) 10 (e - places.length), rest)

/-- A hexadecimal number after its mark; its exponent is one of two. -/
def hexadecimal? (cs : List Char) : Option (Amount × List Char) :=
  (digits? isHexDigit cs).map fun (whole, places, rest) =>
    let (e, rest) := power ['p', 'P'] rest
    (scaled (hexValue (whole ++ places)) 2 (e - 4 * places.length), rest)

def infinity? (cs : List Char) : Option (List Char) :=
  ["infinity", "inf"].findSome? fun name =>
    if (cs.take name.length).map Char.toLower = name.toList then some (cs.drop name.length)
    else none

def amount? (cs : List Char) : Option (Amount × List Char) :=
  match infinity? cs with
  | some rest => some (.infinite, rest)
  | none =>
    match cs with
    | '0' :: x :: rest =>
      if x = 'x' ∨ x = 'X' then (hexadecimal? rest).or (decimal? cs) else decimal? cs
    | cs => decimal? cs

def second : Nat := 1000000000

def Amount.lifetime (a : Amount) (unit : Nat) : Lifetime :=
  match a with
  | .ratio n d => .lasts (n * unit * second / d)
  | .infinite => .endless

def isWhite (c : Char) : Bool := c = ' ' || ('\t' ≤ c && c ≤ '\r')

/-- A time to sleep. Only zero may be negative. -/
def time? (text : String) : Option Lifetime := do
  let cs := text.toList.dropWhile isWhite
  let (isNegative, cs) : Bool × List Char := match cs with
    | '-' :: rest => (true, rest)
    | '+' :: rest => (false, rest)
    | cs => (false, cs)
  let (a, rest) ← amount? cs
  let unit ← unit? rest
  if isNegative ∧ a.lifetime 1 ≠ .lasts 0 then none else some (a.lifetime unit)

inductive Request where
  | sleep (time : Lifetime)
  /-- To say something about itself. -/
  | inform
  | refused
deriving DecidableEq

/-- Long options may be cut short. -/
def option? (argument : String) : Option Request :=
  match argument.toList with
  | '-' :: '-' :: name =>
    if name.isPrefixOf "help".toList || name.isPrefixOf "version".toList then some .inform
    else some .refused
  | '-' :: _ :: _ => some .refused
  | _ => none

def ofTimes (times : List String) : Request :=
  if times.isEmpty then .refused
  else match times.mapM time? with
    | some ts => .sleep (ts.foldl Lifetime.add (.lasts 0))
    | none => .refused

/-- What arguments ask for, after some times. Options may stand between times unless they all
have to come first. -/
def requestAfter (optionsFirst : Bool) (times : List String) : List String → Request
  | [] => ofTimes times
  | argument :: rest =>
    if argument = "--" then ofTimes (times ++ rest)
    else
      match option? argument with
      | some request => request
      | none =>
        if optionsFirst then ofTimes (times ++ argument :: rest)
        else requestAfter optionsFirst (times ++ [argument]) rest

def request (optionsFirst : Bool) (arguments : List String) : Request :=
  requestAfter optionsFirst [] arguments

end HostSteward.Shell.Sleep
