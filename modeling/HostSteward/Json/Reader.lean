import HostSteward.Json
import HostSteward.OrderedMap

/-!
# Reading JSON text

`Json.read?` accepts one value with white space around it. Numbers without fraction and
exponent that fit 64 bits are integers; all others are doubles, and one beyond the range
of doubles is refused. Of members with the same name the last counts.
-/

namespace HostSteward.Json.Reader

def isSpace (c : Char) : Bool := c = ' ' || c = '\n' || c = '\t' || c = '\r'

def skipSpace (cs : List Char) : List Char := cs.dropWhile isSpace

def hexDigit? (c : Char) : Option Nat :=
  if '0' ≤ c ∧ c ≤ '9' then some (c.toNat - '0'.toNat)
  else if 'a' ≤ c ∧ c ≤ 'f' then some (c.toNat - 'a'.toNat + 10)
  else if 'A' ≤ c ∧ c ≤ 'F' then some (c.toNat - 'A'.toNat + 10)
  else none

/-- The number written by hexadecimal digits. -/
def hex? (cs : List Char) : Option Nat :=
  cs.foldlM (fun n c => (hexDigit? c).map (16 * n + ·)) 0

def simpleEscape? : Char → Option Char
  | '"' => some '"'
  | '\\' => some '\\'
  | '/' => some '/'
  | 'b' => some '\x08'
  | 'f' => some '\x0c'
  | 'n' => some '\n'
  | 'r' => some '\r'
  | 't' => some '\t'
  | _ => none

def isHighSurrogate (n : Nat) : Bool := 0xD800 ≤ n && n < 0xDC00

def isLowSurrogate (n : Nat) : Bool := 0xDC00 ≤ n && n < 0xE000

/-- The rest of a string after its opening quote; `acc` holds what was read, reversed. -/
def string? (acc : List Char) : List Char → Option (String × List Char)
  | [] => none
  | '"' :: rest => some (String.ofList acc.reverse, rest)
  | '\\' :: 'u' :: a :: b :: c :: d :: rest =>
    match hex? [a, b, c, d] with
    | none => none
    | some high =>
      if isLowSurrogate high then none
      else if isHighSurrogate high then
        match rest with
        | '\\' :: 'u' :: e :: f :: g :: h :: rest =>
          match hex? [e, f, g, h] with
          | none => none
          | some low =>
            if isLowSurrogate low then
              string? (Char.ofNat (0x10000 + (high - 0xD800) * 0x400 + (low - 0xDC00)) :: acc) rest
            else none
        | _ => none
      else string? (Char.ofNat high :: acc) rest
  | '\\' :: c :: rest =>
    match simpleEscape? c with
    | none => none
    | some c => string? (c :: acc) rest
  | c :: rest => if c.toNat < 0x20 then none else string? (c :: acc) rest

/-- Adds digits to a significand while it fits 64 bits; returns the significand, the number
of digits taken and the rest. -/
def accumulate (significand taken : Nat) : List Char → Nat × Nat × List Char
  | [] => (significand, taken, [])
  | c :: rest =>
    if c.isDigit then
      let next := significand * 10 + (c.toNat - '0'.toNat)
      if next < UInt64.size then accumulate next (taken + 1) rest
      else (significand, taken, c :: rest)
    else (significand, taken, c :: rest)

/-- `significand · 10^e` by one division or multiplication with a rounded power of ten, as
far as such powers are doubles. -/
def realOfParts? (negative : Bool) (significand : Nat) (e : Int) : Option Binary64 :=
  let power (k : Nat) : Binary64 := .ofRatio false (Nat.pow 10 k) 1
  let signed (x : Binary64) := if negative then x.neg else x
  let f := Binary64.ofRatio false significand 1
  if significand = 0 then some (signed f)
  else if 0 ≤ e then
    if 308 < e then none
    else
      let x := f.mulFinite (power e.natAbs)
      if x.isInfinite then none else some (signed x)
  else if e.natAbs ≤ 308 then some (signed (f.divFinite (power e.natAbs)))
  else
    let x := f.divFinite (power 308)
    if e.natAbs ≤ 616 then some (signed (x.divFinite (power (e.natAbs - 308))))
    else some (signed (.zero false))

/-- An exponent part, if there is one, and then the end of the number. -/
def exponent? (negative : Bool) (significand : Nat) (e : Int) :
    List Char → Option (Json × List Char)
  | cs =>
    match cs with
    | c :: rest =>
      if c = 'e' ∨ c = 'E' then
        let (down, rest) : Bool × List Char := match rest with
          | '-' :: rest => (true, rest)
          | '+' :: rest => (false, rest)
          | rest => (false, rest)
        match Numeral.read? (rest.takeWhile Char.isDigit) with
        | none => none
        | some n =>
          let e := if down then e - n else e + n
          (realOfParts? negative significand e).map fun x =>
            (.real x, rest.dropWhile Char.isDigit)
      else (realOfParts? negative significand e).map fun x => (.real x, cs)
    | [] => (realOfParts? negative significand e).map fun x => (.real x, [])

/-- A fraction part, if there is one, and what follows it. -/
def fraction? (negative : Bool) (significand : Nat) (e : Int) :
    List Char → Option (Json × List Char)
  | '.' :: rest =>
    let (significand, taken, rest') := accumulate significand 0 rest
    if (rest.takeWhile Char.isDigit).isEmpty then none
    else exponent? negative significand (e - taken) (rest'.dropWhile Char.isDigit)
  | cs => exponent? negative significand e cs

/-- An unsigned number; it has no leading zeros. -/
def magnitude? (negative : Bool) (cs : List Char) : Option (Json × List Char) :=
  let digits := cs.takeWhile Char.isDigit
  let rest := cs.dropWhile Char.isDigit
  if digits.isEmpty || (digits.head? = some '0' && digits.length ≠ 1) then none
  else
    let (significand, taken, _) := accumulate 0 0 digits
    let dropped : Nat := digits.length - taken
    let whole := !(rest.head? = some '.' || rest.head? = some 'e' || rest.head? = some 'E')
    if whole && dropped = 0 && !negative then some (.int significand, rest)
    else if whole && dropped = 0 && negative && 0 < significand && Numeral.fitsInt64 (-(significand : Int)) then
      some (.int (-(significand : Int)), rest)
    else fraction? negative significand dropped rest

def number? : List Char → Option (Json × List Char)
  | '-' :: cs => magnitude? true cs
  | cs => magnitude? false cs

def literal? (word : String) (j : Json) (cs : List Char) : Option (Json × List Char) :=
  if word.toList.isPrefixOf cs then some (j, cs.drop word.length) else none

/-- Members in ascending order of their names. -/
def tidy (members : List (String × Json)) : Json := .object (OrderedMap.ofList members).entries

mutual

/-- A value that starts at the first character. `depth` bounds nested brackets. -/
def value? (depth : Nat) : Nat → List Char → Option (Json × List Char)
  | 0, _ => none
  | fuel + 1, cs =>
    match cs with
    | [] => none
    | '"' :: rest => (string? [] rest).map fun (s, rest) => (.string s, rest)
    | '[' :: rest =>
      if depth ≤ 1 then none
      else match skipSpace rest with
        | ']' :: rest => some (.array [], rest)
        | rest => items? (depth - 1) [] fuel rest
    | '{' :: rest =>
      if depth ≤ 1 then none
      else match skipSpace rest with
        | '}' :: rest => some (.object [], rest)
        | rest => members? (depth - 1) [] fuel rest
    | 't' :: _ => literal? "true" (.bool true) cs
    | 'f' :: _ => literal? "false" (.bool false) cs
    | 'n' :: _ => literal? "null" .null cs
    | _ => number? cs

def items? (depth : Nat) (acc : List Json) : Nat → List Char → Option (Json × List Char)
  | 0, _ => none
  | fuel + 1, cs =>
    match value? depth fuel cs with
    | none => none
    | some (j, rest) =>
      match skipSpace rest with
      | ',' :: rest => items? depth (j :: acc) fuel (skipSpace rest)
      | ']' :: rest => some (.array (j :: acc).reverse, rest)
      | _ => none

def members? (depth : Nat) (acc : List (String × Json)) :
    Nat → List Char → Option (Json × List Char)
  | 0, _ => none
  | fuel + 1, cs =>
    match cs with
    | '"' :: rest =>
      match string? [] rest with
      | none => none
      | some (name, rest) =>
        match skipSpace rest with
        | ':' :: rest =>
          match value? depth fuel (skipSpace rest) with
          | none => none
          | some (j, rest) =>
            match skipSpace rest with
            | ',' :: rest => members? depth ((name, j) :: acc) fuel (skipSpace rest)
            | '}' :: rest => some (tidy ((name, j) :: acc).reverse, rest)
            | _ => none
        | _ => none
    | _ => none

end

/-- Brackets nest to less than this depth. -/
def maxDepth : Nat := 128

end Reader

def read? (text : String) : Option Json := do
  let cs := Reader.skipSpace text.toList
  let (j, rest) ← Reader.value? Reader.maxDepth (2 * cs.length + 1) cs
  if (Reader.skipSpace rest).isEmpty then some j else none

end HostSteward.Json
