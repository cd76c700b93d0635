import HostSteward.Toml.Quoted

/-!
# Scalars in TOML

Booleans, numbers, dates and times. Integers have 64 bits, and a number is floating-point if
it has a fraction or an exponent or is one of `inf` and `nan`. A date or time is read as its
text, with `T` between date and time and without trailing zeros in the fraction.
-/

namespace HostSteward.Toml

def dropWord? (word : List Char) (cs : List Char) : Option (List Char) :=
  if cs.take word.length = word then some (cs.drop word.length) else none

/-! ## Numbers -/

/-- Further digits of a number; one underscore may stand before each. -/
def moreDigits (isDigit : Char → Bool) : List Char → List Char × List Char
  | [] => ([], [])
  | [c] => if isDigit c then ([c], []) else ([], [c])
  | c :: d :: rest =>
    if isDigit c then
      let (ds, rest) := moreDigits isDigit (d :: rest)
      (c :: ds, rest)
    else if c = '_' ∧ isDigit d then
      let (ds, rest) := moreDigits isDigit rest
      (d :: ds, rest)
    else ([], c :: d :: rest)

def digits? (isDigit : Char → Bool) (cs : List Char) : Option (List Char × List Char) :=
  match cs with
  | [] => none
  | c :: _ => if isDigit c then some (moreDigits isDigit cs) else none

def sign (cs : List Char) : Bool × List Char :=
  match cs with
  | '-' :: rest => (true, rest)
  | '+' :: rest => (false, rest)
  | cs => (false, cs)

/-- The sign and digits of a whole number without leading zeros. -/
def whole? (cs : List Char) : Option (Bool × List Char × List Char) :=
  match sign cs with
  | (negative, '0' :: rest) => some (negative, ['0'], rest)
  | (negative, cs) => (digits? Char.isDigit cs).map fun (ds, rest) => (negative, ds, rest)

def integerIn? (n : Int) (rest : List Char) : Option (Json × List Char) :=
  if Numeral.fitsInt64 n then some (.int n, rest) else none

/-- Digits of a base other than ten, after its mark. -/
def based? (base : Nat) (cs : List Char) : Option (Json × List Char) := do
  let isDigit (c : Char) := match Json.Reader.hexDigit? c with
    | some d => decide (d < base)
    | none => false
  let (ds, rest) ← digits? isDigit cs
  let n := ds.foldl (fun n c => base * n + (Json.Reader.hexDigit? c).getD 0) 0
  integerIn? n rest

def integer? (cs : List Char) : Option (Json × List Char) :=
  match cs with
  | '0' :: 'x' :: rest => based? 16 rest
  | '0' :: 'o' :: rest => based? 8 rest
  | '0' :: 'b' :: rest => based? 2 rest
  | cs => do
    let (negative, ds, rest) ← whole? cs
    let n : Nat := Nat.ofDigitChars 10 ds 0
    integerIn? (if negative then -(n : Int) else n) rest

def fraction? : List Char → Option (List Char × List Char)
  | '.' :: rest => digits? Char.isDigit rest
  | _ => none

def exponent? (cs : List Char) : Option (Int × List Char) :=
  match cs with
  | c :: rest =>
    if c = 'e' ∨ c = 'E' then do
      let (negative, rest) := sign rest
      let (ds, rest) ← digits? Char.isDigit rest
      let n : Nat := Nat.ofDigitChars 10 ds 0
      some (if negative then -(n : Int) else n, rest)
    else none
  | [] => none

/-- A number with a fraction or an exponent. It may round to negative infinity, but not to
positive infinity. -/
def real? (cs : List Char) : Option (Json × List Char) := do
  let (negative, ds, rest) ← whole? cs
  let point := fraction? rest
  let (places, rest) := point.getD ([], rest)
  let power := exponent? rest
  let (e, rest) := power.getD (0, rest)
  if point.isNone && power.isNone then none
  else
    let x := Binary64.ofDecimal negative (Nat.ofDigitChars 10 (ds ++ places) 0) (e - places.length)
    if x = .infinite false then none else some (.real x, rest)

def special? (cs : List Char) : Option (Json × List Char) :=
  let (negative, cs) := sign cs
  match dropWord? ['i', 'n', 'f'] cs with
  | some rest => some (.real (.infinite negative), rest)
  | none => (dropWord? ['n', 'a', 'n'] cs).map (.real .nan, ·)

/-! ## Dates and times -/

def fixed? (width low high : Nat) (cs : List Char) : Option (Nat × List Char) := do
  let n ← Numeral.read? (cs.take width)
  if width ≤ cs.length ∧ low ≤ n ∧ n ≤ high then some (n, cs.drop width) else none

def isLeapYear (year : Nat) : Bool := year % 4 = 0 && (year % 100 ≠ 0 || year % 400 = 0)

def daysIn (year month : Nat) : Nat :=
  if month = 2 then if isLeapYear year then 29 else 28
  else if month = 4 ∨ month = 6 ∨ month = 9 ∨ month = 11 then 30
  else 31

def date? (cs : List Char) : Option (List Char × List Char) := do
  let (year, rest) ← fixed? 4 0 9999 cs
  let rest ← dropWord? ['-'] rest
  let (month, rest) ← fixed? 2 1 12 rest
  let rest ← dropWord? ['-'] rest
  let (_, rest) ← fixed? 2 1 (daysIn year month) rest
  some (cs.take 10, rest)

/-- The fraction of a second: nine digits count, trailing zeros are not written. -/
def fractionText (ds : List Char) : List Char :=
  let significant := ((ds.take 9).reverse.dropWhile (· = '0')).reverse
  if significant.isEmpty then [] else '.' :: significant

/-- A time of day; a minute may have a leap second. -/
def time? (cs : List Char) : Option (List Char × List Char) := do
  let (_, rest) ← fixed? 2 0 23 cs
  let rest ← dropWord? [':'] rest
  let (_, rest) ← fixed? 2 0 59 rest
  let rest ← dropWord? [':'] rest
  let (_, rest) ← fixed? 2 0 60 rest
  match rest with
  | '.' :: places =>
    if (places.takeWhile Char.isDigit).isEmpty then some (cs.take 8, rest)
    else some (cs.take 8 ++ fractionText (places.takeWhile Char.isDigit),
      places.dropWhile Char.isDigit)
  | rest => some (cs.take 8, rest)

def zone? (cs : List Char) : Option (List Char × List Char) :=
  match cs with
  | 'Z' :: rest | 'z' :: rest => some (['Z'], rest)
  | c :: after =>
    if c = '+' ∨ c = '-' then do
      let (hours, rest) ← fixed? 2 0 23 after
      let rest ← dropWord? [':'] rest
      let (minutes, rest) ← fixed? 2 0 59 rest
      let west := c = '-' ∧ hours + minutes ≠ 0
      some ((if west then '-' else '+') :: after.take 5, rest)
    else none
  | [] => none

def isTimeMark (c : Char) : Bool := c = 'T' || c = 't' || c = ' '

def dateTime? (cs : List Char) : Option (List Char × List Char) :=
  match date? cs with
  | none => time? cs
  | some (date, rest) =>
    match rest with
    | [] => some (date, [])
    | c :: after =>
      match if isTimeMark c then time? after else none with
      | none => some (date, rest)
      | some (time, rest) =>
        match zone? rest with
        | none => some (date ++ 'T' :: time, rest)
        | some (zone, rest) => some (date ++ 'T' :: time ++ zone, rest)

/-- The date, the time or both that a whole text consists of. -/
def dateTimeText? (cs : List Char) : Option (List Char) :=
  match dateTime? cs with
  | some (text, []) => some text
  | _ => none

/-! ## All of them -/

/-- A scalar other than a string. What could be several is tried as a date first and as an
integer last. -/
def scalar? (cs : List Char) : Option (Json × List Char) :=
  match dropWord? ['t', 'r', 'u', 'e'] cs, dropWord? ['f', 'a', 'l', 's', 'e'] cs with
  | some rest, _ => some (.bool true, rest)
  | none, some rest => some (.bool false, rest)
  | none, none =>
    match dateTime? cs with
    | some (text, rest) => some (.string (String.ofList text), rest)
    | none => (real? cs).or ((special? cs).or (integer? cs))

end HostSteward.Toml
