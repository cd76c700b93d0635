import HostSteward.Numeral

/-!
# Computing in shell scripts

Integers of 64 bits with the usual operators. A variable that is not set counts as zero. Numbers
that begin with zero, single bits, choices and assignments are not followed.
-/

namespace HostSteward.Shell

inductive Sum where
  | number (n : Int)
  | value (name : String)
  | negative (a : Sum)
  | not (a : Sum)
  | binary (op : String) (a b : Sum)

namespace Sum

inductive Token where
  | number (n : Nat)
  | name (s : String)
  | sign (s : String)
deriving DecidableEq

def signs : List String :=
  ["<=", ">=", "==", "!=", "&&", "||", "+", "-", "*", "/", "%", "<", ">", "!", "(", ")"]

def numeral? (cs : List Char) : Option Nat :=
  if cs.head? = some '0' ∧ cs ≠ ['0'] then none else Numeral.read? cs

def isNamed (c : Char) : Bool := c.isAlphanum || c = '_'

def tokens? : Nat → List Char → Option (List Token)
  | 0, _ => none
  | _ + 1, [] => some []
  | fuel + 1, c :: rest =>
    if [' ', '\t', '\n'].contains c then tokens? fuel rest
    else if isNamed c then do
      let word := (c :: rest).takeWhile isNamed
      let first : Token ←
        if c.isDigit then (numeral? word).map .number else some (.name (String.ofList word))
      return first :: (← tokens? fuel ((c :: rest).dropWhile isNamed))
    else
      match signs.find? fun s => s.toList.isPrefixOf (c :: rest) with
      | some s => (tokens? fuel ((c :: rest).drop s.length)).map (.sign s :: ·)
      | none => none

/-- How closely an operator of two sides binds. -/
def rank? : String → Option Nat
  | "||" => some 1
  | "&&" => some 2
  | "==" | "!=" => some 3
  | "<" | ">" | "<=" | ">=" => some 4
  | "+" | "-" => some 5
  | "*" | "/" | "%" => some 6
  | _ => none

mutual

def primary? : Nat → List Token → Option (Sum × List Token)
  | 0, _ => none
  | fuel + 1, tokens =>
    match tokens with
    | .number n :: rest => some (.number n, rest)
    | .name s :: rest => some (.value s, rest)
    | .sign "(" :: rest =>
      match whole? fuel rest with
      | some (a, .sign ")" :: rest) => some (a, rest)
      | _ => none
    | .sign "-" :: rest => (primary? fuel rest).map fun (a, rest) => (.negative a, rest)
    | .sign "!" :: rest => (primary? fuel rest).map fun (a, rest) => (.not a, rest)
    | _ => none

/-- The operators that bind at least as closely as a rank, after their left side. -/
def climb? : Nat → Nat → Sum → List Token → Option (Sum × List Token)
  | 0, _, _, _ => none
  | fuel + 1, rank, left, tokens =>
    match tokens with
    | .sign s :: rest =>
      match (rank? s).filter (rank ≤ ·) with
      | some r => do
        let (right, rest) ← primary? fuel rest
        let (right, rest) ← climb? fuel (r + 1) right rest
        climb? fuel rank (.binary s left right) rest
      | none => some (left, tokens)
    | tokens => some (left, tokens)

def whole? : Nat → List Token → Option (Sum × List Token)
  | 0, _ => none
  | fuel + 1, tokens => do
    let (first, rest) ← primary? fuel tokens
    climb? fuel 1 first rest

end

/-- There may be nothing to compute. -/
def read? (cs : List Char) : Option Sum := do
  match ← tokens? (cs.length + 1) cs with
  | [] => return .number 0
  | tokens =>
    match ← whole? (4 * (tokens.length + 2)) tokens with
    | (a, []) => return a
    | _ => none

/-! ## Values -/

def wrap (n : Int) : Int := (n + 0x8000000000000000) % 0x10000000000000000 - 0x8000000000000000

def ofBool (b : Bool) : Int := if b then 1 else 0

def combine? (op : String) (a b : Int) : Option Int :=
  match op with
  | "+" => some (wrap (a + b))
  | "-" => some (wrap (a - b))
  | "*" => some (wrap (a * b))
  | "/" => if b = 0 then none else some (wrap (a.tdiv b))
  | "%" => if b = 0 then none else some (wrap (a.tmod b))
  | "<" => some (ofBool (a < b))
  | ">" => some (ofBool (b < a))
  | "<=" => some (ofBool (a ≤ b))
  | ">=" => some (ofBool (b ≤ a))
  | "==" => some (ofBool (a = b))
  | "!=" => some (ofBool (a ≠ b))
  | _ => none

def value? (values : String → Option Int) : Sum → Option Int
  | .number n => some (wrap n)
  | .value name => values name
  | .negative a => (value? values a).map fun n => wrap (-n)
  | .not a => (value? values a).map fun n => ofBool (n = 0)
  | .binary "&&" a b => do
    if (← value? values a) = 0 then return 0
    return ofBool ((← value? values b) ≠ 0)
  | .binary "||" a b => do
    if (← value? values a) ≠ 0 then return 1
    return ofBool ((← value? values b) ≠ 0)
  | .binary op a b => do combine? op (← value? values a) (← value? values b)

def ofText? (s : String) : Option Int :=
  if s.isEmpty then some 0 else (Numeral.readSigned? s.toList).map wrap

end Sum

end HostSteward.Shell
