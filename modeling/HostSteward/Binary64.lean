import HostSteward.Numeral

/-!
# Double-precision numbers

A `Binary64` is kept as an integer times a power of two, so reading decimals and
writing them is exact arithmetic on natural numbers. `ofRatio` rounds to the nearest
double, ties to even; `shortest` finds the fewest decimal digits that read back.
-/

namespace HostSteward

/-- A finite number is `±significand · 2^exponent` with `significand < 2^53` and
`exponent ≥ -1074`, the exponent being the least one for numbers below `2^-1022`. -/
inductive Binary64 where
  | nan
  | infinite (negative : Bool)
  | finite (negative : Bool) (significand : Nat) (exponent : Int)
deriving DecidableEq

namespace Binary64

def zero (negative : Bool) : Binary64 := .finite negative 0 (-1074)

/-- `num / den` in units of `2^e`, as a numerator and a denominator. -/
def scale (num den : Nat) (e : Int) : Nat × Nat :=
  if e < 0 then (num <<< e.natAbs, den) else (num, den <<< e.natAbs)

/-- The nearest integer to `num / den`; a half goes to the even neighbour. -/
def roundHalfEven (num den : Nat) : Nat :=
  let q := num / den
  let r := num % den
  if den < 2 * r ∨ (2 * r = den ∧ q % 2 = 1) then q + 1 else q

/-- The exponent at which `num / den` has 53 significant bits, or the least exponent. -/
def exponentFor (num den : Nat) : Int :=
  let e := max (-1074) ((num.log2 : Int) - den.log2 - 53)
  let (n, d) := scale num den e
  if 0x20000000000000 ≤ n / d then e + 1 else e

/-- The double nearest to `num / den`. -/
def ofRatio (negative : Bool) (num den : Nat) : Binary64 :=
  if num = 0 then zero negative
  else
    let e := exponentFor num den
    let (n, d) := scale num den e
    let m := roundHalfEven n d
    let (m, e) := if m = 0x20000000000000 then (0x10000000000000, e + 1) else (m, e)
    if 971 < e then .infinite negative else .finite negative m e

/-- The double nearest to `digits · 10^e`. Exponents far outside the range are settled
by the number of digits alone. -/
def ofDecimal (negative : Bool) (digits : Nat) (e : Int) : Binary64 :=
  let magnitude : Int := (Numeral.digits digits).length + e
  if digits = 0 ∨ magnitude < -330 then zero negative
  else if 330 < magnitude then .infinite negative
  else if e < 0 then ofRatio negative digits (Nat.pow 10 e.natAbs)
  else ofRatio negative (digits * Nat.pow 10 e.natAbs) 1

def ratio (significand : Nat) (exponent : Int) : Nat × Nat :=
  if exponent < 0 then (significand, 1 <<< exponent.natAbs)
  else (significand <<< exponent.natAbs, 1)

def neg : Binary64 → Binary64
  | .nan => .nan
  | .infinite s => .infinite (!s)
  | .finite s m e => .finite (!s) m e

/-- The product of two finite numbers; anything else is not a number here. -/
def mulFinite : Binary64 → Binary64 → Binary64
  | .finite s₁ m₁ e₁, .finite s₂ m₂ e₂ =>
    let (n₁, d₁) := ratio m₁ e₁
    let (n₂, d₂) := ratio m₂ e₂
    ofRatio (s₁ != s₂) (n₁ * n₂) (d₁ * d₂)
  | _, _ => .nan

def divFinite : Binary64 → Binary64 → Binary64
  | .finite s₁ m₁ e₁, .finite s₂ m₂ e₂ =>
    let (n₁, d₁) := ratio m₁ e₁
    let (n₂, d₂) := ratio m₂ e₂
    if n₂ = 0 then .nan else ofRatio (s₁ != s₂) (n₁ * d₂) (d₁ * n₂)
  | _, _ => .nan

def isInfinite : Binary64 → Bool
  | .infinite _ => true
  | _ => false

def isNonzero : Binary64 → Bool
  | .finite _ m _ => m ≠ 0
  | _ => true

/-- Rounded with halves away from zero and brought into the range of 64 unsigned bits;
what is no number counts as zero. -/
def toUInt64Range : Binary64 → Nat
  | .nan => 0
  | .infinite negative => if negative then 0 else UInt64.size - 1
  | .finite negative m e =>
    if negative then 0
    else
      let (n, d) := ratio m e
      Nat.min ((2 * n + d) / (2 * d)) (UInt64.size - 1)

/-- The exponent of the leading decimal digit of `num / den`. -/
def leadingExponent (num den : Nat) : Int :=
  if den ≤ num then (Numeral.digits (num / den)).length - 1
  else
    let k := (Numeral.digits den).length - (Numeral.digits num).length
    if den ≤ num * Nat.pow 10 k then -(k : Int) else -(k : Int) - 1

/-- The points of the grid of multiples of `10^e` just below and just above `num / den`,
the nearer one first, or the one above if they are equally near. -/
def neighbours (num den : Nat) (e : Int) : Nat × Nat :=
  let (n, d) := if e < 0 then (num * Nat.pow 10 e.natAbs, den) else (num, den * Nat.pow 10 e.natAbs)
  let below := n / d
  if d ≤ 2 * (n % d) then (below + 1, below) else (below, below + 1)

/-- Searches the grids of `places`, `places + 1`, … digits for a point that reads back. -/
def shortestFrom (m : Nat) (x : Int) (top : Int) (places : Nat) : Nat → Nat × Int
  | 0 => ((neighbours (ratio m x).1 (ratio m x).2 (top - 16)).1, top - 16)
  | fuel + 1 =>
    let e := top - places + 1
    let (near, far) := neighbours (ratio m x).1 (ratio m x).2 e
    if ofDecimal false near e = .finite false m x then (near, e)
    else if ofDecimal false far e = .finite false m x then (far, e)
    else shortestFrom m x top (places + 1) fuel

/-- Moves trailing zeros of the digits into the exponent, as many as `fuel` allows. -/
def dropZeros (digits : Nat) (e : Int) : Nat → Nat × Int
  | 0 => (digits, e)
  | fuel + 1 => if digits % 10 = 0 then dropZeros (digits / 10) (e + 1) fuel else (digits, e)

/-- The shortest decimal `digits · 10^exponent` that reads back as `m · 2^x`, and of those
the nearest. -/
def shortest (m : Nat) (x : Int) : Nat × Int :=
  let (digits, e) := shortestFrom m x (leadingExponent (ratio m x).1 (ratio m x).2) 1 17
  dropZeros digits e 17

/-- Digits with the decimal point put in, without an exponent. -/
def positional (digits : Nat) (e : Int) : List Char :=
  let ds := Numeral.digits digits
  if 0 ≤ e then ds ++ List.replicate e.natAbs '0'
  else if e.natAbs < ds.length then
    ds.take (ds.length - e.natAbs) ++ '.' :: ds.drop (ds.length - e.natAbs)
  else '0' :: '.' :: (List.replicate (e.natAbs - ds.length) '0' ++ ds)

/-- The shortest text that reads back, always positional and without a fraction where the
number is whole. -/
def text : Binary64 → String
  | .nan => "NaN"
  | .infinite negative => if negative then "-inf" else "inf"
  | .finite negative m e =>
    let body := if m = 0 then ['0'] else
      let (ds, p) := shortest m e
      positional ds p
    String.ofList (if negative then '-' :: body else body)

end Binary64

end HostSteward
