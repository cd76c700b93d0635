/-!
# Decimal numerals

Writing natural numbers in decimal and reading them back. `read?_digits` is the
round trip; readers of signed and bounded integers are built on `read?`.
-/

namespace HostSteward.Numeral

def digits (n : Nat) : List Char := Nat.toDigits 10 n

def text (n : Nat) : String := String.ofList (digits n)

/-- Reads a non-empty run of ASCII digits; leading zeros are allowed. -/
def read? (cs : List Char) : Option Nat :=
  if cs.isEmpty || !cs.all Char.isDigit then none else some (Nat.ofDigitChars 10 cs 0)

def padded (width n : Nat) : List Char :=
  let ds := digits n
  List.replicate (width - ds.length) '0' ++ ds

/-- Reads digits after an optional sign; a lone sign is no numeral. -/
def readSigned? : List Char → Option Int
  | '-' :: cs => (read? cs).map fun n => -(n : Int)
  | '+' :: cs => (read? cs).map Int.ofNat
  | cs => (read? cs).map Int.ofNat

def fitsInt64 (n : Int) : Bool := -0x8000000000000000 ≤ n && n < 0x8000000000000000

def readInt64? (cs : List Char) : Option Int := do
  let n ← readSigned? cs
  if fitsInt64 n then some n else none

/-- Reads an unsigned numeral of the 64-bit range; a plus sign may lead it. -/
def readUInt64? (cs : List Char) : Option Nat := do
  let n ← read? (match cs with | '+' :: rest => rest | cs => cs)
  if n < UInt64.size then some n else none

theorem digits_ne_nil (n : Nat) : digits n ≠ [] := by
  simp [digits]

theorem isDigit_of_mem_digits {n : Nat} {c : Char} (h : c ∈ digits n) : c.isDigit = true :=
  Nat.isDigit_of_mem_toDigits (by decide) (by decide) h

theorem read?_digits (n : Nat) : read? (digits n) = some n := by
  have h₁ : (digits n).isEmpty = false := by simp [digits_ne_nil]
  have h₂ : (digits n).all Char.isDigit = true :=
    List.all_eq_true.2 fun c hc => isDigit_of_mem_digits hc
  simp only [read?, h₁, h₂]
  exact congrArg some (Nat.ofDigitChars_toDigits (by decide) (by decide))

end HostSteward.Numeral
