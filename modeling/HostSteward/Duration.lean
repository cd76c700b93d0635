import HostSteward.Numeral

/-!
# Spans of time

A `Duration` counts nanoseconds and holds whole seconds of 64 bits. Operations that
could leave that range say so with `none`.
-/

namespace HostSteward

structure Duration where
  nanoseconds : Nat
  bounded : nanoseconds < UInt64.size * 1000000000
deriving DecidableEq

namespace Duration

def ofNanoseconds? (n : Nat) : Option Duration :=
  if h : n < UInt64.size * 1000000000 then some ⟨n, h⟩ else none

/-- Nanoseconds beyond a second are carried over. -/
def ofParts? (seconds nanoseconds : Nat) : Option Duration :=
  ofNanoseconds? (seconds * 1000000000 + nanoseconds)

def ofMilliseconds (ms : UInt64) : Duration where
  nanoseconds := ms.toNat * 1000000
  bounded := by
    have := ms.toNat_lt
    simp only [UInt64.size]
    omega

def ofSeconds (s : UInt64) : Duration where
  nanoseconds := s.toNat * 1000000000
  bounded := by
    have := s.toNat_lt
    simp only [UInt64.size]
    omega

def seconds (d : Duration) : Nat := d.nanoseconds / 1000000000

def subsecond (d : Duration) : Nat := d.nanoseconds % 1000000000

def milliseconds (d : Duration) : Nat := d.nanoseconds / 1000000

instance : LE Duration := ⟨fun a b => a.nanoseconds ≤ b.nanoseconds⟩

instance (a b : Duration) : Decidable (a ≤ b) :=
  inferInstanceAs (Decidable (a.nanoseconds ≤ b.nanoseconds))

def min (a b : Duration) : Duration := if a ≤ b then a else b

/-- The multiple, unless it leaves the range. -/
def times? (d : Duration) (n : Nat) : Option Duration := ofNanoseconds? (d.nanoseconds * n)

/-- A number of `unit`s with a decimal fraction, trailing zeros dropped. -/
def inUnit (nanoseconds unit places : Nat) : String :=
  let fraction := (Numeral.padded places (nanoseconds % unit)).reverse.dropWhile (· = '0')
  let point := if fraction.isEmpty then [] else '.' :: fraction.reverse
  String.ofList (Numeral.digits (nanoseconds / unit) ++ point)

/-- The largest unit with a non-zero whole part is used. -/
def text (d : Duration) : String :=
  let n := d.nanoseconds
  if 1000000000 ≤ n then inUnit n (1000000000) 9 ++ "s"
  else if 1000000 ≤ n then inUnit n (1000000) 6 ++ "ms"
  else if 1000 ≤ n then inUnit n (1000) 3 ++ "µs"
  else Numeral.text n ++ "ns"

theorem ofParts?_seconds_subsecond (d : Duration) :
    ofParts? d.seconds d.subsecond = some d := by
  have h : d.seconds * 1000000000 + d.subsecond = d.nanoseconds := by
    simp only [seconds, subsecond]
    omega
  simp only [ofParts?, h, ofNanoseconds?, d.bounded, dif_pos]

end Duration

end HostSteward
