import HostSteward.Proofs.Json.Integers
import HostSteward.Proofs.Settings.Placing
import HostSteward.Proofs.Toml.Integers
import Mathlib.Data.Nat.Digits.Defs

/-!
# What the readers make of an integer

A file and a variable hold integers of 64 bits with a sign as they are. An integer beyond these is
refused in TOML; in JSON and in a variable it becomes a double, as long as JSON has one that large.
A double is later taken for the nearest number of 64 bits without a sign.
-/

namespace HostSteward.Settings

variable {w rest : List Char} {n : Int}

/-! ## Integers beyond 64 bits -/

/-- The number that stands in for an integer beyond 64 bits with a sign: zero for one below them, and
for one above them the nearest double, brought into the range of 64 bits. -/
def standIn (n : Int) : Nat :=
  if n < 0 then 0 else min (Binary64.roundHalfEven n.toNat 2048 * 2048) (UInt64.size - 1)

def taken? (n : Int) : Option Nat :=
  if Numeral.fitsInt64 n then if 0 ≤ n then some n.toNat else none else some (standIn n)

theorem fitsInt64_iff : Numeral.fitsInt64 n = true ↔
    -0x8000000000000000 ≤ n ∧ n < 0x8000000000000000 := by
  rw [Numeral.fitsInt64, Bool.and_eq_true, decide_eq_true_eq, decide_eq_true_eq]

/-- An integer beyond 64 bits with a sign stands in for itself if it is among the multiples of 2048
below `2^64`, or is the last number before `2^64`. -/
theorem standIn_eq_self_iff (h : Numeral.fitsInt64 n = false) : (standIn n : Int) = n ↔
    0 ≤ n ∧ n < UInt64.size ∧ (2048 ∣ n ∨ n = UInt64.size - 1) := by
  have hsize : UInt64.size = 18446744073709551616 := rfl
  have hbeyond := mt fitsInt64_iff.2 (Bool.eq_false_iff.1 h)
  unfold standIn
  split
  next hn => omega
  next hn =>
    obtain ⟨k, rfl⟩ := Int.eq_ofNat_of_zero_le (Int.not_lt.1 hn)
    rw [Int.toNat_natCast]
    have hround : Binary64.roundHalfEven k 2048 = k / 2048 ∧ k % 2048 ≤ 1024 ∨
        Binary64.roundHalfEven k 2048 = k / 2048 + 1 ∧ 1024 ≤ k % 2048 := by
      unfold Binary64.roundHalfEven
      dsimp only
      split <;> omega
    constructor
    · intro heq
      exact ⟨by omega, by omega, by omega⟩
    · rintro ⟨-, hlt, hdvd | hlast⟩
      · omega
      · omega

theorem number?_int (h : Numeral.fitsInt64 n = true) : Lenient.number? (.int n) = taken? n := by
  have hsize : UInt64.size = 18446744073709551616 := rfl
  have hbounds := fitsInt64_iff.1 h
  rw [Lenient.number?, taken?, if_pos h]
  split
  next hpos => rw [if_pos hpos.1]
  next hneg => rw [if_neg (by omega)]

theorem taken?_ofRatio {k : Nat} (h : Numeral.fitsInt64 k = false) :
    some (Binary64.ofRatio false k 1).toUInt64Range = taken? k := by
  have hbeyond := mt fitsInt64_iff.2 (Bool.eq_false_iff.1 h)
  have hneg : ¬ (k : Int) < 0 := by omega
  rw [taken?, if_neg (Bool.eq_false_iff.1 h), standIn, if_neg hneg, Int.toNat_natCast,
    Binary64.toUInt64Range_ofRatio (by omega)]

theorem number?_narrow_int (hlow : -0x8000000000000000 ≤ n) :
    Lenient.number? (narrow (.int n)) = taken? n := by
  rw [narrow]
  split
  next hfits => exact number?_int hfits
  next hfits =>
    have hbeyond := mt fitsInt64_iff.2 hfits
    obtain ⟨k, rfl⟩ := Int.eq_ofNat_of_zero_le (show 0 ≤ n by omega)
    have hneg : ¬ (k : Int) < 0 := by omega
    rw [← taken?_ofRatio (Bool.eq_false_iff.2 hfits), decide_eq_false hneg, Int.natAbs_natCast]
    rfl

theorem taken?_beyond (h : n = 0 ∨ n < -0x8000000000000000 ∨ UInt64.size ≤ n) :
    taken? n = some (if n ≤ 0 then 0 else UInt64.size - 1) := by
  have hsize : UInt64.size = 18446744073709551616 := rfl
  unfold taken?
  by_cases hzero : n = 0
  · subst hzero
    rfl
  · have hfits : ¬ Numeral.fitsInt64 n = true := fun hfits => by
      have hbounds := fitsInt64_iff.1 hfits
      omega
    rw [if_neg hfits, standIn]
    split
    next hneg => rw [if_pos (by omega)]
    next hpos =>
      have hround := Binary64.le_roundHalfEven n.toNat 2048
      rw [if_neg (by omega)]
      congr 1
      omega

/-! ## Files -/

namespace FileFormat

def Writes : FileFormat → List Char → Int → Prop
  | .toml => Toml.Writes
  | .json => Json.Reader.Writes

def Ends : FileFormat → List Char → Prop
  | .toml => Toml.Ends
  | .json => Json.Reader.Ends

def literal? : FileFormat → List Char → Option Json
  | .toml, cs => (Toml.scalar? cs).map (·.1)
  | .json, cs => (Json.Reader.number? cs).map fun read => narrow read.1

def Refuses : FileFormat → Int → Prop
  | .toml, n => Numeral.fitsInt64 n = false
  | .json, n => UInt64.size ≤ n.natAbs

theorem literal?_integer {format : FileFormat} (hw : format.Writes w n) (hrest : format.Ends rest) :
    format.literal? (w ++ rest) = none ∧ format.Refuses n ∨
      ∃ v, format.literal? (w ++ rest) = some v ∧ (format = .toml → Numeral.fitsInt64 n = true) ∧
        IsPlain v ∧ Lenient.number? v = taken? n := by
  cases format with
  | toml =>
    rw [literal?, Toml.scalar?_integer hw hrest, Toml.integerIn?]
    split
    next hfits =>
      exact .inr ⟨.int n, rfl, fun _ => hfits, fun _ => rfl, number?_int hfits⟩
    next hfits => exact .inl ⟨rfl, Bool.eq_false_iff.2 hfits⟩
  | json =>
    have hread := Json.Reader.number?_integer hw hrest
    rw [literal?]
    generalize Json.Reader.number? (w ++ rest) = read at hread ⊢
    cases hread with
    | integer hlow hhigh =>
      refine .inr ⟨narrow (.int n), rfl, fun h => (by cases h), fun below => ?_, number?_narrow_int hlow⟩
      rw [narrow]
      split <;> rfl
    | @real x hbeyond hrange =>
      refine .inr ⟨.real x, rfl, fun h => (by cases h), fun _ => rfl, ?_⟩
      rw [taken?_beyond hbeyond, ← hrange]
      rfl
    | refused hlarge => exact .inl ⟨rfl, hlarge⟩

end FileFormat

/-! ## Variables -/

/-- A variable may hold a number beyond all doubles. -/
theorem toUInt64Range_ofDecimal (negative : Bool) {k : Nat}
    (h : Numeral.fitsInt64 (if negative then -(k : Int) else k) = false) :
    some (Binary64.ofDecimal negative k 0).toUInt64Range =
      taken? (if negative then -(k : Int) else k) := by
  have hk : k ≠ 0 := by
    rintro rfl
    cases negative <;> cases h
  have hdecimal : Binary64.ofDecimal negative k 0 =
      if 330 < (Numeral.digits k).length then .infinite negative else .ofRatio negative k 1 := by
    have hlow : ¬ (k = 0 ∨ ((Numeral.digits k).length + 0 : Int) < -330) := by omega
    have hone : k * Nat.pow 10 (Int.natAbs 0) = k := Nat.mul_one k
    unfold Binary64.ofDecimal
    dsimp only
    rw [if_neg hlow, if_neg (Int.lt_irrefl 0), hone]
    split
    next hlong => rw [if_pos (by omega)]
    next hshort => rw [if_neg (by omega)]
  rw [hdecimal]
  cases negative with
  | true =>
    have hneg : -(k : Int) < 0 := by omega
    have hbeyond : Numeral.fitsInt64 (-(k : Int)) = false := h
    change _ = taken? (-(k : Int))
    rw [taken?, if_neg (Bool.eq_false_iff.1 hbeyond), standIn, if_pos hneg]
    split
    next => rfl
    next => rw [Binary64.toUInt64Range_ofRatio_negative]
  | false =>
    split
    next hlong =>
      have hsize : UInt64.size = 18446744073709551616 := rfl
      have hlarge : UInt64.size ≤ k := by
        by_contra hsmall
        have hlength : (Numeral.digits k).length ≤ 20 :=
          Nat.toDigits_length 10 k 20 (by decide) (by omega)
        omega
      change _ = taken? (k : Int)
      rw [taken?_beyond (.inr (.inr (by omega))), if_neg (by omega)]
      rfl
    next => exact taken?_ofRatio h

theorem readReal?_of_sign {negative : Bool} {ds : List Char} (hsign : Toml.sign w = (negative, ds))
    (hne : ds ≠ []) (hds : ∀ c ∈ ds, c.isDigit = true) :
    readReal? w = some (.ofDecimal negative (Nat.ofDigitChars 10 ds 0) 0) := by
  have hlower : ds.map Char.toLower = ds :=
    (List.map_congr_left fun c hc => (Text.isSmall_of_isDigit (hds c hc)).2).trans (List.map_id ds)
  have hword {word : String} {c : Char} (hmem : c ∈ word.toList) (hc : c.isDigit = false) :
      String.ofList ds ≠ word := by
    rintro rfl
    rw [String.toList_ofList] at hmem
    rw [hds c hmem] at hc
    cases hc
  have hinf : String.ofList ds ≠ "inf" := hword (show 'i' ∈ "inf".toList by decide) (by decide)
  have hinfinity : String.ofList ds ≠ "infinity" :=
    hword (show 'i' ∈ "infinity".toList by decide) (by decide)
  have hnan : String.ofList ds ≠ "nan" := hword (show 'n' ∈ "nan".toList by decide) (by decide)
  have htake : ds.takeWhile Char.isDigit = ds := List.takeWhile_eq_self_iff.2 hds
  have hdrop : ds.dropWhile Char.isDigit = [] := List.dropWhile_eq_nil_iff.2 hds
  have hempty : ds.isEmpty = false := by simpa using hne
  unfold readReal?
  rw [hsign]
  dsimp only
  rw [hlower, if_neg (not_or.2 ⟨hinf, hinfinity⟩), if_neg hnan, htake, hdrop, hempty]
  dsimp only
  rw [List.append_nil]
  rfl

theorem readReal?_of_writes (hw : Numeral.Writes w n) : ∃ (negative : Bool) (k : Nat),
    n = (if negative then -(k : Int) else k) ∧ readReal? w = some (.ofDecimal negative k 0) := by
  cases hw with
  | unsigned hne hds =>
    have hsign : Toml.sign w = (false, w) := by
      obtain ⟨c, ds, rfl⟩ := List.exists_cons_of_ne_nil hne
      exact Toml.sign_of_isDigit (hds c List.mem_cons_self) ds
    exact ⟨false, _, rfl, readReal?_of_sign hsign hne hds⟩
  | plus hne hds => exact ⟨false, _, rfl, readReal?_of_sign rfl hne hds⟩
  | minus hne hds => exact ⟨true, _, rfl, readReal?_of_sign rfl hne hds⟩

theorem number?_variableValue (hw : Numeral.Writes w n) :
    Lenient.number? (variableValue (String.ofList w)) = taken? n := by
  have hswitch : Text.lowercase (String.ofList w) ∉ ["true", "false"] := by
    refine no_switch_of_signed fun c hc => ?_
    rw [String.toList_ofList] at hc
    exact hw.sign_or_isDigit hc
  rw [variableValue_of_no_switch hswitch, String.toList_ofList, Numeral.readInt64?_of_writes hw]
  by_cases hfits : Numeral.fitsInt64 n = true
  · rw [if_pos hfits]
    exact number?_int hfits
  · obtain ⟨negative, k, rfl, hread⟩ := readReal?_of_writes hw
    rw [if_neg hfits, hread]
    exact toUInt64Range_ofDecimal negative (Bool.eq_false_iff.2 hfits)

end HostSteward.Settings
