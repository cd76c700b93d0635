import HostSteward.Json.Reader
import HostSteward.Proofs.Doubles
import HostSteward.Proofs.Numerals

/-!
# Integers in JSON

An integer is read as such if it has 64 bits, with or without a sign. From there on its leading
digits are taken for a significand and the others for a power of ten, and what is read is a double,
if there is one that large.
-/

namespace HostSteward.Json.Reader

open Numeral

variable {cs ds rest : List Char} {n : Nat}

inductive Writes : List Char → Int → Prop
  | unsigned (n : Nat) : Writes (digits n) n
  | minus (n : Nat) : Writes ('-' :: digits n) (-(n : Int))

/-- What comes after a value begins like this, if there is anything. -/
def Ends (rest : List Char) : Prop := ∀ c ∈ rest.head?, c ∈ [' ', '\t', '\r', '\n', ',', ']', '}']

theorem Ends.forall {P : Char → Prop} [DecidablePred P] (h : Ends rest)
    (hall : [' ', '\t', '\r', '\n', ',', ']', '}'].all (fun c => P c) = true) :
    ∀ c ∈ rest.head?, P c :=
  fun c hc => of_decide_eq_true (List.all_eq_true.1 hall c (h c hc))

/-! ## Significands -/

theorem le_ofDigitChars (ds : List Char) (init : Nat) : init ≤ Nat.ofDigitChars 10 ds init := by
  rw [Nat.ofDigitChars_eq_ofDigitChars_zero]
  have hpow : 1 ≤ 10 ^ ds.length := Nat.one_le_pow _ _ (by decide)
  calc init = 1 * init := (Nat.one_mul init).symm
    _ ≤ 10 ^ ds.length * init := Nat.mul_le_mul_right init hpow
    _ ≤ _ := Nat.le_add_right _ _

/-- Digits are all taken if their number has 64 bits; else some are left, and the number of those
that are taken is a tenth of what has too many bits. -/
theorem accumulate_digits (hds : ∀ c ∈ ds, c.isDigit = true) {s : Nat} (hs : s < UInt64.size)
    (taken : Nat) :
    (Nat.ofDigitChars 10 ds s < UInt64.size ∧
      accumulate s taken ds = (Nat.ofDigitChars 10 ds s, taken + ds.length, [])) ∨
    UInt64.size ≤ Nat.ofDigitChars 10 ds s ∧ ∃ s' taken' rest,
      accumulate s taken ds = (s', taken', rest) ∧ 1844674407370955161 ≤ s' ∧ s' < UInt64.size ∧
        taken' < taken + ds.length := by
  induction ds generalizing s taken with
  | nil => exact .inl ⟨hs, rfl⟩
  | cons c ds ih =>
    obtain ⟨hc, hds⟩ := List.forall_mem_cons.1 hds
    have hsize : UInt64.size = 18446744073709551616 := rfl
    rw [accumulate, if_pos hc, Nat.ofDigitChars_cons, Nat.mul_comm 10 s]
    dsimp only
    split
    next hnext =>
      rcases ih hds hnext (taken + 1) with ⟨hfits, heq⟩ | ⟨hlarge, s', taken', rest, heq, hrest⟩
      · refine .inl ⟨hfits, ?_⟩
        rw [heq, List.length_cons, Nat.add_assoc, Nat.add_comm 1]
      · refine .inr ⟨hlarge, s', taken', rest, heq, hrest.1, hrest.2.1, ?_⟩
        rw [List.length_cons]
        omega
    next hnext =>
      have hdigit : c.toNat - '0'.toNat ≤ 9 := by
        have hhigh : c.toNat ≤ 57 := (Char.isDigit_iff_toNat.1 hc).2
        have hzero : '0'.toNat = 48 := rfl
        omega
      have hle := le_ofDigitChars ds (s * 10 + (c.toNat - '0'.toNat))
      refine .inr ⟨by omega, s, taken, c :: ds, rfl, by omega, hs, ?_⟩
      rw [List.length_cons]
      omega

/-- Of the digits of a number, either all are taken or those of a tenth of `2^64` at least. -/
theorem accumulate_number (n : Nat) :
    (n < UInt64.size ∧ accumulate 0 0 (digits n) = (n, (digits n).length, [])) ∨
    UInt64.size ≤ n ∧ ∃ s taken rest, accumulate 0 0 (digits n) = (s, taken, rest) ∧
      1844674407370955161 ≤ s ∧ s < UInt64.size ∧ taken < (digits n).length := by
  have hdigits : ∀ c ∈ digits n, c.isDigit = true := fun c hc => isDigit_of_mem_digits hc
  have haccumulate := accumulate_digits hdigits (by decide : 0 < UInt64.size) 0
  rwa [ofDigitChars_digits, Nat.zero_add] at haccumulate

/-! ## Doubles -/

theorem toUInt64Range_neg_mulFinite (a b c d : Nat) :
    ((Binary64.ofRatio false a b).mulFinite (Binary64.ofRatio false c d)).neg.toUInt64Range = 0 := by
  rcases Binary64.ofRatio_cases false a b with hx | ⟨m, e, hx⟩
  · rw [hx]
    rfl
  · rcases Binary64.ofRatio_cases false c d with hy | ⟨p, q, hy⟩
    · rw [hx, hy]
      rfl
    · have hmul : (Binary64.finite false m e).mulFinite (.finite false p q) =
          .ofRatio false ((Binary64.ratio m e).1 * (Binary64.ratio p q).1)
            ((Binary64.ratio m e).2 * (Binary64.ratio p q).2) := rfl
      rw [hx, hy, hmul]
      rcases Binary64.ofRatio_cases false ((Binary64.ratio m e).1 * (Binary64.ratio p q).1)
        ((Binary64.ratio m e).2 * (Binary64.ratio p q).2) with hz | ⟨r, t, hz⟩
      · rw [hz]
        rfl
      · rw [hz]
        rfl

theorem realOfParts?_natCast (negative : Bool) {s : Nat} (hs : s ≠ 0) (k : Nat) :
    realOfParts? negative s k =
      let x := (Binary64.ofRatio false s 1).mulFinite (.ofRatio false (Nat.pow 10 k) 1)
      if k ≤ 308 ∧ x.isInfinite = false then some (if negative then x.neg else x) else none := by
  unfold realOfParts?
  dsimp only
  rw [if_neg hs, if_pos (Int.natCast_nonneg k), Int.natAbs_natCast]
  by_cases hk : k ≤ 308
  · rw [if_neg (by omega)]
    by_cases hinf : ((Binary64.ofRatio false s 1).mulFinite
        (.ofRatio false (Nat.pow 10 k) 1)).isInfinite = true
    · rw [if_pos hinf, if_neg fun h => by rw [h.2] at hinf; cases hinf]
    · have hfinite := Bool.eq_false_iff.2 hinf
      simp only [hfinite, hk, and_self, if_true, Bool.false_eq_true, if_false]
  · rw [if_pos (by omega), if_neg fun h => hk h.1]

/-- Below zero there is nothing in the range of unsigned integers. -/
theorem toUInt64Range_of_negative {s k : Nat} {x : Binary64} (hx : realOfParts? true s k = some x) :
    x.toUInt64Range = 0 := by
  by_cases hs : s = 0
  · rw [realOfParts?, if_pos hs] at hx
    cases hx
    rw [hs]
    rfl
  · rw [realOfParts?_natCast true hs] at hx
    dsimp only at hx
    split at hx
    next =>
      cases hx
      exact toUInt64Range_neg_mulFinite s 1 (Nat.pow 10 k) 1
    next => cases hx

theorem toUInt64Range_of_large {s k : Nat} {x : Binary64} (hs : 1844674407370955161 ≤ s)
    (hsize : s < UInt64.size) (hk : 1 ≤ k) (hx : realOfParts? false s k = some x) :
    x.toUInt64Range = UInt64.size - 1 := by
  rw [realOfParts?_natCast false (by omega)] at hx
  dsimp only at hx
  split at hx
  next hfinite =>
    cases hx
    exact Binary64.toUInt64Range_mulFinite hs hsize hk hfinite.1
  next => cases hx

/-- What has 64 bits without a sign, but not with one, is not too large for a double. -/
theorem isSome_realOfParts? (negative : Bool) (hn : 0x8000000000000000 ≤ n) (hsize : n < UInt64.size) :
    (realOfParts? negative n (0 : Nat)).isSome := by
  have hpow : UInt64.size = 18446744073709551616 := rfl
  have hlog : n.log2 = 52 + 11 := by
    rw [Nat.log2_eq_iff (by omega)]
    omega
  obtain ⟨m, e, hx, hratio⟩ := Binary64.ofRatio_whole (by omega) (by omega) hlog false
  have hone : Binary64.ofRatio false (Nat.pow 10 0) 1 = .finite false 4503599627370496 (-52) := by
    decide +kernel
  have hunit : Nat.pow 2 11 = 2048 := rfl
  have hprod : (Binary64.finite false m e).mulFinite (.finite false 4503599627370496 (-52)) =
      .ofRatio false ((Binary64.ratio m e).1 * 4503599627370496)
        ((Binary64.ratio m e).2 * 4503599627370496) := rfl
  rw [hratio, hunit] at hprod
  have hlow := Binary64.le_roundHalfEven n 2048
  have hhigh : Binary64.roundHalfEven n 2048 ≤ n / 2048 + 1 := by
    unfold Binary64.roundHalfEven
    dsimp only
    split <;> omega
  have hbits : (Binary64.roundHalfEven n 2048 * 2048 * 4503599627370496).log2 < 117 := by
    rw [Nat.log2_lt (by omega)]
    omega
  obtain ⟨p, q, hz⟩ : ∃ p q, Binary64.ofRatio false
      (Binary64.roundHalfEven n 2048 * 2048 * 4503599627370496) (1 * 4503599627370496) =
        .finite false p q := Binary64.exists_finite_ofRatio (by omega) false
  dsimp only at hprod
  rw [realOfParts?_natCast negative (by omega), hx, hone, hprod, hz, if_pos ⟨by omega, rfl⟩]
  rfl

/-! ## Numbers -/

theorem fraction?_of_ends (hrest : Ends rest) (negative : Bool) (s : Nat) (e : Int) :
    fraction? negative s e rest = (realOfParts? negative s e).map fun x => (.real x, rest) := by
  have hplain := hrest.forall (P := fun c => c ≠ '.' ∧ ¬ (c = 'e' ∨ c = 'E')) (by decide)
  cases rest with
  | nil => rfl
  | cons c rest =>
    obtain ⟨hpoint, hexponent⟩ := hplain c rfl
    unfold fraction?
    split
    next heq => exact absurd (List.cons.inj heq).1 hpoint
    next =>
      unfold exponent?
      exact if_neg hexponent

theorem dropWhile_eq_self_of_head {rest : List Char} (h : ∀ c ∈ rest.head?, c.isDigit = false) :
    rest.takeWhile Char.isDigit = [] ∧ rest.dropWhile Char.isDigit = rest := by
  cases rest with
  | nil => exact ⟨rfl, rfl⟩
  | cons c rest =>
    have hc := h c rfl
    rw [List.takeWhile_cons_of_neg (by simp [hc]), List.dropWhile_cons_of_neg (by simp [hc])]
    exact ⟨rfl, rfl⟩

/-- The number that the digits of a whole number are read as, if nothing but them is written. -/
theorem magnitude?_eq (negative : Bool) (n : Nat) (hrest : Ends rest) :
    magnitude? negative (digits n ++ rest) =
      let (s, taken, _) := accumulate 0 0 (digits n)
      let dropped : Nat := (digits n).length - taken
      if dropped = 0 && !negative then some (.int s, rest)
      else if dropped = 0 && negative && 0 < s && fitsInt64 (-(s : Int)) then
        some (.int (-(s : Int)), rest)
      else (realOfParts? negative s dropped).map fun x => (.real x, rest) := by
  have hdigits : ∀ c ∈ digits n, c.isDigit = true := fun c hc => isDigit_of_mem_digits hc
  have hstops := hrest.forall (P := fun c => c.isDigit = false) (by decide)
  have htake : (digits n ++ rest).takeWhile Char.isDigit = digits n := by
    rw [List.takeWhile_append_of_pos hdigits, (dropWhile_eq_self_of_head hstops).1, List.append_nil]
  have hdrop : (digits n ++ rest).dropWhile Char.isDigit = rest := by
    rw [List.dropWhile_append_of_pos hdigits, (dropWhile_eq_self_of_head hstops).2]
  have hlead : ((digits n).isEmpty ||
      ((digits n).head? = some '0' && (digits n).length ≠ 1)) = false := by
    obtain ⟨c, tail, hcons, -, hzero⟩ := digits_eq_cons n
    rw [hcons]
    by_cases hc : c = '0'
    · rw [hzero hc]
      simp
    · simp [hc]
  have hwhole : (!(rest.head? = some '.' || rest.head? = some 'e' || rest.head? = some 'E')) =
      true := by
    have hplain := hrest.forall (P := fun c => c ≠ '.' ∧ c ≠ 'e' ∧ c ≠ 'E') (by decide)
    cases rest with
    | nil => rfl
    | cons c rest =>
      obtain ⟨hpoint, hsmall, hcapital⟩ := hplain c rfl
      simp [hpoint, hsmall, hcapital]
  unfold magnitude?
  dsimp only
  rw [htake, hdrop, hlead, hwhole]
  simp only [Bool.false_eq_true, if_false, Bool.true_and, fraction?_of_ends hrest]

theorem magnitude?_of_lt (negative : Bool) (hrest : Ends rest) (hsize : n < UInt64.size) :
    magnitude? negative (digits n ++ rest) =
      if negative = false then some (.int n, rest)
      else if 0 < n ∧ fitsInt64 (-(n : Int)) = true then some (.int (-(n : Int)), rest)
      else (realOfParts? negative n (0 : Nat)).map fun x => (.real x, rest) := by
  rcases accumulate_number n with ⟨-, heq⟩ | ⟨hlarge, -⟩
  · rw [magnitude?_eq negative n hrest, heq]
    cases negative <;> simp
  · omega

theorem magnitude?_of_le (negative : Bool) (hrest : Ends rest) (hsize : UInt64.size ≤ n) :
    ∃ s k : Nat, 1844674407370955161 ≤ s ∧ s < UInt64.size ∧ 1 ≤ k ∧
      magnitude? negative (digits n ++ rest) =
        (realOfParts? negative s k).map fun x => (.real x, rest) := by
  rcases accumulate_number n with ⟨hfits, -⟩ | ⟨-, s, taken, left, heq, hlow, hhigh, htaken⟩
  · omega
  · have hdropped : (digits n).length - taken ≠ 0 := by omega
    refine ⟨s, (digits n).length - taken, hlow, hhigh, by omega, ?_⟩
    rw [magnitude?_eq negative n hrest, heq]
    simp only [hdropped, decide_false, Bool.false_and, Bool.false_eq_true, if_false]

/-- What an integer is read as: itself, a double, or nothing. -/
inductive Reads (n : Int) (rest : List Char) : Option (Json × List Char) → Prop
  | integer (hlow : -0x8000000000000000 ≤ n) (hhigh : n < UInt64.size) :
      Reads n rest (some (.int n, rest))
  | real {x : Binary64} (hbeyond : n = 0 ∨ n < -0x8000000000000000 ∨ UInt64.size ≤ n)
      (hrange : x.toUInt64Range = if n ≤ 0 then 0 else UInt64.size - 1) :
      Reads n rest (some (.real x, rest))
  | refused (hlarge : UInt64.size ≤ n.natAbs) : Reads n rest none

theorem reads_unsigned (n : Nat) (hrest : Ends rest) :
    Reads n rest (magnitude? false (digits n ++ rest)) := by
  have hsize : UInt64.size = 18446744073709551616 := rfl
  by_cases hn : n < UInt64.size
  · rw [magnitude?_of_lt false hrest hn, if_pos rfl]
    exact .integer (by omega) (by omega)
  · obtain ⟨s, k, hlow, hhigh, hk, hread⟩ := magnitude?_of_le false hrest (Nat.not_lt.1 hn)
    rw [hread]
    cases hreal : realOfParts? false s k with
    | none => exact .refused (by omega)
    | some x =>
      refine .real (.inr (.inr (by omega))) ?_
      rw [toUInt64Range_of_large hlow hhigh hk hreal, if_neg (by omega)]

theorem reads_minus (n : Nat) (hrest : Ends rest) :
    Reads (-(n : Int)) rest (magnitude? true (digits n ++ rest)) := by
  have hsize : UInt64.size = 18446744073709551616 := rfl
  by_cases hn : n < UInt64.size
  · rw [magnitude?_of_lt true hrest hn, if_neg (by decide)]
    split
    next hfits =>
      simp only [fitsInt64, Bool.and_eq_true, decide_eq_true_eq] at hfits
      exact .integer (by omega) (by omega)
    next hbeyond =>
      simp only [fitsInt64, Bool.and_eq_true, decide_eq_true_eq, not_and] at hbeyond
      have hsome : (realOfParts? true n (0 : Nat)).isSome := by
        by_cases hzero : n = 0
        · rw [realOfParts?, if_pos hzero]
          rfl
        · exact isSome_realOfParts? true (by omega) hn
      obtain ⟨x, hx⟩ := Option.isSome_iff_exists.1 hsome
      rw [hx]
      refine .real (by omega) ?_
      rw [toUInt64Range_of_negative hx, if_pos (by omega)]
  · obtain ⟨s, k, -, -, -, hread⟩ := magnitude?_of_le true hrest (Nat.not_lt.1 hn)
    rw [hread]
    cases hreal : realOfParts? true s k with
    | none => exact .refused (by omega)
    | some x =>
      refine .real (.inr (.inl (by omega))) ?_
      rw [toUInt64Range_of_negative hreal, if_pos (by omega)]

theorem number?_digits (n : Nat) (rest : List Char) :
    number? (digits n ++ rest) = magnitude? false (digits n ++ rest) := by
  obtain ⟨c, tail, hdigits, hc, -⟩ := digits_eq_cons n
  rw [hdigits, List.cons_append]
  unfold number?
  split
  next heq =>
    rw [(List.cons.inj heq).1] at hc
    cases hc
  next => rfl

theorem number?_integer {w : List Char} {n : Int} (hw : Writes w n) (hrest : Ends rest) :
    Reads n rest (number? (w ++ rest)) := by
  cases hw with
  | unsigned n =>
    rw [number?_digits]
    exact reads_unsigned n hrest
  | minus n =>
    rw [List.cons_append, number?]
    exact reads_minus n hrest

theorem Writes.exists_cons {w : List Char} {n : Int} (h : Writes w n) :
    ∃ c more, w = c :: more ∧ (c = '-' ∨ c.isDigit = true) := by
  cases h with
  | unsigned n =>
    obtain ⟨c, tail, hdigits, hc, -⟩ := digits_eq_cons n
    exact ⟨c, tail, hdigits, .inr hc⟩
  | minus n => exact ⟨'-', _, rfl, .inl rfl⟩

/-- Where an integer stands nothing but a number is read. -/
theorem value?_integer {w : List Char} {n : Int} (hw : Writes w n) (rest : List Char)
    (depth fuel : Nat) : value? depth (fuel + 1) (w ++ rest) = number? (w ++ rest) := by
  obtain ⟨c, more, rfl, hc⟩ := hw.exists_cons
  have hother (d : Char) (hd : d ≠ '-' ∧ d.isDigit = false) (tail : List Char) :
      c :: more ++ rest ≠ d :: tail := by
    intro heq
    obtain rfl := (List.cons.inj heq).1
    rcases hc with rfl | hc
    · exact hd.1 rfl
    · rw [hd.2] at hc
      cases hc
  unfold value?
  split
  next heq => cases heq
  next heq => exact absurd heq (hother '"' (by decide) _)
  next heq => exact absurd heq (hother '[' (by decide) _)
  next heq => exact absurd heq (hother '{' (by decide) _)
  next heq => exact absurd heq (hother 't' (by decide) _)
  next heq => exact absurd heq (hother 'f' (by decide) _)
  next heq => exact absurd heq (hother 'n' (by decide) _)
  next => rfl

end HostSteward.Json.Reader
