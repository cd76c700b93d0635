import HostSteward.Binary64
import Mathlib.Tactic.Ring

/-!
# Whole numbers as doubles

The double that is nearest to a ratio is a significand in units of a power of two. From the bounds
of the exponent come what it is for large whole numbers, that only numbers beyond `2^1023` are
infinite, and that a ratio is not rounded below a power of two.
-/

namespace HostSteward.Binary64

variable {negative : Bool} {num den n m j : Nat} {e : Int}

/-! ## Rounding -/

theorem le_roundHalfEven (num den : Nat) : num / den ≤ roundHalfEven num den := by
  unfold roundHalfEven
  dsimp only
  split <;> omega

def significandFor (num den : Nat) : Nat :=
  roundHalfEven (scale num den (exponentFor num den)).1 (scale num den (exponentFor num den)).2

def bounded (negative : Bool) (m : Nat) (e : Int) : Binary64 :=
  if 971 < e then .infinite negative else .finite negative m e

theorem ofRatio_eq (h : num ≠ 0) : ofRatio negative num den =
    if significandFor num den = 0x20000000000000 then
      bounded negative 0x10000000000000 (exponentFor num den + 1)
    else bounded negative (significandFor num den) (exponentFor num den) := by
  unfold ofRatio significandFor bounded
  rw [if_neg h]
  dsimp only
  split <;> rfl

theorem exponentFor_le (num den : Nat) :
    exponentFor num den ≤ max (-1073) ((num.log2 : Int) - den.log2 - 52) := by
  unfold exponentFor
  dsimp only
  split <;> omega

theorem bounded_cases (negative : Bool) (m : Nat) (e : Int) :
    bounded negative m e = .infinite negative ∨ bounded negative m e = .finite negative m e := by
  unfold bounded
  split
  next => exact .inl rfl
  next => exact .inr rfl

theorem ofRatio_cases (negative : Bool) (num den : Nat) :
    ofRatio negative num den = .infinite negative ∨
      ∃ m e, ofRatio negative num den = .finite negative m e := by
  by_cases hzero : num = 0
  · rw [ofRatio, if_pos hzero]
    exact .inr ⟨_, _, rfl⟩
  · rw [ofRatio_eq hzero]
    split
    next => exact (bounded_cases _ _ _).imp_right fun h => ⟨_, _, h⟩
    next => exact (bounded_cases _ _ _).imp_right fun h => ⟨_, _, h⟩

theorem exists_finite_of_isInfinite (h : (ofRatio negative num den).isInfinite = false) :
    ∃ m e, ofRatio negative num den = .finite negative m e := by
  rcases ofRatio_cases negative num den with hx | hx
  · rw [hx] at h
    cases h
  · exact hx

/-- No ratio below `2^1022` is infinite. -/
theorem exists_finite_ofRatio (hlog : num.log2 ≤ den.log2 + 1022) (negative : Bool) :
    ∃ m e, ofRatio negative num den = .finite negative m e := by
  have hexponent := exponentFor_le num den
  by_cases hzero : num = 0
  · rw [ofRatio, if_pos hzero]
    exact ⟨_, _, rfl⟩
  · rw [ofRatio_eq hzero]
    split
    next => exact ⟨_, _, if_neg (by omega)⟩
    next => exact ⟨_, _, if_neg (by omega)⟩

/-! ## Powers of two below a ratio -/

/-- A finite number is at least a power of two. -/
def AtLeast (j m : Nat) (e : Int) : Prop := Nat.pow 2 j * (ratio m e).2 ≤ (ratio m e).1

theorem nonneg_or_neg (e : Int) : (∃ k : Nat, e = k) ∨ ∃ k : Nat, e = -((k : Int) + 1) := by
  rcases e with k | k
  · exact .inl ⟨k, rfl⟩
  · exact .inr ⟨k, by omega⟩

theorem ratio_of_neg {k : Nat} (m : Nat) : ratio m (-((k : Int) + 1)) = (m, Nat.pow 2 (k + 1)) := by
  have hneg : -((k : Int) + 1) < 0 := by omega
  have habs : (-((k : Int) + 1)).natAbs = k + 1 := by omega
  rw [ratio, if_pos hneg, habs, Nat.shiftLeft_eq, Nat.one_mul]
  rfl

theorem ratio_of_nonneg (m k : Nat) : ratio m (k : Int) = (m * Nat.pow 2 k, 1) := by
  have hneg : ¬ (k : Int) < 0 := by omega
  rw [ratio, if_neg hneg, Int.natAbs_natCast, Nat.shiftLeft_eq]
  rfl

theorem le_significandFor_of_neg {k : Nat} (he : exponentFor num den = -((k : Int) + 1)) :
    num * Nat.pow 2 (k + 1) / den ≤ significandFor num den := by
  have hneg : -((k : Int) + 1) < 0 := by omega
  have habs : (-((k : Int) + 1)).natAbs = k + 1 := by omega
  have hscale : scale num den (-((k : Int) + 1)) = (num * Nat.pow 2 (k + 1), den) := by
    rw [scale, if_pos hneg, habs, Nat.shiftLeft_eq]
    rfl
  rw [significandFor, he, hscale]
  exact le_roundHalfEven _ _

theorem significandFor_of_nonneg {k : Nat} (he : exponentFor num den = k) :
    significandFor num den = roundHalfEven num (den * Nat.pow 2 k) := by
  have hneg : ¬ (k : Int) < 0 := by omega
  have hscale : scale num den k = (num, den * Nat.pow 2 k) := by
    rw [scale, if_neg hneg, Int.natAbs_natCast, Nat.shiftLeft_eq]
    rfl
  rw [significandFor, he, hscale]

theorem atLeast_significandFor (hden : den ≠ 0) (h : Nat.pow 2 j * den ≤ num) :
    AtLeast j (significandFor num den) (exponentFor num den) := by
  have hpos : 0 < den := Nat.pos_of_ne_zero hden
  simp only [Nat.pow_eq] at h
  unfold AtLeast
  obtain ⟨k, he⟩ | ⟨k, he⟩ := nonneg_or_neg (exponentFor num den)
  · rw [he, ratio_of_nonneg, significandFor_of_nonneg he]
    have hround := le_roundHalfEven num (den * Nat.pow 2 k)
    simp only [Nat.pow_eq, Nat.mul_one] at hround ⊢
    have hunit : 0 < den * 2 ^ k := Nat.mul_pos hpos (Nat.two_pow_pos k)
    by_cases hjk : k ≤ j
    · -- The power is a whole number of units.
      have hsplit : 2 ^ j = 2 ^ (j - k) * 2 ^ k := by rw [← Nat.pow_add, Nat.sub_add_cancel hjk]
      have hunits : 2 ^ (j - k) ≤ num / (den * 2 ^ k) := by
        rw [Nat.le_div_iff_mul_le hunit]
        calc 2 ^ (j - k) * (den * 2 ^ k) = 2 ^ j * den := by rw [hsplit]; ring
          _ ≤ num := h
      rw [hsplit]
      exact Nat.mul_le_mul_right _ (hunits.trans hround)
    · -- One unit is more than the power, and there is one at least.
      have hnum : num ≠ 0 := by
        have hpow : 0 < 2 ^ j * den := Nat.mul_pos (Nat.two_pow_pos j) hpos
        omega
      have hexponent := exponentFor_le num den
      rw [he] at hexponent
      have hone : 1 ≤ num / (den * 2 ^ k) := by
        rw [Nat.le_div_iff_mul_le hunit, Nat.one_mul]
        calc den * 2 ^ k ≤ 2 ^ (den.log2 + 1) * 2 ^ k :=
              Nat.mul_le_mul_right _ (Nat.lt_log2_self).le
          _ = 2 ^ (den.log2 + 1 + k) := by rw [← Nat.pow_add]
          _ ≤ 2 ^ num.log2 := Nat.pow_le_pow_right (by decide) (by omega)
          _ ≤ num := Nat.log2_self_le hnum
      calc 2 ^ j ≤ 1 * 2 ^ k := by
            rw [Nat.one_mul]
            exact Nat.pow_le_pow_right (by decide) (by omega)
        _ ≤ roundHalfEven num (den * 2 ^ k) * 2 ^ k := Nat.mul_le_mul_right _ (hone.trans hround)
  · rw [he, ratio_of_neg]
    refine le_trans ?_ (le_significandFor_of_neg he)
    simp only [Nat.pow_eq]
    rw [Nat.le_div_iff_mul_le hpos]
    calc 2 ^ j * 2 ^ (k + 1) * den = 2 ^ j * den * 2 ^ (k + 1) := by ring
      _ ≤ num * 2 ^ (k + 1) := Nat.mul_le_mul_right _ h

/-- Half of the significand in units twice as large. -/
theorem AtLeast.carry (h : AtLeast j 0x20000000000000 e) : AtLeast j 0x10000000000000 (e + 1) := by
  unfold AtLeast at h ⊢
  obtain ⟨k, rfl⟩ | ⟨k, rfl⟩ := nonneg_or_neg e
  · rw [ratio_of_nonneg] at h
    rw [← Int.natCast_succ, ratio_of_nonneg]
    simp only [Nat.pow_eq, Nat.pow_succ] at h ⊢
    omega
  · rw [ratio_of_neg] at h
    cases k with
    | zero =>
      have hzero : -(((0 : Nat) : Int) + 1) + 1 = ((0 : Nat) : Int) := by omega
      rw [hzero, ratio_of_nonneg]
      simp only [Nat.pow_eq, Nat.pow_zero] at h ⊢
      omega
    | succ k =>
      have hsucc : -(((k + 1 : Nat) : Int) + 1) + 1 = -((k : Int) + 1) := by omega
      have hdouble : 2 ^ (k + 1 + 1) = 2 * 2 ^ (k + 1) := by rw [Nat.pow_succ, Nat.mul_comm]
      rw [hsucc, ratio_of_neg]
      simp only [Nat.pow_eq, hdouble, Nat.mul_left_comm] at h ⊢
      omega

/-- A ratio is not rounded below a power of two. -/
theorem atLeast_of_ofRatio (hden : den ≠ 0) (h : Nat.pow 2 j * den ≤ num) {s : Bool}
    (hx : ofRatio negative num den = .finite s m e) : AtLeast j m e := by
  have hleast := atLeast_significandFor hden h
  have hnum : num ≠ 0 := by
    have hpow : 0 < Nat.pow 2 j * den := Nat.mul_pos (Nat.two_pow_pos j) (Nat.pos_of_ne_zero hden)
    omega
  have hfinite {m' : Nat} {e' : Int} (hx : bounded negative m' e' = .finite s m e) :
      m' = m ∧ e' = e := by
    rcases bounded_cases negative m' e' with h | h
    · rw [h] at hx
      cases hx
    · rw [h] at hx
      cases hx
      exact ⟨rfl, rfl⟩
  rw [ofRatio_eq hnum] at hx
  split at hx
  next hcarry =>
    obtain ⟨rfl, rfl⟩ := hfinite hx
    rw [hcarry] at hleast
    exact hleast.carry
  next =>
    obtain ⟨rfl, rfl⟩ := hfinite hx
    exact hleast

/-! ## Brought into the range of 64 bits -/

theorem toUInt64Range_ofRatio_negative (num den : Nat) :
    (ofRatio true num den).toUInt64Range = 0 := by
  rcases ofRatio_cases true num den with h | ⟨m, e, h⟩
  · rw [h]
    rfl
  · rw [h]
    rfl

theorem ratio_pos (m : Nat) (e : Int) : 0 < (ratio m e).2 := by
  obtain ⟨k, rfl⟩ | ⟨k, rfl⟩ := nonneg_or_neg e
  · rw [ratio_of_nonneg]
    exact Nat.one_pos
  · rw [ratio_of_neg]
    exact Nat.two_pow_pos (k + 1)

theorem toUInt64Range_finite (m : Nat) (e : Int) : (finite false m e).toUInt64Range =
    min ((2 * (ratio m e).1 + (ratio m e).2) / (2 * (ratio m e).2)) (UInt64.size - 1) := rfl

theorem toUInt64Range_of_atLeast (h : AtLeast 64 m e) :
    (finite false m e).toUInt64Range = UInt64.size - 1 := by
  have hpos := ratio_pos m e
  unfold AtLeast at h
  have hrange : UInt64.size ≤ (2 * (ratio m e).1 + (ratio m e).2) / (2 * (ratio m e).2) := by
    rw [Nat.le_div_iff_mul_le (by omega)]
    calc UInt64.size * (2 * (ratio m e).2) = 2 * (Nat.pow 2 64 * (ratio m e).2) := by
          change 18446744073709551616 * _ = 2 * (18446744073709551616 * _)
          omega
      _ ≤ 2 * (ratio m e).1 + (ratio m e).2 := by omega
  rw [toUInt64Range_finite]
  omega

theorem toUInt64Range_ofRatio_large (h : UInt64.size ≤ n) :
    (ofRatio false n 1).toUInt64Range = UInt64.size - 1 := by
  rcases ofRatio_cases false n 1 with hx | ⟨m, e, hx⟩
  · rw [hx]
    rfl
  · rw [hx]
    exact toUInt64Range_of_atLeast (atLeast_of_ofRatio (j := 64) Nat.one_ne_zero h hx)

theorem exponentFor_whole {k : Nat} (hk : 1 ≤ k) (hlog : n.log2 = 52 + k) :
    exponentFor n 1 = k := by
  have hn : n ≠ 0 := by
    rintro rfl
    rw [Nat.log2_zero] at hlog
    omega
  have hone : Nat.log2 1 = 0 := by decide
  have he : max (-1074) ((n.log2 : Int) - (Nat.log2 1 : Nat) - 53) = ((k - 1 : Nat) : Int) := by
    rw [hlog, hone]
    omega
  have hneg : ¬ ((k - 1 : Nat) : Int) < 0 := by omega
  have hlarge : 0x20000000000000 ≤ n / (1 <<< (k - 1)) := by
    rw [Nat.shiftLeft_eq, Nat.one_mul, Nat.le_div_iff_mul_le (Nat.two_pow_pos _)]
    calc 0x20000000000000 * 2 ^ (k - 1) = 2 ^ (53 + (k - 1)) := by rw [Nat.pow_add]
      _ = 2 ^ n.log2 := by rw [hlog, show 53 + (k - 1) = 52 + k by omega]
      _ ≤ n := Nat.log2_self_le hn
  unfold exponentFor scale
  rw [he]
  dsimp only
  rw [if_neg hneg, Int.natAbs_natCast]
  dsimp only
  rw [if_pos hlarge]
  omega

/-- A whole number of more than 53 bits is rounded to as many leading bits. -/
theorem ofRatio_whole {k : Nat} (hk : 1 ≤ k) (hmax : k ≤ 970) (hlog : n.log2 = 52 + k)
    (negative : Bool) : ∃ m e, ofRatio negative n 1 = .finite negative m e ∧
      ratio m e = (roundHalfEven n (Nat.pow 2 k) * Nat.pow 2 k, 1) := by
  have hn : n ≠ 0 := by
    rintro rfl
    rw [Nat.log2_zero] at hlog
    omega
  have he := exponentFor_whole hk hlog
  have hm := significandFor_of_nonneg he
  rw [Nat.one_mul] at hm
  rw [ofRatio_eq hn, he, hm]
  split
  next hcarry =>
    refine ⟨_, _, if_neg (by omega), ?_⟩
    rw [← Int.natCast_succ, ratio_of_nonneg, hcarry]
    simp only [Nat.pow_eq, Nat.pow_succ]
    congr 1
    omega
  next => exact ⟨_, _, if_neg (by omega), ratio_of_nonneg _ k⟩

/-- The numbers from `2^63` on are rounded to multiples of 2048. -/
theorem toUInt64Range_ofRatio (h : 0x8000000000000000 ≤ n) :
    (ofRatio false n 1).toUInt64Range = min (roundHalfEven n 2048 * 2048) (UInt64.size - 1) := by
  have hn : n ≠ 0 := by omega
  have hsize : UInt64.size = 18446744073709551616 := rfl
  have hround := le_roundHalfEven n 2048
  by_cases hlarge : UInt64.size ≤ n
  · rw [toUInt64Range_ofRatio_large hlarge]
    omega
  · have hlog : n.log2 = 52 + 11 := by
      rw [Nat.log2_eq_iff hn]
      omega
    obtain ⟨m, e, hx, hratio⟩ := ofRatio_whole (by omega) (by omega) hlog false
    have hunit : Nat.pow 2 11 = 2048 := rfl
    rw [hx, toUInt64Range_finite, hratio, hunit]
    dsimp only
    omega

/-! ## Times a power of ten -/

theorem exists_finite_tenPow {k : Nat} (hk : k ≤ 308) :
    ∃ m e, ofRatio false (Nat.pow 10 k) 1 = .finite false m e := by
  by_cases hlast : k = 308
  · -- The last of them has as many bits as the largest double.
    have hfinite : (ofRatio false (Nat.pow 10 k) 1).isInfinite = false := by
      rw [hlast]
      decide +kernel
    exact exists_finite_of_isInfinite hfinite
  · have hlog : (Nat.pow 10 k).log2 < 1023 := by
      have hpos : 0 < Nat.pow 10 k := Nat.pow_pos (by decide)
      rw [Nat.log2_lt hpos.ne']
      calc 10 ^ k ≤ 10 ^ 307 := Nat.pow_le_pow_right (by decide) (by omega)
        _ < 2 ^ 1023 := by decide +kernel
    exact exists_finite_ofRatio (by omega) false

/-- Ten and its powers are not rounded below ten. -/
theorem ten_le_tenPow {k : Nat} (hk : 1 ≤ k)
    (hx : ofRatio false (Nat.pow 10 k) 1 = .finite false m e) :
    10 * (ratio m e).2 ≤ (ratio m e).1 := by
  by_cases hone : k = 1
  · subst hone
    have hten : ofRatio false (Nat.pow 10 1) 1 = .finite false 5629499534213120 (-49) := by
      decide +kernel
    rw [hten] at hx
    cases hx
    decide +kernel
  · have hpow : Nat.pow 2 6 * 1 ≤ Nat.pow 10 k := by
      calc 2 ^ 6 * 1 ≤ 10 ^ 2 := by decide
        _ ≤ 10 ^ k := Nat.pow_le_pow_right (by decide) (by omega)
    have hleast := atLeast_of_ofRatio Nat.one_ne_zero hpow hx
    have hsix : Nat.pow 2 6 = 64 := rfl
    unfold AtLeast at hleast
    rw [hsix] at hleast
    omega

/-- The longest significand that a reader takes, if another digit is too many for 64 bits, is a
tenth of `2^64` at least; as a double it is more. -/
theorem tenth_le {s : Nat} (hs : 1844674407370955161 ≤ s) (hx : ofRatio false s 1 = .finite false m e) :
    1844674407370955264 * (ratio m e).2 ≤ (ratio m e).1 := by
  by_cases hlarge : Nat.pow 2 61 * 1 ≤ s
  · have hleast := atLeast_of_ofRatio Nat.one_ne_zero hlarge hx
    have hpow : Nat.pow 2 61 = 2305843009213693952 := rfl
    unfold AtLeast at hleast
    rw [hpow] at hleast
    omega
  · have hpow : Nat.pow 2 61 = 2305843009213693952 := rfl
    have hlog : s.log2 = 52 + 8 := by
      rw [Nat.log2_eq_iff (by omega)]
      omega
    obtain ⟨m', e', hx', hratio⟩ := ofRatio_whole (by omega) (by omega) hlog false
    have hunit : Nat.pow 2 8 = 256 := rfl
    rw [hx] at hx'
    cases hx'
    rw [hratio, hunit]
    unfold roundHalfEven
    dsimp only
    split <;> omega

/-- What such a significand is multiplied to is beyond 64 bits. -/
theorem toUInt64Range_mulFinite {s k : Nat} (hs : 1844674407370955161 ≤ s) (hsize : s < UInt64.size)
    (hk : 1 ≤ k) (hmax : k ≤ 308) :
    ((ofRatio false s 1).mulFinite (ofRatio false (Nat.pow 10 k) 1)).toUInt64Range =
      UInt64.size - 1 := by
  have hlog : s.log2 < 64 := (Nat.log2_lt (by omega)).2 hsize
  obtain ⟨m, e, hx⟩ : ∃ m e, ofRatio false s 1 = .finite false m e :=
    exists_finite_ofRatio (by omega) false
  obtain ⟨p, q, hy⟩ := exists_finite_tenPow hmax
  have hleft := tenth_le hs hx
  have hright := ten_le_tenPow hk hy
  have hden : (ratio m e).2 * (ratio p q).2 ≠ 0 :=
    (Nat.mul_pos (ratio_pos m e) (ratio_pos p q)).ne'
  have hprod : Nat.pow 2 64 * ((ratio m e).2 * (ratio p q).2) ≤ (ratio m e).1 * (ratio p q).1 := by
    calc 18446744073709551616 * ((ratio m e).2 * (ratio p q).2)
        ≤ 18446744073709552640 * ((ratio m e).2 * (ratio p q).2) := Nat.mul_le_mul_right _ (by omega)
      _ = 1844674407370955264 * (ratio m e).2 * (10 * (ratio p q).2) := by ring
      _ ≤ (ratio m e).1 * (ratio p q).1 := Nat.mul_le_mul hleft hright
  have hmul : (finite false m e).mulFinite (finite false p q) =
      ofRatio false ((ratio m e).1 * (ratio p q).1) ((ratio m e).2 * (ratio p q).2) := rfl
  rw [hx, hy, hmul]
  rcases ofRatio_cases false ((ratio m e).1 * (ratio p q).1) ((ratio m e).2 * (ratio p q).2) with
    hz | ⟨r, t, hz⟩
  · rw [hz]
    rfl
  · rw [hz]
    exact toUInt64Range_of_atLeast (atLeast_of_ofRatio hden hprod hz)

end HostSteward.Binary64
