import HostSteward.Numeral
import Mathlib.Tactic.ByContra

/-!
# Numerals are read as the numbers that they stand for

The digits of a number begin with a zero only if there are no others. With a sign before them if it
is negative they are the canonical text of an integer, which is read back if it has 64 bits.
-/

namespace HostSteward.Numeral

/-! ## Digits -/

theorem head?_digits_ne {n : Nat} (h : n ≠ 0) : (digits n).head? ≠ some '0' := by
  induction n using Nat.strongRecOn with
  | ind n ih =>
    by_cases hlt : n < 10
    · have hsmall : ∀ m < 10, m ≠ 0 → [Nat.digitChar m].head? ≠ some '0' := by decide
      rw [digits, Nat.toDigits_of_lt_base hlt]
      exact hsmall n hlt h
    · have hhead := ih (n / 10) (by omega) (by omega)
      have hne := digits_ne_nil (n / 10)
      rw [digits] at hhead hne ⊢
      obtain ⟨c, tail, htop⟩ := List.exists_cons_of_ne_nil hne
      rw [htop] at hhead
      rw [Nat.toDigits_of_base_le (by omega) (by omega), htop]
      exact hhead

theorem digits_eq_cons (n : Nat) :
    ∃ c tail, digits n = c :: tail ∧ c.isDigit = true ∧ (c = '0' → tail = []) := by
  obtain ⟨c, tail, hdigits⟩ := List.exists_cons_of_ne_nil (digits_ne_nil n)
  have hc : c.isDigit = true :=
    isDigit_of_mem_digits (n := n) (by rw [hdigits]; exact List.mem_cons_self)
  refine ⟨c, tail, hdigits, hc, ?_⟩
  rintro rfl
  have hzero : n = 0 := by
    by_contra hne
    have hhead := head?_digits_ne hne
    rw [hdigits] at hhead
    exact hhead rfl
  rw [hzero] at hdigits
  exact (List.cons.inj hdigits).2.symm

theorem ofDigitChars_digits (n : Nat) : Nat.ofDigitChars 10 (digits n) 0 = n :=
  Nat.ofDigitChars_toDigits (by decide) (by decide)

/-! ## With a sign -/

theorem read?_of_isDigit {ds : List Char} (hne : ds ≠ []) (hds : ∀ c ∈ ds, c.isDigit = true) :
    read? ds = some (Nat.ofDigitChars 10 ds 0) := by
  have hempty : ds.isEmpty = false := by simpa using hne
  have hall : ds.all Char.isDigit = true := List.all_eq_true.2 hds
  rw [read?, hempty, hall]
  rfl

theorem readSigned?_of_isDigit {ds : List Char} (hne : ds ≠ []) (hds : ∀ c ∈ ds, c.isDigit = true) :
    readSigned? ds = some (Nat.ofDigitChars 10 ds 0 : Int) := by
  unfold readSigned?
  split
  next => exact absurd (hds '-' List.mem_cons_self) (by decide)
  next => exact absurd (hds '+' List.mem_cons_self) (by decide)
  next =>
    rw [read?_of_isDigit hne hds]
    rfl

theorem readInt64?_digits {n : Nat} (h : fitsInt64 n = true) :
    readInt64? (digits n) = some (n : Int) := by
  have hread := readSigned?_of_isDigit (digits_ne_nil n) fun c hc => isDigit_of_mem_digits hc
  rw [readInt64?, hread, ofDigitChars_digits, Option.bind_eq_bind, Option.bind_some, if_pos h]

/-- Digits with or without a sign, and the integer that they stand for. -/
inductive Writes : List Char → Int → Prop
  | unsigned {ds : List Char} (hne : ds ≠ []) (hds : ∀ c ∈ ds, c.isDigit = true) :
      Writes ds (Nat.ofDigitChars 10 ds 0)
  | plus {ds : List Char} (hne : ds ≠ []) (hds : ∀ c ∈ ds, c.isDigit = true) :
      Writes ('+' :: ds) (Nat.ofDigitChars 10 ds 0)
  | minus {ds : List Char} (hne : ds ≠ []) (hds : ∀ c ∈ ds, c.isDigit = true) :
      Writes ('-' :: ds) (-(Nat.ofDigitChars 10 ds 0 : Int))

theorem readSigned?_of_writes {w : List Char} {n : Int} (h : Writes w n) :
    readSigned? w = some n := by
  cases h with
  | unsigned hne hds => exact readSigned?_of_isDigit hne hds
  | plus hne hds =>
    rw [readSigned?, read?_of_isDigit hne hds]
    rfl
  | minus hne hds =>
    rw [readSigned?, read?_of_isDigit hne hds]
    rfl

theorem readInt64?_of_writes {w : List Char} {n : Int} (h : Writes w n) :
    readInt64? w = if fitsInt64 n then some n else none := by
  rw [readInt64?, readSigned?_of_writes h]
  rfl

theorem Writes.sign_or_isDigit {w : List Char} {n : Int} (h : Writes w n) {c : Char} (hc : c ∈ w) :
    c = '+' ∨ c = '-' ∨ c.isDigit = true := by
  cases h with
  | unsigned _ hds => exact .inr (.inr (hds c hc))
  | plus _ hds =>
    rcases List.mem_cons.1 hc with rfl | hc
    · exact .inl rfl
    · exact .inr (.inr (hds c hc))
  | minus _ hds =>
    rcases List.mem_cons.1 hc with rfl | hc
    · exact .inr (.inl rfl)
    · exact .inr (.inr (hds c hc))

def integerText (n : Int) : String := if n < 0 then "-" ++ text n.natAbs else text n.natAbs

theorem toList_integerText (n : Int) :
    (integerText n).toList = if n < 0 then '-' :: digits n.natAbs else digits n.natAbs := by
  unfold integerText
  split
  next =>
    rw [String.toList_append, text, String.toList_ofList, String.toList_ofList]
    rfl
  next => rw [text, String.toList_ofList]

theorem readInt64?_integerText {n : Int} (h : fitsInt64 n = true) :
    readInt64? (integerText n).toList = some n := by
  rw [toList_integerText]
  split
  next hneg =>
    have hvalue : -(n.natAbs : Int) = n := by omega
    have hread : readSigned? ('-' :: digits n.natAbs) = some n := by
      rw [readSigned?, read?_digits]
      exact congrArg some hvalue
    rw [readInt64?, hread, Option.bind_eq_bind, Option.bind_some, if_pos h]
  next hneg =>
    have hvalue : (n.natAbs : Int) = n := by omega
    rw [readInt64?_digits (by rwa [hvalue]), hvalue]

theorem fitsInt64_of_readInt64? {cs : List Char} {n : Int} (h : readInt64? cs = some n) :
    fitsInt64 n = true := by
  obtain ⟨m, -, hm⟩ := Option.bind_eq_some_iff.1 h
  split at hm
  next hfits => exact Option.some.inj hm ▸ hfits
  next => cases hm

theorem eq_minus_or_isDigit {n : Int} {c : Char} (h : c ∈ (integerText n).toList) :
    c = '-' ∨ c.isDigit = true := by
  rw [toList_integerText] at h
  split at h
  next =>
    rcases List.mem_cons.1 h with rfl | hdigit
    · exact .inl rfl
    · exact .inr (isDigit_of_mem_digits hdigit)
  next => exact .inr (isDigit_of_mem_digits h)

end HostSteward.Numeral
