import HostSteward.Proofs.Numerals
import HostSteward.Toml.Scalar
import Mathlib.Data.List.Basic

/-!
# Integers are read whole or refused

An integer is written in decimal, with or without a sign, or in another base after its mark, and
with underscores between its digits. Whatever comes after it, it is read as the number that it
stands for if that has 64 bits. Any other is no value at all, and a document that assigns it is
refused.
-/

namespace HostSteward.Toml

variable {isDigit : Char → Bool} {c : Char} {text ds cs rest : List Char}

/-! ## Digits -/

/-- Digits as they may be written, with an underscore between two of them here and there. -/
inductive Grouped (isDigit : Char → Bool) : List Char → List Char → Prop
  | one {c : Char} (hc : isDigit c = true) : Grouped isDigit [c] [c]
  | next {c : Char} {text ds : List Char} (hc : isDigit c = true) (h : Grouped isDigit text ds) :
      Grouped isDigit (c :: text) (c :: ds)
  | gap {c : Char} {text ds : List Char} (hc : isDigit c = true) (h : Grouped isDigit text ds) :
      Grouped isDigit (c :: '_' :: text) (c :: ds)

/-- What comes after a value begins like this, if there is anything. -/
def Ends (rest : List Char) : Prop :=
  ∀ c ∈ rest.head?, c ∈ [' ', '\t', '\r', '\n', ',', ']', '}', '#']

theorem Grouped.exists_cons (h : Grouped isDigit text ds) :
    ∃ c more, text = c :: more ∧ isDigit c = true := by
  cases h with
  | one hc => exact ⟨_, _, rfl, hc⟩
  | next hc _ => exact ⟨_, _, rfl, hc⟩
  | gap hc _ => exact ⟨_, _, rfl, hc⟩

theorem moreDigits_cons (hc : isDigit c = true) (cs : List Char) : moreDigits isDigit (c :: cs) =
    (c :: (moreDigits isDigit cs).1, (moreDigits isDigit cs).2) := by
  cases cs with
  | nil => simp [moreDigits, hc]
  | cons d cs => rw [moreDigits, if_pos hc]

theorem moreDigits_gap (hgap : isDigit '_' = false) (hc : isDigit c = true) (cs : List Char) :
    moreDigits isDigit ('_' :: c :: cs) = moreDigits isDigit (c :: cs) := by
  rw [moreDigits, if_neg (by rw [hgap]; exact Bool.false_ne_true), if_pos ⟨rfl, hc⟩,
    moreDigits_cons hc]

theorem moreDigits_stops (h : ∀ c ∈ rest.head?, isDigit c = false ∧ c ≠ '_') :
    moreDigits isDigit rest = ([], rest) := by
  match rest with
  | [] => rfl
  | [c] =>
    obtain ⟨hc, -⟩ := h c rfl
    rw [moreDigits, if_neg (by rw [hc]; exact Bool.false_ne_true)]
  | c :: d :: rest =>
    obtain ⟨hc, hgap⟩ := h c rfl
    rw [moreDigits, if_neg (by rw [hc]; exact Bool.false_ne_true), if_neg fun h => hgap h.1]

theorem moreDigits_grouped (h : Grouped isDigit text ds) (hgap : isDigit '_' = false)
    (hrest : ∀ c ∈ rest.head?, isDigit c = false ∧ c ≠ '_') :
    moreDigits isDigit (text ++ rest) = (ds, rest) := by
  induction h with
  | one hc => rw [List.singleton_append, moreDigits_cons hc, moreDigits_stops hrest]
  | next hc _ ih => rw [List.cons_append, moreDigits_cons hc, ih]
  | gap hc h ih =>
    obtain ⟨d, more, rfl, hd⟩ := h.exists_cons
    rw [List.cons_append, List.cons_append, moreDigits_cons hc, List.cons_append,
      moreDigits_gap hgap hd, ← List.cons_append, ih]

/-! ## Neither dates nor times -/

theorem exists_of_dropWord? {mark : Char} {word : List Char}
    (h : dropWord? (mark :: word) cs = some rest) : ∃ tail, cs = mark :: tail := by
  cases cs with
  | nil => cases h
  | cons c cs =>
    have htake : (c :: cs).take (mark :: word).length = mark :: word := by
      by_contra hne
      rw [dropWord?, if_neg hne] at h
      cases h
    exact ⟨cs, by rw [(List.cons.inj htake).1]⟩

theorem fixed?_eq_some {width low high n : Nat} {tail : List Char}
    (h : fixed? width low high cs = some (n, tail)) :
    (cs.take width).all Char.isDigit = true ∧ cs.take width ≠ [] ∧ tail = cs.drop width := by
  obtain ⟨m, hread, hrest⟩ := Option.bind_eq_some_iff.1 h
  unfold Numeral.read? at hread
  split at hread
  next => cases hread
  next hdigits =>
    simp only [Bool.or_eq_true, not_or, Bool.not_eq_true', List.isEmpty_iff] at hdigits
    split at hrest
    next => exact ⟨by simpa using hdigits.2, hdigits.1, (Prod.mk.inj (Option.some.inj hrest)).2.symm⟩
    next => cases hrest

/-- Where a date or time is begun there are digits, and after them a mark. -/
theorem dateTime?_eq_none (h : (∀ c ∈ cs.head?, c.isDigit = false) ∨
    ∀ c ∈ (cs.dropWhile Char.isDigit).head?, c ≠ '-' ∧ c ≠ ':') : dateTime? cs = none := by
  have hmark {width low high n : Nat} {tail word : List Char} {mark : Char}
      (hmark : mark = '-' ∨ mark = ':') (hfixed : fixed? width low high cs = some (n, tail)) :
      dropWord? (mark :: word) tail = none := by
    obtain ⟨hall, hne, htail⟩ := fixed?_eq_some hfixed
    rw [Option.eq_none_iff_forall_ne_some]
    intro rest hrest
    obtain ⟨more, hmore⟩ := exists_of_dropWord? hrest
    have hsplit : cs = cs.take width ++ mark :: more := by
      rw [← hmore, htail, List.take_append_drop]
    rcases h with hhead | hafter
    · obtain ⟨c, run, hrun⟩ := List.exists_cons_of_ne_nil hne
      rw [hrun] at hall hsplit
      have hc := hhead c (by rw [hsplit]; rfl)
      rw [List.all_cons, hc] at hall
      cases hall
    · have hdigit : mark.isDigit = false := by rcases hmark with rfl | rfl <;> rfl
      have hdrop : cs.dropWhile Char.isDigit = mark :: more := by
        rw [hsplit, List.dropWhile_append_of_pos (List.all_eq_true.1 hall),
          List.dropWhile_cons_of_neg (by rw [hdigit]; exact Bool.false_ne_true)]
      have hother := hafter mark (by rw [hdrop]; rfl)
      exact hmark.elim hother.1 hother.2
  have hdate : date? cs = none := by
    unfold date?
    cases hyear : fixed? 4 0 9999 cs with
    | none => rfl
    | some read =>
      obtain ⟨year, tail⟩ := read
      change (dropWord? ['-'] tail).bind _ = none
      rw [hmark (.inl rfl) hyear]
      rfl
  have htime : time? cs = none := by
    unfold time?
    cases hhour : fixed? 2 0 23 cs with
    | none => rfl
    | some read =>
      obtain ⟨hour, tail⟩ := read
      change (dropWord? [':'] tail).bind _ = none
      rw [hmark (.inr rfl) hhour]
      rfl
  rw [dateTime?, hdate]
  exact htime

/-! ## Integers -/

def isDigitOf (base : Nat) (c : Char) : Bool :=
  match Json.Reader.hexDigit? c with
  | some d => decide (d < base)
  | none => false

def valueIn (base : Nat) (ds : List Char) : Nat :=
  ds.foldl (fun n c => base * n + (Json.Reader.hexDigit? c).getD 0) 0

def baseOf? : Char → Option Nat
  | 'x' => some 16
  | 'o' => some 8
  | 'b' => some 2
  | _ => none

inductive Writes : List Char → Int → Prop
  | unsigned {text ds : List Char} (h : Grouped Char.isDigit text ds)
      (hzero : text.head? = some '0' → text = ['0']) : Writes text (Nat.ofDigitChars 10 ds 0)
  | plus {text ds : List Char} (h : Grouped Char.isDigit text ds)
      (hzero : text.head? = some '0' → text = ['0']) : Writes ('+' :: text) (Nat.ofDigitChars 10 ds 0)
  | minus {text ds : List Char} (h : Grouped Char.isDigit text ds)
      (hzero : text.head? = some '0' → text = ['0']) :
      Writes ('-' :: text) (-(Nat.ofDigitChars 10 ds 0 : Int))
  | based {mark : Char} {base : Nat} (hbase : baseOf? mark = some base) {text ds : List Char}
      (h : Grouped (isDigitOf base) text ds) : Writes ('0' :: mark :: text) (valueIn base ds)

theorem Writes.exists_cons {w : List Char} {n : Int} (h : Writes w n) :
    ∃ c more, w = c :: more ∧ (c = '+' ∨ c = '-' ∨ c.isDigit = true) := by
  cases h with
  | unsigned h _ =>
    obtain ⟨c, more, rfl, hc⟩ := h.exists_cons
    exact ⟨c, more, rfl, .inr (.inr hc)⟩
  | plus _ _ => exact ⟨'+', _, rfl, .inl rfl⟩
  | minus _ _ => exact ⟨'-', _, rfl, .inr (.inl rfl)⟩
  | based _ _ => exact ⟨'0', _, rfl, .inr (.inr rfl)⟩

theorem Ends.forall {P : Char → Prop} [DecidablePred P] (h : Ends rest)
    (hall : [' ', '\t', '\r', '\n', ',', ']', '}', '#'].all (fun c => P c) = true) :
    ∀ c ∈ rest.head?, P c :=
  fun c hc => of_decide_eq_true (List.all_eq_true.1 hall c (h c hc))

theorem ends_break (rest : List Char) : Ends ('\n' :: rest) := by
  rintro c ⟨⟩
  decide

theorem Grouped.head?_after (h : Grouped Char.isDigit text ds) (hrest : Ends rest) :
    ∀ c ∈ ((text ++ rest).dropWhile Char.isDigit).head?, c = '_' ∨ c ∈ rest.head? := by
  induction h with
  | one hc =>
    rw [List.singleton_append, List.dropWhile_cons_of_pos hc]
    intro c hhead
    cases rest with
    | nil => cases hhead
    | cons d rest =>
      have hd : d.isDigit = false :=
        hrest.forall (P := fun c => c.isDigit = false) (by decide) d rfl
      rw [List.dropWhile_cons_of_neg (by rw [hd]; exact Bool.false_ne_true)] at hhead
      exact .inr hhead
  | next hc _ ih => rwa [List.cons_append, List.dropWhile_cons_of_pos hc]
  | gap hc _ _ =>
    rw [List.cons_append, List.dropWhile_cons_of_pos hc, List.cons_append,
      List.dropWhile_cons_of_neg (by decide)]
    exact fun c hhead => .inl (Option.some.inj hhead).symm

theorem sign_of_isDigit (hc : c.isDigit = true) (rest : List Char) :
    sign (c :: rest) = (false, c :: rest) := by
  unfold sign
  split
  next heq =>
    rw [(List.cons.inj heq).1] at hc
    cases hc
  next heq =>
    rw [(List.cons.inj heq).1] at hc
    cases hc
  next => rfl

/-- No word starts with a sign or a digit. -/
theorem dropWord?_eq_none {mark : Char} (word : List Char) (hmark : mark ≠ '+' ∧ mark ≠ '-')
    (hdigit : mark.isDigit = false) (hc : c = '+' ∨ c = '-' ∨ c.isDigit = true) (cs : List Char) :
    dropWord? (mark :: word) (c :: cs) = none := by
  rw [Option.eq_none_iff_forall_ne_some]
  intro rest hrest
  obtain ⟨tail, heq⟩ := exists_of_dropWord? hrest
  obtain rfl := (List.cons.inj heq).1
  rcases hc with rfl | rfl | hc
  · exact hmark.1 rfl
  · exact hmark.2 rfl
  · rw [hdigit] at hc
    cases hc

/-- Nothing but an integer is read where neither a fraction nor an exponent comes after the digits
of a whole number. -/
theorem scalar?_eq_integer? {negative : Bool} {after : List Char}
    (hc : c = '+' ∨ c = '-' ∨ c.isDigit = true) (hdate : dateTime? (c :: cs) = none)
    (hsign : ∃ d more, (sign (c :: cs)).2 = d :: more ∧ d.isDigit = true)
    (hwhole : whole? (c :: cs) = some (negative, ds, after))
    (hafter : ∀ c ∈ after.head?, c ∉ ['.', 'e', 'E']) : scalar? (c :: cs) = integer? (c :: cs) := by
  have htrue := dropWord?_eq_none ['r', 'u', 'e'] (by decide : 't' ≠ '+' ∧ 't' ≠ '-') (by decide) hc cs
  have hfalse := dropWord?_eq_none ['a', 'l', 's', 'e'] (by decide : 'f' ≠ '+' ∧ 'f' ≠ '-')
    (by decide) hc cs
  have hspecial : special? (c :: cs) = none := by
    obtain ⟨d, more, hmore, hd⟩ := hsign
    have hinf := dropWord?_eq_none ['n', 'f'] (by decide : 'i' ≠ '+' ∧ 'i' ≠ '-') (by decide)
      (.inr (.inr hd)) more
    have hnan := dropWord?_eq_none ['a', 'n'] (by decide : 'n' ≠ '+' ∧ 'n' ≠ '-') (by decide)
      (.inr (.inr hd)) more
    unfold special?
    dsimp only
    rw [hmore, hinf, hnan]
    rfl
  have hreal : real? (c :: cs) = none := by
    have hfraction : fraction? after = none := by
      unfold fraction?
      split
      next => exact absurd (hafter '.' rfl) (by decide)
      next => rfl
    have hexponent : exponent? after = none := by
      unfold exponent?
      split
      next d rest =>
        have hd := hafter d rfl
        rw [if_neg]
        rintro (rfl | rfl)
        · exact hd (by decide)
        · exact hd (by decide)
      next => rfl
    rw [real?, hwhole]
    simp only [Option.bind_eq_bind, Option.bind_some, hfraction, Option.getD_none, hexponent]
    rfl
  rw [scalar?, htrue, hfalse, hdate, hreal, hspecial]
  rfl

theorem whole?_grouped {negative : Bool} (hsign : sign cs = (negative, text ++ rest))
    (h : Grouped Char.isDigit text ds) (hzero : text.head? = some '0' → text = ['0'])
    (hrest : Ends rest) : whole? cs = some (negative, ds, rest) := by
  have hstops := hrest.forall (P := fun c => c.isDigit = false ∧ c ≠ '_') (by decide)
  obtain ⟨c, more, htext, hc⟩ := h.exists_cons
  rw [whole?, hsign]
  by_cases hcase : c = '0'
  · obtain rfl : text = ['0'] := hzero (by rw [htext, hcase]; rfl)
    cases h with
    | one _ => rfl
    | next _ h => cases h
  · have hdigits : digits? Char.isDigit (text ++ rest) = some (ds, rest) := by
      rw [← moreDigits_grouped h (by decide) hstops, htext, List.cons_append, digits?, if_pos hc]
    rw [htext, List.cons_append] at hdigits ⊢
    split
    next heq => exact absurd (List.cons.inj (Prod.mk.inj heq).2).1 hcase
    next heq =>
      obtain ⟨rfl, rfl⟩ := Prod.mk.inj heq
      rw [hdigits]
      rfl

/-- A text that begins with no mark of another base is read as a whole number. -/
theorem integer?_of_whole? {negative : Bool} (hbase : ∀ mark more, cs = '0' :: mark :: more →
    baseOf? mark = none) (hwhole : whole? cs = some (negative, ds, rest)) :
    integer? cs = integerIn? (if negative then -(Nat.ofDigitChars 10 ds 0 : Int)
      else Nat.ofDigitChars 10 ds 0) rest := by
  unfold integer?
  split
  next => exact absurd (hbase _ _ rfl) (by decide)
  next => exact absurd (hbase _ _ rfl) (by decide)
  next => exact absurd (hbase _ _ rfl) (by decide)
  next =>
    rw [hwhole]
    rfl

theorem based?_grouped {base : Nat} (h : Grouped (isDigitOf base) text ds)
    (hrest : Ends rest) : based? base (text ++ rest) = integerIn? (valueIn base ds) rest := by
  have hstops : ∀ c ∈ rest.head?, isDigitOf base c = false ∧ c ≠ '_' := by
    intro c hc
    obtain ⟨hnone, hgap⟩ := hrest.forall
      (P := fun c => Json.Reader.hexDigit? c = none ∧ c ≠ '_') (by decide) c hc
    rw [isDigitOf, hnone]
    exact ⟨rfl, hgap⟩
  have hdigits : digits? (isDigitOf base) (text ++ rest) = some (ds, rest) := by
    obtain ⟨c, more, rfl, hc⟩ := h.exists_cons
    rw [← moreDigits_grouped h rfl hstops, List.cons_append, digits?, if_pos hc]
  have hbased : based? base (text ++ rest) =
      (digits? (isDigitOf base) (text ++ rest)).bind fun read =>
        integerIn? (valueIn base read.1) read.2 := rfl
  rw [hbased, hdigits, Option.bind_some]

theorem scalar?_decimal {negative : Bool} (hc : c = '+' ∨ c = '-' ∨ c.isDigit = true)
    (hdate : dateTime? (c :: cs) = none)
    (hbase : ∀ mark more, c :: cs = '0' :: mark :: more → baseOf? mark = none)
    (hsign : sign (c :: cs) = (negative, text ++ rest)) (h : Grouped Char.isDigit text ds)
    (hzero : text.head? = some '0' → text = ['0']) (hrest : Ends rest) :
    scalar? (c :: cs) = integerIn? (if negative then -(Nat.ofDigitChars 10 ds 0 : Int)
      else Nat.ofDigitChars 10 ds 0) rest := by
  have hwhole := whole?_grouped hsign h hzero hrest
  have hafter := hrest.forall (P := fun c => c ∉ ['.', 'e', 'E']) (by decide)
  have hstart : ∃ d more, (sign (c :: cs)).2 = d :: more ∧ d.isDigit = true := by
    obtain ⟨d, more, rfl, hd⟩ := h.exists_cons
    exact ⟨d, more ++ rest, by rw [hsign]; rfl, hd⟩
  rw [scalar?_eq_integer? hc hdate hstart hwhole hafter, integer?_of_whole? hbase hwhole]

theorem scalar?_unsigned (h : Grouped Char.isDigit text ds)
    (hzero : text.head? = some '0' → text = ['0']) (hrest : Ends rest) :
    scalar? (text ++ rest) = integerIn? (Nat.ofDigitChars 10 ds 0 : Nat) rest := by
  obtain ⟨c, more, htext, hc⟩ := h.exists_cons
  have hcs : text ++ rest = c :: (more ++ rest) := by rw [htext, List.cons_append]
  have hdate : dateTime? (text ++ rest) = none := by
    refine dateTime?_eq_none (.inr fun c hc => ?_)
    rcases h.head?_after hrest c hc with rfl | hc
    · decide
    · exact hrest.forall (P := fun c => c ≠ '-' ∧ c ≠ ':') (by decide) c hc
  have hbase : ∀ mark more, text ++ rest = '0' :: mark :: more → baseOf? mark = none := by
    intro mark more heq
    have hhead : text.head? = some '0' := by
      rw [hcs] at heq
      rw [htext, (List.cons.inj heq).1]
      rfl
    rw [hzero hhead] at heq
    have hmore : rest = mark :: more := (List.cons.inj heq).2
    have hmark : mark ∈ rest.head? := by rw [hmore]; rfl
    exact hrest.forall (P := fun c => baseOf? c = none) (by decide) mark hmark
  have hsign : sign (c :: (more ++ rest)) = (false, text ++ rest) := by
    rw [hcs]
    exact sign_of_isDigit hc _
  rw [hcs] at hdate hbase
  have hread := scalar?_decimal (.inr (.inr hc)) hdate hbase hsign h hzero hrest
  rw [hcs, hread]
  rfl

theorem scalar?_signed {negative : Bool} (hc : c = '+' ∨ c = '-')
    (hsign : sign (c :: (text ++ rest)) = (negative, text ++ rest)) (h : Grouped Char.isDigit text ds)
    (hzero : text.head? = some '0' → text = ['0']) (hrest : Ends rest) :
    scalar? (c :: (text ++ rest)) = integerIn? (if negative then -(Nat.ofDigitChars 10 ds 0 : Int)
      else Nat.ofDigitChars 10 ds 0) rest := by
  have hdigit : c.isDigit = false := by rcases hc with rfl | rfl <;> rfl
  have hdate : dateTime? (c :: (text ++ rest)) = none := by
    refine dateTime?_eq_none (.inl ?_)
    rintro d ⟨⟩
    exact hdigit
  have hbase : ∀ mark more, c :: (text ++ rest) = '0' :: mark :: more → baseOf? mark = none := by
    intro mark more heq
    rw [(List.cons.inj heq).1] at hdigit
    cases hdigit
  exact scalar?_decimal (hc.imp_right .inl) hdate hbase hsign h hzero hrest

theorem baseOf?_cases {mark : Char} {base : Nat} (h : baseOf? mark = some base) :
    mark = 'x' ∧ base = 16 ∨ mark = 'o' ∧ base = 8 ∨ mark = 'b' ∧ base = 2 := by
  unfold baseOf? at h
  split at h
  next => exact .inl ⟨rfl, (Option.some.inj h).symm⟩
  next => exact .inr (.inl ⟨rfl, (Option.some.inj h).symm⟩)
  next => exact .inr (.inr ⟨rfl, (Option.some.inj h).symm⟩)
  next => cases h

theorem scalar?_based {mark : Char} {base : Nat} (hbase : baseOf? mark = some base)
    (h : Grouped (isDigitOf base) text ds) (hrest : Ends rest) :
    scalar? ('0' :: mark :: (text ++ rest)) = integerIn? (valueIn base ds) rest := by
  have hmark : mark.isDigit = false ∧ mark ≠ '-' ∧ mark ≠ ':' ∧ mark ∉ ['.', 'e', 'E'] := by
    rcases baseOf?_cases hbase with ⟨rfl, -⟩ | ⟨rfl, -⟩ | ⟨rfl, -⟩ <;> decide
  have hdate : dateTime? ('0' :: mark :: (text ++ rest)) = none := by
    refine dateTime?_eq_none (.inr fun c hc => ?_)
    rw [List.dropWhile_cons_of_pos rfl, List.dropWhile_cons_of_neg (by simp [hmark.1])] at hc
    obtain rfl := Option.some.inj hc
    exact ⟨hmark.2.1, hmark.2.2.1⟩
  have hinteger : integer? ('0' :: mark :: (text ++ rest)) = based? base (text ++ rest) := by
    rcases baseOf?_cases hbase with ⟨rfl, rfl⟩ | ⟨rfl, rfl⟩ | ⟨rfl, rfl⟩ <;> rfl
  have hread : scalar? ('0' :: mark :: (text ++ rest)) = integer? ('0' :: mark :: (text ++ rest)) := by
    refine scalar?_eq_integer? (.inr (.inr rfl)) hdate ⟨'0', _, rfl, rfl⟩ rfl ?_
    rintro c ⟨⟩
    exact hmark.2.2.2
  rw [hread, hinteger, based?_grouped h hrest]

/-- An integer is read for what it stands for, or not at all. -/
theorem scalar?_integer {w : List Char} {n : Int} (hw : Writes w n) (hrest : Ends rest) :
    scalar? (w ++ rest) = integerIn? n rest := by
  cases hw with
  | unsigned h hzero => exact scalar?_unsigned h hzero hrest
  | @plus text ds h hzero =>
    have hsign : sign ('+' :: (text ++ rest)) = (false, text ++ rest) := rfl
    rw [List.cons_append, scalar?_signed (.inl rfl) hsign h hzero hrest]
    rfl
  | @minus text ds h hzero =>
    have hsign : sign ('-' :: (text ++ rest)) = (true, text ++ rest) := rfl
    rw [List.cons_append, scalar?_signed (.inr rfl) hsign h hzero hrest]
    rfl
  | based hbase h => exact scalar?_based hbase h hrest

/-! ## Digits alone -/

theorem grouped_of_isDigit (hne : ds ≠ []) (hds : ∀ c ∈ ds, c.isDigit = true) :
    Grouped Char.isDigit ds ds := by
  induction ds with
  | nil => exact absurd rfl hne
  | cons c ds ih =>
    obtain ⟨hc, hds⟩ := List.forall_mem_cons.1 hds
    cases ds with
    | nil => exact .one hc
    | cons d ds => exact .next hc (ih (List.cons_ne_nil d ds) hds)

theorem writes_digits (n : Nat) : Writes (Numeral.digits n) n := by
  have hgrouped := grouped_of_isDigit (Numeral.digits_ne_nil n)
    fun c hc => Numeral.isDigit_of_mem_digits hc
  have hwrites := Writes.unsigned hgrouped fun hhead => by
    obtain ⟨c, tail, hdigits, -, hzero⟩ := Numeral.digits_eq_cons n
    rw [hdigits] at hhead ⊢
    rw [hzero (Option.some.inj hhead), Option.some.inj hhead]
  rwa [Numeral.ofDigitChars_digits] at hwrites

end HostSteward.Toml
