import HostSteward.Proofs.Toml.Integers
import HostSteward.Proofs.Toml.Strings
import HostSteward.Settings.Toml
import HostSteward.Toml.Reader

/-!
# Values are read as they were written

A value that ends its line is read back whole: strings in any style, integers of 64 signed
bits, which no date or other number is mistaken for, switches, and arrays of strings, whether
on one line or on several.
-/

namespace HostSteward.Toml

variable {cs ds rest : List Char}

/-! ## Values -/

structure Spells (cs : List Char) (n : Node) : Prop where
  starts : ∃ c tail, cs = c :: tail ∧ isWhite c = false
  reads : ∀ rest fuel, cs.length < fuel →
    value? maxDepth fuel (cs ++ '\n' :: rest) = some (n, '\n' :: rest)

theorem isWhite_of_isDigit {c : Char} (h : c.isDigit = true) : isWhite c = false := by
  have hspace : c ≠ ' ' := by rintro rfl; cases h
  have htab : c ≠ '\t' := by rintro rfl; cases h
  simp [isWhite, hspace, htab]

/-- Where an integer stands a value is read just if the integer is. -/
theorem value?_integer {w : List Char} {n : Int} (hw : Writes w n) (hrest : Ends rest)
    (depth fuel : Nat) : value? depth (fuel + 1) (w ++ rest) =
      (integerIn? n rest).map fun (j, rest) => (.value j, rest) := by
  obtain ⟨c, more, htext, hc⟩ := hw.exists_cons
  have hother (d : Char) (hd : d ≠ '+' ∧ d ≠ '-' ∧ d.isDigit = false) (tail : List Char) :
      w ++ rest ≠ d :: tail := by
    rw [htext, List.cons_append]
    intro heq
    obtain rfl := (List.cons.inj heq).1
    rcases hc with rfl | rfl | hc
    · exact hd.1 rfl
    · exact hd.2.1 rfl
    · rw [hd.2.2] at hc
      cases hc
  unfold value?
  split
  next heq => exact absurd heq (hother '"' (by decide) _)
  next heq => exact absurd heq (hother '\'' (by decide) _)
  next heq => exact absurd heq (hother '[' (by decide) _)
  next heq => exact absurd heq (hother '{' (by decide) _)
  next => rw [scalar?_integer hw hrest]

theorem spells_integer {n : Nat} (h : Numeral.fitsInt64 n = true) :
    Spells (Numeral.digits n) (.value (.int n)) := by
  obtain ⟨c, tail, hdigits, hc, -⟩ := Numeral.digits_eq_cons n
  refine ⟨⟨c, tail, hdigits, isWhite_of_isDigit hc⟩, fun rest fuel hfuel => ?_⟩
  obtain ⟨fuel, rfl, -⟩ := exists_fuel hfuel
  rw [value?_integer (writes_digits n) (ends_break rest), integerIn?, if_pos h]
  rfl

theorem spells_flag (b : Bool) : Spells (boolValue b) (.value (.bool b)) := by
  cases b with
  | false =>
    refine ⟨⟨'f', ['a', 'l', 's', 'e'], rfl, rfl⟩, fun rest fuel hfuel => ?_⟩
    obtain ⟨fuel, rfl, -⟩ := exists_fuel hfuel
    rfl
  | true =>
    refine ⟨⟨'t', ['r', 'u', 'e'], rfl, rfl⟩, fun rest fuel hfuel => ?_⟩
    obtain ⟨fuel, rfl, -⟩ := exists_fuel hfuel
    rfl

theorem value?_stringValue (s : String) (depth : Nat) {fuel : Nat} (hfuel : 0 < fuel)
    (hdouble : rest.head? ≠ some '"') (hsingle : rest.head? ≠ some '\'') :
    value? depth fuel (stringValue s ++ rest) = some (.text s, rest) := by
  obtain ⟨fuel, rfl, -⟩ := exists_fuel hfuel
  have hread := readString?_writeString s.toList hdouble hsingle
  rw [stringValue]
  obtain ⟨q, tail, hwrite, rfl | rfl⟩ := writeString_head s.toList
  · rw [hwrite, List.cons_append] at hread ⊢
    simp [value?, hread]
  · rw [hwrite, List.cons_append] at hread ⊢
    simp [value?, hread]

theorem spells_string (s : String) : Spells (stringValue s) (.text s) where
  starts := by
    obtain ⟨q, tail, hwrite, rfl | rfl⟩ := writeString_head s.toList
    · exact ⟨'"', tail, hwrite, rfl⟩
    · exact ⟨'\'', tail, hwrite, rfl⟩
  reads rest fuel hfuel :=
    value?_stringValue s maxDepth (Nat.zero_lt_of_lt hfuel) (by simp) (by simp)

/-! ## Arrays of strings -/

theorem skipTrivia_stringValue (s : String) (rest : List Char) :
    skipTrivia false (stringValue s ++ rest) = stringValue s ++ rest := by
  rw [stringValue]
  obtain ⟨q, tail, hwrite, rfl | rfl⟩ := writeString_head s.toList
  · rw [hwrite]
    rfl
  · rw [hwrite]
    rfl

/-- One item of an array and what follows it. -/
theorem items?_stringValue (depth : Nat) (acc : List Json) (s : String) {fuel : Nat}
    (hfuel : 0 < fuel) (hdouble : rest.head? ≠ some '"') (hsingle : rest.head? ≠ some '\'') :
    items? depth acc (fuel + 1) (stringValue s ++ rest) =
      match skipTrivia false rest with
      | ',' :: rest => items? depth (.string s :: acc) fuel (skipTrivia false rest)
      | ']' :: rest => some (.array (.string s :: acc).reverse, rest)
      | _ => none := by
  have hread := value?_stringValue s depth hfuel hdouble hsingle
  rw [stringValue] at hread ⊢
  obtain ⟨q, tail, hwrite, rfl | rfl⟩ := writeString_head s.toList
  · rw [hwrite, List.cons_append] at hread ⊢
    rw [items?, hread]
    · rfl
    · exact fun more heq => absurd (List.cons.inj heq).1 (by decide)
  · rw [hwrite, List.cons_append] at hread ⊢
    rw [items?, hread]
    · rfl
    · exact fun more heq => absurd (List.cons.inj heq).1 (by decide)

/-- The items that stand on lines of their own. -/
theorem items?_lines (depth : Nat) (items : List String) (acc : List Json) (rest : List Char)
    {fuel : Nat} (hfuel : items.length + 1 < fuel) :
    items? depth acc fuel (skipTrivia false ('\n' ::
      (items.flatMap (fun s => "    ".toList ++ stringValue s ++ [',', '\n']) ++ ']' :: rest))) =
      some (.array (acc.reverse ++ items.map .string), rest) := by
  induction items generalizing acc fuel with
  | nil =>
    obtain ⟨fuel, rfl, -⟩ := exists_fuel hfuel
    simp [skipTrivia, isWhite, items?]
  | cons s items ih =>
    obtain ⟨fuel, rfl, hleft⟩ := exists_fuel hfuel
    rw [List.length_cons] at hleft
    let further := items.flatMap (fun s => "    ".toList ++ stringValue s ++ [',', '\n']) ++ ']' :: rest
    have hskip : skipTrivia false ('\n' :: ((s :: items).flatMap
        (fun s => "    ".toList ++ stringValue s ++ [',', '\n']) ++ ']' :: rest)) =
        stringValue s ++ ',' :: '\n' :: further := by
      rw [← skipTrivia_stringValue s (',' :: '\n' :: further)]
      simp [further, skipTrivia, isWhite]
    rw [hskip, items?_stringValue depth acc s (by omega) (by simp) (by simp)]
    have hrest := ih (.string s :: acc) hleft
    rw [List.reverse_cons, List.append_assoc] at hrest
    exact hrest

theorem value?_array (fuel : Nat) (rest : List Char) :
    value? maxDepth (fuel + 1) ('[' :: rest) =
      (items? (maxDepth - 1) [] fuel (skipTrivia false rest)).map
        fun (j, rest) => (.value j, rest) := rfl

theorem length_le_flatMap (items : List String) :
    items.length ≤
      (items.flatMap fun s => "    ".toList ++ stringValue s ++ [',', '\n']).length := by
  induction items with
  | nil => exact Nat.le_refl 0
  | cons s items ih =>
    simp only [List.flatMap_cons, List.length_append, List.length_cons] at ih ⊢
    omega

theorem spells_strings (items : List String) :
    Spells (stringArray items) (.value (.strings items)) := by
  have hstarts : ∃ c tail, stringArray items = c :: tail ∧ isWhite c = false := by
    unfold stringArray
    split <;> exact ⟨'[', _, rfl, rfl⟩
  refine ⟨hstarts, fun rest fuel hfuel => ?_⟩
  obtain ⟨fuel, rfl, hleft⟩ := exists_fuel hfuel
  match items with
  | [] =>
    obtain ⟨fuel, rfl, -⟩ := exists_fuel (Nat.lt_of_lt_of_le Nat.one_lt_two hleft)
    rfl
  | [s] =>
    have hlong : 1 < fuel := by
      simp only [stringArray, List.length_append, List.length_cons] at hleft
      omega
    obtain ⟨fuel, rfl, hitem⟩ := exists_fuel hlong
    have hopen : stringArray [s] ++ '\n' :: rest = '[' :: (stringValue s ++ ']' :: '\n' :: rest) := by
      simp [stringArray]
    rw [hopen, value?_array, skipTrivia_stringValue,
      items?_stringValue _ _ _ hitem (by simp) (by simp)]
    rfl
  | s :: t :: items =>
    have hlong : (s :: t :: items).length + 1 < fuel := by
      have hlines := length_le_flatMap (s :: t :: items)
      simp only [stringArray, List.length_append, List.length_cons, List.length_nil] at hleft hlines ⊢
      omega
    have hopen : stringArray (s :: t :: items) ++ '\n' :: rest =
        '[' :: '\n' :: ((s :: t :: items).flatMap
          (fun s => "    ".toList ++ stringValue s ++ [',', '\n']) ++ ']' :: '\n' :: rest) := by
      simp [stringArray]
    rw [hopen, value?_array, items?_lines _ _ _ _ hlong]
    rfl

end HostSteward.Toml
