import HostSteward.Toml.Quoted
import Mathlib.Data.List.TakeWhile
import Mathlib.Tactic.SplitIfs

/-!
# Strings and keys are read as they were written

Whatever style is chosen for a string, reading takes exactly what was written and gives the same
string. In a string of several lines the quotes in a row are what matters: fewer than three never
close it, and up to two may stand before the three that do.
-/

namespace HostSteward.Toml

variable {q c : Char} {cs rest : List Char}

/-! ## Runs of quotes -/

theorem best_le_longestRun (q : Char) (current best : Nat) (cs : List Char) :
    best ≤ longestRun q current best cs := by
  induction cs generalizing current best with
  | nil => exact Nat.le_max_right current best
  | cons c rest ih =>
    rw [longestRun]
    split
    · exact ih _ _
    · exact Nat.le_trans (Nat.le_max_right current best) (ih _ _)

theorem run_le_longestRun (q : Char) (current best : Nat) (cs : List Char) :
    current + (cs.takeWhile (· = q)).length ≤ longestRun q current best cs := by
  induction cs generalizing current best with
  | nil => exact Nat.le_max_left current best
  | cons c rest ih =>
    rw [longestRun]
    by_cases hc : c = q
    · have hrest := ih (current + 1) best
      simp only [hc, decide_true, List.takeWhile_cons, if_true, List.length_cons]
      omega
    · have hbest := best_le_longestRun q 0 (max current best) rest
      have hmax := Nat.le_max_left current best
      simp only [hc, decide_false, List.takeWhile_cons]
      simp
      omega

theorem longestRun_mono (q : Char) {current current' best best' : Nat} (hcurrent : current ≤ current')
    (hbest : best ≤ best') (cs : List Char) :
    longestRun q current best cs ≤ longestRun q current' best' cs := by
  induction cs generalizing current current' best best' with
  | nil =>
    simp only [longestRun]
    omega
  | cons c rest ih =>
    rw [longestRun, longestRun]
    split
    · exact ih (by omega) hbest
    · exact ih (Nat.le_refl 0) (by omega)

theorem longestRun_tail_le (q c : Char) (rest : List Char) :
    longestRun q 0 0 rest ≤ longestRun q 0 0 (c :: rest) := by
  rw [longestRun]
  split
  · exact longestRun_mono q (Nat.zero_le 1) (Nat.le_refl 0) rest
  · exact longestRun_mono q (Nat.le_refl 0) (Nat.zero_le _) rest

theorem not_mem_of_longestRun (h : longestRun q 0 0 cs = 0) : q ∉ cs := by
  induction cs with
  | nil => exact List.not_mem_nil
  | cons c rest ih =>
    have hhead := run_le_longestRun q 0 0 (c :: rest)
    have htail := longestRun_tail_le q c rest
    have hne : c ≠ q := by
      rintro rfl
      simp [h] at hhead
    have hrest : q ∉ rest := ih (by omega)
    simp [hne.symm, hrest]

/-! ## Escapes -/

theorem hex?_of_control : ∀ n < 0x80, Json.Reader.hex? ['0', '0', hexUpper (n / 16), hexUpper (n % 16)] =
    some n := by
  decide

theorem toNat_of_isControl (h : isControl c = true) : c.toNat < 0x80 := by
  unfold isControl at h
  simp only [Bool.or_eq_true, decide_eq_true_eq] at h
  omega

/-- An escape, or a character that stands for itself. -/
theorem escapeChar_cases (multiline : Bool) (c : Char) :
    (escapeChar multiline c = [c] ∧ c ≠ '\\' ∧ (isPlain c ∨ multiline ∧ c = '\n')) ∨
    ∃ escape, escapeChar multiline c = '\\' :: escape ∧
      ∀ rest, readEscape? (escape ++ rest) = some (c, rest) ∧
        newline? (skipWhite (escape ++ rest)) = none := by
  unfold escapeChar
  by_cases hb : c = '\x08'
  · exact .inr ⟨['b'], by rw [if_pos hb], fun rest => ⟨hb ▸ rfl, rfl⟩⟩
  by_cases ht : c = '\t'
  · exact .inr ⟨['t'], by rw [if_neg hb, if_pos ht], fun rest => ⟨ht ▸ rfl, rfl⟩⟩
  by_cases hn : c = '\n'
  · rw [if_neg hb, if_neg ht, if_pos hn]
    cases multiline with
    | true => exact .inl ⟨by rw [if_pos rfl, hn], hn ▸ by decide, .inr ⟨rfl, hn⟩⟩
    | false => exact .inr ⟨['n'], rfl, fun rest => ⟨hn ▸ rfl, rfl⟩⟩
  by_cases hf : c = '\x0c'
  · exact .inr ⟨['f'], by rw [if_neg hb, if_neg ht, if_neg hn, if_pos hf],
      fun rest => ⟨hf ▸ rfl, rfl⟩⟩
  by_cases hr : c = '\r'
  · exact .inr ⟨['r'], by rw [if_neg hb, if_neg ht, if_neg hn, if_neg hf, if_pos hr],
      fun rest => ⟨hr ▸ rfl, rfl⟩⟩
  rw [if_neg hb, if_neg ht, if_neg hn, if_neg hf, if_neg hr]
  by_cases hs : c = '\\'
  · subst hs
    exact .inr ⟨['\\'], rfl, fun rest => ⟨rfl, rfl⟩⟩
  rw [if_neg hs]
  cases hcontrol : isControl c with
  | false => exact .inl ⟨rfl, hs, .inl (by simp [isPlain, hcontrol])⟩
  | true =>
    have hcode := toNat_of_isControl hcontrol
    refine .inr ⟨['u', '0', '0', hexUpper (c.toNat / 16), hexUpper (c.toNat % 16)], rfl,
      fun rest => ⟨?_, rfl⟩⟩
    have hchar : charOfCode? c.toNat = some c := by
      unfold charOfCode?
      rw [if_pos (Or.inl (by omega)), Char.ofNat_toNat]
    change (do
      let code ← Json.Reader.hex? ['0', '0', hexUpper (c.toNat / 16), hexUpper (c.toNat % 16)]
      let c ← charOfCode? code
      some (c, rest)) = some (c, rest)
    rw [hex?_of_control c.toNat hcode, Option.bind_eq_bind, Option.bind_some, hchar]
    rfl

/-! ## Strings of one line -/

theorem exists_fuel {n fuel : Nat} (h : n < fuel) : ∃ left, fuel = left + 1 ∧ n ≤ left :=
  ⟨fuel - 1, by omega, by omega⟩

theorem readBasic?_escapeBody (cs rest acc : List Char) {fuel : Nat}
    (hfuel : (escapeBody false 0 0 cs).length < fuel) :
    readBasic? acc fuel (escapeBody false 0 0 cs ++ '"' :: rest) = some (acc.reverse ++ cs, rest) := by
  induction cs generalizing acc fuel with
  | nil =>
    obtain ⟨fuel, rfl, -⟩ := exists_fuel hfuel
    simp [escapeBody, readBasic?]
  | cons c cs ih =>
    obtain ⟨fuel, rfl, hleft⟩ := exists_fuel hfuel
    rw [escapeBody] at hleft ⊢
    by_cases hq : c = '"'
    · subst hq
      have hread : readEscape? ('"' :: (escapeBody false 0 0 cs ++ '"' :: rest)) =
          some ('"', escapeBody false 0 0 cs ++ '"' :: rest) := rfl
      have hrest := @ih ('"' :: acc) fuel (by simp at hleft; omega)
      simp [readBasic?, hread, hrest]
    · rw [if_neg hq] at hleft ⊢
      have hrest := @ih (c :: acc) fuel
      rcases escapeChar_cases false c with ⟨hself, hs, hplain⟩ | ⟨escape, hescape, hread⟩
      · rw [hself] at hleft ⊢
        have hplain : isPlain c = true := by simpa using hplain
        simp [readBasic?, hq, hs, hplain, hrest (by simp at hleft; omega)]
      · rw [hescape] at hleft ⊢
        have hread := (hread (escapeBody false 0 0 cs ++ '"' :: rest)).1
        simp [readBasic?, hread, hrest (by simp at hleft; omega)]

theorem readLiteral?_append (rest acc : List Char) (hq : '\'' ∉ cs)
    (hplain : ∀ c ∈ cs, isPlain c = true) :
    readLiteral? acc (cs ++ '\'' :: rest) = some (acc.reverse ++ cs, rest) := by
  induction cs generalizing acc with
  | nil => simp [readLiteral?]
  | cons c cs ih =>
    rw [List.mem_cons, not_or] at hq
    obtain ⟨hc, hcs⟩ := List.forall_mem_cons.1 hplain
    have hrest := ih (c :: acc) hq.2 hcs
    simp [readLiteral?, Ne.symm hq.1, hc, hrest]

/-! ## Strings of several lines -/

/-- Fewer than three quotes close nothing. -/
theorem closing?_of_short {body : List Char} (hshort : (body.takeWhile (· = q)).length ≤ 2)
    (hother : ¬ ∀ c ∈ body, c = q) (acc rest : List Char) : closing? q acc (body ++ rest) = none := by
  have hlt : (body.takeWhile (· = q)).length ≠ body.length := by
    intro hlen
    have hall := (List.takeWhile_prefix (l := body) (· = q)).eq_of_length hlen
    exact hother fun c hc => by simpa using List.takeWhile_eq_self_iff.1 hall c hc
  unfold closing?
  simp only [List.takeWhile_append, if_neg hlt]
  rw [if_neg (by omega)]

/-- Up to two quotes may stand before the three that close. -/
theorem closing?_of_all {body : List Char} (hall : ∀ c ∈ body, c = q)
    (hshort : (body.takeWhile (· = q)).length ≤ 2) (hrest : rest.head? ≠ some q) (acc : List Char) :
    closing? q acc (body ++ q :: q :: q :: rest) = some (acc.reverse ++ body, rest) := by
  obtain ⟨k, rfl⟩ : ∃ k, body = List.replicate k q := ⟨_, List.eq_replicate_of_mem hall⟩
  have hnone : rest.takeWhile (· = q) = [] := by
    cases rest with
    | nil => rfl
    | cons c rest =>
      have hne : c ≠ q := by simpa using hrest
      simp [hne]
  have hrun : (List.replicate k q ++ q :: q :: q :: rest).takeWhile (· = q) =
      List.replicate k q ++ [q, q, q] := by
    rw [List.takeWhile_append_of_pos (by simp)]
    simp [hnone]
  have hk : k ≤ 2 := by simpa using hshort
  unfold closing?
  simp only [hrun, List.length_append, List.length_replicate, List.length_cons, List.length_nil]
  rw [if_pos (by omega), show min (k + (0 + 1 + 1 + 1) - 3) 2 = k by omega]
  simp [List.drop_append]

/-- Of the quotes that a body starts with no more than two are bare, and a body of nothing but bare
quotes is what was to be written. -/
theorem escapeBody_quotes {bare : Nat} (hbare : bare ≤ 2) (cs : List Char) :
    ((escapeBody true 2 bare cs).takeWhile (· = '"')).length ≤ 2 - bare ∧
      ((∀ c ∈ escapeBody true 2 bare cs, c = '"') → escapeBody true 2 bare cs = cs) := by
  induction cs generalizing bare with
  | nil => exact ⟨Nat.zero_le _, fun _ => rfl⟩
  | cons c cs ih =>
    rw [escapeBody]
    by_cases hq : c = '"'
    · subst hq
      by_cases hroom : bare < 2
      · obtain ⟨hshort, hall⟩ := @ih (bare + 1) hroom
        rw [if_pos rfl, if_pos hroom]
        refine ⟨?_, fun h => ?_⟩
        · simp only [List.takeWhile_cons, decide_true, if_true, List.length_cons]
          omega
        · rw [hall (List.forall_mem_cons.1 h).2]
      · rw [if_pos rfl, if_neg hroom]
        exact ⟨Nat.zero_le _, fun h => absurd (h '\\' (by simp)) (by decide)⟩
    · rw [if_neg hq]
      have hhead : ∃ d rest, escapeChar true c = d :: rest ∧ d ≠ '"' := by
        rcases escapeChar_cases true c with ⟨hself, -⟩ | ⟨escape, hescape, -⟩
        · exact ⟨c, [], hself, hq⟩
        · exact ⟨'\\', escape, hescape, by decide⟩
      obtain ⟨d, rest, hchar, hd⟩ := hhead
      rw [hchar]
      exact ⟨by simp [hd], fun h => absurd (h d (by simp)) hd⟩

theorem newline?_of_isPlain (h : isPlain c = true) (rest : List Char) :
    newline? (c :: rest) = none := by
  unfold newline?
  split
  next heq =>
    obtain ⟨rfl, -⟩ := List.cons.inj heq
    cases h
  next heq =>
    obtain ⟨rfl, -⟩ := List.cons.inj heq
    cases h
  next => rfl

theorem readMultilineBasic?_escapeBody (cs acc : List Char) {fuel bare : Nat} (hbare : bare ≤ 2)
    (hfuel : (escapeBody true 2 bare cs).length < fuel) (hrest : rest.head? ≠ some '"') :
    readMultilineBasic? acc fuel (escapeBody true 2 bare cs ++ '"' :: '"' :: '"' :: rest) =
      some (acc.reverse ++ cs, rest) := by
  induction cs generalizing acc fuel bare with
  | nil =>
    obtain ⟨fuel, rfl, -⟩ := exists_fuel hfuel
    have hclose := @closing?_of_all '"' rest [] (by simp) (by simp) hrest acc
    simp only [List.nil_append] at hclose
    simp [escapeBody, readMultilineBasic?, hclose]
  | cons c cs ih =>
    obtain ⟨fuel, rfl, hleft⟩ := exists_fuel hfuel
    obtain ⟨hshort, hall⟩ := escapeBody_quotes hbare (c :: cs)
    by_cases hq : c = '"'
    · subst hq
      by_cases hroom : bare < 2
      -- A bare quote closes only if nothing but quotes is left, and those are counted to the end.
      · have hbody : escapeBody true 2 bare ('"' :: cs) = '"' :: escapeBody true 2 (bare + 1) cs := by
          rw [escapeBody, if_pos rfl, if_pos hroom]
        have hshort' : ((escapeBody true 2 bare ('"' :: cs)).takeWhile (· = '"')).length ≤ 2 := by omega
        by_cases hend : ∀ d ∈ escapeBody true 2 bare ('"' :: cs), d = '"'
        · have hclose := closing?_of_all hend hshort' hrest acc
          rw [hall hend] at hclose ⊢
          rw [List.cons_append] at hclose ⊢
          rw [readMultilineBasic?, if_pos rfl, hclose]
        · have hclose := closing?_of_short hshort' hend acc ('"' :: '"' :: '"' :: rest)
          rw [hbody] at hclose hleft ⊢
          rw [List.cons_append] at hclose ⊢
          have hnext := @ih ('"' :: acc) fuel (bare + 1) hroom (by simp at hleft; omega)
          rw [readMultilineBasic?, if_pos rfl, hclose]
          simp [hnext]
      · have hbody : escapeBody true 2 bare ('"' :: cs) = '\\' :: '"' :: escapeBody true 2 0 cs := by
          rw [escapeBody, if_pos rfl, if_neg hroom]
        rw [hbody] at hleft ⊢
        have hnext := @ih ('"' :: acc) fuel 0 (Nat.zero_le 2) (by simp at hleft; omega)
        have hread : readEscape? ('"' :: (escapeBody true 2 0 cs ++ '"' :: '"' :: '"' :: rest)) =
          some ('"', escapeBody true 2 0 cs ++ '"' :: '"' :: '"' :: rest) := rfl
        have hbreak : newline? (skipWhite ('"' :: (escapeBody true 2 0 cs ++ '"' :: '"' :: '"' :: rest))) =
          none := rfl
        simp [readMultilineBasic?, hread, hbreak, hnext]
    · have hbody : escapeBody true 2 bare (c :: cs) = escapeChar true c ++ escapeBody true 2 0 cs := by
        rw [escapeBody, if_neg hq]
      rw [hbody] at hleft ⊢
      have hnext := @ih (c :: acc) fuel 0 (Nat.zero_le 2)
      rcases escapeChar_cases true c with ⟨hself, hs, hplain⟩ | ⟨escape, hescape, hread⟩
      · rw [hself] at hleft ⊢
        have hnext := hnext (by simp at hleft; omega)
        rcases hplain with hplain | ⟨-, rfl⟩
        · simp [readMultilineBasic?, hq, hs, hplain, newline?_of_isPlain hplain, hnext]
        · simp [readMultilineBasic?, newline?, hnext]
      · rw [hescape] at hleft ⊢
        obtain ⟨hread, hbreak⟩ := hread (escapeBody true 2 0 cs ++ '"' :: '"' :: '"' :: rest)
        have hnext := hnext (by simp at hleft; omega)
        simp [readMultilineBasic?, hread, hbreak, hnext]

theorem readMultilineLiteral?_append (acc : List Char) {fuel : Nat} (hfuel : cs.length < fuel)
    (hshort : longestRun '\'' 0 0 cs ≤ 2) (hplain : ∀ c ∈ cs, isPlain c = true ∨ c = '\n')
    (hrest : rest.head? ≠ some '\'') :
    readMultilineLiteral? acc fuel (cs ++ '\'' :: '\'' :: '\'' :: rest) =
      some (acc.reverse ++ cs, rest) := by
  induction cs generalizing acc fuel with
  | nil =>
    obtain ⟨fuel, rfl, -⟩ := exists_fuel hfuel
    have hclose := @closing?_of_all '\'' rest [] (by simp) (by simp) hrest acc
    simp only [List.nil_append] at hclose
    simp [readMultilineLiteral?, hclose]
  | cons c cs ih =>
    obtain ⟨fuel, rfl, hleft⟩ := exists_fuel hfuel
    obtain ⟨hc, hcs⟩ := List.forall_mem_cons.1 hplain
    have hnext := @ih (c :: acc) fuel hleft
      (Nat.le_trans (longestRun_tail_le '\'' c cs) hshort) hcs
    by_cases hq : c = '\''
    · subst hq
      have hshort' : (('\'' :: cs).takeWhile (· = '\'')).length ≤ 2 := by
        have hrun := run_le_longestRun '\'' 0 0 ('\'' :: cs)
        omega
      by_cases hend : ∀ d ∈ '\'' :: cs, d = '\''
      · have hclose := closing?_of_all hend hshort' hrest acc
        rw [List.cons_append] at hclose ⊢
        rw [readMultilineLiteral?, if_pos rfl, hclose]
      · have hclose := closing?_of_short hshort' hend acc ('\'' :: '\'' :: '\'' :: rest)
        rw [List.cons_append] at hclose ⊢
        rw [readMultilineLiteral?, if_pos rfl, hclose]
        simp [hnext]
    · rcases hc with hc | rfl
      · simp [readMultilineLiteral?, hq, hc, newline?_of_isPlain hc, hnext]
      · simp [readMultilineLiteral?, newline?, hnext]


/-! ## Any style -/

theorem readString?_basic (h : ∀ tail, rest ≠ '"' :: '"' :: tail) :
    readString? ('"' :: rest) = readBasic? [] (rest.length + 1) rest := by
  unfold readString?
  split
  next heq => exact absurd (List.cons.inj heq).2 (h _)
  next heq => cases (List.cons.inj heq).1
  next heq => rw [(List.cons.inj heq).2]
  next heq => cases (List.cons.inj heq).1
  next hother _ => exact absurd rfl (hother _)

theorem readString?_literal (h : ∀ tail, rest ≠ '\'' :: '\'' :: tail) :
    readString? ('\'' :: rest) = readLiteral? [] rest := by
  unfold readString?
  split
  next heq => cases (List.cons.inj heq).1
  next heq => exact absurd (List.cons.inj heq).2 (h _)
  next heq => cases (List.cons.inj heq).1
  next heq => rw [(List.cons.inj heq).2]
  next hother => exact absurd rfl (hother _)

theorem dropBreak_leadingBreak {body : List Char} (h : '\n' ∉ cs → newline? body = none) :
    dropBreak (leadingBreak cs ++ body) = body := by
  unfold leadingBreak
  split
  next => rfl
  next hno =>
    rw [List.nil_append, dropBreak, h (by simpa using hno)]
    rfl

theorem escapeBody_head_ne (cs tail : List Char) : escapeBody false 0 0 cs ≠ '"' :: tail := by
  cases cs with
  | nil => exact fun h => nomatch h
  | cons c cs =>
    rw [escapeBody]
    by_cases hq : c = '"'
    · simp [hq]
    · rcases escapeChar_cases false c with ⟨hself, -⟩ | ⟨escape, hescape, -⟩
      · simp [hq, hself]
      · simp [hq, hescape]

theorem readBasic?_writeBasic (cs rest : List Char) :
    readBasic? [] ((escapeBody false 0 0 cs ++ '"' :: rest).length + 1)
      (escapeBody false 0 0 cs ++ '"' :: rest) = some (cs, rest) :=
  readBasic?_escapeBody cs rest [] (by rw [List.length_append]; omega)

theorem readString?_writeBasic (cs : List Char) (hrest : rest.head? ≠ some '"') :
    readString? (writeBasic cs ++ rest) = some (cs, rest) := by
  have hone (tail : List Char) : escapeBody false 0 0 cs ++ '"' :: rest ≠ '"' :: '"' :: tail := by
    intro heq
    -- What follows the opening quote is no quote, but for an empty string in front of one.
    cases hbody : escapeBody false 0 0 cs with
    | nil =>
      rw [hbody] at heq
      simp [(List.cons.inj heq).2] at hrest
    | cons d body =>
      rw [hbody] at heq
      exact escapeBody_head_ne cs body ((List.cons.inj heq).1 ▸ hbody)
  have hread := readString?_basic hone
  rw [readBasic?_writeBasic] at hread
  simpa [writeBasic] using hread

theorem readString?_writeLiteral (hq : '\'' ∉ cs) (hplain : ∀ c ∈ cs, isPlain c = true)
    (hrest : rest.head? ≠ some '\'') :
    readString? ('\'' :: cs ++ ['\''] ++ rest) = some (cs, rest) := by
  have hone (tail : List Char) : cs ++ '\'' :: rest ≠ '\'' :: '\'' :: tail := by
    rintro heq
    cases cs with
    | nil => simp [(List.cons.inj heq).2] at hrest
    | cons c cs => exact hq (by simp [(List.cons.inj heq).1])
  have hread := readString?_literal hone
  rw [readLiteral?_append rest [] hq hplain] at hread
  simpa using hread

theorem readString?_writeMultilineBasic (cs : List Char) (hrest : rest.head? ≠ some '"') :
    readString? (['"', '"', '"'] ++ leadingBreak cs ++ escapeBody true 2 0 cs ++ ['"', '"', '"'] ++
      rest) = some (cs, rest) := by
  have hbreak : '\n' ∉ cs → newline? (escapeBody true 2 0 cs ++ '"' :: '"' :: '"' :: rest) = none := by
    intro hno
    cases cs with
    | nil => rfl
    | cons c cs =>
      rw [escapeBody]
      by_cases hq : c = '"'
      · simp [hq, newline?]
      · rcases escapeChar_cases true c with ⟨hself, -, hplain | ⟨-, rfl⟩⟩ | ⟨escape, hescape, -⟩
        · simp [hq, hself, newline?_of_isPlain hplain]
        · exact absurd List.mem_cons_self hno
        · simp [hq, hescape, newline?]
  have hopen : ['"', '"', '"'] ++ leadingBreak cs ++ escapeBody true 2 0 cs ++ ['"', '"', '"'] ++ rest =
      '"' :: '"' :: '"' :: (leadingBreak cs ++ (escapeBody true 2 0 cs ++ '"' :: '"' :: '"' :: rest)) := by
    simp
  rw [hopen]
  simp only [readString?, dropBreak_leadingBreak hbreak]
  exact readMultilineBasic?_escapeBody cs [] (Nat.zero_le 2)
    (by simp only [List.length_append]; omega) hrest

theorem readString?_writeMultilineLiteral (hshort : longestRun '\'' 0 0 cs ≤ 2)
    (hplain : ∀ c ∈ cs, isPlain c = true ∨ c = '\n') (hrest : rest.head? ≠ some '\'') :
    readString? (['\'', '\'', '\''] ++ leadingBreak cs ++ cs ++ ['\'', '\'', '\''] ++ rest) =
      some (cs, rest) := by
  have hbreak : '\n' ∉ cs → newline? (cs ++ '\'' :: '\'' :: '\'' :: rest) = none := by
    intro hno
    cases cs with
    | nil => rfl
    | cons c cs =>
      have hc : c ≠ '\n' := fun heq => hno (by simp [heq])
      exact newline?_of_isPlain ((hplain c List.mem_cons_self).resolve_right hc) _
  have hopen : ['\'', '\'', '\''] ++ leadingBreak cs ++ cs ++ ['\'', '\'', '\''] ++ rest =
      '\'' :: '\'' :: '\'' :: (leadingBreak cs ++ (cs ++ '\'' :: '\'' :: '\'' :: rest)) := by
    simp
  rw [hopen]
  simp only [readString?, dropBreak_leadingBreak hbreak]
  exact readMultilineLiteral?_append [] (by simp only [List.length_append]; omega) hshort hplain hrest

/-- The literal styles are chosen for what they can hold. -/
theorem of_styleOf_literal (h : styleOf cs = .literal) :
    '\'' ∉ cs ∧ ∀ c ∈ cs, isPlain c = true := by
  dsimp only [styleOf] at h
  split_ifs at h with hbasic hfits
  simp only [Bool.and_eq_true, Bool.not_eq_true', List.any_eq_false, decide_eq_true_eq] at hfits
  obtain ⟨⟨hcodes, hnewline⟩, hquotes⟩ := hfits
  refine ⟨not_mem_of_longestRun hquotes, fun c hc => ?_⟩
  have hcode := hcodes c hc
  have hbreak := hnewline c hc
  grind [isPlain]

theorem of_styleOf_multilineLiteral (h : styleOf cs = .multilineLiteral) :
    longestRun '\'' 0 0 cs ≤ 2 ∧ ∀ c ∈ cs, isPlain c = true ∨ c = '\n' := by
  dsimp only [styleOf] at h
  split_ifs at h with hbasic hliteral hdouble hfits
  simp only [Bool.and_eq_true, Bool.not_eq_true', List.any_eq_false, decide_eq_true_eq] at hfits
  obtain ⟨hcodes, hquotes⟩ := hfits
  refine ⟨hquotes, fun c hc => ?_⟩
  have hcode := hcodes c hc
  grind [isPlain]

/-- A string is read as it was written, in front of anything but a quote. -/
theorem readString?_writeString (cs : List Char) (hdouble : rest.head? ≠ some '"')
    (hsingle : rest.head? ≠ some '\'') : readString? (writeString cs ++ rest) = some (cs, rest) := by
  unfold writeString
  cases hstyle : styleOf cs with
  | basic => exact readString?_writeBasic cs hdouble
  | literal =>
    obtain ⟨hq, hplain⟩ := of_styleOf_literal hstyle
    exact readString?_writeLiteral hq hplain hsingle
  | multilineBasic => exact readString?_writeMultilineBasic cs hdouble
  | multilineLiteral =>
    obtain ⟨hshort, hplain⟩ := of_styleOf_multilineLiteral hstyle
    exact readString?_writeMultilineLiteral hshort hplain hsingle

/-! ## Keys -/

theorem takeWhile_isBareKeyChar (hbare : cs.all isBareKeyChar = true)
    (hrest : ∀ c ∈ rest.head?, isBareKeyChar c = false) :
    (cs ++ rest).takeWhile isBareKeyChar = cs ∧ (cs ++ rest).dropWhile isBareKeyChar = rest := by
  have hall : ∀ c ∈ cs, isBareKeyChar c = true := List.all_eq_true.1 hbare
  rw [List.takeWhile_append_of_pos hall, List.dropWhile_append_of_pos hall]
  cases rest with
  | nil => simp
  | cons c rest =>
    have hc : isBareKeyChar c = false := hrest c rfl
    simp [hc]

theorem readSimpleKey?_bare (hne : cs ≠ []) (hbare : cs.all isBareKeyChar = true)
    (hrest : ∀ c ∈ rest.head?, isBareKeyChar c = false) :
    readSimpleKey? (cs ++ rest) = some (cs, rest) := by
  obtain ⟨htake, hdrop⟩ := takeWhile_isBareKeyChar hbare hrest
  cases cs with
  | nil => exact absurd rfl hne
  | cons c cs =>
    have hc : isBareKeyChar c = true := List.all_eq_true.1 hbare c List.mem_cons_self
    rw [List.cons_append] at htake hdrop ⊢
    unfold readSimpleKey?
    split
    next heq =>
      rw [(List.cons.inj heq).1] at hc
      cases hc
    next heq =>
      rw [(List.cons.inj heq).1] at hc
      cases hc
    next => simp [htake, hdrop]

theorem readSimpleKey?_writeBasic (cs rest : List Char) :
    readSimpleKey? (writeBasic cs ++ rest) = some (cs, rest) := by
  have hread := readBasic?_writeBasic cs rest
  simpa [writeBasic, readSimpleKey?] using hread

/-- A key is read as it was written, in front of anything that is no part of a bare key. -/
theorem readSimpleKey?_writeKey (cs : List Char)
    (hrest : ∀ c ∈ rest.head?, isBareKeyChar c = false) :
    readSimpleKey? (writeKey cs ++ rest) = some (cs, rest) := by
  dsimp only [writeKey]
  split_ifs with hbare hbasic hliteral
  · simp only [Bool.and_eq_true, Bool.not_eq_true', List.isEmpty_eq_false_iff] at hbare
    exact readSimpleKey?_bare hbare.1 hbare.2 hrest
  · exact readSimpleKey?_writeBasic cs rest
  · simp only [Bool.and_eq_true, Bool.not_eq_true', List.any_eq_false, decide_eq_true_eq] at hliteral
    obtain ⟨hcontrol, hquote⟩ := hliteral
    have hq : '\'' ∉ cs := fun hmem => hquote _ hmem rfl
    have hplain : ∀ c ∈ cs, isPlain c = true := by
      intro c hc
      have hcode := hcontrol c hc
      grind [isPlain]
    have hread := readLiteral?_append rest [] hq hplain
    simpa [readSimpleKey?] using hread
  · exact readSimpleKey?_writeBasic cs rest

/-- A key begins with a character that it is made of or with a quote. -/
theorem writeKey_head (cs : List Char) :
    ∃ c tail, writeKey cs = c :: tail ∧ (isBareKeyChar c = true ∨ c = '"' ∨ c = '\'') := by
  dsimp only [writeKey]
  split_ifs with hbare hbasic hliteral
  · cases cs with
    | nil => cases hbare
    | cons c cs =>
      simp only [List.all_cons, Bool.and_eq_true] at hbare
      exact ⟨c, cs, rfl, .inl hbare.2.1⟩
  · exact ⟨'"', _, rfl, .inr (.inl rfl)⟩
  · exact ⟨'\'', _, rfl, .inr (.inr rfl)⟩
  · exact ⟨'"', _, rfl, .inr (.inl rfl)⟩

theorem writeString_head (cs : List Char) :
    ∃ q tail, writeString cs = q :: tail ∧ (q = '"' ∨ q = '\'') := by
  unfold writeString
  split
  · exact ⟨'"', _, rfl, .inl rfl⟩
  · exact ⟨'\'', _, rfl, .inr rfl⟩
  · exact ⟨'"', _, rfl, .inl rfl⟩
  · exact ⟨'\'', _, rfl, .inr rfl⟩

end HostSteward.Toml
