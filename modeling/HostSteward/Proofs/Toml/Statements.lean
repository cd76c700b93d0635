import HostSteward.Proofs.Toml.Values

/-!
# Lines are read as the statements that they were written for

A header, an assignment and an empty line each leave what comes after them alone, so that a text
put together from such lines is read as the statements of the lines in a row.
-/

namespace HostSteward.Toml

variable {text rest : List Char}

/-- A text whose lines are read as some statements, whatever comes after it. -/
def Says (text : List Char) (statements : List Statement) : Prop :=
  ∀ acc rest fuel, (text ++ rest).length < fuel → ∃ left, rest.length < left ∧
    statements? acc fuel (text ++ rest) = statements? (statements.reverse ++ acc) left rest

theorem says_nil : Says [] [] := fun _ _ fuel hfuel => ⟨fuel, hfuel, rfl⟩

theorem Says.append {first second : List Char} {ss ts : List Statement} (hfirst : Says first ss)
    (hsecond : Says second ts) : Says (first ++ second) (ss ++ ts) := by
  intro acc rest fuel hfuel
  rw [List.append_assoc] at hfuel ⊢
  obtain ⟨middle, hmiddle, hread⟩ := hfirst acc (second ++ rest) fuel hfuel
  obtain ⟨left, hleft, hrest⟩ := hsecond (ss.reverse ++ acc) rest middle hmiddle
  exact ⟨left, hleft, by rw [hread, hrest, List.reverse_append, List.append_assoc]⟩

theorem says_break : Says ['\n'] [] := by
  intro acc rest fuel hfuel
  obtain ⟨fuel, rfl, hleft⟩ := exists_fuel hfuel
  exact ⟨fuel, hleft, rfl⟩

theorem skipWhite_eq {c : Char} (hc : isWhite c = false) (tail : List Char) :
    skipWhite (c :: tail) = c :: tail := by
  rw [skipWhite, List.dropWhile_cons_of_neg (by simp [hc])]

/-- A character that neither ends a line nor is skipped. -/
def Begins (c : Char) : Prop := isWhite c = false ∧ c ≠ '#' ∧ c ≠ '\n' ∧ c ≠ '\r'

theorem lineEnd?_of_begins {c : Char} (hc : Begins c) (rest : List Char) :
    lineEnd? (c :: rest) = none := by
  obtain ⟨hwhite, hcomment, hfeed, hreturn⟩ := hc
  unfold lineEnd?
  rw [skipWhite_eq hwhite]
  split
  next heq => exact absurd (List.cons.inj heq).1 hcomment
  next heq =>
    rw [if_neg (by simp)]
    unfold newline?
    split
    next heq => exact absurd (List.cons.inj heq).1 hfeed
    next heq => exact absurd (List.cons.inj heq).1 hreturn
    next => rfl

theorem says_statement {c : Char} {body : List Char} {s : Statement} (hc : Begins c)
    (hread : ∀ rest, statement? (c :: body ++ '\n' :: rest) = some (s, '\n' :: rest)) :
    Says (c :: body ++ ['\n']) [s] := by
  intro acc rest fuel hfuel
  obtain ⟨fuel, rfl, hleft⟩ := exists_fuel hfuel
  refine ⟨fuel, ?_, ?_⟩
  · simp only [List.length_append, List.length_cons] at hleft
    omega
  · have hopen : c :: body ++ ['\n'] ++ rest = c :: (body ++ '\n' :: rest) := by simp
    have hread := hread rest
    rw [List.cons_append] at hread
    rw [hopen, statements?, if_neg (by simp), lineEnd?_of_begins hc, skipWhite_eq hc.1, hread]
    rfl

theorem key?_of_simple {c : Char} {key name tail : List Char} (hc : isWhite c = false)
    (hread : readSimpleKey? (c :: key ++ rest) = some (name, rest)) (htail : skipWhite rest = tail)
    (hlast : tail.head? ≠ some '.') : key? (c :: key ++ rest) = some ([String.ofList name], tail) := by
  have hkey : readKey? [] ((c :: key ++ rest).length + 1) (c :: key ++ rest) =
      some ([String.ofList name], tail) := by
    rw [readKey?, List.cons_append, skipWhite_eq hc, ← List.cons_append, hread]
    simp only [htail]
    split
    next => exact absurd rfl hlast
    next => rfl
  rw [key?, hkey]
  rfl

theorem begins_of_isBareKeyChar {c : Char} (h : isBareKeyChar c = true) : Begins c := by
  refine ⟨?_, ?_, ?_, ?_⟩
  · by_contra hwhite
    rw [Bool.not_eq_false, isWhite, Bool.or_eq_true, decide_eq_true_eq, decide_eq_true_eq] at hwhite
    rcases hwhite with rfl | rfl <;> cases h
  all_goals
    rintro rfl
    cases h

/-! ## Assignments -/

structure IsKey (key : List Char) (path : List String) : Prop where
  starts : ∃ c tail, key = c :: tail ∧ Begins c ∧ c ≠ '['
  reads : ∀ rest, key? (key ++ '=' :: rest) = some (path, '=' :: rest)

theorem isKey_writeKey (key : String) : IsKey (writeKey key.toList ++ [' ']) [key] := by
  obtain ⟨c, tail, hwrite, hhead⟩ := writeKey_head key.toList
  have hc : Begins c ∧ c ≠ '[' := by
    rcases hhead with hbare | rfl | rfl
    · refine ⟨begins_of_isBareKeyChar hbare, ?_⟩
      rintro rfl
      cases hbare
    · exact ⟨⟨rfl, by decide, by decide, by decide⟩, by decide⟩
    · exact ⟨⟨rfl, by decide, by decide, by decide⟩, by decide⟩
  refine ⟨⟨c, tail ++ [' '], by rw [hwrite]; rfl, hc⟩, fun rest => ?_⟩
  have hsimple : readSimpleKey? (c :: tail ++ ' ' :: '=' :: rest) =
      some (key.toList, ' ' :: '=' :: rest) := by
    rw [← hwrite]
    exact readSimpleKey?_writeKey key.toList (by simp [isBareKeyChar])
  have hread : key? (c :: tail ++ ' ' :: '=' :: rest) = some ([String.ofList key.toList], '=' :: rest) :=
    key?_of_simple hc.1.1 hsimple rfl (by simp)
  rw [String.ofList_toList] at hread
  rw [hwrite, List.append_assoc]
  exact hread

theorem statement?_of_key {key : List Char} {path : List String} (hkey : IsKey key path)
    (rest : List Char) : statement? (key ++ '=' :: rest) =
      (value? maxDepth (2 * rest.length + 2) (skipWhite rest)).map
        fun r => (.assignment path r.1, r.2) := by
  obtain ⟨⟨c, tail, rfl, -, hbracket⟩, hreads⟩ := hkey
  have hpath := hreads rest
  have hword : dropWord? ['='] ('=' :: rest) = some rest := rfl
  unfold statement?
  split
  next heq => exact absurd (List.cons.inj heq).1 hbracket
  next heq => exact absurd (List.cons.inj heq).1 hbracket
  next =>
    rw [hpath, Option.bind_eq_bind, Option.bind_some]
    dsimp only
    rw [hword, Option.bind_eq_bind, Option.bind_some]
    cases value? maxDepth (2 * rest.length + 2) (skipWhite rest) <;> rfl

theorem says_line (key : String) {value : List Char} {n : Node} (hvalue : Spells value n) :
    Says (line key value) [.assignment [key] n] := by
  have hkey := isKey_writeKey key
  obtain ⟨c, tail, hwrite, hc, -⟩ := hkey.starts
  have hopen : line key value = c :: (tail ++ '=' :: ' ' :: value) ++ ['\n'] := by
    have hline : line key value = writeKey key.toList ++ [' '] ++ '=' :: ' ' :: value ++ ['\n'] := by
      simp [line]
    rw [hline, hwrite]
    rfl
  rw [hopen]
  refine says_statement hc fun rest => ?_
  let after := value ++ '\n' :: rest
  have htext : c :: (tail ++ '=' :: ' ' :: value) ++ '\n' :: rest =
      writeKey key.toList ++ [' '] ++ '=' :: ' ' :: after := by
    rw [hwrite]
    simp [after]
  have hread : value? maxDepth (2 * (' ' :: after).length + 2) (skipWhite (' ' :: after)) =
      some (n, '\n' :: rest) := by
    obtain ⟨d, more, hstart, hd⟩ := hvalue.starts
    have hskip : skipWhite (' ' :: after) = after := by
      change skipWhite after = after
      simp only [after, hstart]
      exact skipWhite_eq hd _
    rw [hskip]
    refine hvalue.reads rest _ ?_
    simp only [after, List.length_append, List.length_cons]
    omega
  rw [htext, statement?_of_key hkey, hread]
  rfl

/-! ## Headers -/

theorem says_header {name : String} {path : List String} (hname : name.toList.head? ≠ some '[')
    (hkey : ∀ rest, key? (name.toList ++ ']' :: rest) = some (path, ']' :: rest)) :
    Says (header name) [.table path] := by
  have hc : Begins '[' := ⟨rfl, by decide, by decide, by decide⟩
  have hopen : header name = '[' :: (name.toList ++ [']']) ++ ['\n'] := by simp [header]
  rw [hopen]
  refine says_statement hc fun rest => ?_
  have htext : '[' :: (name.toList ++ [']']) ++ '\n' :: rest =
      '[' :: (name.toList ++ ']' :: '\n' :: rest) := by
    simp
  have hword : dropWord? [']'] (']' :: '\n' :: rest) = some ('\n' :: rest) := rfl
  rw [htext]
  unfold statement?
  split
  next heq =>
    have hafter := (List.cons.inj heq).2
    cases hchars : name.toList with
    | nil =>
      rw [hchars] at hafter
      exact absurd (List.cons.inj hafter).1 (by decide)
    | cons c tail =>
      rw [hchars] at hafter hname
      exact absurd (congrArg some (List.cons.inj hafter).1) hname
  next heq =>
    rw [← (List.cons.inj heq).2, hkey, Option.bind_eq_bind, Option.bind_some]
    simp only [hword, Option.bind_eq_bind, Option.bind_some]
  next hother => exact absurd rfl (hother _)

theorem says_arrayHeader {name : String} {path : List String}
    (hkey : ∀ rest, key? (name.toList ++ ']' :: rest) = some (path, ']' :: rest)) :
    Says (arrayHeader name) [.element path] := by
  have hc : Begins '[' := ⟨rfl, by decide, by decide, by decide⟩
  have hopen : arrayHeader name = '[' :: ('[' :: name.toList ++ [']', ']']) ++ ['\n'] := by
    simp [arrayHeader]
  rw [hopen]
  refine says_statement hc fun rest => ?_
  have htext : '[' :: ('[' :: name.toList ++ [']', ']']) ++ '\n' :: rest =
      '[' :: '[' :: (name.toList ++ ']' :: ']' :: '\n' :: rest) := by
    simp
  have hword : dropWord? [']', ']'] (']' :: ']' :: '\n' :: rest) = some ('\n' :: rest) := rfl
  rw [htext, statement?, hkey, Option.bind_eq_bind, Option.bind_some]
  simp only [hword, Option.bind_eq_bind, Option.bind_some]

/-! ## Texts -/

/-- Blocks with an empty line between them. -/
theorem says_intercalate {blocks : List (List Char × List Statement)}
    (h : ∀ b ∈ blocks, Says b.1 b.2) :
    Says (List.intercalate ['\n'] (blocks.map (·.1))) (blocks.flatMap (·.2)) := by
  induction blocks with
  | nil => exact says_nil
  | cons b blocks ih =>
    obtain ⟨hb, hblocks⟩ := List.forall_mem_cons.1 h
    cases blocks with
    | nil => simpa using hb
    | cons c blocks =>
      have hfirst : Says (b.1 ++ ['\n']) b.2 := by simpa using hb.append says_break
      have hrest := ih hblocks
      rw [List.map_cons] at hrest
      rw [List.map_cons, List.flatMap_cons, List.map_cons, List.intercalate_cons_cons]
      exact hfirst.append hrest

theorem read?_of_text {ss : List Statement} (h : Says text ss)
    (hmark : text.head? ≠ some '\uFEFF') :
    read? (String.ofList text) = (Document.ofStatements? ss).bind fun d => d.root.toJson? := by
  have hstatements : statements? [] (text.length + 1) text = some ss := by
    obtain ⟨left, hleft, hread⟩ := h [] [] (text.length + 1) (by simp)
    obtain ⟨left, rfl, -⟩ := exists_fuel hleft
    rw [List.append_nil, List.append_nil] at hread
    rw [hread, statements?]
    simp
  unfold read?
  rw [String.toList_ofList]
  split
  next => exact absurd rfl hmark
  next =>
    dsimp only
    rw [hstatements]
    rfl

end HostSteward.Toml
