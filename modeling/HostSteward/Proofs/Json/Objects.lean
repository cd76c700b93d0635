import HostSteward.Proofs.Json.Integers
import Mathlib.Data.List.TakeWhile

/-!
# Values inside objects

A value that stands in an object is read where it stands, and is refused together with the object.
What comes before it and after it in the object is read the same whatever the value is, and the
object then has the value in one place among members that do not depend on it.
-/

namespace HostSteward

/-! ## A place among sorted members -/

namespace OrderedMap

variable {ν : Type} {k : String}

theorem insertEntry_around (k : String) (l : List (String × ν)) :
    ∃ before after, (∀ m ∈ before ++ after, m ∈ l) ∧
      ∀ v, insertEntry k v l = before ++ (k, v) :: after := by
  induction l with
  | nil => exact ⟨[], [], by simp, fun v => rfl⟩
  | cons e l ih =>
    by_cases hlt : k < e.1
    · exact ⟨[], e :: l, by simp, fun v => if_pos hlt⟩
    · by_cases hgt : e.1 < k
      · obtain ⟨before, after, hmem, heq⟩ := ih
        refine ⟨e :: before, after, fun m hm => ?_, fun v => ?_⟩
        · rcases List.mem_cons.1 hm with rfl | hm
          · exact List.mem_cons_self
          · exact List.mem_cons_of_mem _ (hmem m hm)
        · rw [insertEntry, if_neg hlt, if_pos hgt, heq, List.cons_append]
      · refine ⟨[], l, fun m hm => List.mem_cons_of_mem _ hm, fun v => ?_⟩
        rw [insertEntry, if_neg hlt, if_neg hgt, List.nil_append]

/-- Another entry goes before the place or after it. -/
theorem insertEntry_beside {key : String} (hkey : key ≠ k) (u : ν)
    (before after : List (String × ν)) : ∃ before' after',
      (∀ m ∈ before' ++ after', m = (key, u) ∨ m ∈ before ++ after) ∧
      ∀ v, insertEntry key u (before ++ (k, v) :: after) = before' ++ (k, v) :: after' := by
  induction before with
  | nil =>
    by_cases hlt : key < k
    · refine ⟨[(key, u)], after, fun m hm => ?_, fun v => if_pos hlt⟩
      exact (List.mem_cons.1 hm).imp id id
    · have hgt : k < key := by
        by_contra hge
        exact hkey (LinearKey.connected hlt hge)
      refine ⟨[], insertEntry key u after, fun m hm => mem_insertEntry hm, fun v => ?_⟩
      rw [List.nil_append, insertEntry, if_neg hlt, if_pos hgt, List.nil_append]
  | cons e before ih =>
    by_cases hlt : key < e.1
    · refine ⟨(key, u) :: e :: before, after, fun m hm => ?_, fun v => if_pos hlt⟩
      exact (List.mem_cons.1 hm).imp id id
    · by_cases hgt : e.1 < key
      · obtain ⟨before', after', hmem, heq⟩ := ih
        refine ⟨e :: before', after', fun m hm => ?_, fun v => ?_⟩
        · rcases List.mem_cons.1 hm with rfl | hm
          · exact .inr List.mem_cons_self
          · exact (hmem m hm).imp_right (List.mem_cons_of_mem _)
        · rw [List.cons_append, insertEntry, if_neg hlt, if_pos hgt, heq, List.cons_append]
      · refine ⟨(key, u) :: before, after, fun m hm => ?_, fun v => ?_⟩
        · rcases List.mem_cons.1 hm with rfl | hm
          · exact .inl rfl
          · exact .inr (List.mem_cons_of_mem _ hm)
        · rw [List.cons_append, insertEntry, if_neg hlt, if_neg hgt, List.cons_append]

theorem entries_foldl_insert (l : List (String × ν)) (m : OrderedMap String ν) :
    (l.foldl (fun m e => m.insert e.1 e.2) m).entries =
      l.foldl (fun entries e => insertEntry e.1 e.2 entries) m.entries := by
  induction l generalizing m with
  | nil => rfl
  | cons e l ih => exact ih (m.insert e.1 e.2)

theorem mem_of_foldl_insertEntry {l entries : List (String × ν)} {m : String × ν}
    (hm : m ∈ l.foldl (fun entries e => insertEntry e.1 e.2 entries) entries) :
    m ∈ entries ∨ m ∈ l := by
  induction l generalizing entries with
  | nil => exact .inl hm
  | cons e l ih =>
    rcases ih hm with hm | hm
    · rcases mem_insertEntry hm with rfl | hm
      · exact .inr List.mem_cons_self
      · exact .inl hm
    · exact .inr (List.mem_cons_of_mem _ hm)

theorem foldl_insertEntry_beside {l : List (String × ν)} (hl : ∀ m ∈ l, m.1 ≠ k)
    (before after : List (String × ν)) : ∃ before' after',
      (∀ m ∈ before' ++ after', m ∈ l ∨ m ∈ before ++ after) ∧
      ∀ v, l.foldl (fun entries e => insertEntry e.1 e.2 entries) (before ++ (k, v) :: after) =
        before' ++ (k, v) :: after' := by
  induction l generalizing before after with
  | nil => exact ⟨before, after, fun m hm => .inr hm, fun v => rfl⟩
  | cons e l ih =>
    obtain ⟨he, hl⟩ := List.forall_mem_cons.1 hl
    obtain ⟨before₁, after₁, hmem₁, heq₁⟩ := insertEntry_beside he e.2 before after
    obtain ⟨before₂, after₂, hmem₂, heq₂⟩ := ih hl before₁ after₁
    refine ⟨before₂, after₂, fun m hm => ?_, fun v => ?_⟩
    · rcases hmem₂ m hm with hm | hm
      · exact .inl (List.mem_cons_of_mem _ hm)
      · rcases hmem₁ m hm with rfl | hm
        · exact .inl List.mem_cons_self
        · exact .inr hm
    · rw [List.foldl_cons, heq₁, heq₂]

/-- An entry that no later one replaces has its place among entries that do not depend on it. -/
theorem ofList_around (before : List (String × ν)) {after : List (String × ν)}
    (hafter : ∀ m ∈ after, m.1 ≠ k) : ∃ before' after',
      (∀ m ∈ before' ++ after', m ∈ before ++ after) ∧
      ∀ v, (ofList (before ++ (k, v) :: after)).entries = before' ++ (k, v) :: after' := by
  let sorted := before.foldl (fun entries e => insertEntry e.1 e.2 entries) []
  obtain ⟨before₁, after₁, hmem₁, heq₁⟩ := insertEntry_around k sorted
  obtain ⟨before₂, after₂, hmem₂, heq₂⟩ := foldl_insertEntry_beside hafter before₁ after₁
  refine ⟨before₂, after₂, fun m hm => ?_, fun v => ?_⟩
  · rcases hmem₂ m hm with hm | hm
    · exact List.mem_append_right _ hm
    · rcases mem_of_foldl_insertEntry (hmem₁ m hm) with hm | hm
      · cases hm
      · exact List.mem_append_left _ hm
  · rw [ofList, entries_foldl_insert, List.foldl_append, List.foldl_cons]
    change List.foldl _ (insertEntry k v sorted) after = _
    rw [heq₁, heq₂]

end OrderedMap

namespace Json.Reader

variable {depth inner : Nat} {text cs pre post : List Char}

/-! ## Around a value -/

def Spaces (cs : List Char) : Prop := ∀ c ∈ cs, isSpace c = true

instance : DecidablePred Spaces := fun cs =>
  decidable_of_iff (cs.all isSpace = true) List.all_eq_true

def Starts (cs : List Char) : Prop := ∃ c tail, cs = c :: tail ∧ isSpace c = false

theorem Starts.append (h : Starts cs) (rest : List Char) : Starts (cs ++ rest) := by
  obtain ⟨c, tail, rfl, hc⟩ := h
  exact ⟨c, tail ++ rest, rfl, hc⟩

theorem skipSpace_spaces (hcs : Spaces cs) {rest : List Char} (hrest : Starts rest) :
    skipSpace (cs ++ rest) = rest := by
  obtain ⟨c, tail, rfl, hc⟩ := hrest
  rw [skipSpace, List.dropWhile_append_of_pos hcs, List.dropWhile_cons_of_neg (by simp [hc])]

/-- Members of an object, each with its comma, that are read whatever comes after them. -/
def Lists (depth : Nat) (text : List Char) (members : List (String × Json)) : Prop :=
  ∀ acc rest fuel, 2 * (text ++ rest).length < fuel → ∃ left, 2 * rest.length < left ∧
    members? depth acc fuel (text ++ rest) = members? depth (members.reverse ++ acc) left rest

def further? (depth : Nat) (acc : List (String × Json)) (fuel : Nat) (cs : List Char) :
    Option (Json × List Char) :=
  match skipSpace cs with
  | ',' :: rest => members? depth acc fuel (skipSpace rest)
  | '}' :: rest => some (tidy acc.reverse, rest)
  | _ => none

def Closes (depth : Nat) (text : List Char) (members : List (String × Json)) : Prop :=
  ∀ acc rest fuel, 2 * (text ++ rest).length < fuel →
    further? depth acc fuel (text ++ rest) = some (tidy (acc.reverse ++ members), rest)

theorem lists_nil : Lists depth [] [] := fun _ _ fuel hfuel => ⟨fuel, hfuel, rfl⟩

theorem closes_brace (h : Spaces cs) : Closes depth (cs ++ ['}']) [] := by
  intro acc rest fuel _
  have hskip : skipSpace (cs ++ ['}'] ++ rest) = '}' :: rest := by
    rw [List.append_assoc]
    exact skipSpace_spaces h ⟨'}', rest, rfl, rfl⟩
  rw [further?, hskip, List.append_nil]
  rfl

/-- A value is read by way of another one inside it, and with this put where it belongs. -/
def Leads (depth inner : Nat) (pre post : List Char) (plug : Json → Json) : Prop :=
  ∀ cs rest fuel, Starts cs → 2 * (pre ++ (cs ++ (post ++ rest))).length < fuel →
    ∃ left, 2 * (cs ++ (post ++ rest)).length < left ∧
      (value? inner left (cs ++ (post ++ rest)) = none →
        value? depth fuel (pre ++ (cs ++ (post ++ rest))) = none) ∧
      ∀ j, value? inner left (cs ++ (post ++ rest)) = some (j, post ++ rest) →
        value? depth fuel (pre ++ (cs ++ (post ++ rest))) = some (plug j, rest)

theorem Leads.trans {innermost : Nat} {pre' post' : List Char} {plug plug' : Json → Json}
    (h : Leads depth inner pre post plug) (h' : Leads inner innermost pre' post' plug')
    (hstart : Starts pre') :
    Leads depth innermost (pre ++ pre') (post' ++ post) fun j => plug (plug' j) := by
  intro cs rest fuel hcs hfuel
  have houter := h (pre' ++ (cs ++ post')) rest fuel (hstart.append _)
  simp only [List.append_assoc] at houter hfuel ⊢
  obtain ⟨middle, hmiddle, hnone, hsome⟩ := houter hfuel
  obtain ⟨left, hleft, hnone', hsome'⟩ := h' cs (post ++ rest) middle hcs hmiddle
  exact ⟨left, hleft, fun hread => hnone (hnone' hread), fun j hread => hsome _ (hsome' j hread)⟩

theorem value?_members (hdepth : 1 < depth) {spaces : List Char} (hspaces : Spaces spaces)
    (hcs : cs.head? = some '"') (fuel : Nat) :
    value? depth (fuel + 1) ('{' :: (spaces ++ cs)) = members? (depth - 1) [] fuel cs := by
  obtain ⟨tail, rfl⟩ := List.head?_eq_some_iff.1 hcs
  have hskip : skipSpace (spaces ++ '"' :: tail) = '"' :: tail :=
    skipSpace_spaces hspaces ⟨'"', tail, rfl, rfl⟩
  change (if depth ≤ 1 then none else _) = _
  rw [if_neg (Nat.not_le.2 hdepth), hskip]
  rfl

variable {quoted second third : List Char} {name : String}

theorem members?_member (hquoted : ∀ rest, string? [] (quoted ++ rest) = some (name, rest))
    (hsecond : Spaces second) (hthird : Spaces third) (hcs : Starts cs) (acc : List (String × Json))
    (fuel : Nat) :
    members? depth acc (fuel + 1) ('"' :: (quoted ++ (second ++ ':' :: (third ++ cs)))) =
      (value? depth fuel cs).bind fun (j, rest) => further? depth ((name, j) :: acc) fuel rest := by
  have hcolon : skipSpace (second ++ ':' :: (third ++ cs)) = ':' :: (third ++ cs) :=
    skipSpace_spaces hsecond ⟨':', _, rfl, rfl⟩
  rw [members?, hquoted]
  dsimp only
  rw [hcolon]
  simp only
  rw [skipSpace_spaces hthird hcs]
  cases value? depth fuel cs with
  | none => rfl
  | some read => rfl

/-- The value of a member of an object. -/
theorem leads_member {first listed closing : List Char} {before after : List (String × Json)}
    (hdepth : 1 < depth) (hfirst : Spaces first) (hsecond : Spaces second) (hthird : Spaces third)
    (hlists : Lists (depth - 1) listed before) (hlisted : listed ≠ [] → listed.head? = some '"')
    (hquoted : ∀ rest, string? [] (quoted ++ rest) = some (name, rest))
    (hcloses : Closes (depth - 1) closing after) :
    Leads depth (depth - 1)
      ('{' :: (first ++ (listed ++ '"' :: (quoted ++ (second ++ ':' :: third))))) closing
      fun j => tidy (before ++ (name, j) :: after) := by
  intro cs rest fuel hcs hfuel
  have htext : '{' :: (first ++ (listed ++ '"' :: (quoted ++ (second ++ ':' :: third)))) ++
      (cs ++ (closing ++ rest)) = '{' :: (first ++ (listed ++ '"' :: (quoted ++
        (second ++ ':' :: (third ++ (cs ++ (closing ++ rest))))))) := by
    simp only [List.cons_append, List.append_assoc]
  rw [htext] at hfuel ⊢
  have hhead : (listed ++ '"' :: (quoted ++ (second ++ ':' :: (third ++
      (cs ++ (closing ++ rest)))))).head? = some '"' := by
    by_cases hnil : listed = []
    · rw [hnil]
      rfl
    · rw [List.head?_append, hlisted hnil]
      rfl
  obtain ⟨fuel, rfl⟩ : ∃ left, fuel = left + 1 := ⟨fuel - 1, by omega⟩
  obtain ⟨middle, hmiddle, hlisted⟩ := hlists [] ('"' :: (quoted ++ (second ++ ':' :: (third ++
    (cs ++ (closing ++ rest)))))) fuel (by
      simp only [List.length_cons, List.length_append] at hfuel ⊢
      omega)
  obtain ⟨left, rfl⟩ : ∃ left, middle = left + 1 := ⟨middle - 1, by omega⟩
  simp only [List.length_cons, List.length_append] at hmiddle
  rw [value?_members hdepth hfirst hhead, hlisted,
    members?_member hquoted hsecond hthird (hcs.append _)]
  refine ⟨left, ?_, fun hnone => by rw [hnone]; rfl, fun j hread => ?_⟩
  · simp only [List.length_append]
    omega
  · rw [hread]
    have hrest := hcloses ((name, j) :: before.reverse) rest left (by
      simp only [List.length_append]
      omega)
    rw [List.append_nil]
    refine hrest.trans ?_
    rw [List.reverse_cons, List.reverse_reverse, List.append_assoc]
    rfl

/-- A name is read as it is if nothing in it needs to be escaped. -/
theorem string?_plain (h : ∀ c ∈ cs, c ≠ '"' ∧ c ≠ '\\' ∧ 0x20 ≤ c.toNat) (acc rest : List Char) :
    string? acc (cs ++ '"' :: rest) = some (String.ofList (acc.reverse ++ cs), rest) := by
  induction cs generalizing acc with
  | nil =>
    rw [List.nil_append, string?, List.append_nil]
  | cons c cs ih =>
    obtain ⟨⟨hquote, hescape, hplain⟩, hcs⟩ := List.forall_mem_cons.1 h
    have hstep : string? acc (c :: (cs ++ '"' :: rest)) = string? (c :: acc) (cs ++ '"' :: rest) := by
      rw [string?, if_neg (by omega)]
      · exact fun heq => hquote heq
      · intro a b c' d tail heq
        exact fun _ => hescape heq
      · exact fun _ _ heq _ => hescape heq
    rw [List.cons_append, hstep, ih hcs, List.reverse_cons, List.append_assoc]
    rfl

theorem Writes.starts {w : List Char} {n : Int} (h : Writes w n) : Starts w := by
  obtain ⟨c, more, rfl, hc⟩ := h.exists_cons
  refine ⟨c, more, rfl, ?_⟩
  by_contra hspace
  rw [Bool.not_eq_false] at hspace
  simp only [isSpace, Bool.or_eq_true, decide_eq_true_eq] at hspace
  rcases hc with rfl | hc
  · revert hspace
    decide
  · rcases hspace with ((rfl | rfl) | rfl) | rfl <;> cases hc

theorem Reads.left {n : Int} {read : Option (Json × List Char)} (h : Reads n cs read) :
    ∀ r ∈ read, r.2 = cs := by
  cases h with
  | integer _ _ => rintro r ⟨⟩; rfl
  | real _ _ => rintro r ⟨⟩; rfl
  | refused _ => nofun

end Json.Reader

open Json.Reader in
/-- A text is read as the integer inside it, put where it belongs. -/
theorem Json.read?_integer {inner : Nat} {first pre post last w : List Char} {plug : Json → Json}
    (hleads : Leads maxDepth inner pre post plug) (hpre : Starts pre) (hfirst : Spaces first)
    (hlast : Spaces last) (hends : Ends (post ++ last)) {n : Int} (hw : Writes w n) :
    Json.read? (String.ofList (first ++ (pre ++ (w ++ (post ++ last))))) =
      (number? (w ++ (post ++ last))).map fun r => plug r.1 := by
  have hskip : skipSpace (first ++ (pre ++ (w ++ (post ++ last)))) = pre ++ (w ++ (post ++ last)) :=
    skipSpace_spaces hfirst (hpre.append _)
  have hempty : (skipSpace last).isEmpty = true := by
    rw [skipSpace, List.dropWhile_eq_nil_iff.2 hlast]
    rfl
  obtain ⟨left, hleft, hnone, hsome⟩ := hleads w last
    (2 * (pre ++ (w ++ (post ++ last))).length + 1) hw.starts (by omega)
  obtain ⟨left, rfl⟩ : ∃ fuel, left = fuel + 1 := ⟨left - 1, by omega⟩
  have hread := (number?_integer hw hends).left
  rw [value?_integer hw] at hnone hsome
  unfold Json.read?
  dsimp only
  rw [String.toList_ofList, hskip]
  cases hnumber : number? (w ++ (post ++ last)) with
  | none =>
    rw [hnone hnumber]
    rfl
  | some r =>
    obtain ⟨j, rest⟩ := r
    obtain rfl : rest = post ++ last := hread _ hnumber
    rw [hsome j hnumber, Option.bind_eq_bind, Option.bind_some, if_pos hempty]
    rfl

end HostSteward
