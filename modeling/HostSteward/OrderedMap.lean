/-!
# Finite maps in ascending key order

An `OrderedMap` lists its entries by strictly ascending key. Listing a map needs no
sorting, and two maps with the same look-ups are equal (`OrderedMap.ext_get?`). The
other statements say what each operation does to `get?`.
-/

namespace HostSteward

/-- The strict order of a key type is linear. -/
class LinearKey (κ : Type) [LT κ] : Prop where
  irrefl : ∀ a : κ, ¬ a < a
  trans : ∀ {a b c : κ}, a < b → b < c → a < c
  connected : ∀ {a b : κ}, ¬ a < b → ¬ b < a → a = b

theorem LinearKey.ne_of_lt {κ : Type} [LT κ] [LinearKey κ] {a b : κ} (h : a < b) : a ≠ b :=
  fun e => LinearKey.irrefl b (e ▸ h)

/-- Strings are ordered by the code points of their characters. -/
instance : LinearKey String where
  irrefl := String.lt_irrefl
  trans := String.lt_trans
  connected h₁ h₂ := String.le_antisymm (String.not_lt.1 h₂) (String.not_lt.1 h₁)

instance : LinearKey Nat where
  irrefl := Nat.lt_irrefl
  trans := Nat.lt_trans
  connected h₁ h₂ := Nat.le_antisymm (Nat.not_lt.1 h₂) (Nat.not_lt.1 h₁)

structure OrderedMap (κ ν : Type) [LT κ] where
  entries : List (κ × ν)
  ascending : entries.Pairwise (fun a b => a.1 < b.1)
deriving DecidableEq

namespace OrderedMap

variable {κ ν : Type} [LT κ]

def empty : OrderedMap κ ν := ⟨[], List.Pairwise.nil⟩

instance : EmptyCollection (OrderedMap κ ν) := ⟨empty⟩

instance : Inhabited (OrderedMap κ ν) := ⟨empty⟩

def keys (m : OrderedMap κ ν) : List κ := m.entries.map (·.1)

def values (m : OrderedMap κ ν) : List ν := m.entries.map (·.2)

def size (m : OrderedMap κ ν) : Nat := m.entries.length

def isEmpty (m : OrderedMap κ ν) : Bool := m.entries.isEmpty

/-- Changes values in place; the keys stay as they are. -/
def mapValues {μ : Type} (f : κ → ν → μ) (m : OrderedMap κ ν) : OrderedMap κ μ :=
  ⟨m.entries.map (fun e => (e.1, f e.1 e.2)), List.pairwise_map.2 m.ascending⟩

def filter (p : κ → ν → Bool) (m : OrderedMap κ ν) : OrderedMap κ ν :=
  ⟨m.entries.filter (fun e => p e.1 e.2), m.ascending.filter _⟩

section Lookup

variable [DecidableEq κ]

def lookup (k : κ) : List (κ × ν) → Option ν
  | [] => none
  | e :: rest => if e.1 = k then some e.2 else lookup k rest

def get? (m : OrderedMap κ ν) (k : κ) : Option ν := lookup k m.entries

def contains (m : OrderedMap κ ν) (k : κ) : Bool := (m.get? k).isSome

def erase (m : OrderedMap κ ν) (k : κ) : OrderedMap κ ν :=
  ⟨m.entries.filter (fun e => e.1 ≠ k), m.ascending.filter _⟩

end Lookup

section Lookup

variable [DecidableEq κ]

omit [LT κ] in
theorem lookup_eq_none {k : κ} {l : List (κ × ν)} (h : k ∉ l.map (·.1)) : lookup k l = none := by
  induction l with
  | nil => rfl
  | cons e rest ih =>
    rw [List.map_cons, List.mem_cons, not_or] at h
    rw [lookup, if_neg fun he => h.1 he.symm]
    exact ih h.2

omit [LT κ] in
theorem lookup_of_mem {k : κ} {v : ν} {l : List (κ × ν)} (hnd : (l.map (·.1)).Nodup)
    (h : (k, v) ∈ l) : lookup k l = some v := by
  induction l with
  | nil => cases h
  | cons e rest ih =>
    obtain ⟨hnew, hnd⟩ := List.nodup_cons.1 hnd
    rcases List.mem_cons.1 h with rfl | h
    · exact if_pos rfl
    · rw [lookup, if_neg fun he => hnew (List.mem_map.2 ⟨_, h, he.symm⟩)]
      exact ih hnd h

end Lookup

variable [DecidableLT κ]

/-- Places an entry before the first greater key, replacing the entry of an equal one. -/
def insertEntry (k : κ) (v : ν) : List (κ × ν) → List (κ × ν)
  | [] => [(k, v)]
  | e :: rest =>
    if k < e.1 then (k, v) :: e :: rest
    else if e.1 < k then e :: insertEntry k v rest
    else (k, v) :: rest

theorem mem_insertEntry {k : κ} {v : ν} {a : κ × ν} {l : List (κ × ν)}
    (h : a ∈ insertEntry k v l) : a = (k, v) ∨ a ∈ l := by
  induction l with
  | nil => simpa [insertEntry] using h
  | cons e rest ih =>
    rw [insertEntry] at h
    split at h
    · simpa using h
    · split at h
      · rcases List.mem_cons.1 h with h | h
        · exact Or.inr (by simp [h])
        · exact (ih h).imp id (List.mem_cons_of_mem _)
      · exact (List.mem_cons.1 h).imp id (List.mem_cons_of_mem _)

variable [LinearKey κ]

theorem insertEntry_ascending (k : κ) (v : ν) {l : List (κ × ν)}
    (h : l.Pairwise (fun a b => a.1 < b.1)) :
    (insertEntry k v l).Pairwise (fun a b => a.1 < b.1) := by
  induction l with
  | nil => simp [insertEntry]
  | cons e rest ih =>
    obtain ⟨hhead, htail⟩ := List.pairwise_cons.1 h
    rw [insertEntry]
    split
    next hlt =>
      refine List.pairwise_cons.2 ⟨fun a ha => ?_, h⟩
      rcases List.mem_cons.1 ha with rfl | ha
      · exact hlt
      · exact LinearKey.trans hlt (hhead a ha)
    next hge =>
      split
      next hgt =>
        refine List.pairwise_cons.2 ⟨fun a ha => ?_, ih htail⟩
        rcases mem_insertEntry ha with rfl | ha
        · exact hgt
        · exact hhead a ha
      next hle =>
        have heq : k = e.1 := LinearKey.connected hge hle
        exact List.pairwise_cons.2 ⟨fun a ha => heq ▸ hhead a ha, htail⟩

def insert (m : OrderedMap κ ν) (k : κ) (v : ν) : OrderedMap κ ν :=
  ⟨insertEntry k v m.entries, insertEntry_ascending k v m.ascending⟩

/-- Later entries replace earlier ones of the same key. -/
def ofList (l : List (κ × ν)) : OrderedMap κ ν :=
  l.foldl (fun m e => m.insert e.1 e.2) empty

variable [DecidableEq κ]

theorem lookup_insertEntry (k k' : κ) (v : ν) (l : List (κ × ν)) :
    lookup k' (insertEntry k v l) = if k = k' then some v else lookup k' l := by
  induction l with
  | nil => simp [insertEntry, lookup]
  | cons e rest ih =>
    rw [insertEntry]
    split
    · simp [lookup]
    next hge =>
      split
      next hgt =>
        simp only [lookup, ih]
        have := LinearKey.ne_of_lt hgt
        grind
      next hle =>
        have heq : k = e.1 := LinearKey.connected hge hle
        simp [lookup, heq]
        grind

theorem get?_insert (m : OrderedMap κ ν) (k k' : κ) (v : ν) :
    (m.insert k v).get? k' = if k = k' then some v else m.get? k' :=
  lookup_insertEntry k k' v m.entries

theorem get?_foldl_insert (m : OrderedMap κ ν) (l : List (κ × ν)) (hnd : (l.map (·.1)).Nodup)
    (k : κ) : (l.foldl (fun m e => m.insert e.1 e.2) m).get? k = (lookup k l).or (m.get? k) := by
  induction l generalizing m with
  | nil => rfl
  | cons e rest ih =>
    obtain ⟨hnew, hnd⟩ := List.nodup_cons.1 hnd
    rw [List.foldl_cons, ih (m.insert e.1 e.2) hnd, get?_insert, lookup]
    by_cases hk : e.1 = k
    · have hnone : lookup k rest = none := by
        rw [← hk]
        exact lookup_eq_none hnew
      rw [if_pos hk, if_pos hk, hnone]
      rfl
    · rw [if_neg hk, if_neg hk]

/-- A map of entries with different keys finds what the list of them finds. -/
theorem get?_ofList {l : List (κ × ν)} (hnd : (l.map (·.1)).Nodup) (k : κ) :
    (ofList l).get? k = lookup k l := by
  rw [ofList, get?_foldl_insert _ l hnd]
  exact Option.or_none

omit [DecidableLT κ] [LinearKey κ] in
theorem get?_erase (m : OrderedMap κ ν) (k k' : κ) :
    (m.erase k).get? k' = if k = k' then none else m.get? k' := by
  obtain ⟨l, h⟩ := m
  simp only [get?, erase]
  clear h
  induction l with
  | nil => simp [lookup]
  | cons e rest ih => grind [lookup]

omit [DecidableLT κ] [LinearKey κ] in
theorem get?_mapValues {μ : Type} (f : κ → ν → μ) (m : OrderedMap κ ν) (k : κ) :
    (m.mapValues f).get? k = (m.get? k).map (f k) := by
  obtain ⟨l, h⟩ := m
  simp only [get?, mapValues]
  clear h
  induction l with
  | nil => simp [lookup]
  | cons e rest ih => grind [lookup]

omit [DecidableLT κ] [LinearKey κ] in
@[simp] theorem get?_empty (k : κ) : (empty : OrderedMap κ ν).get? k = none := rfl

omit [DecidableLT κ] in
theorem lookup_eq_some_iff {k : κ} {v : ν} {l : List (κ × ν)}
    (h : l.Pairwise (fun a b => a.1 < b.1)) : lookup k l = some v ↔ (k, v) ∈ l := by
  induction l with
  | nil => simp [lookup]
  | cons e rest ih =>
    obtain ⟨hhead, htail⟩ := List.pairwise_cons.1 h
    rw [lookup, List.mem_cons]
    split
    next heq =>
      constructor
      · intro hv
        exact Or.inl (by rw [← heq, ← Option.some.inj hv])
      · rintro (hv | hmem)
        · rw [← hv]
        · exact absurd heq (LinearKey.ne_of_lt (hhead _ hmem))
    next hne =>
      rw [ih htail]
      refine ⟨Or.inr, fun h => h.resolve_left fun he => hne (by rw [← he])⟩

omit [DecidableLT κ] in
theorem get?_eq_some_iff {m : OrderedMap κ ν} {k : κ} {v : ν} :
    m.get? k = some v ↔ (k, v) ∈ m.entries :=
  lookup_eq_some_iff m.ascending

omit [DecidableLT κ] in
theorem mem_values_iff {m : OrderedMap κ ν} {v : ν} : v ∈ m.values ↔ ∃ k, m.get? k = some v := by
  simp [values, get?_eq_some_iff]

omit [DecidableLT κ] in
theorem mem_keys_iff {m : OrderedMap κ ν} {k : κ} : k ∈ m.keys ↔ ∃ v, m.get? k = some v := by
  simp [keys, get?_eq_some_iff]

omit [DecidableLT κ] [DecidableEq κ] in
theorem nodup_keys (m : OrderedMap κ ν) : m.keys.Nodup :=
  List.Pairwise.map Prod.fst (fun _ _ h => LinearKey.ne_of_lt h) m.ascending

omit [DecidableLT κ] [DecidableEq κ] in
theorem eq_of_mem_iff {l₁ l₂ : List (κ × ν)} (h₁ : l₁.Pairwise (fun a b => a.1 < b.1))
    (h₂ : l₂.Pairwise (fun a b => a.1 < b.1)) (h : ∀ e, e ∈ l₁ ↔ e ∈ l₂) : l₁ = l₂ := by
  induction l₁ generalizing l₂ with
  | nil =>
    cases l₂ with
    | nil => rfl
    | cons e r => exact absurd ((h e).2 List.mem_cons_self) (by simp)
  | cons a r ih =>
    cases l₂ with
    | nil => exact absurd ((h a).1 List.mem_cons_self) (by simp)
    | cons b s =>
      obtain ⟨ha, hr⟩ := List.pairwise_cons.1 h₁
      obtain ⟨hb, hs⟩ := List.pairwise_cons.1 h₂
      have hab : a = b := by
        rcases List.mem_cons.1 ((h a).1 List.mem_cons_self) with e | has
        · exact e
        · rcases List.mem_cons.1 ((h b).2 List.mem_cons_self) with e | hbr
          · exact e.symm
          · exact absurd (LinearKey.trans (ha b hbr) (hb a has)) (LinearKey.irrefl _)
      subst hab
      congr 1
      refine ih hr hs fun e => ⟨fun he => ?_, fun he => ?_⟩
      · refine (List.mem_cons.1 ((h e).1 (List.mem_cons_of_mem _ he))).resolve_left ?_
        rintro rfl
        exact LinearKey.irrefl _ (ha _ he)
      · refine (List.mem_cons.1 ((h e).2 (List.mem_cons_of_mem _ he))).resolve_left ?_
        rintro rfl
        exact LinearKey.irrefl _ (hb _ he)

omit [DecidableLT κ] in
/-- A map is what its look-ups say. -/
theorem ext_get? {m n : OrderedMap κ ν} (h : ∀ k, m.get? k = n.get? k) : m = n := by
  obtain ⟨l₁, h₁⟩ := m
  obtain ⟨l₂, h₂⟩ := n
  congr 1
  refine eq_of_mem_iff h₁ h₂ fun ⟨k, v⟩ => ?_
  rw [← lookup_eq_some_iff h₁, ← lookup_eq_some_iff h₂]
  exact iff_of_eq (congrArg (· = some v) (h k))

/-- A map is the map of its entries. -/
theorem ofList_entries (m : OrderedMap κ ν) : ofList m.entries = m :=
  ext_get? fun k => get?_ofList m.nodup_keys k

end OrderedMap

end HostSteward
