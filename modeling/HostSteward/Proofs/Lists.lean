import Mathlib.Algebra.BigOperators.Group.List.Basic
import Mathlib.Algebra.GroupWithZero.Nat
import Mathlib.Data.List.Nodup

/-!
# Lists

Facts about lists that belong to no module in particular.
-/

namespace HostSteward.List

variable {α β : Type}

theorem filterMap_cons_eq_append (f : α → Option β) (a : α) (l : List α) :
    (a :: l).filterMap f = (f a).toList ++ l.filterMap f := by
  rw [List.filterMap_cons]
  cases f a <;> rfl

theorem filterMap_append_singleton (f : α → Option β) (l : List α) (a : α) :
    (l ++ [a]).filterMap f = l.filterMap f ++ (f a).toList := by
  rw [List.filterMap_append]
  cases ha : f a <;> simp [ha]

theorem map_set_of_getElem? {l : List α} {k : Nat} {a b : α} {f : α → β} (h : l[k]? = some a)
    (hf : f b = f a) : (l.set k b).map f = l.map f := by
  obtain ⟨hk, rfl⟩ := List.getElem?_eq_some_iff.1 h
  have hsame := @List.set_getElem_self _ (l.map f) k (by simpa using hk)
  rw [List.getElem_map] at hsame
  rw [List.map_set, hf, hsame]

theorem nodup_eraseDups [DecidableEq α] (l : List α) : l.eraseDups.Nodup := by
  induction h : l.length using Nat.strongRecOn generalizing l with
  | ind n ih =>
    cases l with
    | nil => exact List.nodup_nil
    | cons a rest =>
      have hle := List.length_filter_le (fun b => !b == a) rest
      rw [List.length_cons] at h
      rw [List.eraseDups_cons]
      refine List.Nodup.cons ?_ (ih _ (by omega) _ rfl)
      rw [List.mem_eraseDups]
      simp

/-- Counting the pairs that are related, by the one side or by the other. -/
theorem sum_countP_comm (p : α → β → Bool) (l : List α) (m : List β) :
    (l.map fun a => m.countP (p a)).sum = (m.map fun b => l.countP fun a => p a b).sum := by
  induction l with
  | nil => simp
  | cons a l ih =>
    have hcount : m.countP (p a) = (m.map fun b => if p a b then 1 else 0).sum := by
      clear ih
      induction m with
      | nil => rfl
      | cons b m ih => simp [List.countP_cons, ih, Nat.add_comm]
    simp only [List.map_cons, List.sum_cons, ih, List.countP_cons, List.sum_map_add, hcount]
    exact Nat.add_comm ..

end HostSteward.List
