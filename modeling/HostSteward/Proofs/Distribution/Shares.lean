import HostSteward.Distribution.Plan
import HostSteward.Proofs.Lists
import Mathlib.Data.List.Nodup

/-!
# What a plan deals out

A server gets the changes that the host accepted, that have a part for servers and whose
verdict lists it: each once, in the order of the batch and with its position. The shares of a
plan are exactly these, and a server without any change has no share.
-/

namespace HostSteward

namespace Plan

def part? (server : Identity) (c : HostChange) (v : Verdict) : Option ServerChange :=
  if server ∈ v.servers then (delivery? c v).map (·.1) else none

def shareFrom (token : Nat) (changes : List HostChange) (verdicts : List Verdict)
    (server : Identity) : Share :=
  ((changes.zip verdicts).zipIdx token).filterMap fun (p, i) =>
    (part? server p.1 p.2).map (i, ·)

def earlier (changes : List HostChange) (verdicts : List Verdict) (server : Identity)
    (token : Nat) : Nat :=
  ((changes.zip verdicts).take token).countP fun p => (part? server p.1 p.2).isSome

theorem shareFrom_cons (token : Nat) (c : HostChange) (changes : List HostChange) (v : Verdict)
    (verdicts : List Verdict) (server : Identity) :
    shareFrom token (c :: changes) (v :: verdicts) server =
      ((part? server c v).map (token, ·)).toList ++
        shareFrom (token + 1) changes verdicts server := by
  simp only [shareFrom, List.zip_cons_cons, List.zipIdx_cons, List.filterMap_cons]
  cases part? server c v <;> rfl

theorem delivery?_eq_some_iff {c : HostChange} {v : Verdict} {d : ServerChange × List Identity} :
    delivery? c v = some d ↔
      v.hostFault = none ∧ c.serverChange = some d.1 ∧ d.2 = v.servers.eraseDups := by
  obtain ⟨change, servers⟩ := d
  unfold delivery?
  cases hf : v.hostFault with
  | some cause => simp
  | none => cases hc : c.serverChange <;> simp [eq_comm]

theorem part?_eq_some_iff {server : Identity} {c : HostChange} {v : Verdict}
    {change : ServerChange} :
    part? server c v = some change ↔
      server ∈ v.servers ∧ v.hostFault = none ∧ c.serverChange = some change := by
  by_cases hs : server ∈ v.servers
  · rw [part?, if_pos hs, Option.map_eq_some_iff]
    constructor
    · rintro ⟨d, hd, rfl⟩
      obtain ⟨hf, hc, -⟩ := delivery?_eq_some_iff.1 hd
      exact ⟨hs, hf, hc⟩
    · rintro ⟨-, hf, hc⟩
      exact ⟨(change, v.servers.eraseDups), delivery?_eq_some_iff.2 ⟨hf, hc, rfl⟩, rfl⟩
  · simp [part?, hs]

theorem get?_foldl_assign (token : Nat) (change : ServerChange) (server : Identity)
    {servers : List Identity} (hnd : servers.Nodup) (shares : OrderedMap Identity Share) :
    (servers.foldl (assign token change) shares).get? server =
      if server ∈ servers then some ((shares.get? server).getD [] ++ [(token, change)])
      else shares.get? server := by
  induction servers generalizing shares with
  | nil => simp
  | cons s rest ih =>
    obtain ⟨hs, hrest⟩ := List.nodup_cons.1 hnd
    rw [List.foldl_cons, ih hrest, assign, OrderedMap.get?_insert]
    by_cases he : s = server
    · subst he
      simp [hs]
    · simp [he, Ne.symm he]

/-- Dealing adds to the share of each server what that server gets. -/
theorem get?_deal (token : Nat) (changes : List HostChange) (verdicts : List Verdict)
    (server : Identity) (shares : OrderedMap Identity Share) :
    (deal token shares changes verdicts).get? server =
      if shareFrom token changes verdicts server = [] then shares.get? server
      else some ((shares.get? server).getD [] ++ shareFrom token changes verdicts server) := by
  induction changes generalizing token verdicts shares with
  | nil => simp [deal, shareFrom]
  | cons c changes ih =>
    cases verdicts with
    | nil => simp [deal, shareFrom]
    | cons v verdicts =>
      rw [deal, ih, shareFrom_cons]
      cases hd : delivery? c v with
      | none => simp [part?, hd]
      | some d =>
        obtain ⟨hf, hc, hservers⟩ := delivery?_eq_some_iff.1 hd
        have hmem : server ∈ d.2 ↔ server ∈ v.servers := by rw [hservers, List.mem_eraseDups]
        have hnd : d.2.Nodup := hservers ▸ List.nodup_eraseDups v.servers
        simp only [get?_foldl_assign _ _ _ hnd, hmem, part?, hd]
        by_cases hs : server ∈ v.servers
        · by_cases hrest : shareFrom (token + 1) changes verdicts server = []
          · simp [hs, hrest]
          · simp [hs, hrest]
        · simp [hs]

theorem get?_make (changes : List HostChange) (verdicts : List Verdict) (server : Identity) :
    (make changes verdicts).shares.get? server =
      if shareFrom 0 changes verdicts server = [] then none
      else some (shareFrom 0 changes verdicts server) := by
  rw [make, get?_deal]
  rfl

theorem ne_nil_of_mem_entries {changes : List HostChange} {verdicts : List Verdict}
    {server : Identity} {share : Share}
    (h : (server, share) ∈ (make changes verdicts).shares.entries) :
    share = shareFrom 0 changes verdicts server ∧ share ≠ [] := by
  have hget := OrderedMap.get?_eq_some_iff.2 h
  rw [get?_make] at hget
  split at hget
  · cases hget
  next hne =>
    have he := Option.some.inj hget
    exact ⟨he.symm, he ▸ hne⟩

theorem mem_entries_of_mem_shareFrom {changes : List HostChange} {verdicts : List Verdict}
    {server : Identity} {e : Nat × ServerChange} (h : e ∈ shareFrom 0 changes verdicts server) :
    (server, shareFrom 0 changes verdicts server) ∈ (make changes verdicts).shares.entries := by
  rw [← OrderedMap.get?_eq_some_iff, get?_make, if_neg (List.ne_nil_of_mem h)]

theorem mem_shareFrom_iff {changes : List HostChange} {verdicts : List Verdict}
    {server : Identity} {i : Nat} {change : ServerChange} :
    (i, change) ∈ shareFrom 0 changes verdicts server ↔
      ∃ c v, changes[i]? = some c ∧ verdicts[i]? = some v ∧ part? server c v = some change := by
  simp only [shareFrom, List.mem_filterMap, Option.map_eq_some_iff, Prod.mk.injEq, Prod.exists]
  constructor
  · rintro ⟨c, v, j, hmem, change', hpart, rfl, rfl⟩
    rw [List.mem_zipIdx_iff_getElem?, List.getElem?_zip_eq_some] at hmem
    exact ⟨c, v, hmem.1, hmem.2, hpart⟩
  · rintro ⟨c, v, hc, hv, hpart⟩
    refine ⟨c, v, i, ?_, change, hpart, rfl, rfl⟩
    rw [List.mem_zipIdx_iff_getElem?, List.getElem?_zip_eq_some]
    exact ⟨hc, hv⟩

theorem earlier_succ (c : HostChange) (changes : List HostChange) (v : Verdict)
    (verdicts : List Verdict) (server : Identity) (i : Nat) :
    earlier (c :: changes) (v :: verdicts) server (i + 1) =
      (if (part? server c v).isSome then 1 else 0) + earlier changes verdicts server i := by
  simp only [earlier, List.zip_cons_cons, List.take_succ_cons, List.countP_cons]
  omega

theorem getElem?_shareFrom_add (token : Nat) {changes : List HostChange}
    {verdicts : List Verdict} {server : Identity} {i : Nat} {c : HostChange} {v : Verdict}
    {change : ServerChange} (hc : changes[i]? = some c) (hv : verdicts[i]? = some v)
    (hpart : part? server c v = some change) :
    (shareFrom token changes verdicts server)[earlier changes verdicts server i]? =
      some (token + i, change) := by
  induction i generalizing token changes verdicts with
  | zero =>
    obtain ⟨changes, rfl⟩ := List.head?_eq_some_iff.1 (List.head?_eq_getElem? ▸ hc)
    obtain ⟨verdicts, rfl⟩ := List.head?_eq_some_iff.1 (List.head?_eq_getElem? ▸ hv)
    rw [shareFrom_cons, hpart]
    rfl
  | succ i ih =>
    cases changes with
    | nil => simp at hc
    | cons c' changes =>
      cases verdicts with
      | nil => simp at hv
      | cons v' verdicts =>
        have hrest := ih (token + 1) hc hv
        rw [earlier_succ, shareFrom_cons, show token + (i + 1) = token + 1 + i by omega, ← hrest]
        cases part? server c' v' with
        | none => simp
        | some _ => simp [Nat.add_comm 1]

/-- A change stands in the share of a server after the earlier ones which that server gets. -/
theorem getElem?_shareFrom {changes : List HostChange} {verdicts : List Verdict}
    {server : Identity} {i : Nat} {c : HostChange} {v : Verdict} {change : ServerChange}
    (hc : changes[i]? = some c) (hv : verdicts[i]? = some v)
    (hpart : part? server c v = some change) :
    (shareFrom 0 changes verdicts server)[earlier changes verdicts server i]? =
      some (i, change) := by
  simpa using getElem?_shareFrom_add 0 hc hv hpart

theorem le_token {token : Nat} {changes : List HostChange} {verdicts : List Verdict}
    {server : Identity} {e : Nat × ServerChange}
    (h : e ∈ shareFrom token changes verdicts server) : token ≤ e.1 := by
  obtain ⟨p, hp, he⟩ := List.mem_filterMap.1 h
  obtain ⟨change, -, rfl⟩ := Option.map_eq_some_iff.1 he
  exact List.le_snd_of_mem_zipIdx hp

theorem tokens_ascending (token : Nat) (changes : List HostChange) (verdicts : List Verdict)
    (server : Identity) :
    (shareFrom token changes verdicts server).Pairwise (fun a b => a.1 < b.1) := by
  induction changes generalizing token verdicts with
  | nil => exact List.Pairwise.nil
  | cons c changes ih =>
    cases verdicts with
    | nil => exact List.Pairwise.nil
    | cons v verdicts =>
      rw [shareFrom_cons]
      cases part? server c v with
      | none => exact ih _ _
      | some change => exact List.Pairwise.cons (fun e he => le_token he) (ih _ _)

end Plan

end HostSteward
