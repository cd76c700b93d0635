import HostSteward.Proofs.Distribution.Deliveries
import HostSteward.Proofs.Steward.Configured
import Mathlib.Algebra.BigOperators.Group.List.Basic

/-!
# Namesakes

A server is known by its host, its group and its name, and a plan keeps servers apart by all three.
A batch finds its server by the name alone: whatever is addressed to a namesake of a tracked server
reaches the tracked one.
-/

namespace HostSteward

namespace Roster

def Keyed (r : Roster) : Prop := ∀ p s, r.get? p = some s → s.process = p

def Has (r : Roster) (s : Server) : Prop := r.get? s.process = some s

variable {r : Roster} {s s' : Server} {id : Identity}

/-- The server that an identity leads to is the tracked one of its name. -/
theorem Keyed.get?_processName (h : r.Keyed) :
    r.get? id.processName = some s ↔ r.Has s ∧ s.identity.server = id.server := by
  constructor
  · intro hget
    have hprocess : s.process = id.processName := h _ _ hget
    exact ⟨by rw [Has, hprocess, hget], processName_injective hprocess⟩
  · rintro ⟨hs, hname⟩
    rwa [Identity.processName, ← hname]

theorem Has.eq_of_name (hs : r.Has s) (hs' : r.Has s')
    (hname : s.identity.server = s'.identity.server) : s = s' := by
  rw [Has, Server.process, Identity.processName, hname] at hs
  exact Option.some.inj (hs.symm.trans hs')

end Roster

namespace Dispatch

/-- However a dispatch goes, it can be completed, and of all its complete runs this holds. -/
def Achieves (w : Conditions) (d₀ : Dispatch) (P : List Delivery → Dispatch → Prop) : Prop :=
  (∃ calls d, Run w d₀ calls d ∧ d.isSettled) ∧
    ∀ calls d, Run w d₀ calls d → d.isSettled → P calls d

variable {w : Conditions} {d₀ : Dispatch} {P : List Delivery → Dispatch → Prop}

theorem achieves_of_settled (h : ∀ calls d, Run w d₀ calls d → d.isSettled → P calls d) :
    Achieves w d₀ P := by
  obtain ⟨calls, d, hrun, hdone⟩ := Run.exists_settled (Run.nil (w := w) (d := d₀))
  exact ⟨⟨_, d, hrun, hdone⟩, h⟩

/-- A batch on its own is delivered and settled as the server that it finds and the executor's
answer say. -/
theorem settled_single {address : Address} {changes : List ServerChange} {rollback : Bool}
    {calls : List Delivery} {d : Dispatch} (h : Run w (.single address changes rollback) calls d)
    (hdone : d.isSettled) :
    let b : Batch := { address, changes, rollback }
    calls = (b.delivery? w).toList ∧ d.outcomes = [b.outcomesIn w] := by
  intro b
  have hidle : ∀ b ∈ (Dispatch.single address changes rollback).batches, b.progress = .idle := by
    simp [single]
  have hbatches : d.batches = [b.settle (b.outcomesIn w)] := h.settled hidle hdone
  constructor
  · have hcalls := h.calls_perm hidle
    rw [hbatches, List.filterMap_cons, Batch.delivered?_of_settled rfl] at hcalls
    have hsame : (b.settle (b.outcomesIn w)).delivery? w = b.delivery? w := rfl
    rw [hsame] at hcalls
    cases hcall : b.delivery? w with
    | none => simpa [hcall] using hcalls
    | some call => simpa [hcall] using hcalls
  · rw [outcomes, hbatches]
    rfl

end Dispatch

namespace Plan

/-- How often a part is pushed to a server in some calls. -/
def pushes (server : Identity) (part : ServerChange) (calls : List Delivery) : Nat :=
  ((calls.filter (·.server = server)).flatMap (·.changes)).count part

def namesakes (name : String) (v : Verdict) : Nat :=
  (v.servers.eraseDups.filter (·.server = name)).length

variable {changes : List HostChange} {verdicts : List Verdict} {rollback : Bool}
  {calls calls' : List Delivery} {part : ServerChange} {server : Identity}

theorem pushes_of_perm (h : calls.Perm calls') :
    pushes server part calls = pushes server part calls' :=
  ((h.filter _).flatMap_right _).count_eq part

theorem pushes_cons (call : Delivery) (calls : List Delivery) :
    pushes server part (call :: calls) =
      (if call.server = server then call.changes.count part else 0) +
        pushes server part calls := by
  by_cases h : call.server = server <;> simp [pushes, h]

def Carries (server : Identity) (part : ServerChange) (p : HostChange × Verdict) : Bool :=
  p.2.hostFault = none ∧ server ∈ p.2.servers ∧ p.1.serverChange = some part

theorem count_addressedTo :
    (addressedTo changes verdicts server).count part =
      (changes.zip verdicts).countP (Carries server part) := by
  rw [addressedTo, List.count_filterMap]
  apply List.countP_congr
  rintro ⟨c, v⟩ -
  by_cases h : v.hostFault = none ∧ server ∈ v.servers
  · simp [Carries, h]
  · simp only [Carries, if_neg h]
    simpa using fun hfault hserver => absurd ⟨hfault, hserver⟩ h

variable {roster : Roster} {s : Server}

theorem pushes_filterMap (hkeyed : roster.Keyed) (hs : roster.Has s)
    (share : Identity → List ServerChange) (servers : List Identity) :
    pushes s.identity part (servers.filterMap fun id =>
        (roster.get? id.processName).map fun found => ⟨found.identity, share id, rollback⟩) =
      ((servers.filter (·.server = s.identity.server)).map fun id =>
        (share id).count part).sum := by
  induction servers with
  | nil => rfl
  | cons id servers ih =>
    rw [List.filterMap_cons]
    by_cases hname : id.server = s.identity.server
    · have hfound := hkeyed.get?_processName.2 ⟨hs, hname.symm⟩
      simp [hfound, pushes_cons, hname, ih]
    · cases hfound : roster.get? id.processName with
      | none => simp [hname, ih]
      | some found =>
        have hother : found.identity ≠ s.identity := by
          intro heq
          exact hname (heq ▸ (hkeyed.get?_processName.1 hfound).2.symm)
        simp [pushes_cons, hother, hname, ih]

/-- A change goes to those listed servers of a name that its verdict lists itself. -/
theorem countP_carries {servers : List Identity} (hnd : servers.Nodup)
    (hservers : ∀ server, server ∈ servers ↔ Lists changes verdicts server)
    {p : HostChange × Verdict} (hp : p ∈ changes.zip verdicts) (name : String) :
    (servers.filter (·.server = name)).countP (Carries · part p) =
      if p.2.hostFault = none ∧ p.1.serverChange = some part then namesakes name p.2 else 0 := by
  obtain ⟨c, v⟩ := p
  by_cases h : v.hostFault = none ∧ c.serverChange = some part
  · obtain ⟨i, hi⟩ := List.mem_iff_getElem?.1 hp
    obtain ⟨hc, hv⟩ := List.getElem?_zip_eq_some.1 hi
    have hlists {server : Identity} (hmem : server ∈ v.servers) : server ∈ servers :=
      (hservers server).2 ⟨i, c, v, hc, hv, h.1, hmem, by simp [h.2]⟩
    rw [if_pos h, List.countP_eq_length_filter, List.filter_filter]
    refine ((List.perm_ext_iff_of_nodup (hnd.filter _) ((List.nodup_eraseDups _).filter _)).2
      fun server => ?_).length_eq
    simp only [Carries, h.1, h.2, List.mem_filter, List.mem_eraseDups]
    simpa using fun hmem _ => hlists hmem
  · rw [if_neg h]
    apply List.countP_eq_zero.2
    intro server hserver
    simp only [Carries, decide_eq_true_eq]
    exact fun hm => h ⟨hm.1, hm.2.2⟩

/-- A part is pushed to a tracked server once for every server of its name that a verdict
lists. -/
theorem pushes_of_delivers (hkeyed : roster.Keyed) (hs : roster.Has s)
    (h : Delivers (fun id => roster.get? id.processName) changes verdicts rollback calls) :
    pushes s.identity part calls = ((changes.zip verdicts).map fun (c, v) =>
      if v.hostFault = none ∧ c.serverChange = some part
      then namesakes s.identity.server v else 0).sum := by
  obtain ⟨servers, hnd, hservers, hcalls⟩ := h
  rw [pushes_of_perm hcalls, pushes_filterMap hkeyed hs]
  simp only [count_addressedTo]
  rw [List.sum_countP_comm]
  exact congrArg List.sum (List.map_congr_left fun p hp => countP_carries hnd hservers hp _)

end Plan

namespace Dispatch

/-- What becomes of changes that are addressed to an identity: they reach the tracked server of its
name, whatever its host and its group, and fail where there is none. So nothing but the addressed
server is called just if no other one has its name. -/
structure GoesByName (w : Conditions) (roster : Roster) (id : Identity)
    (changes : List ServerChange) (rollback : Bool) (calls : List Delivery) (d : Dispatch) :
    Prop where
  unknown : (∀ s, roster.Has s → s.identity.server ≠ id.server) →
    calls = [] ∧ d.outcomes = [changes.map fun _ => .failed (.unknownServer id)]
  empty : changes = [] → calls = [] ∧ d.outcomes = [[]]
  found : ∀ s, roster.Has s → s.identity.server = id.server → changes ≠ [] →
    calls = [⟨s.identity, changes, rollback⟩] ∧
    d.outcomes = [match w.reply (.identity id) with
      | .ok outcomes => Batch.fit s changes.length outcomes
      | .error e => changes.map fun _ => .failed ⟨e.message⟩]
  exact : (calls ≠ [] → ∃ s, roster.Has s ∧ s.identity = id) ↔
    changes = [] ∨ ∀ s, roster.Has s → s.identity.server = id.server → s.identity = id

variable {w : Conditions} {roster : Roster} {calls : List Delivery} {d : Dispatch} {id : Identity}
  {changes : List ServerChange} {rollback : Bool} {found : Server}

theorem goesByName_unknown (hnone : ∀ s, roster.Has s → s.identity.server ≠ id.server)
    (houtcomes : d.outcomes = [changes.map fun _ => .failed (.unknownServer id)]) :
    GoesByName w roster id changes rollback [] d where
  unknown _ := ⟨rfl, houtcomes⟩
  empty hempty := ⟨rfl, by rw [houtcomes, hempty]; rfl⟩
  found s hs hname := absurd hname (hnone s hs)
  exact := iff_of_true (absurd rfl) (.inr fun s hs hname => absurd hname (hnone s hs))

theorem goesByName_empty (hhas : roster.Has found) (hname : found.identity.server = id.server)
    (houtcomes : d.outcomes = [[]]) : GoesByName w roster id [] rollback [] d where
  unknown hnone := absurd hname (hnone found hhas)
  empty _ := ⟨rfl, houtcomes⟩
  found _ _ _ hne := absurd rfl hne
  exact := iff_of_true (absurd rfl) (.inl rfl)

theorem goesByName_found (hhas : roster.Has found) (hname : found.identity.server = id.server)
    (hne : changes ≠ []) (houtcomes : d.outcomes = [match w.reply (.identity id) with
      | .ok outcomes => Batch.fit found changes.length outcomes
      | .error e => changes.map fun _ => .failed ⟨e.message⟩]) :
    GoesByName w roster id changes rollback [⟨found.identity, changes, rollback⟩] d where
  unknown hnone := absurd hname (hnone found hhas)
  empty hempty := absurd hempty hne
  found s hs hsame _ := by
    rw [hs.eq_of_name hhas (hsame.trans hname.symm)]
    exact ⟨rfl, houtcomes⟩
  exact := by
    constructor
    · intro h
      obtain ⟨s, hs, rfl⟩ := h (List.cons_ne_nil _ _)
      exact .inr fun s' hs' hsame => by rw [hs'.eq_of_name hs hsame]
    · exact fun h _ => ⟨found, hhas, (h.resolve_left hne) found hhas hname⟩

theorem goesByName_of_settled (hkeyed : roster.Keyed)
    (hroster : w.roster (.identity id) = roster)
    (h : Run w (.single (.identity id) changes rollback) calls d) (hdone : d.isSettled) :
    GoesByName w roster id changes rollback calls d := by
  obtain ⟨hcalls, houtcomes⟩ := settled_single h hdone
  set b : Batch := { address := .identity id, changes, rollback }
  have hserver : b.server? w = roster.get? id.processName :=
    congrArg (·.get? id.processName) hroster
  rw [Batch.outcomesIn, hserver] at houtcomes
  cases hfound : roster.get? id.processName with
  | none =>
    obtain rfl : calls = [] := by simpa [Batch.delivery?, hserver, hfound] using hcalls
    rw [hfound] at houtcomes
    refine goesByName_unknown (fun s hs hname => ?_) houtcomes
    rw [hkeyed.get?_processName.2 ⟨hs, hname⟩] at hfound
    cases hfound
  | some found =>
    obtain ⟨hhas, hname⟩ := hkeyed.get?_processName.1 hfound
    rw [hfound] at houtcomes
    by_cases hempty : changes = []
    · subst hempty
      obtain rfl : calls = [] := by simpa [Batch.delivery?, b] using hcalls
      exact goesByName_empty hhas hname (by simpa [b] using houtcomes)
    · obtain rfl : calls = [⟨found.identity, changes, rollback⟩] := by
        simpa [Batch.delivery?, Batch.delivery, hserver, hfound, b, hempty] using hcalls
      refine goesByName_found hhas hname hempty ?_
      rw [houtcomes]
      cases hreply : w.reply (.identity id) <;> simp [b, hempty]

end Dispatch

open Dispatch in
/-- Changes go by the name of the server that they are addressed to. In a distribution a tracked
server is pushed a change once for every server of its name that the verdict lists. -/
theorem pushes_go_by_name {w : Conditions} {roster : Roster} (hkeyed : roster.Keyed)
    (hroster : ∀ a, w.roster a = roster) :
    (∀ id changes rollback, Achieves w (.single (.identity id) changes rollback)
      (GoesByName w roster id changes rollback)) ∧
    ∀ changes verdicts rollback concurrent,
      Achieves w (.ofPlan (.make changes verdicts) rollback concurrent) fun calls _ =>
        ∀ s, roster.Has s → ∀ part, Plan.pushes s.identity part calls =
          ((changes.zip verdicts).map fun (c, v) =>
            if v.hostFault = none ∧ c.serverChange = some part
            then Plan.namesakes s.identity.server v else 0).sum := by
  refine ⟨fun id changes rollback => achieves_of_settled fun calls d =>
      goesByName_of_settled hkeyed (hroster _),
    fun changes verdicts rollback concurrent =>
      achieves_of_settled fun calls d hrun hdone s hs part => ?_⟩
  have hcalls := Plan.delivers_of_settled hrun hdone
  simp only [hroster] at hcalls
  exact Plan.pushes_of_delivers hkeyed hs hcalls

open Dispatch in
/-- A server of another host has the name of the tracked one, which gets what is addressed to the
other and gets a change for both of them twice. -/
theorem pushes_go_by_name_twice :
    let a : Server := .ofSpec 0 "h" { name := "a", group := "g" } .started
    let namesake : Identity := ⟨"k", "g", "a"⟩
    let part : ServerChange := ⟨"set", .null⟩
    let w : Conditions := ⟨fun _ => ⟨.ofList [(a.process, a)]⟩, fun _ => .ok []⟩
    (∃ calls d, Run w (.single (.identity namesake) [part] true) calls d ∧ d.isSettled ∧
      calls = [⟨a.identity, [part], true⟩]) ∧
    ∃ calls d, Run w (.ofPlan (.make [⟨"set", .host, .null, some part⟩]
        [.affecting [a.identity, namesake]]) true false) calls d ∧ d.isSettled ∧
      Plan.pushes a.identity part calls = 2 := by
  intro a namesake part w
  have hhas : (w.roster (.identity namesake)).Has a := rfl
  have hkeyed : (w.roster (.identity namesake)).Keyed := by
    intro p s hget
    have hmem : (p, s) ∈ [(a.process, a)] := OrderedMap.get?_eq_some_iff.1 hget
    rw [List.mem_singleton, Prod.mk.injEq] at hmem
    exact hmem.2 ▸ hmem.1.symm
  obtain ⟨hsingle, hplan⟩ := pushes_go_by_name (w := w) hkeyed fun _ => rfl
  obtain ⟨⟨calls, d, hrun, hdone⟩, hby⟩ := hsingle namesake [part] true
  obtain ⟨⟨calls', d', hrun', hdone'⟩, hpushes⟩ := hplan _ _ true false
  exact ⟨⟨calls, d, hrun, hdone, ((hby _ _ hrun hdone).found a hhas rfl (by simp)).1⟩,
    calls', d', hrun', hdone', (hpushes _ _ hrun' hdone' a hhas part).trans (by decide)⟩

end HostSteward
