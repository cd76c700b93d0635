import HostSteward.Proofs.Distribution.Aggregation

/-!
# Deliveries

What the executor gets in a distribution: one call for each tracked server that the verdicts list,
with all its changes in the order of the batch and each of them once. Nothing else that goes on on a
stage reaches the executor, so a scripted one has received exactly these calls.
-/

namespace HostSteward

namespace Plan

variable {changes : List HostChange} {verdicts : List Verdict} {server : Identity}

/-- Some change that the host accepted has a part for servers, and its verdict lists the server. -/
def Lists (changes : List HostChange) (verdicts : List Verdict) (server : Identity) : Prop :=
  ∃ (i : Nat) (c : HostChange) (v : Verdict), changes[i]? = some c ∧ verdicts[i]? = some v ∧
    v.hostFault = none ∧ server ∈ v.servers ∧ c.serverChange ≠ none

/-- The parts of all these changes in their order. -/
def addressedTo (changes : List HostChange) (verdicts : List Verdict) (server : Identity) :
    List ServerChange :=
  (changes.zip verdicts).filterMap fun (c, v) =>
    if v.hostFault = none ∧ server ∈ v.servers then c.serverChange else none

/-- There is one call for each listed server that is found, to the server that was found and with
the changes for the listed one. -/
def Delivers (found : Identity → Option Server) (changes : List HostChange)
    (verdicts : List Verdict) (rollback : Bool) (calls : List Delivery) : Prop :=
  ∃ servers : List Identity, servers.Nodup ∧
    (∀ server, server ∈ servers ↔ Lists changes verdicts server) ∧
    calls.Perm (servers.filterMap fun server => (found server).map fun handle =>
      ⟨handle.identity, addressedTo changes verdicts server, rollback⟩)

theorem part?_eq (server : Identity) (c : HostChange) (v : Verdict) :
    part? server c v =
      if v.hostFault = none ∧ server ∈ v.servers then c.serverChange else none := by
  apply Option.ext
  intro change
  rw [part?_eq_some_iff]
  by_cases h : v.hostFault = none ∧ server ∈ v.servers
  · simp [h]
  · rw [if_neg h]
    exact iff_of_false (fun hp => h ⟨hp.2.1, hp.1⟩) nofun

theorem addressedTo_cons (c : HostChange) (v : Verdict) (changes : List HostChange)
    (verdicts : List Verdict) (server : Identity) :
    addressedTo (c :: changes) (v :: verdicts) server =
      (part? server c v).toList ++ addressedTo changes verdicts server := by
  rw [part?_eq]
  simp only [addressedTo, List.zip_cons_cons, List.filterMap_cons]
  cases (if v.hostFault = none ∧ server ∈ v.servers then c.serverChange else none) <;> rfl

theorem map_shareFrom (token : Nat) (changes : List HostChange) (verdicts : List Verdict)
    (server : Identity) :
    (shareFrom token changes verdicts server).map (·.2) = addressedTo changes verdicts server := by
  induction changes generalizing token verdicts with
  | nil => rfl
  | cons c changes ih =>
    cases verdicts with
    | nil => rfl
    | cons v verdicts =>
      rw [shareFrom_cons, List.map_append, ih, addressedTo_cons]
      cases part? server c v <;> rfl

/-- A server has a share in a plan if and only if it is listed. -/
theorem mem_keys_iff :
    server ∈ (make changes verdicts).shares.keys ↔ Lists changes verdicts server := by
  rw [OrderedMap.keys, List.mem_map]
  constructor
  · rintro ⟨⟨server, share⟩, he, rfl⟩
    obtain ⟨rfl, hne⟩ := ne_nil_of_mem_entries he
    obtain ⟨⟨i, change⟩, hmem⟩ := List.exists_mem_of_ne_nil _ hne
    obtain ⟨c, v, hc, hv, hpart⟩ := mem_shareFrom_iff.1 hmem
    obtain ⟨hlisted, haccepted, hchange⟩ := part?_eq_some_iff.1 hpart
    exact ⟨i, c, v, hc, hv, haccepted, hlisted, by simp [hchange]⟩
  · rintro ⟨i, c, v, hc, hv, haccepted, hlisted, hchange⟩
    obtain ⟨change, hchange⟩ := Option.ne_none_iff_exists'.1 hchange
    have hpart := part?_eq_some_iff.2 ⟨hlisted, haccepted, hchange⟩
    exact ⟨_, mem_entries_of_mem_shareFrom (mem_shareFrom_iff.2 ⟨c, v, hc, hv, hpart⟩), rfl⟩

/-- The calls of a complete run are as they ought to be. -/
theorem delivers_of_settled {w : Conditions} {calls : List Delivery} {d : Dispatch}
    {rollback concurrent : Bool}
    (h : Dispatch.Run w (Dispatch.ofPlan (make changes verdicts) rollback concurrent) calls d)
    (hdone : d.isSettled) :
    Delivers (fun server => (w.roster (.identity server)).get? server.processName) changes verdicts
      rollback calls := by
  refine ⟨_, OrderedMap.nodup_keys (make changes verdicts).shares, fun _ => mem_keys_iff, ?_⟩
  refine (calls_of_settled h hdone).trans (List.Perm.of_eq ?_)
  rw [expectedCalls, OrderedMap.keys, List.filterMap_map]
  apply List.filterMap_congr
  intro e he
  rw [(ne_nil_of_mem_entries he).1, map_shareFrom]
  rfl

end Plan

namespace Rehearsal

/-! ## Nothing but a dispatch reaches the executor -/

namespace Backstage

theorem executor_atOnce (b : Backstage) (host : Steward) (r : Request) :
    (atOnce b host r).1.executor = b.executor := by
  cases r with
  | register name =>
    show (b.register name).1.executor = _
    unfold register
    split <;> rfl
  | _ => rfl

theorem executor_run {α : Type} (p : Program α) (b : Backstage) :
    (p.run atOnce b).1.executor = b.executor := by
  induction p generalizing b with
  | done host value => rfl
  | ask host r resume ih => exact (ih ..).trans (executor_atOnce b host r)

theorem executor_plan (b : Backstage) (task : Task) (delay : Nat) :
    (b.plan task delay).executor = b.executor := by
  unfold plan
  split <;> rfl

theorem executor_adopt (b : Backstage) (host : Steward) :
    (b.adopt host).executor = b.executor := by
  unfold adopt
  simp only
  generalize host.restarts.filter _ = fresh
  induction fresh generalizing b with
  | nil => rfl
  | cons r fresh ih => exact (ih _).trans (executor_plan ..)

end Backstage

namespace Stage

theorem executor_perform {α : Type} (s : Stage) (o : Operation α) :
    (s.perform o).1.backstage.executor = s.backstage.executor :=
  (Backstage.executor_adopt ..).trans (Backstage.executor_run ..)

theorem executor_readBus (i left : Nat) (s : Stage) :
    (readBus i left s).backstage.executor = s.backstage.executor := by
  induction left generalizing s with
  | zero => rfl
  | succ left ih =>
    unfold readBus
    split
    · rfl
    · cases s.backstage.bus.receive? i with
      | none => rfl
      | some p =>
        obtain ⟨reception, bus⟩ := p
        cases reception with
        | notice n => exact (ih _).trans (executor_perform ..)
        | lagged count => exact ih _
        | nothing => rfl
        | closed => rfl

theorem executor_turnWatch (s : Stage) (i : Nat) :
    (s.turnWatch i).backstage.executor = s.backstage.executor := by
  unfold turnWatch
  cases s.backstage.watches[i]? with
  | none => rfl
  | some w =>
    simp only
    split
    · exact executor_perform ..
    · rfl

theorem executor_runTask (s : Stage) (t : Task) :
    (s.runTask t).backstage.executor = s.backstage.executor := by
  cases t with
  | restart r => exact executor_perform ..
  | notice n => exact executor_perform ..
  | loop i => exact executor_readBus ..
  | watch i => exact executor_turnWatch ..

theorem executor_takeTurns (fuel : Nat) (s : Stage) :
    (takeTurns fuel s).backstage.executor = s.backstage.executor := by
  induction fuel generalizing s with
  | zero => rfl
  | succ fuel ih =>
    unfold takeTurns
    have hroused : s.rouse.backstage.executor = s.backstage.executor := rfl
    simp only
    split
    · exact (ih _).trans ((executor_runTask ..).trans hroused)
    · split
      · exact hroused
      · exact (ih _).trans hroused

theorem executor_passTo (limit fuel : Nat) (s : Stage) :
    (passTo limit fuel s).backstage.executor = s.backstage.executor := by
  induction fuel generalizing s with
  | zero => rfl
  | succ fuel ih =>
    unfold passTo
    cases (s.backstage.timers.map (·.due)).min? with
    | none => rfl
    | some moment =>
      simp only
      split
      · rfl
      · exact (ih _).trans (executor_takeTurns ..)

theorem executor_advance (s : Stage) (moment : Nat) :
    (s.advance moment).backstage.executor = s.backstage.executor := by
  unfold Stage.advance
  split
  · rfl
  · exact (executor_passTo ..).trans (executor_takeTurns ..)

/-- The executor of a stage is of the same kind as at first. A scripted one has received the
calls, after those that it had received before. -/
structure Receives (s₀ : Stage) (calls : List Delivery) (s : Stage) : Prop where
  kind : s.backstage.executor.kind = s₀.backstage.executor.kind
  received : s₀.backstage.executor.kind = .scripted →
    s.backstage.executor.received = s₀.backstage.executor.received ++ calls

end Stage

namespace Executor

theorem received_accept {x : Executor} (hkind : x.kind = .scripted) (call : Delivery) :
    (x.accept call).received = x.received ++ [call] := by
  unfold accept
  rw [hkind]

theorem received_answer (x : Executor) (call : Delivery) :
    (x.answer call).1.received = x.received := by
  unfold answer
  split
  · rfl
  · rfl
  · simp only
    split <;> rfl

end Executor

namespace Stage

theorem lasting_receives (s₀ : Stage) : Lasting (Receives s₀) where
  tell _ h := ⟨h.kind, h.received⟩
  accept call h := by
    refine ⟨(Executor.kind_accept ..).trans h.kind, fun hkind => ?_⟩
    rw [← List.append_assoc, ← h.received hkind]
    exact Executor.received_accept (h.kind.trans hkind) call
  answer call h := by
    refine ⟨(Executor.kind_answer ..).trans h.kind, fun hkind => ?_⟩
    exact (Executor.received_answer ..).trans (h.received hkind)
  advance {_ s} moment h := by
    have hsame := s.executor_advance moment
    exact ⟨(congrArg Executor.kind hsame).trans h.kind,
      fun hkind => (congrArg Executor.received hsame).trans (h.received hkind)⟩

theorem Lasting.and {S T : List Delivery → Stage → Prop} (hS : Lasting S) (hT : Lasting T) :
    Lasting fun calls s => S calls s ∧ T calls s where
  tell e h := ⟨hS.tell e h.1, hT.tell e h.2⟩
  accept call h := ⟨hS.accept call h.1, hT.accept call h.2⟩
  answer call h := ⟨hS.answer call h.1, hT.answer call h.2⟩
  advance moment h := ⟨hS.advance moment h.1, hT.advance moment h.2⟩

/-- Every complete run of a distribution makes exactly one call for each listed server that is
tracked, with all its changes in order and the given word on rollback, and no other call. A stage
does so; if it is alone, the servers are those that it tracks, and a scripted executor has received
these calls and nothing else. -/
theorem deliveries_exact (changes : List HostChange) (verdicts : List Verdict)
    (rollback concurrent : Bool) :
    (∀ w calls d, Dispatch.Run w (.ofPlan (.make changes verdicts) rollback concurrent) calls d →
      d.isSettled →
      Plan.Delivers (fun server => (w.roster (.identity server)).get? server.processName) changes
        verdicts rollback calls) ∧
    ∀ s : Stage, ∃ found calls, Plan.Delivers found changes verdicts rollback calls ∧
      (s.IsAlone → ∀ server, found server = s.steward.roster.get? server.processName) ∧
      (s.backstage.executor.kind = .scripted →
        (s.distribute changes verdicts rollback concurrent).1.backstage.executor.received =
          s.backstage.executor.received ++ calls) := by
  refine ⟨fun w calls d => Plan.delivers_of_settled, fun s => ?_⟩
  obtain ⟨calls, d, ⟨-, hreceived⟩, ⟨w, hseen, -, hrun⟩, hdone, -⟩ := distribute_reaches
    ((lasting_sameParties s).and (lasting_receives s))
    ⟨fun halone => ⟨halone, rfl, rfl, rfl⟩, rfl, fun _ => (List.append_nil _).symm⟩
    changes verdicts rollback concurrent
  refine ⟨_, calls, Plan.delivers_of_settled hrun hdone, fun halone server => ?_,
    hreceived.received⟩
  obtain ⟨-, s', ⟨hs', -⟩, hroster⟩ := hseen (.identity server)
  rw [← hroster, (hs' halone).roster]

/-- Five changes, of which one has no part for servers, one was refused and one was not judged. A
server of another host has the process name of the tracked one, which gets both calls; the server
that is not known gets none. -/
theorem deliveries_exact_scripted :
    let a : Server := .ofSpec 0 "h" { name := "a", group := "g" } .started
    let namesake : Identity := ⟨"k", "g", "a"⟩
    let part : String → ServerChange := fun operation => ⟨operation, .null⟩
    let change : String → HostChange := fun operation => ⟨operation, .host, .null, part operation⟩
    let changes := [change "first", ⟨"second", .host, .null, none⟩, change "third", change "fourth",
      change "fifth"]
    let verdicts : List Verdict := [.affecting [a.identity, namesake, a.identity],
      .affecting [a.identity], ⟨[a.identity], some ⟨"refused"⟩⟩,
      .affecting [⟨"h", "g", "b"⟩, a.identity]]
    let s := make { (Steward.make {} none false) with roster := ⟨.ofList [(a.process, a)]⟩ }
      { size := 1 } {}
    let received := (s.distribute changes verdicts true false).1.backstage.executor.received
    (∃ found, Plan.Delivers found changes verdicts true received ∧
      ∀ server, found server = s.steward.roster.get? server.processName) ∧
    received = [⟨a.identity, [part "first", part "fourth"], true⟩,
      ⟨a.identity, [part "first"], true⟩] := by
  intro a namesake part change changes verdicts s received
  have halone : s.IsAlone := ⟨rfl, rfl, rfl, rfl, rfl⟩
  obtain ⟨-, hstage⟩ := deliveries_exact changes verdicts true false
  obtain ⟨found, calls, hcalls, hfound, hreceived⟩ := hstage s
  have hall : received = calls := hreceived rfl
  exact ⟨⟨found, hall ▸ hcalls, hfound halone⟩, by decide⟩

end Stage

end Rehearsal

end HostSteward
