import HostSteward.Proofs.Distribution.Reports
import HostSteward.Proofs.Rehearsal.Dispatching

/-!
# Aggregation

The reports of a distribution are exact: there is one for each change, and it says of every
server what became of this very change there. This holds for every order in which servers may
answer, and what a stage does is one of these orders.
-/

namespace HostSteward

namespace Plan

theorem fresh_ofPlan (p : Plan) (rollback concurrent : Bool) :
    (Dispatch.ofPlan p rollback concurrent).Fresh where
  idle := idle_ofPlan p rollback concurrent
  nodup := by
    rw [batches_ofPlan, List.map_map]
    refine List.Pairwise.map _ (fun a b hne => ?_) (OrderedMap.nodup_keys p.shares)
    simpa [batchFor] using hne

end Plan

namespace Rehearsal

namespace Executor

theorem kind_accept (x : Executor) (call : Delivery) : (x.accept call).kind = x.kind := by
  unfold accept
  split <;> rfl

theorem unreachable_accept (x : Executor) (call : Delivery) :
    (x.accept call).unreachable = x.unreachable := by
  unfold accept
  split <;> rfl

theorem kind_answer (x : Executor) (call : Delivery) : (x.answer call).1.kind = x.kind := by
  unfold answer
  split
  · rfl
  · rfl
  · simp only
    split <;> rfl

theorem unreachable_answer (x : Executor) (call : Delivery) :
    (x.answer call).1.unreachable = x.unreachable := by
  unfold answer
  split
  · rfl
  · rfl
  · simp only
    split <;> rfl

end Executor

namespace Stage

structure IsAlone (s : Stage) : Prop where
  timers : s.backstage.timers = []
  ready : s.backstage.ready = []
  resting : s.backstage.resting = []
  loops : s.backstage.loops = []
  watches : s.backstage.watches = []

variable {s s₀ : Stage}

theorem IsAlone.rouse (h : s.IsAlone) : s.rouse = s := by
  obtain ⟨steward, b⟩ := s
  have hloops : b.loops = [] := h.loops
  have hwatches : b.watches = [] := h.watches
  cases b
  simp only at hloops hwatches
  subst hloops hwatches
  simp [Stage.rouse]

theorem IsAlone.settle (h : s.IsAlone) : s.settle = s := by
  unfold Stage.settle turnBound takeTurns
  simp [h.rouse, h.ready, h.resting]

theorem IsAlone.arrive (h : s.IsAlone) (moment : Nat) :
    s.arrive moment = { s with backstage := { s.backstage with
      now := max s.backstage.now moment } } := by
  obtain ⟨steward, b⟩ := s
  have htimers : b.timers = [] := h.timers
  have hready : b.ready = [] := h.ready
  simp [Stage.arrive, htimers, hready]

theorem IsAlone.advance (h : s.IsAlone) (moment : Nat) :
    s.advance moment = { s with backstage := { s.backstage with
      now := max s.backstage.now moment } } := by
  have hpass (fuel : Nat) : s.passTo moment fuel = s := by
    cases fuel with
    | zero => rfl
    | succ fuel => simp [passTo, h.timers]
  unfold Stage.advance
  by_cases hpast : moment ≤ s.backstage.now
  · rw [if_pos hpast, Nat.max_eq_left hpast]
  · simp only [if_neg hpast]
    rw [h.settle, hpass, h.arrive]

structure SameParties (s₀ s : Stage) : Prop where
  alone : s.IsAlone
  roster : s.steward.roster = s₀.steward.roster
  kind : s.backstage.executor.kind = s₀.backstage.executor.kind
  unreachable : s.backstage.executor.unreachable = s₀.backstage.executor.unreachable

theorem SameParties.withExecutor (h : SameParties s₀ s) {x : Executor}
    (hkind : x.kind = s.backstage.executor.kind)
    (hunreachable : x.unreachable = s.backstage.executor.unreachable) :
    SameParties s₀ { s with backstage := { s.backstage with executor := x } } where
  alone := ⟨h.alone.timers, h.alone.ready, h.alone.resting, h.alone.loops, h.alone.watches⟩
  roster := h.roster
  kind := hkind.trans h.kind
  unreachable := hunreachable.trans h.unreachable

theorem lasting_sameParties (s₀ : Stage) : Lasting fun _ s => s₀.IsAlone → SameParties s₀ s where
  tell e h halone :=
    have ⟨⟨htimers, hready, hresting, hloops, hwatches⟩, hroster, hkind, hunreachable⟩ := h halone
    ⟨⟨htimers, hready, hresting, hloops, hwatches⟩, hroster, hkind, hunreachable⟩
  accept call h halone :=
    (h halone).withExecutor (Executor.kind_accept ..) (Executor.unreachable_accept ..)
  answer call h halone :=
    (h halone).withExecutor (Executor.kind_answer ..) (Executor.unreachable_answer ..)
  advance moment h halone := by
    obtain ⟨halone, hroster, hkind, hunreachable⟩ := h halone
    rw [halone.advance]
    obtain ⟨htimers, hready, hresting, hloops, hwatches⟩ := halone
    exact ⟨⟨htimers, hready, hresting, hloops, hwatches⟩, hroster, hkind, hunreachable⟩

/-- A stage distributes changes by a complete run, in which rosters and answers are those of stages
with any property that lasts. -/
theorem distribute_reaches {S : List Delivery → Stage → Prop} (hS : Lasting S) (hs : S [] s)
    (changes : List HostChange) (verdicts : List Verdict) (rollback concurrent : Bool) :
    ∃ calls d, S calls (s.distribute changes verdicts rollback concurrent).1 ∧
      Dispatch.Reaches (Seen S) (Heard S) (.ofPlan (.make changes verdicts) rollback concurrent)
        calls d ∧
      d.isSettled ∧
      (s.distribute changes verdicts rollback concurrent).2 =
        (Plan.make changes verdicts).conclude d.answers := by
  let plan := Plan.make changes verdicts
  let d₀ := Dispatch.ofPlan plan rollback concurrent
  -- The warning of the plan, if there is one, comes before the dispatch.
  have hwarned : ∃ s₁, S [] s₁ ∧ s.distribute changes verdicts rollback concurrent =
      ((s₁.dispatch d₀).1, plan.conclude (s₁.dispatch d₀).2.answers) := by
    unfold distribute
    cases Plan.warning? changes verdicts with
    | none => exact ⟨s, hs, rfl⟩
    | some e => exact ⟨s.tell e, hS.tell e hs, rfl⟩
  obtain ⟨s₁, hs₁, hreports⟩ := hwarned
  obtain ⟨calls, hlast, hreached, hdone⟩ :=
    dispatch_run hS hs₁ (plan.fresh_ofPlan rollback concurrent)
  rw [hreports]
  exact ⟨calls, _, hlast, hreached, hdone, rfl⟩

/-- If the stage is alone, all batches find the servers that it tracks, and the answers are those of
its executor. -/
theorem distribute_run (s : Stage) (changes : List HostChange) (verdicts : List Verdict)
    (rollback concurrent : Bool) :
    ∃ w calls d,
      Dispatch.Run w (.ofPlan (.make changes verdicts) rollback concurrent) calls d ∧
      d.isSettled ∧
      (s.distribute changes verdicts rollback concurrent).2 =
        (Plan.make changes verdicts).conclude d.answers ∧
      (s.IsAlone → (∀ a, w.roster a = s.steward.roster) ∧
        ∀ b ∈ d.batches, ∀ call, b.delivery? w = some call →
          ∃ x : Executor, x.kind = s.backstage.executor.kind ∧
            x.unreachable = s.backstage.executor.unreachable ∧
            (x.answer call).2 = w.reply b.address) := by
  obtain ⟨calls, d, -, ⟨w, hseen, hheard, hrun⟩, hdone, hreports⟩ := distribute_reaches
    (lasting_sameParties s) (fun halone => ⟨halone, rfl, rfl, rfl⟩) changes verdicts rollback
    concurrent
  refine ⟨w, calls, d, hrun, hdone, hreports, fun halone => ⟨fun a => ?_, fun b hb call hcall => ?_⟩⟩
  · obtain ⟨-, s', hs', hroster⟩ := hseen a
    rw [← hroster, (hs' halone).roster]
  · obtain ⟨-, s', hs', hreply⟩ := hheard b hb (List.all_eq_true.1 hdone b hb) call hcall
    exact ⟨s'.backstage.executor, (hs' halone).kind, (hs' halone).unreachable, hreply⟩

structure Noted (s₀ s : Stage) : Prop where
  alone : s.IsAlone
  steward : ∃ journal, s.steward = { s₀.steward with journal }

theorem lasting_noted (s₀ : Stage) : Lasting fun _ s => s₀.IsAlone → Noted s₀ s where
  tell {_ s} e h halone := by
    obtain ⟨⟨htimers, hready, hresting, hloops, hwatches⟩, journal, hjournal⟩ := h halone
    refine ⟨⟨htimers, hready, hresting, hloops, hwatches⟩, journal ++ [e], ?_⟩
    simp [Stage.tell, hjournal]
  accept call h halone :=
    have ⟨⟨htimers, hready, hresting, hloops, hwatches⟩, hnoted⟩ := h halone
    ⟨⟨htimers, hready, hresting, hloops, hwatches⟩, hnoted⟩
  answer call h halone :=
    have ⟨⟨htimers, hready, hresting, hloops, hwatches⟩, hnoted⟩ := h halone
    ⟨⟨htimers, hready, hresting, hloops, hwatches⟩, hnoted⟩
  advance {_ s} moment h halone := by
    obtain ⟨hs, hnoted⟩ := h halone
    rw [hs.advance]
    exact ⟨⟨hs.timers, hs.ready, hs.resting, hs.loops, hs.watches⟩, hnoted⟩

/-- Changes that the host applies become part of its model as it judges them; beyond that, the
steward stays as it is, except for what is noted. -/
theorem steward_applyChanges {s : Stage} (halone : s.IsAlone) (changes : List HostChange) :
    ∃ journal, (s.applyChanges changes).1.steward =
      { s.steward with model := (s.steward.model.apply changes).2, journal } := by
  let s₁ : Stage := { s with steward := { s.steward with
    model := (s.steward.model.apply changes).2 } }
  have halone₁ : s₁.IsAlone :=
    ⟨halone.timers, halone.ready, halone.resting, halone.loops, halone.watches⟩
  obtain ⟨calls, d, hlast, -⟩ := distribute_reaches (lasting_noted s₁)
    (fun h => ⟨h, s₁.steward.journal, rfl⟩) changes (s.steward.model.apply changes).1
    s.steward.settings.changes.allowOverallRollback s.steward.settings.changes.concurrentServers
  exact (hlast halone₁).steward

def tersely (server : Server) : Stage :=
  make { (Steward.make {} none false) with roster := ⟨.ofList [(server.process, server)]⟩ }
    { size := 1 } { kind := .fixed [.cancelled] }

end Stage

end Rehearsal

end HostSteward
