import HostSteward.Proofs.Distribution.Deliveries

/-!
# Modes of dispatch

Batches are dispatched one after another or all at once. As long as the same servers are tracked
and the executor's answer to a batch goes by the batch alone, this makes no difference: in whatever
order batches begin, wait for one another and are answered, the reports are the same and the
executor gets the same calls.
-/

namespace HostSteward

variable {roster : Roster} {respond : Delivery → Except Failure (List Outcome)}
  {batches : List Batch} {w w' : Conditions} {b : Batch}

structure Conditions.Steady (roster : Roster) (respond : Delivery → Except Failure (List Outcome))
    (batches : List Batch) (w : Conditions) : Prop where
  tracked : ∀ a, w.roster a = roster
  answered : ∀ b ∈ batches, ∀ call, b.delivery? w = some call → w.reply b.address = respond call

namespace Conditions.Steady

theorem server?_eq (h : Steady roster respond batches w) (h' : Steady roster respond batches w') :
    b.server? w = b.server? w' := by
  simp only [Batch.server?, h.tracked, h'.tracked]

theorem delivery?_eq (h : Steady roster respond batches w)
    (h' : Steady roster respond batches w') : b.delivery? w = b.delivery? w' := by
  simp only [Batch.delivery?, h.server?_eq h']

theorem outcomesIn_eq (h : Steady roster respond batches w)
    (h' : Steady roster respond batches w') (hb : b ∈ batches) :
    b.outcomesIn w = b.outcomesIn w' := by
  have hserver : b.server? w = b.server? w' := h.server?_eq h'
  unfold Batch.outcomesIn
  rw [← hserver]
  cases hs : b.server? w with
  | none => rfl
  | some server =>
    by_cases he : b.changes.isEmpty
    · simp [he]
    · have hcall : b.delivery? w = some (b.delivery server) := by simp [Batch.delivery?, he, hs]
      have hcall' : b.delivery? w' = some (b.delivery server) := h.delivery?_eq h' ▸ hcall
      rw [h.answered b hb _ hcall, h'.answered b hb _ hcall']

end Conditions.Steady

theorem find?_address (hnd : (batches.map (·.address)).Nodup) (hb : b ∈ batches) :
    batches.find? (·.address = b.address) = some b := by
  cases hfind : batches.find? (·.address = b.address) with
  | none => simpa using List.find?_eq_none.1 hfind b hb
  | some c =>
    have haddress : c.address = b.address := by simpa using List.find?_some hfind
    rw [List.inj_on_of_nodup_map hnd (List.mem_of_find?_eq_some hfind) hb haddress]

/-- Batches with different addresses can be answered as any executor of this kind does. -/
theorem exists_steady (roster : Roster) (respond : Delivery → Except Failure (List Outcome))
    (hnd : (batches.map (·.address)).Nodup) :
    ∃ w, Conditions.Steady roster respond batches w := by
  let w₀ : Conditions := ⟨fun _ => roster, fun _ => .ok []⟩
  let call? (a : Address) : Option Delivery :=
    (batches.find? (·.address = a)).bind (Batch.delivery? w₀)
  refine ⟨⟨fun _ => roster, fun a => (call? a).elim (.ok []) respond⟩, fun _ => rfl, ?_⟩
  intro b hb call hcall
  have hknown : call? b.address = some call := by
    simp only [call?, find?_address hnd hb, Option.bind_some]
    exact hcall
  simp only [hknown, Option.elim_some]

namespace Dispatch

variable {d₁ d₂ d d' : Dispatch} {calls calls' : List Delivery}

/-- Two complete runs that began with the same batches settle them alike. -/
theorem batches_eq_of_settled (hw : Conditions.Steady roster respond d₁.batches w)
    (hw' : Conditions.Steady roster respond d₁.batches w') (hsame : d₂.batches = d₁.batches)
    (hidle : ∀ b ∈ d₁.batches, b.progress = .idle) (h : Run w d₁ calls d) (hdone : d.isSettled)
    (h' : Run w' d₂ calls' d') (hdone' : d'.isSettled) : d.batches = d'.batches := by
  rw [h.settled hidle hdone, h'.settled (hsame ▸ hidle) hdone', hsame]
  apply List.map_congr_left
  intro b hb
  rw [hw.outcomesIn_eq hw' hb]

/-- They also hand the same calls to the executor, each as often as the other does. -/
theorem calls_perm_of_settled (hw : Conditions.Steady roster respond d₁.batches w)
    (hw' : Conditions.Steady roster respond d₁.batches w') (hsame : d₂.batches = d₁.batches)
    (hidle : ∀ b ∈ d₁.batches, b.progress = .idle) (h : Run w d₁ calls d) (hdone : d.isSettled)
    (h' : Run w' d₂ calls' d') (hdone' : d'.isSettled) : calls.Perm calls' := by
  have hbatches := batches_eq_of_settled hw hw' hsame hidle h hdone h' hdone'
  have hcalls := h.calls_perm hidle
  have hcalls' := h'.calls_perm (hsame ▸ hidle)
  rw [← hbatches] at hcalls'
  refine hcalls.trans (List.Perm.trans (List.Perm.of_eq ?_) hcalls'.symm)
  apply List.filterMap_congr
  intro b hb
  have hset : b.isSettled := List.all_eq_true.1 hdone b hb
  rw [Batch.delivered?_of_settled hset, Batch.delivered?_of_settled hset, hw.delivery?_eq hw']

end Dispatch

namespace Rehearsal

namespace Executor

variable {x y : Executor}

def Unscripted (x : Executor) : Prop := ∀ server, (x.scripts.get? server).getD [] = []

theorem Unscripted.accept (h : x.Unscripted) (call : Delivery) : (x.accept call).Unscripted := by
  have hscripts : (x.accept call).scripts = x.scripts := by
    unfold Executor.accept
    split <;> rfl
  intro server
  rw [hscripts]
  exact h server

theorem Unscripted.answer (h : x.Unscripted) (call : Delivery) :
    (x.answer call).1.Unscripted := by
  unfold Executor.answer
  split
  · exact h
  · exact h
  · simp only
    split
    · exact h
    · intro server
      by_cases hs : call.server.server = server
      · simp [OrderedMap.get?_insert, hs, h server]
      · simp [OrderedMap.get?_insert, hs, h server]

/-- Executors of one kind that cannot reach the same servers give the same answers. -/
theorem Unscripted.answer_eq (hx : x.Unscripted) (hy : y.Unscripted) (hkind : x.kind = y.kind)
    (hunreachable : x.unreachable = y.unreachable) (call : Delivery) :
    (x.answer call).2 = (y.answer call).2 := by
  unfold Executor.answer
  rw [hkind]
  cases y.kind with
  | detached => rfl
  | fixed outcomes => rfl
  | scripted =>
    simp only [hunreachable, hx call.server.server, hy call.server.server]
    split <;> rfl

end Executor

namespace Stage

theorem lasting_unscripted :
    Lasting fun _ s => s.backstage.executor.Unscripted where
  tell _ h := h
  accept call h := h.accept call
  answer call h := h.answer call
  advance moment h := (executor_advance _ moment).symm ▸ h

/-- A stage that is alone and whose executor has nothing in store distributes changes by a complete
run under steady conditions. -/
theorem distribute_steady {s : Stage} (halone : s.IsAlone)
    (hscript : s.backstage.executor.Unscripted) (changes : List HostChange)
    (verdicts : List Verdict) (rollback concurrent : Bool) :
    ∃ w calls d,
      Conditions.Steady s.steward.roster (fun call => (s.backstage.executor.answer call).2)
        (Dispatch.ofPlan (.make changes verdicts) rollback concurrent).batches w ∧
      Dispatch.Run w (.ofPlan (.make changes verdicts) rollback concurrent) calls d ∧
      d.isSettled ∧
      (s.distribute changes verdicts rollback concurrent).2 =
        (Plan.make changes verdicts).conclude d.answers ∧
      (s.backstage.executor.kind = .scripted →
        (s.distribute changes verdicts rollback concurrent).1.backstage.executor.received =
          s.backstage.executor.received ++ calls) := by
  obtain ⟨calls, d, ⟨⟨-, hreceived⟩, -⟩, ⟨w, hseen, hheard, hrun⟩, hdone, hreports⟩ :=
    distribute_reaches (((lasting_sameParties s).and (lasting_receives s)).and lasting_unscripted)
      ⟨⟨fun halone => ⟨halone, rfl, rfl, rfl⟩, rfl, fun _ => (List.append_nil _).symm⟩, hscript⟩
      changes verdicts rollback concurrent
  refine ⟨w, calls, d, ⟨fun a => ?_, fun b hb call hcall => ?_⟩, hrun, hdone, hreports,
    hreceived.received⟩
  · obtain ⟨-, s', ⟨⟨hs', -⟩, -⟩, hroster⟩ := hseen a
    rw [← hroster, (hs' halone).roster]
  · have hmem : b.settle (b.outcomesIn w) ∈ d.batches := by
      rw [hrun.settled (Plan.fresh_ofPlan ..).idle hdone]
      exact List.mem_map_of_mem hb
    obtain ⟨-, s', ⟨⟨hs', -⟩, hscript'⟩, hreply⟩ :=
      hheard _ hmem (List.all_eq_true.1 hdone _ hmem) call hcall
    have hsame := hs' halone
    rw [hscript.answer_eq hscript' hsame.kind.symm hsame.unreachable.symm]
    exact hreply.symm

/-- With the same servers tracked and an executor that answers a call by the call alone, batches
that are dispatched together can begin, wait and be answered in any order. This comes to an end,
and then the reports are those of batches that were dispatched one after another, and so are the
calls. A stage gives the same reports and makes the same calls in both modes. -/
theorem modes_agree (changes : List HostChange) (verdicts : List Verdict) (rollback : Bool)
    (roster : Roster) (respond : Delivery → Except Failure (List Outcome)) :
    let p := Plan.make changes verdicts
    let together := Dispatch.ofPlan p rollback true
    let inTurn := Dispatch.ofPlan p rollback false
    (∀ w, WellFounded fun d' d => ∃ more, Dispatch.Step w d more d') ∧
    (∀ w (d : Dispatch), ¬ d.isSettled → ∃ more d', Dispatch.Step w d more d') ∧
    inTurn.batches = together.batches ∧
    (∃ w, Conditions.Steady roster respond together.batches w) ∧
    (∀ w w' calls calls' d d', Conditions.Steady roster respond together.batches w →
      Conditions.Steady roster respond together.batches w' →
      Dispatch.Run w together calls d → d.isSettled →
      Dispatch.Run w' inTurn calls' d' → d'.isSettled →
      p.conclude d.answers = p.conclude d'.answers ∧ calls.Perm calls') ∧
    ∀ s : Stage, s.IsAlone → s.backstage.executor.Unscripted →
      (s.distribute changes verdicts rollback true).2 =
        (s.distribute changes verdicts rollback false).2 ∧
      (s.backstage.executor.kind = .scripted →
        (s.distribute changes verdicts rollback true).1.backstage.executor.received.Perm
          (s.distribute changes verdicts rollback false).1.backstage.executor.received) := by
  intro p together inTurn
  have hidle := (Plan.fresh_ofPlan p rollback true).idle
  have hagree : ∀ {roster respond w w' calls calls' d d'},
      Conditions.Steady roster respond together.batches w →
      Conditions.Steady roster respond together.batches w' →
      Dispatch.Run w together calls d → d.isSettled →
      Dispatch.Run w' inTurn calls' d' → d'.isSettled →
      p.conclude d.answers = p.conclude d'.answers ∧ calls.Perm calls' := by
    intro roster respond w w' calls calls' d d' hw hw' h hdone h' hdone'
    have hsame : inTurn.batches = together.batches := rfl
    have hbatches := Dispatch.batches_eq_of_settled hw hw' hsame hidle h hdone h' hdone'
    have hanswers : d.answers = d'.answers := by simp only [Dispatch.answers, hbatches]
    exact ⟨congrArg p.conclude hanswers, Dispatch.calls_perm_of_settled hw hw' hsame hidle h hdone h' hdone'⟩
  refine ⟨Dispatch.wellFounded_step, fun w d => Dispatch.exists_step w, rfl,
    exists_steady roster respond (Plan.fresh_ofPlan ..).nodup,
    fun _ _ _ _ _ _ => hagree, fun s halone hscript => ?_⟩
  obtain ⟨w, calls, d, hw, hrun, hdone, hreports, hreceived⟩ :=
    distribute_steady halone hscript changes verdicts rollback true
  obtain ⟨w', calls', d', hw', hrun', hdone', hreports', hreceived'⟩ :=
    distribute_steady halone hscript changes verdicts rollback false
  obtain ⟨hsame, hperm⟩ := hagree hw hw' hrun hdone hrun' hdone'
  refine ⟨by rw [hreports, hreports', hsame], fun hkind => ?_⟩
  rw [hreceived hkind, hreceived' hkind]
  exact hperm.append_left _

/-- A server of another host has the process name of the first of two tracked servers, so that its
batch waits for that of the first one, while the second is at work. In turn, it comes before it. -/
theorem modes_agree_held :
    let a : Server := .ofSpec 0 "h" { name := "a", group := "g" } .started
    let b : Server := .ofSpec 1 "k" { name := "b", group := "g" } .started
    let namesake : Identity := ⟨"k", "g", "a"⟩
    let c : HostChange := ⟨"set", .host, .null, some ⟨"set", .null⟩⟩
    let verdicts : List Verdict := [.affecting [b.identity, namesake, a.identity]]
    let s := make { (Steward.make {} none false) with
      roster := ⟨.ofList [(a.process, a), (b.process, b)]⟩ } { size := 1 } { delay := 5 }
    ((s.distribute [c] verdicts true true).2 = (s.distribute [c] verdicts true false).2 ∧
      (s.distribute [c] verdicts true true).1.backstage.executor.received.Perm
        (s.distribute [c] verdicts true false).1.backstage.executor.received) ∧
    (s.distribute [c] verdicts true true).1.backstage.executor.received.map (·.server.server) =
      ["a", "b", "a"] ∧
    (s.distribute [c] verdicts true false).1.backstage.executor.received.map (·.server.server) =
      ["a", "a", "b"] := by
  intro a b namesake c verdicts s
  have halone : s.IsAlone := ⟨rfl, rfl, rfl, rfl, rfl⟩
  have hscript : s.backstage.executor.Unscripted := fun _ => rfl
  obtain ⟨-, -, -, -, -, hstage⟩ := modes_agree [c] verdicts true s.steward.roster fun _ => .ok []
  obtain ⟨hreports, hcalls⟩ := hstage s halone hscript
  exact ⟨⟨hreports, hcalls rfl⟩, by decide +kernel, by decide +kernel⟩

end Stage

end Rehearsal

end HostSteward
