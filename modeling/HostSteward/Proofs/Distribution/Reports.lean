import HostSteward.Proofs.Distribution.Runs
import HostSteward.Proofs.Distribution.Shares

/-!
# The reports of a distribution

The outcomes of every server are recorded in the reports of the changes that it got. A change
that no server got keeps the report it opened with; the report of any other change has one
outcome for each server of its verdict, and that outcome is the server's answer to this very
change.
-/

namespace HostSteward

theorem Report.ext_outcome? {r r' : Report} (hfault : r.hostFault = r'.hostFault)
    (h : ∀ server, r.outcome? server = r'.outcome? server) : r = r' := by
  obtain ⟨fault, outcomes⟩ := r
  obtain ⟨fault', outcomes'⟩ := r'
  obtain rfl : fault = fault' := hfault
  exact congrArg (Report.mk fault) (OrderedMap.ext_get? h)

theorem Report.outcome?_record (r : Report) (server other : Identity) (o : Outcome) :
    (r.record server o).outcome? other = if server = other then some o else r.outcome? other := by
  rw [record_eq]
  exact OrderedMap.get?_insert ..

theorem Report.hostFault_record (r : Report) (server : Identity) (o : Outcome) :
    (r.record server o).hostFault = r.hostFault := by
  rw [record_eq]
  rfl

namespace Batch

def noResponse (server : Server) : Outcome :=
  .failed ⟨"server " ++ server.identity.text ++ " returned no response for this update"⟩

theorem length_fit (server : Server) (count : Nat) (outcomes : List Outcome) :
    (fit server count outcomes).length = count := by
  simp only [fit, List.length_append, List.length_take, List.length_replicate]
  omega

theorem getElem?_fit {server : Server} {count k : Nat} {outcomes : List Outcome} (h : k < count) :
    (fit server count outcomes)[k]? = some (outcomes.getD k (noResponse server)) := by
  simp only [fit]
  by_cases hk : k < outcomes.length
  · rw [List.getElem?_append_left (by rw [List.length_take]; omega), List.getElem?_take_of_lt h]
    simp [hk]
  · rw [List.getElem?_append_right (by rw [List.length_take]; omega), List.length_take,
      List.getElem?_replicate, if_pos (by omega), List.getD_eq_getElem?_getD,
      List.getElem?_eq_none (by omega)]
    rfl

theorem length_outcomesIn (w : Conditions) (b : Batch) :
    (b.outcomesIn w).length = b.changes.length := by
  unfold outcomesIn
  cases b.server? w with
  | none => exact List.length_map _
  | some server =>
    by_cases he : b.changes.isEmpty
    · simp [List.isEmpty_iff.1 he]
    · simp only [if_neg he]
      cases w.reply b.address with
      | ok outcomes => exact length_fit ..
      | error e => exact List.length_map _

end Batch

namespace Plan

theorem recordShare_of_not_mem {server : Identity} {share : Share} {i : Nat}
    (h : ∀ e ∈ share, e.1 ≠ i) (reports : List Report) (outcomes : List Outcome) :
    (recordShare server reports share outcomes)[i]? = reports[i]? := by
  induction share generalizing reports outcomes with
  | nil => rfl
  | cons e share ih =>
    cases outcomes with
    | nil => rfl
    | cons o outcomes =>
      obtain ⟨he, hrest⟩ := List.forall_mem_cons.1 h
      rw [recordShare, ih hrest, List.getElem?_modify_ne _ _ he]

theorem recordShare_of_getElem? {server : Identity} {share : Share} {outcomes : List Outcome}
    {i k : Nat} {change : ServerChange} {o : Outcome}
    (hasc : share.Pairwise (fun a b => a.1 < b.1)) (hk : share[k]? = some (i, change))
    (ho : outcomes[k]? = some o) (reports : List Report) :
    (recordShare server reports share outcomes)[i]? = reports[i]?.map (·.record server o) := by
  induction share generalizing k reports outcomes with
  | nil => simp at hk
  | cons e share ih =>
    obtain ⟨hhead, hasc⟩ := List.pairwise_cons.1 hasc
    cases outcomes with
    | nil => simp at ho
    | cons o' outcomes =>
      rw [recordShare]
      cases k with
      | zero =>
        obtain rfl : e = (i, change) := Option.some.inj hk
        obtain rfl : o' = o := Option.some.inj ho
        rw [recordShare_of_not_mem (fun e he => Nat.ne_of_gt (hhead e he)), List.getElem?_modify_eq]
        rfl
      | succ k =>
        have hne : e.1 ≠ i := Nat.ne_of_lt (hhead _ (List.mem_of_getElem? hk))
        rw [ih hasc hk ho, List.getElem?_modify_ne _ _ hne]

theorem position_unique {share : Share} (hasc : share.Pairwise (fun a b => a.1 < b.1))
    {i k k' : Nat} {change change' : ServerChange} (hk : share[k]? = some (i, change))
    (hk' : share[k']? = some (i, change')) : k = k' := by
  obtain ⟨hlt, hget⟩ := List.getElem?_eq_some_iff.1 hk
  obtain ⟨hlt', hget'⟩ := List.getElem?_eq_some_iff.1 hk'
  rcases Nat.lt_trichotomy k k' with h | h | h
  · have := List.pairwise_iff_getElem.1 hasc k k' hlt hlt' h
    rw [hget, hget'] at this
    exact absurd this (Nat.lt_irrefl i)
  · exact h
  · have := List.pairwise_iff_getElem.1 hasc k' k hlt' hlt h
    rw [hget, hget'] at this
    exact absurd this (Nat.lt_irrefl i)

/-- Recording the share of a server leaves alone the outcomes of the others, and its own as well if
it has no part in a change. Otherwise it gets its answer to the change. -/
theorem exists_recordShare {server : Identity} {share : Share} {outs : List Outcome} {i : Nat}
    {r : Report} (hasc : share.Pairwise (fun a b => a.1 < b.1)) (hlen : outs.length = share.length)
    {reports : List Report} (hr : reports[i]? = some r) :
    ∃ r', (recordShare server reports share outs)[i]? = some r' ∧ r'.hostFault = r.hostFault ∧
      (∀ s, (server = s → ∀ t ∈ share, t.1 ≠ i) → r'.outcome? s = r.outcome? s) ∧
      ∀ (k : Nat) change, share[k]? = some (i, change) → r'.outcome? server = outs[k]? := by
  by_cases hget : ∃ (k : Nat) (change : ServerChange), share[k]? = some (i, change)
  · obtain ⟨k, change, hk⟩ := hget
    have hlt : k < outs.length := hlen ▸ (List.getElem?_eq_some_iff.1 hk).1
    have ho : outs[k]? = some outs[k] := List.getElem?_eq_getElem hlt
    refine ⟨r.record server outs[k], ?_, Report.hostFault_record .., fun s hs => ?_, fun k' change' hk' => ?_⟩
    · rw [recordShare_of_getElem? hasc hk ho, hr, Option.map_some]
    · have hne : server ≠ s := fun h => hs h _ (List.mem_of_getElem? hk) rfl
      rw [Report.outcome?_record, if_neg hne]
    · rw [Report.outcome?_record, if_pos rfl, position_unique hasc hk' hk, ho]
  · have hout : ∀ t ∈ share, t.1 ≠ i := by
      rintro ⟨t, change⟩ ht rfl
      obtain ⟨k, hk⟩ := List.mem_iff_getElem?.1 ht
      exact hget ⟨k, change, hk⟩
    refine ⟨r, ?_, rfl, fun _ _ => rfl, fun k change hk => ?_⟩
    · exact (recordShare_of_not_mem hout reports outs).trans hr
    · exact absurd ⟨k, change, hk⟩ hget

/-- The same holds for several servers, one after another. -/
theorem exists_recordShares {outs : Identity → List Outcome} {i : Nat} {r : Report}
    {entries : List (Identity × Share)} (hnd : (entries.map (·.1)).Nodup)
    (hasc : ∀ e ∈ entries, e.2.Pairwise (fun a b => a.1 < b.1))
    (hlen : ∀ e ∈ entries, (outs e.1).length = e.2.length)
    {reports : List Report} (hr : reports[i]? = some r) :
    ∃ r', (entries.foldl (fun reports e => recordShare e.1 reports e.2 (outs e.1)) reports)[i]? =
        some r' ∧ r'.hostFault = r.hostFault ∧
      (∀ s, (∀ share, (s, share) ∈ entries → ∀ t ∈ share, t.1 ≠ i) →
        r'.outcome? s = r.outcome? s) ∧
      ∀ s (share : Share) (k : Nat) change, (s, share) ∈ entries →
        share[k]? = some (i, change) → r'.outcome? s = (outs s)[k]? := by
  induction entries generalizing reports r with
  | nil => exact ⟨r, hr, rfl, fun _ _ => rfl, by simp⟩
  | cons e entries ih =>
    obtain ⟨server, share⟩ := e
    obtain ⟨hnew, hnd⟩ := List.nodup_cons.1 hnd
    obtain ⟨hasc, hascs⟩ := List.forall_mem_cons.1 hasc
    obtain ⟨hlen, hlens⟩ := List.forall_mem_cons.1 hlen
    obtain ⟨r₁, hr₁, hfault₁, hkeep₁, hrecord₁⟩ := exists_recordShare hasc hlen hr
    obtain ⟨r₂, hr₂, hfault₂, hkeep₂, hrecord₂⟩ := ih hnd hascs hlens hr₁
    refine ⟨r₂, hr₂, hfault₂.trans hfault₁, fun s hs => ?_, fun s share' k change hmem hk => ?_⟩
    · rw [hkeep₂ s fun share' h => hs share' (List.mem_cons_of_mem _ h)]
      apply hkeep₁ s
      rintro rfl
      exact hs share List.mem_cons_self
    · rcases List.mem_cons.1 hmem with he | hmem
      · -- A server has one share only, so that nothing is recorded over its answers.
        obtain ⟨rfl, rfl⟩ := Prod.mk.inj he
        rw [hkeep₂ s fun share h => absurd (List.mem_map.2 ⟨_, h, rfl⟩) hnew]
        exact hrecord₁ k change hk
      · exact hrecord₂ s share' k change hmem hk

def batchFor (p : Plan) (rollback : Bool) (server : Identity) : Batch where
  address := .identity server
  changes := ((p.shares.get? server).getD []).map (·.2)
  rollback := rollback

theorem batches_ofPlan (p : Plan) (rollback concurrent : Bool) :
    (Dispatch.ofPlan p rollback concurrent).batches = p.shares.keys.map (p.batchFor rollback) := by
  simp only [Dispatch.ofPlan, OrderedMap.keys, List.map_map]
  apply List.map_congr_left
  intro e he
  have hget : p.shares.get? e.1 = some e.2 := OrderedMap.get?_eq_some_iff.2 he
  simp [batchFor, hget]

theorem idle_ofPlan (p : Plan) (rollback concurrent : Bool) :
    ∀ b ∈ (Dispatch.ofPlan p rollback concurrent).batches, b.progress = .idle := by
  rw [batches_ofPlan]
  intro b hb
  obtain ⟨server, -, rfl⟩ := List.mem_map.1 hb
  rfl

variable {w : Conditions} {calls : List Delivery} {d : Dispatch} {rollback concurrent : Bool}

/-- When every batch of a plan is settled, the outcomes of each server are recorded in turn. -/
theorem conclude_of_settled {p : Plan}
    (h : Dispatch.Run w (Dispatch.ofPlan p rollback concurrent) calls d) (hdone : d.isSettled) :
    p.conclude d.answers = p.shares.entries.foldl (fun reports e =>
      recordShare e.1 reports e.2 ((p.batchFor rollback e.1).outcomesIn w)) p.reports := by
  have hanswers : d.answers = p.shares.entries.map fun e =>
      (e.1, (p.batchFor rollback e.1).outcomesIn w) := by
    rw [Dispatch.answers, h.settled (idle_ofPlan p rollback concurrent) hdone, batches_ofPlan, OrderedMap.keys,
      List.map_map, List.map_map, List.filterMap_map, ← List.filterMap_eq_map]
    rfl
  rw [conclude, hanswers, List.foldl_map]
  apply List.foldl_ext _ _ _
  intro reports e he
  have hget : p.shares.get? e.1 = some e.2 := OrderedMap.get?_eq_some_iff.2 he
  simp only [hget, Option.getD_some]

/-- The calls to the executor: one for each server of the plan that is tracked, with all that it
gets. -/
def expectedCalls (p : Plan) (w : Conditions) (rollback : Bool) : List Delivery :=
  p.shares.entries.filterMap fun e =>
    ((w.roster (.identity e.1)).get? e.1.processName).map fun found =>
      ⟨found.identity, e.2.map (·.2), rollback⟩

theorem delivery?_batchFor {changes : List HostChange} {verdicts : List Verdict}
    {server : Identity} {share : Share}
    (he : (server, share) ∈ (make changes verdicts).shares.entries) :
    ((make changes verdicts).batchFor rollback server).delivery? w =
      ((w.roster (.identity server)).get? server.processName).map fun found =>
        ⟨found.identity, share.map (·.2), rollback⟩ := by
  have hne : (share.map (·.2)).isEmpty = false := by
    rw [List.isEmpty_eq_false_iff]
    exact fun h => (ne_nil_of_mem_entries he).2 (List.map_eq_nil_iff.1 h)
  simp only [batchFor, OrderedMap.get?_eq_some_iff.2 he, Option.getD_some, Batch.delivery?, hne]
  rfl

theorem calls_of_settled {changes : List HostChange} {verdicts : List Verdict}
    (h : Dispatch.Run w (Dispatch.ofPlan (make changes verdicts) rollback concurrent) calls d)
    (hdone : d.isSettled) : calls.Perm ((make changes verdicts).expectedCalls w rollback) := by
  have hidle := idle_ofPlan (make changes verdicts) rollback concurrent
  refine (h.calls_perm hidle).trans (List.Perm.of_eq ?_)
  rw [h.settled hidle hdone, batches_ofPlan, OrderedMap.keys, List.map_map, List.map_map,
    List.filterMap_map, expectedCalls]
  exact List.filterMap_congr fun e he => delivery?_batchFor (w := w) he

def outcomeOn (w : Conditions) (server : Identity) (k : Nat) : Outcome :=
  match (w.roster (.identity server)).get? server.processName with
  | none => .failed (.unknownServer server)
  | some found =>
    match w.reply (.identity server) with
    | .ok outcomes => outcomes.getD k (Batch.noResponse found)
    | .error e => .failed ⟨e.message⟩

def Deserves (w : Conditions) (changes : List HostChange) (verdicts : List Verdict) (i : Nat)
    (c : HostChange) (r : Report) : Prop :=
  match verdicts[i]? with
  | none => r = .neutral
  | some v =>
    match v.hostFault with
    | some cause => r = .refused cause
    | none =>
      match c.serverChange with
      | none => r = .neutral
      | some _ => r.hostFault = none ∧ ∀ server, r.outcome? server =
          if server ∈ v.servers then some (outcomeOn w server (earlier changes verdicts server i))
          else none

def Exact (w : Conditions) (changes : List HostChange) (verdicts : List Verdict)
    (reports : List Report) : Prop :=
  reports.length = changes.length ∧
    ∀ (i : Nat) (c : HostChange), changes[i]? = some c →
      ∃ r, reports[i]? = some r ∧ Deserves w changes verdicts i c r

theorem getElem?_openingReports (changes : List HostChange) (verdicts : List Verdict) (i : Nat) :
    (openingReports changes verdicts)[i]? =
      changes[i]?.map fun _ => openingReport verdicts[i]? := by
  induction changes generalizing verdicts i with
  | nil => rfl
  | cons c changes ih =>
    cases i with
    | zero => simp [openingReports, List.head?_eq_getElem?]
    | succ i => simp [openingReports, ih]

theorem length_recordShare (server : Identity) (reports : List Report) (share : Share)
    (outcomes : List Outcome) :
    (recordShare server reports share outcomes).length = reports.length := by
  induction share generalizing reports outcomes with
  | nil => rfl
  | cons e share ih =>
    cases outcomes with
    | nil => rfl
    | cons o outcomes => rw [recordShare, ih, List.length_modify]

theorem length_conclude (p : Plan) (answers : List (Identity × List Outcome)) :
    (p.conclude answers).length = p.reports.length := by
  unfold conclude
  generalize p.reports = reports
  induction answers generalizing reports with
  | nil => rfl
  | cons a answers ih => rw [List.foldl_cons, ih, length_recordShare]

theorem length_make (changes : List HostChange) (verdicts : List Verdict) :
    (make changes verdicts).reports.length = changes.length := by
  show (openingReports changes verdicts).length = changes.length
  induction changes generalizing verdicts with
  | nil => rfl
  | cons c changes ih => rw [openingReports, List.length_cons, List.length_cons, ih]

theorem getElem?_outcomesIn {p : Plan} {server : Identity} {share : Share} {k : Nat}
    (hshare : p.shares.get? server = some share) (hk : k < share.length) :
    ((p.batchFor rollback server).outcomesIn w)[k]? = some (outcomeOn w server k) := by
  have hlen : k < (p.batchFor rollback server).changes.length := by
    simpa only [batchFor, hshare, Option.getD_some, List.length_map] using hk
  have haddress : (p.batchFor rollback server).address = .identity server := rfl
  generalize p.batchFor rollback server = b at *
  have hfind : b.server? w = (w.roster (.identity server)).get? server.processName := by
    rw [Batch.server?, haddress]
    rfl
  have hne : b.changes.isEmpty = false := by
    rw [List.isEmpty_eq_false_iff]
    exact List.ne_nil_of_length_pos (by omega)
  rw [Batch.outcomesIn, outcomeOn, hfind, haddress]
  cases (w.roster (.identity server)).get? server.processName with
  | none => simp [hlen, Address.fault]
  | some found =>
    simp only [hne]
    cases w.reply (.identity server) with
    | ok outcomes => exact Batch.getElem?_fit hlen
    | error e => simp [hlen]

/-- After a complete run the report of a change has an outcome for every server that has a part in
it, and is for the rest as it was at first. -/
theorem report_of_settled {changes : List HostChange} {verdicts : List Verdict}
    (h : Dispatch.Run w (Dispatch.ofPlan (make changes verdicts) rollback concurrent) calls d)
    (hdone : d.isSettled) {i : Nat} {c : HostChange} (hc : changes[i]? = some c) :
    ∃ r, ((make changes verdicts).conclude d.answers)[i]? = some r ∧
      r.hostFault = (openingReport verdicts[i]?).hostFault ∧
      (∀ s, (∀ v, verdicts[i]? = some v → part? s c v = none) →
        r.outcome? s = (openingReport verdicts[i]?).outcome? s) ∧
      ∀ s v change, verdicts[i]? = some v → part? s c v = some change →
        r.outcome? s = some (outcomeOn w s (earlier changes verdicts s i)) := by
  let p := make changes verdicts
  have hshare : ∀ {server share}, (server, share) ∈ p.shares.entries →
      share = shareFrom 0 changes verdicts server := fun he => (ne_nil_of_mem_entries he).1
  have hopen : p.reports[i]? = some (openingReport verdicts[i]?) := by
    show (openingReports changes verdicts)[i]? = _
    rw [getElem?_openingReports, hc, Option.map_some]
  let outs (server : Identity) := (p.batchFor rollback server).outcomesIn w
  have hlen : ∀ e ∈ p.shares.entries, (outs e.1).length = e.2.length := fun e he => by
    rw [Batch.length_outcomesIn, batchFor, OrderedMap.get?_eq_some_iff.2 he, Option.getD_some,
      List.length_map]
  obtain ⟨r, hr, hfault, hkeep, hrecord⟩ := exists_recordShares (OrderedMap.nodup_keys p.shares)
    (fun e he => hshare he ▸ tokens_ascending ..) hlen hopen
  refine ⟨r, by rw [conclude_of_settled h hdone]; exact hr, hfault, fun s hnone => ?_,
    fun s v change hv hp => ?_⟩
  · -- A server has a part in the change at `i` only if its share says so.
    apply hkeep s
    rintro share he ⟨t, change⟩ ht rfl
    rw [hshare he] at ht
    obtain ⟨c', v, hc', hv, hp⟩ := mem_shareFrom_iff.1 ht
    obtain rfl : c = c' := Option.some.inj (hc.symm.trans hc')
    cases (hnone v hv).symm.trans hp
  · have hk := getElem?_shareFrom hc hv hp
    have he := mem_entries_of_mem_shareFrom (List.mem_of_getElem? hk)
    rw [hrecord s _ _ change he hk]
    exact getElem?_outcomesIn (OrderedMap.get?_eq_some_iff.2 he) (List.getElem?_eq_some_iff.1 hk).1

/-- A complete run gives every change the report that it deserves. -/
theorem deserves_of_settled {changes : List HostChange} {verdicts : List Verdict}
    (h : Dispatch.Run w (Dispatch.ofPlan (make changes verdicts) rollback concurrent) calls d)
    (hdone : d.isSettled) {i : Nat} {c : HostChange} (hc : changes[i]? = some c) :
    ∃ r, ((make changes verdicts).conclude d.answers)[i]? = some r ∧
      Deserves w changes verdicts i c r := by
  obtain ⟨r, hr, hfault, hkeep, hrecord⟩ := report_of_settled h hdone hc
  refine ⟨r, hr, ?_⟩
  -- If no server has a part in the change, its report is the one from before the run.
  have hopening (hnone : ∀ s v, verdicts[i]? = some v → part? s c v = none) :
      r = openingReport verdicts[i]? :=
    Report.ext_outcome? hfault fun s => hkeep s (hnone s)
  unfold Deserves
  cases hv : verdicts[i]? with
  | none =>
    rw [hv] at hopening
    apply hopening
    intro s v hv'
    cases hv'
  | some v =>
    rw [hv] at hopening hfault
    obtain ⟨servers, fault⟩ := v
    cases fault with
    | some cause =>
      apply hopening
      intro s v hv'
      obtain rfl : _ = v := Option.some.inj hv'
      apply Option.eq_none_iff_forall_ne_some.2
      intro change hp
      cases (part?_eq_some_iff.1 hp).2.1
    | none =>
      cases hchange : c.serverChange with
      | none =>
        apply hopening
        intro s v hv'
        obtain rfl : _ = v := Option.some.inj hv'
        apply Option.eq_none_iff_forall_ne_some.2
        intro change hp
        cases hchange.symm.trans (part?_eq_some_iff.1 hp).2.2
      | some change =>
        refine ⟨hfault, fun s => ?_⟩
        by_cases hs : s ∈ servers
        · rw [if_pos hs]
          exact hrecord s _ change hv (part?_eq_some_iff.2 ⟨hs, rfl, hchange⟩)
        · rw [if_neg hs, hkeep s, hv]
          · rfl
          · intro v hv'
            obtain rfl : _ = v := Option.some.inj (hv.symm.trans hv')
            apply Option.eq_none_iff_forall_ne_some.2
            intro change hp
            exact hs (part?_eq_some_iff.1 hp).1

theorem exact_of_settled {changes : List HostChange} {verdicts : List Verdict}
    (h : Dispatch.Run w (Dispatch.ofPlan (make changes verdicts) rollback concurrent) calls d)
    (hdone : d.isSettled) :
    Exact w changes verdicts ((make changes verdicts).conclude d.answers) :=
  ⟨(length_conclude ..).trans (length_make ..), fun _ _ hc => deserves_of_settled h hdone hc⟩

end Plan

end HostSteward
