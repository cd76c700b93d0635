import HostSteward.Proofs.Steward.Ledger

/-!
# Restarts within the budget

What has been spent on a process is the number of restarts that were decided on since it was last
reported to have started, and this is never more than the budget. Each decision leads to one
relaunch at most, of the record that it was taken for. So there are at most as many relaunches of a
process as its budget gives out, anew whenever it has started.
-/

namespace HostSteward

open Operation

namespace Stretch

def decided (l : Stretch) : List PendingRestart :=
  l.after.restarts.filter (l.before.nextTicket ≤ ·.ticket)

/-- A process is reported to have started, and the notice is followed. -/
def recovers (process : String) (l : Stretch) : Bool :=
  match l.cause with
  | .begun (.notice (.serverStarted p)) => p = process && (l.before.followed? p).isSome
  | _ => false

/-- The pending restart that is carried out with a leg. One that is given up asks for nothing. -/
def relaunched? (l : Stretch) : Option PendingRestart :=
  match l.cause with
  | .begun (.restart r) => if l.sent.isSome then some r else none
  | _ => none

end Stretch

/-- The decisions to restart a process since it was last reported to have started. -/
def retries (process : String) : List Stretch → Nat
  | [] => 0
  | l :: log =>
    if l.recovers process then 0
    else l.decided.countP (·.process = process) + retries process log

def relaunches (process : String) (log : List Stretch) : Nat :=
  (log.filterMap (·.relaunched?)).countP (·.process = process)

variable {log : List Stretch} {l : Stretch} {most : UInt32} {k : Ledger} {process : String}
  {s : Server} {r : PendingRestart}

theorem relaunches_cons (process : String) (l : Stretch) (log : List Stretch) :
    relaunches process (l :: log) =
      l.relaunched?.toList.countP (·.process = process) + relaunches process log := by
  unfold relaunches
  rw [List.filterMap_cons_eq_append, List.countP_append]

/-! ## What a leg adds to the records -/

namespace Stretch

theorem reckoning_of_recovers (h : l.recovers process = true) :
    l.cause.reckoning l.before = .recovers process := by
  unfold recovers at h
  split at h
  next p hcause =>
    rw [Bool.and_eq_true, decide_eq_true_eq] at h
    obtain ⟨rfl, hfollowed⟩ := h
    rw [hcause]
    exact if_pos hfollowed
  · cases h

theorem recovers_of_reckoning (h : l.cause.reckoning l.before = .recovers process) :
    l.recovers process = true := by
  rcases l.cause.reckoning_cases l.before with hk | ⟨r, -, hk⟩ | ⟨p, hcause, hfollowed, hk⟩ |
    ⟨p, s, -, -, -, hk⟩
  · cases h.symm.trans hk
  · cases h.symm.trans hk
  · obtain rfl : process = p := by simpa using h.symm.trans hk
    simp [recovers, hcause, hfollowed]
  · cases h.symm.trans hk

theorem cause_of_relaunched? (h : l.relaunched? = some r) : l.cause = .begun (.restart r) := by
  unfold relaunched? at h
  split at h
  next r' hcause =>
    split at h
    · rw [hcause, Option.some.inj h]
    · cases h
  · cases h

theorem cause_of_fires (h : l.cause.reckoning l.before = .fires r) :
    l.cause = .begun (.restart r) := by
  rcases l.cause.reckoning_cases l.before with hk | ⟨r', hcause, hk⟩ | ⟨p, -, -, hk⟩ |
    ⟨p, s, -, -, -, hk⟩
  · cases h.symm.trans hk
  · obtain rfl : r = r' := by simpa using h.symm.trans hk
    exact hcause
  · cases h.symm.trans hk
  · cases h.symm.trans hk

/-- Restarts are decided on when a server has failed and there is one left. -/
theorem decided_eq (hl : Booked l.cause l.before l.sent l.after)
    (htickets : ∀ r ∈ l.before.restarts, r.ticket < l.before.nextTicket) :
    l.decided = match l.cause.reckoning l.before with
      | .fails s => (l.before.ledger.decision? s).toList
      | _ => [] := by
  have hnone (restarts : List PendingRestart) (hsub : restarts.Sublist l.before.restarts) :
      restarts.filter (l.before.nextTicket ≤ ·.ticket) = [] := by
    refine List.filter_eq_nil_iff.2 fun r hr => ?_
    simpa using htickets r (hsub.subset hr)
  have hafter : l.after.restarts = (l.before.ledger.after (l.cause.reckoning l.before)).restarts :=
    congrArg Ledger.restarts hl
  rw [decided, hafter]
  cases l.cause.reckoning l.before with
  | fails s =>
    simp only [Ledger.after]
    cases hdecision : l.before.ledger.decision? s with
    | none => exact hnone _ (List.Sublist.refl _)
    | some r =>
      have hticket : r.ticket = l.before.nextTicket := (Ledger.decision?_eq_some hdecision).1
      simp only [List.filter_append]
      rw [show l.before.ledger.restarts.filter _ = [] from hnone _ (List.Sublist.refl _)]
      simp [hticket]
  | recovers p => exact hnone _ (List.Sublist.refl _)
  | fires r => exact hnone _ List.filter_sublist
  | nothing => exact hnone _ (List.Sublist.refl _)

end Stretch

/-! ## How the ledger accounts for the legs -/

/-- Every pending restart was decided on, and those that were carried out are gone for good. -/
structure Ticketed (log : List Stretch) (restarts : List PendingRestart) (nextTicket : Nat) :
    Prop where
  below : ∀ r ∈ restarts, r.ticket < nextTicket
  decided : ∀ r ∈ restarts, ∃ l ∈ log, r ∈ l.decided
  gone : ∀ r ∈ log.filterMap (·.relaunched?),
    r.ticket < nextTicket ∧ ∀ r' ∈ restarts, r'.ticket ≠ r.ticket
  once : (log.filterMap (·.relaunched?)).Nodup

namespace Ticketed

variable {restarts : List PendingRestart} {nextTicket : Nat}

theorem idle (h : Ticketed log restarts nextTicket) (hrelaunched : l.relaunched? = none) :
    Ticketed (l :: log) restarts nextTicket := by
  have hsame : (l :: log).filterMap (·.relaunched?) = log.filterMap (·.relaunched?) :=
    List.filterMap_cons_none hrelaunched
  refine ⟨h.below, fun r hr => ?_, hsame ▸ h.gone, hsame ▸ h.once⟩
  obtain ⟨d, hd, hmem⟩ := h.decided r hr
  exact ⟨d, List.mem_cons_of_mem _ hd, hmem⟩

theorem fail (h : Ticketed log restarts nextTicket) (hticket : r.ticket = nextTicket)
    (hdecided : r ∈ l.decided) (hrelaunched : l.relaunched? = none) :
    Ticketed (l :: log) (restarts ++ [r]) (nextTicket + 1) := by
  have h := h.idle hrelaunched
  have hmem {q : PendingRestart} (hq : q ∈ restarts ++ [r]) : q ∈ restarts ∨ q = r :=
    (List.mem_append.1 hq).imp_right List.mem_singleton.1
  refine ⟨fun q hq => ?_, fun q hq => ?_, fun q hq => ?_, h.once⟩
  · rcases hmem hq with hq | rfl
    · exact Nat.lt_succ_of_lt (h.below q hq)
    · exact hticket ▸ Nat.lt_succ_self _
  · rcases hmem hq with hq | rfl
    · exact h.decided q hq
    · exact ⟨l, List.mem_cons_self, hdecided⟩
  · obtain ⟨hbelow, hgone⟩ := h.gone q hq
    refine ⟨Nat.lt_succ_of_lt hbelow, fun q' hq' => ?_⟩
    rcases hmem hq' with hq' | rfl
    · exact hgone q' hq'
    · exact hticket ▸ Nat.ne_of_gt hbelow

theorem fire (h : Ticketed log restarts nextTicket) (hr : r ∈ restarts)
    (hrelaunched : l.relaunched? = none ∨ l.relaunched? = some r) :
    Ticketed (l :: log) (restarts.filter (·.ticket ≠ r.ticket)) nextTicket := by
  have hmem {q : PendingRestart} (hq : q ∈ restarts.filter (·.ticket ≠ r.ticket)) :
      q ∈ restarts ∧ q.ticket ≠ r.ticket := by simpa using List.mem_filter.1 hq
  have hlaunches {q : PendingRestart} (hq : q ∈ (l :: log).filterMap (·.relaunched?)) :
      q ∈ log.filterMap (·.relaunched?) ∨ q = r := by
    rw [List.filterMap_cons_eq_append, List.mem_append] at hq
    refine hq.symm.imp_right fun hq => ?_
    rcases hrelaunched with hnone | hsome
    · rw [hnone] at hq
      cases hq
    · rw [hsome] at hq
      exact List.mem_singleton.1 hq
  refine ⟨fun q hq => h.below q (hmem hq).1, fun q hq => ?_, fun q hq => ?_, ?_⟩
  · obtain ⟨d, hd, hq⟩ := h.decided q (hmem hq).1
    exact ⟨d, List.mem_cons_of_mem _ hd, hq⟩
  · rcases hlaunches hq with hq | rfl
    · obtain ⟨hbelow, hgone⟩ := h.gone q hq
      exact ⟨hbelow, fun q' hq' => hgone q' (hmem hq').1⟩
    · exact ⟨h.below q hr, fun q' hq' => (hmem hq').2⟩
  · rcases hrelaunched with hnone | hsome
    · rw [List.filterMap_cons_none hnone]
      exact h.once
    -- what is carried out was on the list still, and nothing that was carried out before is
    · rw [List.filterMap_cons_some hsome]
      exact List.nodup_cons.2 ⟨fun hgone => (h.gone r hgone).2 r hr rfl, h.once⟩

end Ticketed

structure Counted (most : UInt32) (log : List Stretch) (b : RestartBudget) : Prop where
  policy : b.policy.maxRestarts = most
  count : ∀ p, (b.count p).toNat = retries p log
  bounded : ∀ p, retries p log ≤ most.toNat

namespace Counted

variable {b : RestartBudget}

theorem idle (h : Counted most log b) (hretries : ∀ p, retries p (l :: log) = retries p log) :
    Counted most (l :: log) b :=
  ⟨h.policy, fun p => (h.count p).trans (hretries p).symm, fun p => hretries p ▸ h.bounded p⟩

theorem fail (h : Counted most log b) (hleft : b.count process < b.policy.maxRestarts)
    (hretries : ∀ p, retries p (l :: log) = retries p log + if process = p then 1 else 0) :
    Counted most (l :: log) (b.spend process) := by
  have hlt : (b.count process).toNat < most.toNat := h.policy ▸ UInt32.lt_iff_toNat_lt.1 hleft
  refine ⟨(congrArg _ (b.policy_spend process)).trans h.policy, fun p => ?_, fun p => ?_⟩
  · rw [RestartBudget.count_spend, hretries, ← h.count p]
    by_cases hp : process = p
    · subst hp
      have hmost := most.toNat_lt
      rw [if_pos ⟨rfl, hleft⟩, if_pos rfl, UInt32.toNat_add]
      exact Nat.mod_eq_of_lt (by simp only [UInt32.toNat_one]; omega)
    · rw [if_neg fun h => hp h.1, if_neg hp]
      rfl
  · rw [hretries]
    split
    next hp =>
      rw [← h.count, ← hp]
      exact hlt
    · exact h.bounded p

theorem recover (h : Counted most log b)
    (hretries : ∀ p, retries p (l :: log) = if process = p then 0 else retries p log) :
    Counted most (l :: log) (b.reset process) := by
  refine ⟨h.policy, fun p => ?_, fun p => ?_⟩
  · rw [RestartBudget.count_reset, hretries]
    split
    · rfl
    · exact h.count p
  · rw [hretries]
    split
    · exact Nat.zero_le _
    · exact h.bounded p

end Counted

/-- The relaunches of a process and those that may still come are paid for by its budget. -/
structure Reckoned (most : UInt32) (log : List Stretch) (k : Ledger) : Prop where
  ticketed : Ticketed log k.restarts k.nextTicket
  counted : Counted most log k.budget
  balance : ∀ p, relaunches p log + k.restarts.countP (·.process = p) ≤
    most.toNat * log.countP (·.recovers p) + retries p log

namespace Reckoned

theorem nil (policy : RestartPolicy) :
    Reckoned policy.maxRestarts [] ⟨.ofPolicy policy, [], 0⟩ where
  ticketed := ⟨by simp, by simp, by simp, .nil⟩
  counted := ⟨rfl, fun _ => rfl, fun _ => Nat.zero_le _⟩
  balance _ := Nat.zero_le _

theorem relaunches_eq (hrelaunched : l.relaunched? = none) (p : String) :
    relaunches p (l :: log) = relaunches p log := by
  rw [relaunches_cons, hrelaunched]
  exact Nat.zero_add _

theorem idle (h : Reckoned most log k) (hdecided : l.decided = [])
    (hrecovers : ∀ p, l.recovers p = false) (hrelaunched : l.relaunched? = none) :
    Reckoned most (l :: log) k := by
  have hretries (p : String) : retries p (l :: log) = retries p log := by
    simp [retries, hrecovers, hdecided]
  refine ⟨h.ticketed.idle hrelaunched, h.counted.idle hretries, fun p => ?_⟩
  rw [relaunches_eq hrelaunched, hretries, List.countP_cons, hrecovers]
  exact h.balance p

theorem fail (h : Reckoned most log k) (hr : k.decision? s = some r) (hdecided : l.decided = [r])
    (hrecovers : ∀ p, l.recovers p = false) (hrelaunched : l.relaunched? = none) :
    Reckoned most (l :: log) (k.after (.fails s)) := by
  obtain ⟨hticket, -, hprocess, hleft⟩ := Ledger.decision?_eq_some hr
  have hafter : k.after (.fails s) =
      ⟨k.budget.spend s.process, k.restarts ++ [r], k.nextTicket + 1⟩ := by
    simp only [Ledger.after, hr]
  have hretries (p : String) : retries p (l :: log) =
      retries p log + if s.process = p then 1 else 0 := by
    simp [retries, hrecovers, hdecided, List.countP_cons, hprocess, Nat.add_comm]
  rw [hafter]
  refine ⟨h.ticketed.fail hticket (hdecided ▸ List.mem_singleton.2 rfl) hrelaunched,
    h.counted.fail hleft hretries, fun p => ?_⟩
  have hbalance := h.balance p
  rw [relaunches_eq hrelaunched, hretries, List.countP_cons, hrecovers, List.countP_append,
    List.countP_singleton]
  simp only [hprocess, decide_eq_true_eq, Bool.false_eq_true, if_false, Nat.add_zero]
  omega

theorem recover (h : Reckoned most log k) (hdecided : l.decided = [])
    (hrecovers : ∀ p, l.recovers p = decide (process = p)) (hrelaunched : l.relaunched? = none) :
    Reckoned most (l :: log) (k.after (.recovers process)) := by
  have hretries (p : String) : retries p (l :: log) = if process = p then 0 else retries p log := by
    simp [retries, hrecovers, hdecided]
  refine ⟨h.ticketed.idle hrelaunched, h.counted.recover hretries, fun p => ?_⟩
  have hbalance := h.balance p
  have hbounded := h.counted.bounded p
  rw [relaunches_eq hrelaunched, hretries, List.countP_cons, hrecovers, Nat.mul_add]
  -- the decisions that are forgotten were no more than the budget that is given out anew
  simp only [decide_eq_true_eq, Ledger.after]
  split <;> omega

theorem fire (h : Reckoned most log k) (hr : r ∈ k.restarts) (hdecided : l.decided = [])
    (hrecovers : ∀ p, l.recovers p = false)
    (hrelaunched : l.relaunched? = none ∨ l.relaunched? = some r) :
    Reckoned most (l :: log) (k.after (.fires r)) := by
  have hretries (p : String) : retries p (l :: log) = retries p log := by
    simp [retries, hrecovers, hdecided]
  refine ⟨h.ticketed.fire hr hrelaunched, h.counted.idle hretries, fun p => ?_⟩
  have hbalance := h.balance p
  -- at least the restart itself goes off the list, which pays for its relaunch
  have hfired : (k.restarts.filter (·.ticket ≠ r.ticket)).countP (·.process = p) +
      (if r.process = p then 1 else 0) ≤ k.restarts.countP (·.process = p) := by
    have hperm := List.perm_cons_erase hr
    have hkept : (k.restarts.filter (·.ticket ≠ r.ticket)).countP (·.process = p) ≤
        (k.restarts.erase r).countP (·.process = p) := by
      rw [(hperm.filter _).countP_eq, List.filter_cons_of_neg (by simp)]
      exact List.filter_sublist.countP_le
    rw [hperm.countP_eq, List.countP_cons]
    simp only [decide_eq_true_eq]
    omega
  have hlaunches : relaunches p (l :: log) ≤ relaunches p log + if r.process = p then 1 else 0 := by
    rw [relaunches_cons]
    rcases hrelaunched with hnone | hsome
    · simp [hnone]
    · simp [hsome, List.countP_singleton, Nat.add_comm]
  rw [hretries, List.countP_cons, hrecovers]
  simp only [Ledger.after, Bool.false_eq_true, if_false, Nat.add_zero]
  omega

end Reckoned

theorem Reckoned.step (h : Reckoned most log l.before.ledger)
    (hl : Booked l.cause l.before l.sent l.after)
    (htimely : ∀ o, l.cause = .begun o → o.Timely l.before) :
    Reckoned most (l :: log) l.after.ledger := by
  have hledger : l.after.ledger = l.before.ledger.after (l.cause.reckoning l.before) := hl
  have hdecided := l.decided_eq hl h.ticketed.below
  have hrecovers (hk : ∀ p, l.cause.reckoning l.before ≠ .recovers p) (p : String) :
      l.recovers p = false :=
    Bool.eq_false_iff.2 fun hp => hk p (Stretch.reckoning_of_recovers hp)
  have hrelaunched (hk : ∀ r, l.cause.reckoning l.before ≠ .fires r) : l.relaunched? = none := by
    cases hl : l.relaunched? with
    | none => rfl
    | some r => exact absurd (by rw [Stretch.cause_of_relaunched? hl]; rfl) (hk r)
  rw [hledger]
  cases hk : l.cause.reckoning l.before with
  | nothing =>
    rw [hk] at hdecided
    exact h.idle hdecided (hrecovers (by simp [hk])) (hrelaunched (by simp [hk]))
  | fails s =>
    rw [hk] at hdecided
    have hrecovers := hrecovers (by simp [hk])
    have hrelaunched := hrelaunched (by simp [hk])
    cases hr : l.before.ledger.decision? s with
    | none =>
      simp only [hr] at hdecided
      simp only [Ledger.after, hr]
      exact h.idle hdecided hrecovers hrelaunched
    | some r =>
      simp only [hr] at hdecided
      exact h.fail hr hdecided hrecovers hrelaunched
  | recovers process =>
    rw [hk] at hdecided
    refine h.recover hdecided (fun p => ?_) (hrelaunched (by simp [hk]))
    by_cases hp : process = p
    · subst hp
      rw [Stretch.recovers_of_reckoning hk, decide_eq_true rfl]
    · rw [decide_eq_false hp, Bool.eq_false_iff]
      intro h
      have := hk.symm.trans (Stretch.reckoning_of_recovers h)
      simp [hp] at this
  | fires r =>
    rw [hk] at hdecided
    have hcause := Stretch.cause_of_fires hk
    refine h.fire (htimely _ hcause r rfl) hdecided (hrecovers (by simp [hk])) ?_
    cases hl : l.relaunched? with
    | none => exact Or.inl rfl
    | some r' =>
      have := hcause.symm.trans (Stretch.cause_of_relaunched? hl)
      simp at this
      exact Or.inr (this ▸ rfl)

theorem Chronicle.reckoned {settings : Settings} {model : Option HostModel} {inDomain : Bool}
    {s : Interleaving} (h : Chronicle (.make settings model inDomain) log s) :
    Reckoned settings.lifecycle.maxRestarts log s.host.ledger := by
  induction log generalizing s with
  | nil =>
    rw [h.host_eq]
    exact .nil (.ofLifecycle settings.lifecycle)
  | cons l log ih =>
    obtain ⟨s', h', hbefore, hafter, hbegun⟩ := h.exists_of_cons
    have hl := h.legs legwise_booked l List.mem_cons_self
    have hbefore' := ih h'
    rw [hbefore] at hbefore'
    rw [hafter]
    exact hbefore'.step hl fun o ho => (hbegun o ho).1

/-! ## Carrying out a pending restart -/

section Firing

variable {host : Steward}

/-- A restart is wanted while its record is tracked and has failed. -/
theorem Steward.wants_iff : host.wants r ↔ host.stopping = false ∧
    ∃ s, host.roster.get? r.process = some s ∧ s.number = r.number ∧ s.phase = .failed := by
  unfold Steward.wants Roster.tracks
  cases host.roster.get? r.process with
  | none => simp
  | some s => simp [and_assoc]

/-- A wanted restart begins with the removal of the process. -/
theorem fire_of_wants (hwants : host.wants r) (hget : host.roster.get? r.process = some s) :
    ∃ after resume, Steward.fire r host = .ask after (.command (.remove s.process)) resume := by
  have hwants' : Steward.wants { host with
      restarts := host.restarts.filter (·.ticket ≠ r.ticket) } r = true := hwants
  unfold Steward.fire
  rw [bind_of_done (rfl : modify _ host = _), bind_of_done (rfl : current _ = _), if_pos hwants']
  simp only [hget]
  exact ⟨_, _, rfl⟩

theorem quiet_spared (number : Nat) : Quiet (sparing number) (Spared number) := by
  have hask (q : Request) : Keeps (sparing number) (Spared number) (ask q) := by
    refine fun host start h => ⟨h, ?_⟩
    rintro host' start' a rfl
    exact .refl number _
  exact ⟨fun _ h => h.of_eq rfl rfl rfl, fun h => h.of_eq rfl rfl rfl, fun name => hask _, hask _⟩

/-- Whatever goes on meanwhile, a pending restart spares all records but its own. -/
theorem meets_fire_sparing {number : Nat} (hr : r.number ≠ number) :
    (Steward.fire r).Meets (sparing number) (fun _ => Spared number) host host := by
  have hI := quiet_spared number
  refine hI.fire hI (fun h => h) (fun {host start server} h hget hwants => ?_)
    ⟨fun hget _ => hget, fun _ _ => rfl, fun _ hr' _ => (List.mem_filter.1 hr').1⟩
  obtain ⟨-, s, hs, hnumber, -⟩ := Steward.wants_iff.1 hwants
  obtain rfl := Option.some.inj (hget.symm.trans hs)
  exact (Attempt.meets_run _ _).2 (meets_relaunch_sparing (hnumber ▸ hr) h)

end Firing

/-! ## Giving up -/

structure GivenUp (s : Server) (after before : Steward) : Prop where
  ledger : after.ledger = before.ledger
  failed : ∃ t, after.roster.get? s.process = some t ∧ t.number = s.number ∧ t.phase = .maxFailed

/-- A server that fails when nothing is left of its budget is given up. -/
theorem meets_serverDown_givenUp {host : Steward}
    (hget : host.roster.get? s.process = some s) (hworking : host.stopping = false)
    (hlost : host.lostItsHost s = false) (hauto : host.settings.lifecycle.autoRestart)
    (hspent : host.budget.policy.maxRestarts ≤ host.budget.count s.process) :
    (Steward.serverDown s.process).Meets (.only fun _ => False)
      (fun _ after _ => GivenUp s after host) host () := by
  have hdecision : host.budget.decision s.process = .giveUp := if_pos hspent
  have hfailed := Roster.get?_update_self hget (·.withPhase .failed)
  have hgiven := Roster.get?_update_self (Roster.get?_update_self hfailed
    (·.withPhase .maxFailed)) (·.diagnose "restart attempts exhausted")
  unfold Steward.serverDown Steward.subject? Steward.scheduleRestart
  rw [meets_bind, meets_bind, meets_current, hworking, hget]
  simp only [Bool.false_eq_true, if_false, meets_pure, meets_bind, meets_current, hlost,
    meets_setPhase, meets_tell, hauto, if_true, hdecision, meets_modify, meets_updateServer]
  refine ⟨?_, _, hgiven, rfl, rfl⟩
  simp only [Steward.ledger, RestartBudget.spend_of_giveUp hdecision]

/-- So is one whose process exits unexpectedly. -/
theorem giveUp_of_spent {host : Steward} (hget : host.roster.get? s.process = some s)
    (hworking : host.stopping = false) (hlost : host.lostItsHost s = false)
    (hauto : host.settings.lifecycle.autoRestart)
    (hspent : host.budget.policy.maxRestarts ≤ host.budget.count s.process) :
    (∃ after, Steward.serverDown s.process host = .done after () ∧ GivenUp s after host) ∧
    ∀ i uptime, s.owns i → s.phase ≠ .stopping → s.phase ≠ .stopped →
      ∃ after, Steward.processStopped s.process i uptime host = .done after () ∧
        GivenUp s after host := by
  have hdone (journal : List Entry) : ∃ after,
      Steward.serverDown s.process { host with journal } = .done after () ∧
        GivenUp s after host := by
    have hmeets : (Steward.serverDown s.process).Meets _ _ { host with journal } () :=
      meets_serverDown_givenUp hget hworking hlost hauto hspent
    rcases Program.cases_of_meets_only hmeets with ⟨after, _, heq, hgiven⟩ | ⟨-, -, -, -, hfalse⟩
    · exact ⟨after, heq, hgiven.ledger, hgiven.failed⟩
    · exact hfalse.elim
  refine ⟨hdone host.journal, fun i uptime howns hstopping hstopped => ?_⟩
  obtain ⟨after, heq, hgiven⟩ := hdone (host.journal ++ [.info ("Process " ++ s.process ++
    " exited after " ++ Numeral.text uptime.milliseconds ++ " ms")])
  have hconcerns : (s.owns i && s.phase ≠ .stopping && s.phase ≠ .stopped) = true := by
    simp [howns, hstopping, hstopped]
  refine ⟨after, ?_, hgiven⟩
  unfold Steward.processStopped
  rw [bind_of_done (rfl : current host = _), hget]
  simp only [hconcerns, if_true]
  exact heq

namespace Chronicle

variable {settings : Settings} {model : Option HostModel} {inDomain : Bool} {s : Interleaving}

theorem sound (h : Chronicle (.make settings model inDomain) log s) :
    s.host.roster.Sound s.host.nextNumber := (h.apart (Roster.sound_empty _)).sound

/-- A restart is decided on for the record that its process has then. -/
theorem exists_of_decided (h : Chronicle (.make settings model inDomain) log s) (hl : l ∈ log)
    (hr : r ∈ l.decided) :
    ∃ t, l.before.roster.get? r.process = some t ∧ t.number = r.number := by
  obtain ⟨_, s', h', hbefore⟩ := h.exists_of_mem hl
  have htickets := h'.reckoned.ticketed.below
  have hsound := h'.sound
  rw [hbefore] at htickets hsound
  rw [l.decided_eq (h.legs legwise_booked l hl) htickets] at hr
  rcases l.cause.reckoning_cases l.before with hk | ⟨_, -, hk⟩ | ⟨_, -, -, hk⟩ |
    ⟨p, t, hfollowed, -, -, hk⟩ <;> rw [hk] at hr
  · cases hr
  · cases hr
  · cases hr
  · obtain ⟨-, hnumber, hprocess, -⟩ := Ledger.decision?_eq_some (Option.mem_toList.1 hr)
    have hget : l.before.roster.get? p = some t := by
      unfold Steward.followed? at hfollowed
      split at hfollowed
      · cases hfollowed
      · exact hfollowed
    have hp := hsound.keyed hget
    exact ⟨t, by rw [hprocess, hp, hget], hnumber.symm⟩

/-- What comes of a pending restart when its time has come: its server is launched again, if its
record is still tracked and has failed, or nothing is done. -/
theorem fires (h : Chronicle (.make settings model inDomain) (l :: log) s)
    (hcause : l.cause = .begun (.restart r)) :
    (∃ d ∈ log, r ∈ d.decided ∧
      ∃ t, d.before.roster.get? r.process = some t ∧ t.number = r.number) ∧
    (l.sent = some (.command (.remove r.process)) ∧ l.before.stopping = false ∧
        (∃ t, l.before.roster.get? r.process = some t ∧ t.number = r.number ∧ t.phase = .failed) ∨
      l.sent = none ∧ l.after =
        { l.before with restarts := l.before.restarts.filter (·.ticket ≠ r.ticket) }) := by
  obtain ⟨s', h', hbefore, -, hbegun⟩ := h.exists_of_cons
  obtain ⟨htimely, hl⟩ := hbegun _ hcause
  have hticketed := h'.reckoned.ticketed
  have hsound := h'.sound
  rw [hbefore] at hticketed hsound
  obtain ⟨d, hd, hr⟩ := hticketed.decided r (htimely r rfl)
  refine ⟨⟨d, hd, hr, h'.exists_of_decided hd hr⟩, ?_⟩
  have hsent : l.sent = (Steward.fire r l.before).request? := congrArg Stretch.sent hl
  have hafter : l.after = (Steward.fire r l.before).host := congrArg Stretch.after hl
  cases hwants : l.before.wants r with
  | true =>
    obtain ⟨hworking, t, hget, hnumber, hfailed⟩ := Steward.wants_iff.1 hwants
    obtain ⟨after, resume, hfire⟩ := fire_of_wants hwants hget
    rw [hfire, hsound.keyed hget] at hsent
    exact Or.inl ⟨hsent, hworking, t, hget, hnumber, hfailed⟩
  | false =>
    rw [fire_of_not_wants hwants] at hsent hafter
    exact Or.inr ⟨hsent, hafter⟩

/-- Automatic restarts stay within the budget. What is counted against a process are the decisions
to restart it since it was last reported to have started, at most as many as are allowed, and a
failure when none is left has its server given up. A decision leads to one relaunch at most, and
only of the record that it was taken for while that is tracked and has failed; no other record is
touched. -/
theorem restarts_within_budget (h : Chronicle (.make settings model inDomain) log s) :
    (∀ p, (s.host.budget.count p).toNat = retries p log ∧
      s.host.budget.count p ≤ settings.lifecycle.maxRestarts) ∧
    (∀ p t, s.host.roster.get? p = some t → s.host.stopping = false →
      s.host.lostItsHost t = false → s.host.settings.lifecycle.autoRestart →
      s.host.budget.count p = settings.lifecycle.maxRestarts →
      (∃ after, Steward.serverDown p s.host = .done after () ∧ GivenUp t after s.host) ∧
      ∀ i uptime, t.owns i → t.phase ≠ .stopping → t.phase ≠ .stopped →
        ∃ after, Steward.processStopped p i uptime s.host = .done after () ∧
          GivenUp t after s.host) ∧
    (log.filterMap (·.relaunched?)).Nodup ∧
    (∀ l earlier, l :: earlier <:+ log → ∀ r, l.cause = .begun (.restart r) →
      (∃ d ∈ earlier, r ∈ d.decided ∧
        ∃ t, d.before.roster.get? r.process = some t ∧ t.number = r.number) ∧
      (l.sent = some (.command (.remove r.process)) ∧ l.before.stopping = false ∧
          (∃ t, l.before.roster.get? r.process = some t ∧ t.number = r.number ∧
            t.phase = .failed) ∨
        l.sent = none ∧ l.after =
          { l.before with restarts := l.before.restarts.filter (·.ticket ≠ r.ticket) }) ∧
      ∀ number, r.number ≠ number →
        (Steward.fire r).Meets (sparing number) (fun _ => Spared number) l.before l.before) ∧
    ∀ p, relaunches p log ≤
      settings.lifecycle.maxRestarts.toNat * (1 + log.countP (·.recovers p)) := by
  have hreckoned := h.reckoned
  have hcounted := hreckoned.counted
  refine ⟨fun p => ⟨hcounted.count p, ?_⟩, fun p t hget hworking hlost hauto hspent => ?_,
    hreckoned.ticketed.once, fun l earlier hl r hcause => ?_, fun p => ?_⟩
  · apply UInt32.le_iff_toNat_le.2
    exact Nat.le_trans (Nat.le_of_eq (hcounted.count p)) (hcounted.bounded p)
  · obtain rfl := h.sound.keyed hget
    exact giveUp_of_spent hget hworking hlost hauto
      (UInt32.le_of_eq (hcounted.policy.trans hspent.symm))
  · obtain ⟨s', h'⟩ := h.exists_of_suffix hl
    obtain ⟨hdecided, hfired⟩ := h'.fires hcause
    exact ⟨hdecided, hfired, fun number hr => meets_fire_sparing hr⟩
  · have hbalance := hreckoned.balance p
    have hbounded := hcounted.bounded p
    rw [Nat.mul_add]
    omega

/-- A server goes down once too often: after the first time it is launched again, after the second
it is given up. -/
theorem restarts_within_budget_once :
    ∃ log s, Chronicle (.make { lifecycle := { autoRestart := true, maxRestarts := 1 } }
        (some (.single "a" ["true"])) false) log s ∧
      s.host.budget.count "Server:a" = 1 ∧ relaunches "Server:a" log = 1 ∧
      ∃ t after, s.host.roster.get? "Server:a" = some t ∧
        Steward.serverDown "Server:a" s.host = .done after () ∧ GivenUp t after s.host := by
  have hbegun : Chronicle (.make { lifecycle := { autoRestart := true, maxRestarts := 1 } }
      (some (.single "a" ["true"])) false) _ _ := Chronicle.nil.begins (.startServer "a") nofun
  have hadded := (hbegun.answers 0 (r := .command (.add "Server:a" ⟨["true"], none, .empty⟩))
    (.ok 1) rfl).resumes 0 rfl
  have hstarted := (hadded.answers 0 (r := .command (.start "Server:a")) (.ok ()) rfl).resumes 0 rfl
  have hdown := hstarted.begins (.notice (.serverDown "Server:a")) nofun
  have hfired := hdown.begins (.restart ⟨0, 0, "Server:a", _⟩)
    fun r hr => Occasion.restart.inj hr ▸ List.mem_singleton.2 rfl
  have hremoved := (hfired.answers 1 (r := .command (.remove "Server:a")) (.ok ())
    rfl).resumes 1 rfl
  have hagain := (hremoved.answers 1 (r := .command (.add "Server:a" ⟨["true"], none, .empty⟩))
    (.ok 2) rfl).resumes 1 rfl
  have hrelaunched := (hagain.answers 1 (r := .command (.start "Server:a")) (.ok ())
    rfl).resumes 1 rfl
  obtain ⟨-, hspent, -⟩ := restarts_within_budget hrelaunched
  obtain ⟨⟨after, hdone, hgiven⟩, -⟩ := hspent "Server:a" _ rfl rfl rfl rfl rfl
  exact ⟨_, _, hrelaunched, rfl, rfl, _, after, rfl, hdone, hgiven⟩

end Chronicle

end HostSteward
