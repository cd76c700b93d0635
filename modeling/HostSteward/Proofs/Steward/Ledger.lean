import HostSteward.Proofs.Steward.Exits
import HostSteward.Proofs.Steward.Stopping

/-!
# The ledger of restarts

What has been spent on restarts and what is pending changes on four occasions: a server fails, and a
restart is spent on it if one is left; it has started and gets its budget back; a pending restart is
carried out or given up. No leg of anything else touches the ledger.
-/

namespace HostSteward

open Operation

structure Ledger where
  budget : RestartBudget
  restarts : List PendingRestart
  nextTicket : Nat

inductive Reckoning where
  | fails (s : Server)
  | recovers (process : String)
  | fires (r : PendingRestart)
  | nothing

namespace Ledger

/-- The restart that is decided on when a server fails, if one is left. -/
def decision? (k : Ledger) (s : Server) : Option PendingRestart :=
  match k.budget.decision s.process with
  | .giveUp => none
  | .retryAfter delay => some ⟨k.nextTicket, s.number, s.process, delay⟩

def after (k : Ledger) : Reckoning → Ledger
  | .fails s =>
    match k.decision? s with
    | none => k
    | some r => ⟨k.budget.spend s.process, k.restarts ++ [r], k.nextTicket + 1⟩
  | .recovers process => { k with budget := k.budget.reset process }
  | .fires r => { k with restarts := k.restarts.filter (·.ticket ≠ r.ticket) }
  | .nothing => k

end Ledger

namespace Steward

def ledger (host : Steward) : Ledger := ⟨host.budget, host.restarts, host.nextTicket⟩

/-- A server that goes down has failed, unless it is registered from scratch; if servers are
restarted, that counts. -/
def downfall (host : Steward) (process : String) : Reckoning :=
  match host.followed? process with
  | none => .nothing
  | some s =>
    if !host.lostItsHost s && host.settings.lifecycle.autoRestart then .fails s else .nothing

def misses (host : Steward) (process : String) (incarnation : Incarnation) : Bool :=
  match host.roster.get? process with
  | none => false
  | some s => s.owns incarnation && s.phase ≠ .stopping && s.phase ≠ .stopped

end Steward

def Cause.reckoning : Cause → Steward → Reckoning
  | .begun (.restart r), _ => .fires r
  | .begun (.notice (.serverStarted p)), host =>
    if (host.followed? p).isSome then .recovers p else .nothing
  | .begun (.notice (.serverDown p)), host => host.downfall p
  | .begun (.notice (.processStopped p i _)), host =>
    if host.misses p i then host.downfall p else .nothing
  | _, _ => .nothing

/-- What a reckoning comes from. -/
theorem Cause.reckoning_cases (cause : Cause) (host : Steward) :
    cause.reckoning host = .nothing ∨
    (∃ r, cause = .begun (.restart r) ∧ cause.reckoning host = .fires r) ∨
    (∃ p, cause = .begun (.notice (.serverStarted p)) ∧ (host.followed? p).isSome ∧
      cause.reckoning host = .recovers p) ∨
    ∃ p s, host.followed? p = some s ∧ host.lostItsHost s = false ∧
      host.settings.lifecycle.autoRestart ∧ cause.reckoning host = .fails s := by
  have hdown (p : String) : host.downfall p = .nothing ∨
      ∃ s, host.followed? p = some s ∧ host.lostItsHost s = false ∧
        host.settings.lifecycle.autoRestart ∧ host.downfall p = .fails s := by
    unfold Steward.downfall
    cases host.followed? p with
    | none => exact Or.inl rfl
    | some s =>
      simp only
      split
      next h =>
        simp only [Bool.and_eq_true, Bool.not_eq_true'] at h
        exact Or.inr ⟨s, rfl, h.1, h.2, rfl⟩
      · exact Or.inl rfl
  unfold Cause.reckoning
  split
  next r => exact Or.inr (Or.inl ⟨r, rfl, rfl⟩)
  next p =>
    split
    next h => exact Or.inr (Or.inr (Or.inl ⟨p, rfl, h, rfl⟩))
    · exact Or.inl rfl
  next p => exact (hdown p).imp_right fun ⟨s, hs⟩ => Or.inr (Or.inr ⟨p, s, hs⟩)
  next p i _ =>
    split
    · exact (hdown p).imp_right fun ⟨s, hs⟩ => Or.inr (Or.inr ⟨p, s, hs⟩)
    · exact Or.inl rfl
  · exact Or.inl rfl

namespace RestartBudget

theorem count_reset (b : RestartBudget) (process p : String) :
    (b.reset process).count p = if process = p then 0 else b.count p := by
  unfold reset count
  simp only [OrderedMap.get?_erase]
  split <;> rfl

theorem spend_of_giveUp {b : RestartBudget} {process : String} (h : b.decision process = .giveUp) :
    b.spend process = b := by
  unfold decision at h
  split at h
  next hle => rw [spend, if_pos hle]
  · cases h

theorem policy_spend (b : RestartBudget) (process : String) :
    (b.spend process).policy = b.policy := by
  unfold spend
  split <;> rfl

end RestartBudget

/-- A restart is decided on only if one is left. -/
theorem Ledger.decision?_eq_some {k : Ledger} {s : Server} {r : PendingRestart}
    (h : k.decision? s = some r) : r.ticket = k.nextTicket ∧ r.number = s.number ∧
      r.process = s.process ∧ k.budget.count s.process < k.budget.policy.maxRestarts := by
  unfold decision? RestartBudget.decision at h
  split at h
  · cases h
  next hdecision =>
    split at hdecision
    · cases hdecision
    next hleft =>
      obtain rfl := Option.some.inj h
      exact ⟨rfl, rfl, rfl, UInt32.not_le.1 hleft⟩

def Booked (cause : Cause) (before : Steward) (_ : Option Request) (after : Steward) : Prop :=
  after.ledger = before.ledger.after (cause.reckoning before)

abbrev Balanced (host : Steward) (l : Cause × Steward) : Prop := Booked l.1 l.2 none host

theorem aloof_booked : Aloof (legwise Booked) Balanced where
  journal _ h := h
  launched h := h
  roster _ _ h := h
  ask _ _ _ := by
    refine fun host l h => ⟨h, ?_⟩
    rintro host' l' a rfl
    exact rfl

section Booking

variable {cause : Cause} {before host : Steward} {p : String}

theorem balanced_of_eq {k : Reckoning} (hcause : cause.reckoning before = k)
    (hledger : host.ledger = before.ledger.after k) : Balanced host (cause, before) :=
  hledger.trans (congrArg before.ledger.after hcause.symm)

theorem meets_serverStarted_booked (hcause : cause.reckoning before =
      if (before.followed? p).isSome then .recovers p else .nothing) :
    (Steward.serverStarted p).Meets (legwise Booked) (fun _ => Balanced) before
      (cause, before) := by
  unfold Steward.serverStarted
  rw [meets_bind]
  refine meets_subject? fun journal => ?_
  cases hfollowed : before.followed? p with
  | none =>
    rw [hfollowed] at hcause
    exact balanced_of_eq hcause rfl
  | some server =>
    rw [hfollowed] at hcause
    simp only [meets_bind, meets_setPhase, meets_current]
    refine meets_checkPhase fun journal roster => meets_tellAny fun journal => ?_
    exact balanced_of_eq hcause rfl

theorem meets_scheduleRestart_booked {s : Server} (hcause : cause.reckoning before = .fails s)
    (hledger : host.ledger = before.ledger) :
    (Steward.scheduleRestart s).Meets (legwise Booked) (fun _ => Balanced) host
      (cause, before) := by
  have hafter : host.ledger.after (.fails s) = before.ledger.after (cause.reckoning before) := by
    rw [hledger, hcause]
  unfold Steward.scheduleRestart
  rw [meets_bind, meets_current]
  simp only
  rw [meets_bind, meets_tell, meets_bind, meets_modify]
  cases hdecision : host.budget.decision s.process with
  | giveUp =>
    refine Eq.trans ?_ hafter
    simp only [Ledger.after, Ledger.decision?, Steward.ledger, hdecision,
      RestartBudget.spend_of_giveUp hdecision]
  | retryAfter delay =>
    refine Eq.trans ?_ hafter
    simp only [Ledger.after, Ledger.decision?, Steward.ledger, hdecision]

theorem meets_serverDown_booked (hcause : cause.reckoning before = before.downfall p)
    (journal : List Entry) :
    (Steward.serverDown p).Meets (legwise Booked) (fun _ => Balanced) { before with journal }
      (cause, before) := by
  unfold Steward.serverDown
  rw [meets_bind]
  refine meets_subject? fun journal => ?_
  unfold Steward.downfall at hcause
  show Meets (legwise Booked) (match before.followed? p with | none => _ | some server => _) _ _ _
  cases hfollowed : before.followed? p with
  | none =>
    rw [hfollowed] at hcause
    exact balanced_of_eq hcause rfl
  | some server =>
    rw [hfollowed] at hcause
    simp only at hcause ⊢
    rw [meets_bind, meets_current]
    split
    next hlost =>
      have hlost : before.lostItsHost server = true := hlost
      rw [if_neg (by simp [hlost])] at hcause
      rw [meets_bind, meets_tell, meets_bind]
      refine (aloof_booked.relaunch server _ _ (balanced_of_eq hcause rfl)).mono ?_
      exact keeps_answer (keeps_pure ()) fun e => aloof_booked.calm.tell _
    next hlost =>
      have hlost : ¬ before.lostItsHost server = true := hlost
      rw [meets_bind, meets_setPhase, meets_bind, meets_tell]
      split
      next hauto =>
        have hauto : before.settings.lifecycle.autoRestart = true := hauto
        rw [if_pos (by simp [hlost, hauto])] at hcause
        exact meets_scheduleRestart_booked hcause rfl
      next hauto =>
        have hauto : ¬ before.settings.lifecycle.autoRestart = true := hauto
        rw [if_neg (by simp [hauto])] at hcause
        exact balanced_of_eq hcause rfl

theorem meets_processStopped_booked {incarnation : Incarnation} (uptime : Duration)
    (hcause : cause.reckoning before =
      if before.misses p incarnation then before.downfall p else .nothing) :
    (Steward.processStopped p incarnation uptime).Meets (legwise Booked) (fun _ => Balanced) before
      (cause, before) := by
  unfold Steward.processStopped
  rw [meets_bind, meets_current]
  unfold Steward.misses at hcause
  cases hget : before.roster.get? p with
  | none =>
    rw [hget] at hcause
    exact balanced_of_eq hcause rfl
  | some server =>
    rw [hget] at hcause
    simp only at hcause ⊢
    split at hcause
    next hmisses =>
      rw [if_pos hmisses, meets_bind, meets_tell]
      exact meets_serverDown_booked hcause _
    next hmisses =>
      rw [if_neg hmisses]
      exact balanced_of_eq hcause rfl

theorem meets_stop_booked (hcause : cause.reckoning before = .nothing) :
    Steward.stop.Meets (legwise Booked) (fun _ => Balanced) before (cause, before) := by
  have hclose {after : Steward} {l : Cause × Steward} (h : Balanced after l) :
      Steward.close.Meets (legwise Booked) (fun _ => Balanced) after l := by
    refine meets_close h ?_
    rintro host' l' a rfl journal
    exact rfl
  by_cases hworking : before.stopping
  · show (Steward.stop before).Meets _ _ _
    rw [stop_of_stopping hworking]
    exact balanced_of_eq hcause rfl
  refine meets_stop (Bool.eq_false_iff.2 hworking)
    (fun _ journal => ⟨balanced_of_eq hcause rfl, ?_⟩)
    fun _ journal => hclose (balanced_of_eq hcause rfl)
  rintro host' l' a rfl journal
  exact hclose rfl

end Booking

theorem Occasion.reckoning_eq_nothing {o : Occasion} (ho : o.plain ∨ o.launches ∨ o.stops)
    (host : Steward) : (Cause.begun o).reckoning host = .nothing := by
  cases o with
  | notice n => cases n <;> first | rfl | simp [plain, launches, relaunches, stops] at ho
  | restart r => simp [plain, launches, relaunches, stops] at ho
  | _ => rfl

theorem legwise_booked : Legwise Booked := by
  intro o host
  show o.operation.Meets (legwise Booked) (fun _ => Balanced) host (.begun o, host)
  have hI := aloof_booked
  have hnothing (h : (Cause.begun o).reckoning host = .nothing) : Balanced host (.begun o, host) :=
    balanced_of_eq h rfl
  rcases o.classes with h | h | h | h | ⟨p, rfl⟩
  · exact hI.served.plain h host _ (hnothing (o.reckoning_eq_nothing (Or.inl h) host))
  · exact hI.launching h host _ (hnothing (o.reckoning_eq_nothing (Or.inr (Or.inl h)) host))
  · rcases Occasion.cases_of_relaunches h with ⟨r, rfl⟩ | ⟨p, rfl⟩ | ⟨p, i, uptime, rfl⟩
    · refine hI.calm.fire hI.calm.toQuiet (fun h => h) (fun h _ _ => hI.relaunch _ _ _ h) ?_
      exact balanced_of_eq (k := .fires r) rfl rfl
    · exact meets_serverDown_booked rfl host.journal
    · exact meets_processStopped_booked uptime rfl
  · rw [Occasion.operation_of_stops h, meets_bind]
    exact meets_stop_booked (o.reckoning_eq_nothing (Or.inr (Or.inr h)) host)
  · exact meets_serverStarted_booked rfl

end HostSteward
