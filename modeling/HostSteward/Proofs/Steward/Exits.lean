import HostSteward.Proofs.Steward.Interleaving

/-!
# Exits of earlier incarnations

The notice of an exit names an incarnation, which tells whether it is about the process that is
tracked under the name by now. A record that has no incarnation yet takes every exit for its own. So
the exit of a process that was removed leaves alone every record that was made afterwards, except
one whose own registration has not been answered.
-/

namespace HostSteward

open Operation

namespace RestartBudget

theorem count_spend (b : RestartBudget) (process p : String) : (b.spend process).count p =
    if process = p ∧ b.count p < b.policy.maxRestarts then b.count p + 1 else b.count p := by
  unfold spend
  by_cases hle : b.policy.maxRestarts ≤ b.count process
  · rw [if_pos hle, if_neg]
    rintro ⟨rfl, hlt⟩
    exact UInt32.not_le.2 hlt hle
  · rw [if_neg hle]
    by_cases hp : process = p
    · subst hp
      rw [if_pos ⟨rfl, UInt32.not_le.1 hle⟩, count, OrderedMap.get?_insert, if_pos rfl]
      rfl
    · rw [if_neg fun h => hp h.1, count, OrderedMap.get?_insert, if_neg hp]
      rfl

end RestartBudget

/-- The record of a number is as it was, the restarts that its process has spent as well, and no
restart of it has come on the list. -/
structure Spared (number : Nat) (after before : Steward) : Prop where
  record : ∀ {p s}, before.roster.get? p = some s → s.number = number →
    after.roster.get? p = some s
  count : ∀ {p s}, before.roster.get? p = some s → s.number = number →
    after.budget.count p = before.budget.count p
  restarts : ∀ r ∈ after.restarts, r.number = number → r ∈ before.restarts

/-- The contract of programs that spare a record in each of their legs, whatever others do between
them. What is remembered is the state that a leg starts from. -/
def sparing (number : Nat) : Contract Steward where
  owes _ := Spared number
  answers _ _ _ host' start' _ := start' = host'

/-- An exit that concerns this record for want of an incarnation. -/
structure Steward.Exposes (host : Steward) (s : Server) : Prop where
  unanswered : s.incarnation = none
  working : host.stopping = false
  up : s.phase ≠ .stopping ∧ s.phase ≠ .stopped

namespace Spared

variable {number : Nat} {start host host' : Steward} {s : Server} {f : Server → Server}
  {p : String}

theorem refl (number : Nat) (host : Steward) : Spared number host host :=
  ⟨fun hget _ => hget, fun _ _ => rfl, fun _ hr _ => hr⟩

theorem of_eq (h : Spared number host start) (hroster : host'.roster = host.roster)
    (hbudget : host'.budget = host.budget) (hrestarts : host'.restarts = host.restarts) :
    Spared number host' start :=
  ⟨hroster ▸ h.record, hbudget ▸ h.count, hrestarts ▸ h.restarts⟩

theorem update (h : Spared number host start) {other : Nat} (hother : other ≠ number)
    (f : Server → Server) :
    Spared number { host with roster := host.roster.update other f } start where
  record hget hs := by
    rw [Roster.get?_update, h.record hget hs, Option.map_some, if_neg (hs ▸ hother.symm)]
  count := h.count
  restarts := h.restarts

theorem spend (h : Spared number host start) (hget : host.roster.get? p = some s)
    (hs : s.number ≠ number) :
    Spared number { host with budget := host.budget.spend p } start where
  record := h.record
  count {q t} htracked ht := by
    rw [← h.count htracked ht]
    refine (RestartBudget.count_spend ..).trans (if_neg ?_)
    rintro ⟨rfl, -⟩
    obtain rfl := Option.some.inj (hget.symm.trans (h.record htracked ht))
    exact hs ht
  restarts := h.restarts

theorem postpone (h : Spared number host start) {r : PendingRestart} (hr : r.number ≠ number)
    (nextTicket : Nat) :
    Spared number { host with nextTicket, restarts := host.restarts ++ [r] } start where
  record := h.record
  count := h.count
  restarts r' hr' hnumber := by
    rcases List.mem_append.1 hr' with hr' | hr'
    · exact h.restarts r' hr' hnumber
    · obtain rfl := List.mem_singleton.1 hr'
      exact absurd hnumber hr

end Spared

section Sparing

variable {number : Nat} {start host : Steward} {s : Server} {p : String}

/-- Relaunching a server spares all records but its own. -/
theorem meets_relaunch_sparing (hs : s.number ≠ number) (h : Spared number host start) :
    Attempt.Meets (sparing number) (Steward.relaunch s) (fun _ => Spared number)
      (fun _ => Spared number) host start := by
  unfold Steward.relaunch
  rw [Attempt.meets_bind]
  refine ⟨h, ?_⟩
  rintro host' start' a rfl
  cases a with
  | error e => exact .refl number _
  | ok _ =>
    simp only [Attempt.meets_bind]
    refine (meets_register ..).2 ⟨(Spared.refl number _).update hs _, ?_⟩
    rintro host' start' a rfl
    cases a with
    | error e => exact .refl number _
    | ok i =>
      refine ⟨(Spared.refl number _).update hs _, ?_⟩
      rintro host' start' a rfl
      cases a <;> exact .refl number _

theorem meets_scheduleRestart_sparing {t : Server} (h : Spared number host start)
    (hget : host.roster.get? s.process = some t) (ht : t.number = s.number)
    (hs : s.number ≠ number) :
    (Steward.scheduleRestart s).Meets (sparing number) (fun _ => Spared number) host start := by
  have hspent := h.spend hget (ht ▸ hs)
  unfold Steward.scheduleRestart
  rw [meets_bind, meets_current]
  simp only
  rw [meets_bind, meets_tell, meets_bind, meets_modify]
  cases host.budget.decision s.process with
  | giveUp =>
    have hgiven := (hspent.update hs (·.withPhase .maxFailed)).update hs
      (·.diagnose "restart attempts exhausted")
    exact hgiven.of_eq rfl rfl rfl
  | retryAfter delay =>
    have hlisted := hspent.postpone (r := ⟨host.nextTicket, s.number, s.process, delay⟩) hs
      (host.nextTicket + 1)
    exact hlisted.of_eq rfl rfl rfl

/-- What is done about a server that went down spares all records but its own. -/
theorem meets_serverDown_sparing (h : Spared number host start)
    (hs : host.stopping = false →
      ∀ s, host.roster.get? p = some s → s.process = p ∧ s.number ≠ number) :
    (Steward.serverDown p).Meets (sparing number) (fun _ => Spared number) host start := by
  unfold Steward.serverDown Steward.subject?
  rw [meets_bind, meets_bind, meets_current]
  by_cases hstop : host.stopping
  · rw [if_pos hstop]
    exact h
  · rw [if_neg hstop]
    cases hget : host.roster.get? p with
    | none => exact h.of_eq rfl rfl rfl
    | some s =>
      obtain ⟨rfl, hnumber⟩ := hs (Bool.eq_false_iff.2 hstop) s hget
      simp only [meets_pure, meets_bind, meets_current]
      by_cases hlost : host.lostItsHost s
      · rw [if_pos hlost, meets_bind, meets_tell, meets_bind, Attempt.meets_run]
        have htold : Spared number { host with journal := host.journal ++ [.info
            ("Re-registering server " ++ s.process ++ " after host restart")] } start := h.of_eq rfl rfl rfl
        exact (meets_relaunch_sparing hnumber htold).mono (fun _ _ _ h => h)
          fun e _ _ h => h.of_eq rfl rfl rfl
      · rw [if_neg hlost, meets_bind, meets_setPhase, meets_bind, meets_tell]
        have hfailed := h.update hnumber (·.withPhase .failed)
        by_cases hauto : host.settings.lifecycle.autoRestart
        · rw [if_pos hauto]
          exact meets_scheduleRestart_sparing (t := s.withPhase .failed) (hfailed.of_eq rfl rfl rfl)
            (Roster.get?_update_self hget _) rfl hnumber
        · rw [if_neg hauto]
          exact hfailed.of_eq rfl rfl rfl

/-- The notice of an exit spares all records but the one that it is taken to concern. -/
theorem meets_processStopped_sparing {i : Incarnation} (uptime : Duration)
    (hsound : host.roster.Sound host.nextNumber)
    (hs : ∀ s, host.roster.get? p = some s → s.number = number →
      s.owns i → host.stopping = false → s.phase = .stopping ∨ s.phase = .stopped) :
    (Steward.processStopped p i uptime).Meets (sparing number) (fun _ => Spared number) host host := by
  unfold Steward.processStopped
  rw [meets_bind, meets_current]
  cases hget : host.roster.get? p with
  | none => exact .refl number host
  | some s =>
    simp only
    by_cases hconcerns : s.owns i && s.phase ≠ .stopping && s.phase ≠ .stopped
    · rw [if_pos hconcerns, meets_bind, meets_tell]
      simp only [ne_eq, decide_not, Bool.and_eq_true, Bool.not_eq_true', decide_eq_false_iff_not] at hconcerns
      obtain ⟨⟨howns, hstopping⟩, hstopped⟩ := hconcerns
      refine meets_serverDown_sparing ((Spared.refl number host).of_eq rfl rfl rfl)
        fun hworking t ht => ?_
      obtain rfl := Option.some.inj (hget.symm.trans ht)
      refine ⟨hsound.keyed hget, fun hnumber => ?_⟩
      rcases hs s hget hnumber howns hworking with h | h
      · exact hstopping h
      · exact hstopped h
    · rw [if_neg hconcerns]
      exact .refl number host

end Sparing

def Contract.only (expected : Request → Prop) : Contract Unit where
  owes r _ _ := expected r
  answers _ _ _ _ _ _ := False

theorem Program.cases_of_meets_only {α : Type} {expected : Request → Prop} {post : Outlook Unit α}
    {p : Program α} (h : p.Meets (.only expected) post ()) :
    (∃ host value, p = .done host value ∧ post value host ()) ∨
      ∃ host r resume, p = .ask host r resume ∧ expected r := by
  cases p with
  | done host value => exact Or.inl ⟨host, value, rfl, h⟩
  | ask host r resume => exact Or.inr ⟨host, r, resume, rfl, h.1⟩

structure Struck (s : Server) (after before : Steward) : Prop where
  failed : ∃ t, after.roster.get? s.process = some t ∧ t.number = s.number ∧
    (t.phase = .failed ∨ t.phase = .maxFailed)
  restart : before.settings.lifecycle.autoRestart → ∀ delay,
    before.budget.decision s.process = .retryAfter delay →
    ⟨before.nextTicket, s.number, s.process, delay⟩ ∈ after.restarts ∧
      after.budget.count s.process = before.budget.count s.process + 1

section Striking

variable {host : Steward} {s : Server}

theorem RestartBudget.count_spend_of_retryAfter {b : RestartBudget} {process : String}
    {delay : Duration} (h : b.decision process = .retryAfter delay) :
    (b.spend process).count process = b.count process + 1 := by
  unfold decision at h
  split at h
  · cases h
  next hlt => rw [count_spend, if_pos ⟨rfl, UInt32.not_le.1 hlt⟩]

theorem meets_serverDown_struck (hget : host.roster.get? s.process = some s)
    (hworking : host.stopping = false) (hlost : host.lostItsHost s = false) :
    (Steward.serverDown s.process).Meets (.only fun _ => False) (fun _ after _ => Struck s after host)
      host () := by
  unfold Steward.serverDown Steward.subject?
  rw [meets_bind, meets_bind, meets_current, hworking, hget]
  simp only [Bool.false_eq_true, if_false, meets_pure, meets_bind, meets_current, hlost, meets_setPhase,
    meets_tell]
  have hfailed := Roster.get?_update_self hget (·.withPhase .failed)
  by_cases hauto : host.settings.lifecycle.autoRestart
  · rw [if_pos hauto]
    unfold Steward.scheduleRestart
    rw [meets_bind, meets_current]
    simp only
    rw [meets_bind, meets_tell, meets_bind, meets_modify]
    cases hdecision : host.budget.decision s.process with
    | giveUp =>
      have hgiven := Roster.get?_update_self (Roster.get?_update_self hfailed
        (·.withPhase .maxFailed)) (·.diagnose "restart attempts exhausted")
      refine ⟨⟨_, hgiven, rfl, Or.inr rfl⟩, fun _ delay h => ?_⟩
      cases hdecision.symm.trans h
    | retryAfter delay =>
      refine ⟨⟨_, hfailed, rfl, Or.inl rfl⟩, fun _ delay' h => ?_⟩
      cases hdecision.symm.trans h
      exact ⟨List.mem_append_right _ (List.mem_singleton.2 rfl),
        RestartBudget.count_spend_of_retryAfter hdecision⟩
  · rw [if_neg hauto]
    exact ⟨⟨_, hfailed, rfl, Or.inl rfl⟩, fun h => absurd h hauto⟩

/-- A server that cannot find its host again is removed first. -/
theorem meets_serverDown_lost (hget : host.roster.get? s.process = some s)
    (hworking : host.stopping = false) (hlost : host.lostItsHost s = true) :
    (Steward.serverDown s.process).Meets (.only (· = .command (.remove s.process)))
      (fun _ _ _ => False) host () := by
  unfold Steward.serverDown Steward.subject?
  rw [meets_bind, meets_bind, meets_current, hworking, hget]
  simp only [Bool.false_eq_true, if_false, meets_pure, meets_bind, meets_current, hlost, if_true,
    meets_tell]
  exact ⟨rfl, fun _ _ _ h => h.elim⟩

/-- An exposed record takes any exit for its own, and is down. -/
theorem processStopped_of_exposes (h : host.Exposes s) (hget : host.roster.get? s.process = some s)
    (i : Incarnation) (uptime : Duration) :
    ∃ journal, Steward.processStopped s.process i uptime host =
      Steward.serverDown s.process { host with journal } := by
  have hconcerns : (s.owns i && s.phase ≠ .stopping && s.phase ≠ .stopped) = true := by
    simp [Server.owns, h.unanswered, h.up]
  refine ⟨host.journal ++ [.info ("Process " ++ s.process ++ " exited after " ++
    Numeral.text uptime.milliseconds ++ " ms")], ?_⟩
  unfold Steward.processStopped
  rw [Operation.bind_of_done (rfl : current host = _), hget]
  simp only [hconcerns, if_true]
  rfl

/-- So an exit does to an exposed record what is done about a server that went down. -/
theorem handle_of_exposes (h : host.Exposes s) (hget : host.roster.get? s.process = some s)
    (i : Incarnation) (uptime : Duration) :
    if host.lostItsHost s then
      ∃ after resume, Steward.handle (.processStopped s.process i uptime) host =
        .ask after (.command (.remove s.process)) resume
    else
      ∃ after, Steward.handle (.processStopped s.process i uptime) host = .done after () ∧
        Struck s after host := by
  obtain ⟨journal, hdown⟩ := processStopped_of_exposes h hget i uptime
  change Steward.handle (.processStopped s.process i uptime) host = _ at hdown
  rw [hdown]
  by_cases hlost : host.lostItsHost s
  · rw [if_pos hlost]
    have hmeets : (Steward.serverDown s.process).Meets _ _ { host with journal } () :=
      meets_serverDown_lost hget h.working hlost
    rcases Program.cases_of_meets_only hmeets with ⟨-, -, -, hfalse⟩ | ⟨after, r, resume, heq, rfl⟩
    · exact hfalse.elim
    · exact ⟨after, resume, heq⟩
  · rw [if_neg hlost]
    have hmeets : (Steward.serverDown s.process).Meets _ _ { host with journal } () :=
      meets_serverDown_struck hget h.working (Bool.eq_false_iff.2 hlost)
    rcases Program.cases_of_meets_only hmeets with ⟨after, _, heq, hstruck⟩ | ⟨-, -, -, -, hfalse⟩
    · exact ⟨after, heq, hstruck.failed, hstruck.restart⟩
    · exact hfalse.elim

end Striking

/-! ## Launches expose records -/

section Launching

variable {host : Steward} {name : String} {spec : ServerSpec} {roster : Roster}

/-- A launch exposes the record that it makes until its registration is answered. -/
theorem launch_exposes (hworking : host.stopping = false)
    (hmodel : host.model.server? name = some spec)
    (hnew : host.roster.get? spec.processName = none) :
    ∃ after s resume, (Steward.launch name).run host =
        .ask after (.command (.add s.process spec.launch)) resume ∧
      after.roster.get? s.process = some s ∧ s.process = spec.processName ∧
      s.number = host.nextNumber ∧ after.Exposes s ∧
      ∀ host' i, ∃ after' resume', resume host' (.ok i) =
          .ask after' (.command (.start s.process)) resume' ∧
        ∀ p t, after'.roster.get? p = some t → t.number = s.number → t.incarnation = some i := by
  let server := Server.ofSpec host.nextNumber host.hostName spec .booting
  have hinsert : host.roster.insert server = .ok _ := Roster.insert_eq_ok_iff.2 ⟨hnew, rfl⟩
  have hget := (Roster.get?_of_insert hinsert server.process).trans (if_pos rfl)
  obtain ⟨journal, resume, hlaunch, hregistered⟩ := run_launch hmodel rfl hinsert
  refine ⟨_, server.withPhase .booting, resume, hlaunch, Roster.get?_update_self hget _, rfl, rfl,
    ⟨rfl, hworking, nofun, nofun⟩, fun host' i => ?_⟩
  obtain ⟨resume', hstart, -⟩ := hregistered host' i
  refine ⟨_, resume', hstart, fun p t ht hnumber => ?_⟩
  obtain ⟨u, -, rfl⟩ := Roster.exists_of_get?_update ht
  by_cases hu : u.number = server.number
  · rw [if_pos hu]
    rfl
  · rw [if_neg hu] at hnumber
    exact absurd hnumber hu

end Launching

namespace Interleaving

/-- Whenever a server that is not tracked is started, its record is exposed. -/
theorem exists_exposed {s : Interleaving} {name : String} {spec : ServerSpec}
    (hworking : s.host.stopping = false) (hmodel : s.host.model.server? name = some spec)
    (hnew : s.host.roster.get? spec.processName = none) :
    ∃ s' t, Step s s' ∧ s'.host.roster.get? t.process = some t ∧ t.process = spec.processName ∧
      t.number = s.host.nextNumber ∧ s'.host.Exposes t := by
  obtain ⟨after, t, resume, hlaunch, hget, hprocess, hnumber, hexposes, -⟩ :=
    launch_exposes hworking hmodel hnew
  have hname : spec.name = name := by
    have := List.find?_some hmodel
    simpa using this
  have hnone : s.host.server? name = none := by rw [← hname]; exact hnew
  have htry : (Steward.tryStartServer name).run s.host =
      .ask after (.command (.add t.process spec.launch)) resume := by
    unfold Steward.tryStartServer
    rw [Attempt.bind_of_done (Attempt.run_current s.host)]
    simp only [hnone]
    exact hlaunch
  have hafter : (s.proceed ((Occasion.startServer name).operation s.host)).host = after := by
    show (s.proceed (Program.andThen _ (Program.andThen _
      ((Steward.tryStartServer name).run s.host)))).host = after
    rw [htry]
    rfl
  exact ⟨_, t, .begins (.startServer name), hafter ▸ hget, hprocess, hnumber, hafter ▸ hexposes⟩

/-- The exit of a removed incarnation spares every record that is made afterwards, in each leg of what
is done about it and whatever else goes on, unless the record is exposed, that is, has no incarnation
yet. An exposed record is struck by any exit, and whoever starts a server exposes one. -/
theorem exits_spare_later_records (settings : Settings) (model : Option HostModel)
    (inDomain : Bool) {s₁ : Interleaving} {i : Incarnation}
    (h₁ : Reaches (beginning settings model inDomain) s₁) (hremoved : s₁.Removed i) :
    (∀ s₂, Reaches s₁ s₂ → ∀ uptime,
      (∀ p number, s₁.host.nextNumber ≤ number →
        (∀ s, s₂.host.roster.get? p = some s → s.number = number → ¬ s₂.host.Exposes s) →
        (Steward.handle (.processStopped p i uptime)).Meets (sparing number)
          (fun _ => Spared number) s₂.host s₂.host) ∧
      ∀ p s, s₂.host.roster.get? p = some s → s₂.host.Exposes s →
        if s₂.host.lostItsHost s then
          ∃ after resume, Steward.handle (.processStopped p i uptime) s₂.host =
            .ask after (.command (.remove p)) resume
        else
          ∃ after, Steward.handle (.processStopped p i uptime) s₂.host = .done after () ∧
            Struck s after s₂.host) ∧
    ∀ name spec, s₁.host.stopping = false → s₁.host.model.server? name = some spec →
      s₁.host.roster.get? spec.processName = none →
      ∃ s₂ s, Step s₁ s₂ ∧ s₂.host.roster.get? spec.processName = some s ∧
        s.number = s₁.host.nextNumber ∧ s₂.host.Exposes s := by
  refine ⟨fun s₂ h₂ uptime => ⟨fun p number hnumber hs => ?_, fun p s hget hexposes => ?_⟩,
    fun name spec hworking hmodel hnew => ?_⟩
  · have hapart := Reaches.apart h₁ h₂
    apply meets_processStopped_sparing uptime hapart.sound
    intro s hget hs' howns hworking
    by_cases hup : s.phase = .stopping ∨ s.phase = .stopped
    · exact hup
    cases hincarnation : s.incarnation with
    | none => exact absurd ⟨hincarnation, hworking, not_or.1 hup⟩ (hs s hget hs')
    | some own =>
      have hown : own = i := by simpa [Server.owns, hincarnation] using howns
      exact absurd (hown ▸ hincarnation) (hapart.records hget (hs' ▸ hnumber) i hremoved.1)
  · obtain rfl := (Reaches.apart h₁ h₂).sound.keyed hget
    exact handle_of_exposes hexposes hget i uptime
  · obtain ⟨s₂, s, hstep, hget, hprocess, hnumber, hexposes⟩ :=
      exists_exposed hworking hmodel hnew
    exact ⟨s₂, s, hstep, hprocess ▸ hget, hnumber, hexposes⟩

/-- A server that is stopped and started again fails for the exit of its stopped process, if that is
noticed before its new process is registered. -/
theorem exits_spare_later_records_restarted :
    ∃ s₁ s₂, Reaches (beginning {} (some (.single "a" ["true"])) false) s₁ ∧ s₁.Removed 1 ∧
      Step s₁ s₂ ∧ ∃ s after, s₂.host.roster.get? "Server:a" = some s ∧
        s.number = s₁.host.nextNumber ∧
        Steward.handle (.processStopped "Server:a" 1 (.ofSeconds 1)) s₂.host = .done after () ∧
        Struck s after s₂.host := by
  have hstart : Reaches (beginning {} (some (.single "a" ["true"])) false) _ :=
    .single (.begins (.startServer "a"))
  have hadded := (hstart.tail (.answers 0 (r := .command (.add "Server:a" ⟨["true"], none, .empty⟩))
    (.ok 1) rfl fun _ _ => List.not_mem_nil)).tail (.resumes 0 rfl)
  have hstop := hadded.tail (.begins (.stopServer "a" (-1)))
  have hstopped := (hstop.tail (.answers 1 (r := .command (.stop "Server:a")) (.ok ()) rfl
    (by simp [Request.given]))).tail (.resumes 1 rfl)
  have hremoved := (hstopped.tail (.answers 1 (r := .command (.remove "Server:a")) (.ok ()) rfl
    (by simp [Request.given]))).tail (.resumes 1 rfl)
  have hfree (p : String) : (Registrations.put (fun _ => none) "Server:a" (some 1)).put
      "Server:a" none p ≠ some 1 := by
    unfold Registrations.put
    by_cases hp : "Server:a" = p
    · rw [if_pos hp]
      exact nofun
    · rw [if_neg hp, if_neg hp]
      exact nofun
  have hgone : (1 : Incarnation) ∈ [1] := List.mem_singleton.2 rfl
  obtain ⟨hnotice, -⟩ := exits_spare_later_records {} _ false hremoved ⟨hgone, hfree⟩
  obtain ⟨after, hdone, hstruck⟩ := (hnotice _ (.single (.begins (.startServer "a")))
    (.ofSeconds 1)).2 "Server:a" _ rfl ⟨rfl, rfl, nofun, nofun⟩
  exact ⟨_, _, hremoved, ⟨hgone, hfree⟩, .begins (.startServer "a"), _, after, rfl, rfl, hdone,
    hstruck⟩

end Interleaving

end HostSteward
