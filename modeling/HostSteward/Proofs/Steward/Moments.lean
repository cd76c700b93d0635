import HostSteward.Proofs.Steward.Ledger
import HostSteward.Proofs.Steward.Worlds
import Mathlib.Data.List.Nodup

/-!
# Moments

A steward whose requests are answered at once goes from one moment to the next. What of a moment
belongs to one process is its record, what its restarts have cost, the restarts that are pending and
the commands that the supervisor has received about it. The rest is common to all servers, or is of
no consequence.
-/

namespace HostSteward

open Operation

/-- How a supervisor answers the commands about each process, one after another, and those about
none, and how a domain answers. -/
structure Replies where
  verdict : Option String → Nat → Except Failure Unit
  /-- Under which incarnation a process is registered by a command that is accepted. -/
  incarnation : String → Nat → Incarnation
  domain : Except Failure Unit

def commandsAbout (process? : Option String) (received : List Command) : List Command :=
  received.filter (·.process? = process?)

namespace Replies

def next (w : Replies) (received : List Command) (process? : Option String) :
    Except Failure Unit := w.verdict process? (commandsAbout process? received).length

def answer (w : Replies) (received : List Command) : (c : Command) → c.Answer
  | .add p _ => (w.next received (some p)).map fun _ =>
    w.incarnation p (commandsAbout (some p) received).length
  | .start p => w.next received (some p)
  | .stop p => w.next received (some p)
  | .remove p => w.next received (some p)
  | .requestInventory => w.next received none
  | .shutdown => w.next received none

def world (w : Replies) : Program.World (List Command) := fun received host r =>
  match r with
  | .command c => (received ++ [c], host, w.answer received c)
  | .register _ | .unregister => (received, host, w.domain)
  | .wait _ => (received, host, ())

end Replies

structure Moment where
  host : Steward
  received : List Command := []

theorem Roster.tracks_update (r : Roster) (number : Nat) {f : Server → Server}
    (hf : Server.Faithful f) (process : String) (n : Nat) :
    (r.update number f).tracks process n = r.tracks process n := by
  unfold tracks
  rw [get?_update]
  cases r.get? process with
  | none => rfl
  | some s =>
    simp only [Option.map_some]
    split
    · rw [hf.number]
    · rfl

variable {α β : Type} {w : Replies} {m m₀ m₁ : Moment} {p q : String}

def Operation.outcome (o : Operation α) (w : Replies) (m : Moment) : α × Moment :=
  let (received, host, value) := (o m.host).run w.world m.received
  (value, ⟨host, received⟩)

theorem Attempt.outcome_eq_of_meets {x : Attempt α} {r : Except Failure α × Moment}
    (h : Attempt.Meets w.world.contract x
      (fun value host received => (.ok value, ⟨host, received⟩) = r)
      (fun e host received => (.error e, ⟨host, received⟩) = r) m.host m.received) :
    x.run.outcome w m = r := by
  have h := Program.meets_world.1 h
  unfold Operation.outcome
  generalize (x.run m.host).run w.world m.received = outcome at h ⊢
  obtain ⟨received, host, value⟩ := outcome
  cases value <;> exact h

theorem Operation.outcome_bind (o : Operation α) (next : α → Operation β) :
    (o >>= next).outcome w m = (next (o.outcome w m).1).outcome w (o.outcome w m).2 :=
  congrArg (fun (received, host, value) => (value, (⟨host, received⟩ : Moment)))
    (Program.run_andThen w.world m.received (o m.host) next)

theorem Operation.outcome_command (command : Command) :
    (Operation.command command).outcome w m =
      (w.answer m.received command, { m with received := m.received ++ [command] }) := rfl

theorem Operation.outcome_unregister :
    (ask .unregister : Operation (Except Failure Unit)).outcome w m = (w.domain, m) := rfl

theorem Operation.outcome_tell (e : Entry) : (tell e).outcome w m =
    ((), { m with host := { m.host with journal := m.host.journal ++ [e] } }) := rfl

theorem Operation.outcome_modify (f : Steward → Steward) :
    (modify f).outcome w m = ((), { m with host := f m.host }) := rfl

theorem Operation.outcome_current : current.outcome w m = (m.host, m) := rfl

/-- Whatever an operation does, it is only noted in the journal. -/
def Operation.Notes (o : Operation α) : Prop :=
  ∀ w m, ∃ journal, (o.outcome w m).2 = { m with host := { m.host with journal } }

section Notes

theorem notes_pure (value : α) : Notes (pure value) := fun _ m => ⟨m.host.journal, rfl⟩

theorem notes_current : Notes current := fun _ m => ⟨m.host.journal, rfl⟩

theorem notes_wait (d : Duration) : Notes (ask (.wait d)) := fun _ m => ⟨m.host.journal, rfl⟩

theorem notes_tell (e : Entry) : Notes (tell e) := fun _ m => ⟨m.host.journal ++ [e], rfl⟩

theorem Operation.Notes.bind {o : Operation α} {next : α → Operation β} (ho : o.Notes)
    (hnext : ∀ value, (next value).Notes) : (o >>= next).Notes := by
  intro w m
  obtain ⟨journal, hm⟩ := ho w m
  obtain ⟨journal', hm'⟩ := hnext (o.outcome w m).1 w (o.outcome w m).2
  exact ⟨journal', by rw [outcome_bind, hm', hm]⟩

theorem notes_ite {c : Prop} [Decidable c] {o o' : Operation α} (ho : o.Notes) (ho' : o'.Notes) :
    (if c then o else o').Notes := by
  split
  · exact ho
  · exact ho'

theorem notes_tellAny (e : Option Entry) : Notes (tellAny e) := by
  cases e with
  | none => exact notes_pure ()
  | some e => exact notes_tell e

theorem notes_tellAll (entries : List Entry) : Notes (Steward.tellAll entries) := by
  induction entries with
  | nil => exact notes_pure ()
  | cons e rest ih => exact (notes_tell e).bind fun _ => ih

theorem notes_noteFailure (process operation : String) (e : Failure) :
    Notes (Steward.noteFailure process operation e) :=
  notes_current.bind fun _ => notes_ite (notes_pure ()) (notes_tell _)

theorem notes_pollWhileStarting (name : String) (interval : Duration) (polls : Nat)
    (last : Status) : Notes (Steward.pollWhileStarting name interval polls last) := by
  induction polls generalizing last with
  | zero => exact notes_pure last
  | succ polls ih =>
    exact notes_current.bind fun _ => notes_ite ((notes_wait interval).bind fun _ => ih _)
      (notes_pure _)

end Notes

theorem exists_outcome_subject? (process notice : String) (w : Replies) (m : Moment) :
    ∃ journal, (Steward.subject? process notice).outcome w m =
      (m.host.followed? process, { m with host := { m.host with journal } }) := by
  unfold Steward.subject? Steward.followed?
  rw [outcome_bind, outcome_current]
  by_cases hstopping : m.host.stopping
  · simp only [if_pos hstopping]
    exact ⟨m.host.journal, rfl⟩
  · simp only [if_neg hstopping]
    cases m.host.roster.get? process with
    | none => exact ⟨_, rfl⟩
    | some server => exact ⟨m.host.journal, rfl⟩

theorem exists_outcome_checkPhase (s : Server) (expected : List Phase) (operation : String)
    (w : Replies) (m : Moment) :
    ∃ journal, (checkPhase s expected operation).outcome w m = ((), { m with host := { m.host with
      journal, roster := m.host.roster.update s.number (·.check expected operation) } }) := by
  obtain ⟨journal, hm⟩ := notes_tellAny (s.checkEntry? expected operation) w m
  exact ⟨journal, by unfold checkPhase; rw [outcome_bind, hm]; rfl⟩

theorem outcome_track (spec : ServerSpec) (phase : Phase) (w : Replies) (m : Moment) :
    (Steward.track spec phase).run.outcome w m =
      match m.host.roster.insert (.ofSpec m.host.nextNumber m.host.hostName spec phase) with
      | .ok roster => (.ok (.ofSpec m.host.nextNumber m.host.hostName spec phase),
          { m with host := { m.host with roster, nextNumber := m.host.nextNumber + 1 } })
      | .error e => (.error e, m) := by
  refine Attempt.outcome_eq_of_meets ((meets_track ..).2 ?_)
  cases m.host.roster.insert (.ofSpec m.host.nextNumber m.host.hostName spec phase) <;> rfl

def Steward.pending (host : Steward) (process : String) : List PendingRestart :=
  host.restarts.filter (·.process = process)

structure Steward.Common (host host' : Steward) : Prop where
  settings : host.settings = host'.settings
  model : host.model = host'.model
  stopping : host.stopping = host'.stopping
  launched : host.launched = host'.launched
  policy : host.budget.policy = host'.budget.policy

namespace Moment

/-- Records are known by their numbers, pending restarts by their tickets, and every incarnation was
given out by the supervisor. -/
structure Orderly (w : Replies) (m : Moment) : Prop where
  sound : m.host.roster.Sound m.host.nextNumber
  numbers : ∀ r ∈ m.host.restarts, r.number < m.host.nextNumber
  tickets : ∀ r ∈ m.host.restarts, r.ticket < m.host.nextTicket
  distinct : (m.host.restarts.map (·.ticket)).Nodup
  registered : ∀ {p s i}, m.host.roster.get? p = some s → s.incarnation = some i →
    ∃ k, i = w.incarnation p k

theorem Orderly.of_eq (h : m.Orderly w) (hroster : m₁.host.roster = m.host.roster)
    (hnumber : m₁.host.nextNumber = m.host.nextNumber)
    (hrestarts : m₁.host.restarts = m.host.restarts)
    (hticket : m₁.host.nextTicket = m.host.nextTicket) : m₁.Orderly w where
  sound := hroster ▸ hnumber ▸ h.sound
  numbers := hrestarts ▸ hnumber ▸ h.numbers
  tickets := hrestarts ▸ hticket ▸ h.tickets
  distinct := hrestarts ▸ h.distinct
  registered := hroster ▸ h.registered

/-- A pending restart is not meant for a record that is new. -/
theorem Orderly.tracks_of_insert (h : m.Orderly w) {s : Server} {roster : Roster}
    (hnumber : s.number = m.host.nextNumber) (hinsert : m.host.roster.insert s = .ok roster) :
    (m.host.pending s.process).map (fun r => roster.tracks s.process r.number) =
      (m.host.pending s.process).map fun r => m.host.roster.tracks s.process r.number := by
  refine List.map_congr_left fun r hr => ?_
  have hnone := (Roster.insert_eq_ok_iff.1 hinsert).1
  have hnew : s.number ≠ r.number :=
    hnumber ▸ (Nat.ne_of_lt (h.numbers r (List.mem_filter.1 hr).1)).symm
  simp [Roster.tracks, Roster.get?_of_insert hinsert, hnone, hnew]

/-- A pending restart that is taken from the list was there once. -/
theorem Orderly.pending_take (h : m.Orderly w) {r : PendingRestart} {k : Nat}
    (hr : (m.host.pending q)[k]? = some r) :
    (m.host.restarts.filter (·.ticket ≠ r.ticket)).filter (·.process = q) =
      (m.host.pending q).eraseIdx k := by
  obtain ⟨hk, rfl⟩ := List.getElem?_eq_some_iff.1 hr
  have hsub : (m.host.pending q).Sublist m.host.restarts := List.filter_sublist
  have hdistinct := h.distinct.sublist (hsub.map (·.ticket))
  have hnodup := List.Nodup.of_map _ hdistinct
  rw [← hnodup.erase_getElem k hk, hnodup.erase_eq_filter, List.filter_comm]
  refine List.filter_congr fun r' hr' => ?_
  have hticket := List.inj_on_of_nodup_map hdistinct hr' (List.getElem_mem hk)
  rw [Bool.eq_iff_iff, decide_eq_true_iff, bne_iff_ne]
  exact ⟨fun hne he => hne (he ▸ rfl), fun hne he => hne (hticket he)⟩

structure Untouched (process : String) (before after : Moment) : Prop extends
    Steward.Common before.host after.host where
  record : after.host.roster.get? process = before.host.roster.get? process
  count : after.host.budget.count process = before.host.budget.count process
  pending : after.host.pending process = before.host.pending process
  about : commandsAbout (some process) after.received = commandsAbout (some process) before.received

theorem Untouched.trans (h₀ : Untouched p m₀ m) (h : Untouched p m m₁) : Untouched p m₀ m₁ where
  settings := h₀.settings.trans h.settings
  model := h₀.model.trans h.model
  stopping := h₀.stopping.trans h.stopping
  launched := h₀.launched.trans h.launched
  policy := h₀.policy.trans h.policy
  record := h.record.trans h₀.record
  count := h.count.trans h₀.count
  pending := h.pending.trans h₀.pending
  about := h.about.trans h₀.about

/-- Since a moment, nothing has changed but what belongs to one process. -/
structure Within (w : Replies) (process : String) (before after : Moment) : Prop where
  orderly : after.Orderly w
  others : ∀ p, process ≠ p → Untouched p before after

namespace Within

variable {f : Server → Server} {s : Server}

theorem refl (h : m.Orderly w) (q : String) : Within w q m m where
  orderly := h
  others _ _ := ⟨⟨rfl, rfl, rfl, rfl, rfl⟩, rfl, rfl, rfl, rfl⟩

theorem note (h : Within w q m₀ m) (journal : List Entry) :
    Within w q m₀ { m with host := { m.host with journal } } where
  orderly := h.orderly.of_eq rfl rfl rfl rfl
  others p hp := (h.others p hp).trans ⟨⟨rfl, rfl, rfl, rfl, rfl⟩, rfl, rfl, rfl, rfl⟩

theorem ask (h : Within w q m₀ m) {c : Command} (hc : c.process? = some q) :
    Within w q m₀ { m with received := m.received ++ [c] } where
  orderly := h.orderly.of_eq rfl rfl rfl rfl
  others p hp := by
    refine (h.others p hp).trans ⟨⟨rfl, rfl, rfl, rfl, rfl⟩, rfl, rfl, rfl, ?_⟩
    simp [commandsAbout, hc, hp]

theorem update (h : Within w s.process m₀ m) (ht : m.host.Tracks s) (hf : Server.Faithful f)
    (hincarnation : ∀ t i, (f t).incarnation = some i →
      t.incarnation = some i ∨ ∃ k, i = w.incarnation s.process k) :
    Within w s.process m₀
      { m with host := { m.host with roster := m.host.roster.update s.number f } } := by
  have hothers (p : String) (hp : s.process ≠ p) := ht.get?_update_of_ne h.orderly.sound hp f
  obtain ⟨t, ht, hn⟩ := ht
  refine ⟨⟨h.orderly.sound.update hf _, h.orderly.numbers, h.orderly.tickets, h.orderly.distinct,
    fun {p u i} hget hi => ?_⟩, fun p hp => ?_⟩
  · by_cases hp : s.process = p
    · subst hp
      rw [← hn, Roster.get?_update_self ht] at hget
      obtain rfl := Option.some.inj hget
      exact (hincarnation t i hi).elim (h.orderly.registered ht) id
    · exact h.orderly.registered ((hothers p hp).symm.trans hget) hi
  · exact (h.others p hp).trans ⟨⟨rfl, rfl, rfl, rfl, rfl⟩, hothers p hp, rfl, rfl, rfl⟩

theorem untrack (h : Within w q m₀ m) (number : Nat) :
    Within w q m₀
      { m with host := { m.host with roster := m.host.roster.removeSame q number } } where
  orderly := by
    refine ⟨h.orderly.sound.untrack q number, h.orderly.numbers, h.orderly.tickets,
      h.orderly.distinct, fun {p u i} hget hi => ?_⟩
    rw [Roster.get?_removeSame] at hget
    split at hget
    · cases hget
    · exact h.orderly.registered hget hi
  others p hp := by
    refine (h.others p hp).trans ⟨⟨rfl, rfl, rfl, rfl, rfl⟩, ?_, rfl, rfl, rfl⟩
    exact (Roster.get?_removeSame ..).trans (if_neg fun he => hp he.1)

theorem track (h : Within w s.process m₀ m) {roster : Roster}
    (hnumber : s.number = m.host.nextNumber) (hincarnation : s.incarnation = none)
    (hinsert : m.host.roster.insert s = .ok roster) :
    Within w s.process m₀
      { m with host := { m.host with roster, nextNumber := m.host.nextNumber + 1 } } where
  orderly := by
    refine ⟨h.orderly.sound.track hnumber hinsert,
      fun r hr => Nat.lt_succ_of_lt (h.orderly.numbers r hr), h.orderly.tickets,
      h.orderly.distinct, fun {p u i} hget hi => ?_⟩
    rw [Roster.get?_of_insert hinsert] at hget
    split at hget
    · obtain rfl := Option.some.inj hget
      cases hincarnation.symm.trans hi
    · exact h.orderly.registered hget hi
  others p hp := by
    refine (h.others p hp).trans ⟨⟨rfl, rfl, rfl, rfl, rfl⟩, ?_, rfl, rfl, rfl⟩
    exact (Roster.get?_of_insert hinsert p).trans (if_neg hp)

theorem account (h : Within w q m₀ m) {budget : RestartBudget}
    (hpolicy : budget.policy = m.host.budget.policy)
    (hcount : ∀ p, q ≠ p → budget.count p = m.host.budget.count p) :
    Within w q m₀ { m with host := { m.host with budget } } where
  orderly := h.orderly.of_eq rfl rfl rfl rfl
  others p hp :=
    (h.others p hp).trans ⟨⟨rfl, rfl, rfl, rfl, hpolicy.symm⟩, rfl, hcount p hp, rfl, rfl⟩

theorem spend (h : Within w q m₀ m) :
    Within w q m₀ { m with host := { m.host with budget := m.host.budget.spend q } } :=
  h.account (RestartBudget.policy_spend ..) fun _ hp =>
    (RestartBudget.count_spend ..).trans (if_neg fun he => hp he.1)

theorem reset (h : Within w q m₀ m) :
    Within w q m₀ { m with host := { m.host with budget := m.host.budget.reset q } } :=
  h.account rfl fun _ hp => (RestartBudget.count_reset ..).trans (if_neg hp)

theorem postpone (h : Within w s.process m₀ m) (ht : m.host.Tracks s) (delay : Duration) :
    Within w s.process m₀ { m with host := { m.host with
      nextTicket := m.host.nextTicket + 1
      restarts := m.host.restarts ++ [⟨m.host.nextTicket, s.number, s.process, delay⟩] } } where
  orderly := by
    obtain ⟨t, ht, hn⟩ := ht
    have hnumber : s.number < m.host.nextNumber := hn ▸ h.orderly.sound.below ht
    refine ⟨h.orderly.sound, ?_, ?_, ?_, h.orderly.registered⟩
    · simpa [or_imp, forall_and, hnumber] using h.orderly.numbers
    · simpa [or_imp, forall_and] using fun r hr => Nat.lt_succ_of_lt (h.orderly.tickets r hr)
    · simp only [List.map_append, List.map_cons, List.map_nil]
      refine h.orderly.distinct.append (List.nodup_singleton _) ?_
      simpa using fun r hr => Nat.ne_of_lt (h.orderly.tickets r hr)
  others p hp := by
    refine (h.others p hp).trans ⟨⟨rfl, rfl, rfl, rfl, rfl⟩, rfl, rfl, ?_, rfl⟩
    simp [Steward.pending, hp]

/-- A pending restart is taken from the list. -/
theorem take (h : Within w q m₀ m) {r : PendingRestart} (hr : r ∈ m.host.restarts)
    (hq : r.process = q) :
    Within w q m₀ { m with host := { m.host with
      restarts := m.host.restarts.filter (·.ticket ≠ r.ticket) } } where
  orderly := by
    have hsub := List.filter_sublist (p := (decide <| ·.ticket ≠ r.ticket)) (l := m.host.restarts)
    exact ⟨h.orderly.sound, fun r' hr' => h.orderly.numbers r' (hsub.subset hr'),
      fun r' hr' => h.orderly.tickets r' (hsub.subset hr'), h.orderly.distinct.sublist (hsub.map _),
      h.orderly.registered⟩
  others p hp := by
    refine (h.others p hp).trans ⟨⟨rfl, rfl, rfl, rfl, rfl⟩, rfl, rfl, ?_, rfl⟩
    -- no other restart has the same ticket
    show (m.host.restarts.filter _).filter _ = m.host.restarts.filter _
    rw [List.filter_filter]
    refine List.filter_congr fun r' hr' => ?_
    by_cases hp' : r'.process = p
    · have hne : r'.ticket ≠ r.ticket := fun he => by
        rw [List.inj_on_of_nodup_map h.orderly.distinct hr' hr he] at hp'
        exact hp (hq.symm.trans hp')
      simp [hne]
    · simp [hp']

end Within

end Moment

end HostSteward
