import HostSteward.Proofs.Steward.Conduct

/-!
# What a refused launch leaves behind

A process is registered before it is started, and the supervisor may refuse either. A new record
whose process cannot be registered is forgotten again, and the next launch goes ahead. Every other
refusal, also that of starting what has just been registered, leaves a record that boots for ever:
operators are told that the server is starting, and asking for its start has no effect.
-/

namespace HostSteward

open Operation Steward

inductive Refusal where
  | registration
  | start
deriving DecidableEq

/-- The occasion of the operation that was begun last, with what it was refused last for each
process since. -/
structure Attempts where
  occasion : Option Occasion := none
  refused : String → Option Refusal := fun _ => none

namespace Occasion

/-- The phase in which a process is tracked after a refusal on an occasion of launches. -/
def leaves (o : Occasion) : Refusal → Option Phase
  | .registration => if o.launches then none else some .booting
  | .start => some .booting

theorem leaves_eq_none_iff {o : Occasion} {r : Refusal} :
    o.leaves r = none ↔ o.launches ∧ r = .registration := by
  cases r <;> simp [leaves]

theorem leaves_of_ne_none {o : Occasion} {r : Refusal} (h : o.leaves r ≠ none) :
    o.leaves r = some .booting := by
  cases r with
  | registration => exact if_neg fun hl => h (if_pos hl)
  | start => rfl

end Occasion

def Steward.phase? (h : Steward) (process : String) : Option Phase :=
  (h.roster.get? process).map (·.phase)

namespace Attempts

def note (m : Attempts) (process : String) (refusal : Option Refusal) : Attempts :=
  { m with refused := fun p => if process = p then refusal else m.refused p }

@[simp] theorem refused_note_self (m : Attempts) (process : String) (refusal : Option Refusal) :
    (m.note process refusal).refused process = refusal := if_pos rfl

def after (m : Attempts) : (c : Command) → c.Answer → Attempts
  | .add p _, .ok _ => m.note p none
  | .add p _, .error _ => m.note p (some .registration)
  | .start p, .ok _ => m.note p none
  | .start p, .error _ => m.note p (some .start)
  | _, _ => m

/-- A supervisor that refuses what it likes. The steward may be made to do anything at any time. -/
def surroundings : Surroundings Attempts where
  obeys m c m' a := m' = m.after c a
  moves _ _ := False
  calls _ _ o m' := m' = { occasion := some o }

structure Settled (host : Steward) (m : Attempts) : Prop where
  sound : host.roster.Sound host.nextNumber
  left : ∀ {o}, m.occasion = some o → o.launches ∨ o.relaunches →
    ∀ {p r}, m.refused p = some r → host.phase? p = o.leaves r

structure Heard (P : Attempts → Prop) (host : Steward) (m : Attempts) : Prop where
  sound : host.roster.Sound host.nextNumber
  known : P m

structure Launching (o : Occasion) (host : Steward) (m : Attempts) : Prop extends
    Settled host m where
  occasion : m.occasion = some o

structure Trying (o : Occasion) (s : Server) (host : Steward) (m : Attempts) : Prop where
  sound : host.roster.Sound host.nextNumber
  occasion : m.occasion = some o
  tracked : ∃ t, host.roster.get? s.process = some t ∧ t.number = s.number
  others : ∀ {p r}, s.process ≠ p → m.refused p = some r → host.phase? p = o.leaves r

structure Tried (o : Occasion) (s : Server) (refusal : Option Refusal) (host : Steward)
    (m : Attempts) : Prop extends Trying o s host m where
  booting : host.phase? s.process = some .booting
  refused : m.refused s.process = refusal

abbrev contract : Contract Attempts := surroundings.contract (fun _ _ _ => True) Settled

variable {host host' : Steward} {m m' : Attempts} {o : Occasion} {s : Server}
  {refusal : Option Refusal} {P : Attempts → Prop}

theorem occasion_after (m : Attempts) (c : Command) (a : c.Answer) :
    (m.after c a).occasion = m.occasion := by
  cases c with
  | add | start => cases a <;> rfl
  | _ => rfl

theorem Settled.of_eq (h : Settled host m) (hroster : host'.roster = host.roster)
    (hnext : host'.nextNumber = host.nextNumber) : Settled host' m where
  sound := hroster ▸ hnext ▸ h.sound
  left ho hl p r hr := by
    unfold phase?
    rw [hroster]
    exact h.left ho hl hr

theorem Heard.settled (h : Heard (· = { occasion := some o }) host m) : Settled host m where
  sound := h.sound
  left _ _ p r hr := by
    rw [h.known] at hr
    cases hr

theorem Heard.settled_of_not (h : Heard (·.occasion = some o) host m)
    (ho : ¬ o.launches ∧ ¬ o.relaunches) : Settled host m where
  sound := h.sound
  left he hl := by
    obtain rfl := Option.some.inj (h.known.symm.trans he)
    exact absurd hl (not_or.2 ho)

theorem Heard.launching (h : Heard (· = { occasion := some o }) host m) : Launching o host m where
  toSettled := h.settled
  occasion := by rw [h.known]

/-! ## One attempt -/

namespace Trying

theorem note (h : Trying o s host m) (refusal : Option Refusal) :
    Trying o s host (m.note s.process refusal) where
  sound := h.sound
  occasion := h.occasion
  tracked := h.tracked
  others hp hr := h.others hp ((if_neg hp).symm.trans hr)

/-- What happens to the record that is being launched is nothing to the others. -/
theorem update (h : Trying o s host m) {f : Server → Server} (hf : Server.Faithful f) :
    Trying o s { host with roster := host.roster.update s.number f } m where
  sound := h.sound.update hf s.number
  occasion := h.occasion
  tracked := by
    obtain ⟨t, ht, hn⟩ := h.tracked
    refine ⟨f t, ?_, (hf.number t).trans hn⟩
    rw [← hn]
    exact Roster.get?_update_self ht f
  others {p r} hp hr := by
    obtain ⟨t, ht, hn⟩ := h.tracked
    -- no two processes are tracked under one number
    rw [← h.others hp hr]
    unfold phase?
    rw [Roster.get?_update]
    cases hget : host.roster.get? p with
    | none => rfl
    | some u =>
      have hu : u.number ≠ s.number := fun he =>
        hp (h.sound.distinct ht hget (hn.trans he.symm))
      rw [Option.map_some, if_neg hu]

theorem phase?_update (h : Trying o s host m) (f : Server → Server) :
    { host with roster := host.roster.update s.number f : Steward }.phase? s.process =
      (host.roster.get? s.process).map fun t => (f t).phase := by
  obtain ⟨t, ht, hn⟩ := h.tracked
  unfold phase?
  rw [← hn, Roster.get?_update_self ht, ht]
  rfl

/-- A new record may be launched. -/
theorem of_track (ho : o.launches) (h : Launching o host m) {roster : Roster}
    (hnumber : s.number = host.nextNumber) (hinsert : host.roster.insert s = .ok roster)
    (journal : List Entry) :
    Trying o s { host with roster, nextNumber := host.nextNumber + 1, journal } m where
  sound := h.sound.track hnumber hinsert
  occasion := h.occasion
  tracked := ⟨s, (Roster.get?_of_insert hinsert _).trans (if_pos rfl), rfl⟩
  others {p r} hp hr := by
    rw [← h.left h.occasion (.inl ho) hr]
    exact congrArg _ ((Roster.get?_of_insert hinsert p).trans (if_neg hp))

/-- A tracked record may be launched again before anything has been refused. -/
theorem of_get? (h : Heard (· = { occasion := some o }) host m) {p : String}
    (hget : host.roster.get? p = some s) : Trying o s host m where
  sound := h.sound
  occasion := by rw [h.known]
  tracked := ⟨s, (h.sound.keyed hget).symm ▸ hget, rfl⟩
  others _ hr := by
    rw [h.known] at hr
    cases hr

end Trying

namespace Tried

/-- A record that boots on is what such an attempt leaves, unless it could not be registered and is
new. -/
theorem settled (h : Tried o s refusal host m)
    (hr : ∀ r, refusal = some r → o.leaves r ≠ none) : Launching o host m where
  sound := h.sound
  occasion := h.occasion
  left {o'} ho _ p r hp := by
    obtain rfl := Option.some.inj (h.occasion.symm.trans ho)
    by_cases hs : s.process = p
    · subst hs
      rw [h.booting, Occasion.leaves_of_ne_none (hr r (h.refused.symm.trans hp))]
    · exact h.others hs hp

/-- A new record that could not be registered is forgotten. -/
theorem untrack (ho : o.launches) (h : Tried o s (some .registration) host m) :
    Launching o { host with roster := host.roster.removeSame s.process s.number } m where
  sound := h.sound.untrack s.process s.number
  occasion := h.occasion
  left {o'} ho' _ p r hp := by
    obtain rfl := Option.some.inj (h.occasion.symm.trans ho')
    by_cases hs : s.process = p
    · subst hs
      obtain rfl := Option.some.inj (h.refused.symm.trans hp)
      obtain ⟨t, ht, hn⟩ := h.tracked
      have htracks : host.roster.tracks s.process s.number := by simp [Roster.tracks, ht, hn]
      rw [Occasion.leaves_eq_none_iff.2 ⟨ho, rfl⟩]
      unfold phase?
      rw [Roster.get?_removeSame, if_pos ⟨rfl, htracks⟩]
      rfl
    · rw [← h.others hs hp]
      unfold phase?
      rw [Roster.get?_removeSame, if_neg fun hp => hs hp.1]

end Tried

theorem answers_command {c : Command} {a : c.Answer} :
    contract.answers (.command c) host m host' m' a ↔ host' = host ∧ m' = m.after c a :=
  Surroundings.answers_command_iff fun _ _ h => h

theorem meets_register_tried (h : Trying o s host m) :
    Attempt.Meets contract (Attempt.register s) (fun _ => Tried o s none)
      (fun _ => Tried o s (some .registration)) host m := by
  have htrying := h.update (Server.faithful_withPhase .booting)
  have hbooting := h.phase?_update (·.withPhase .booting)
  obtain ⟨t, ht, -⟩ := h.tracked
  rw [ht] at hbooting
  refine (meets_register ..).2 ⟨trivial, fun host' m' a ha => ?_⟩
  obtain ⟨rfl, rfl⟩ := answers_command.1 ha
  cases a with
  | ok i =>
    exact ⟨(htrying.update (Server.faithful_registered i)).note none,
      (htrying.phase?_update (·.registered i)).trans hbooting, refused_note_self ..⟩
  | error e => exact ⟨htrying.note _, hbooting, refused_note_self ..⟩

theorem meets_start_tried (h : Tried o s none host m) :
    Attempt.Meets contract (Attempt.start s) (fun _ => Tried o s none)
      (fun _ => Tried o s (some .start)) host m := by
  refine ⟨trivial, fun host' m' a ha => ?_⟩
  obtain ⟨rfl, rfl⟩ := answers_command.1 ha
  cases a with
  | ok _ => exact ⟨h.note none, h.booting, refused_note_self ..⟩
  | error e => exact ⟨h.note _, h.booting, refused_note_self ..⟩

/-- Once the process is registered, the record is there to stay. -/
theorem meets_start_settled (h : Tried o s none host m) :
    Attempt.Meets contract (Attempt.start s) (fun _ => Launching o) (fun _ => Launching o)
      host m := by
  refine (meets_start_tried h).mono (fun _ _ _ h => h.settled nofun) fun _ _ _ h => h.settled ?_
  rintro _ ⟨⟩
  exact Option.some_ne_none _

theorem keeps_launch (ho : o.launches) (name : String) :
    Attempt.Keeps contract (Launching o) (launch name) := by
  apply Attempt.keeps_iff.2
  intro host m h
  refine meets_launch (fun _ => h) fun spec roster server _ hserver hinsert => ?_
  have htrying := Trying.of_track ho h (hserver ▸ rfl) hinsert
    (host.journal ++ [.info ("Launching server " ++ server.identity.text)])
  exact (meets_register_tried htrying).mono (fun _ _ _ h => meets_start_settled h)
    fun _ _ _ h => h.untrack ho

theorem meets_relaunch (ho : o.relaunches) (h : Heard (· = { occasion := some o }) host m)
    {p : String} (hget : host.roster.get? p = some s) :
    Meets contract (relaunch s).run (fun _ => Settled) host m := by
  unfold Steward.relaunch
  rw [Attempt.meets_run, Attempt.meets_bind]
  refine ⟨trivial, fun host' m' answer hanswer => ?_⟩
  obtain ⟨rfl, rfl⟩ := answers_command.1 hanswer
  cases answer with
  | error e => exact h.settled
  | ok _ =>
    change Attempt.Meets contract (do Attempt.register s; Attempt.start s) _ _ host' m'
    rw [Attempt.meets_bind]
    refine (meets_register_tried (.of_get? h hget)).mono (fun _ _ _ h => ?_) fun _ _ _ h => ?_
    · exact (meets_start_settled h).mono (fun _ _ _ h => h.toSettled) fun _ _ _ h => h.toSettled
    · refine (h.settled ?_).toSettled
      rintro _ ⟨⟩
      exact fun hnone => o.not_launches_of_relaunches ho (Occasion.leaves_eq_none_iff.1 hnone).1

/-! ## Whole operations -/

/-- A command of which nothing is remembered. -/
theorem keeps_command {I : Steward → Attempts → Prop} {c : Command} (hc : ∀ m a, after m c a = m) :
    Keeps contract I (command c) := by
  refine fun host m h => ⟨trivial, fun host' m' a ha => ?_⟩
  obtain ⟨rfl, rfl⟩ := answers_command.1 ha
  exact (hc m a).symm ▸ h

theorem quiet {I : Steward → Attempts → Prop}
    (hjournal : ∀ {h m} journal, I h m → I { h with journal } m)
    (hlaunched : ∀ {h m}, I h m → I { h with launched := true } m) : Quiet contract I where
  journal := hjournal
  launched := hlaunched
  register := Surroundings.keeps_register _ _
  inventory := keeps_command fun _ _ => rfl

theorem quiet_settled : Quiet contract Settled :=
  quiet (fun _ h => h.of_eq rfl rfl) fun h => h.of_eq rfl rfl

theorem quiet_launching (o : Occasion) : Quiet contract (Launching o) :=
  quiet (fun _ h => ⟨h.of_eq rfl rfl, h.occasion⟩) fun h => ⟨h.of_eq rfl rfl, h.occasion⟩

theorem calm (P : Attempts → Prop) : Calm contract (Heard P) where
  toQuiet := quiet (fun _ h => ⟨h.sound, h.known⟩) fun h => ⟨h.sound, h.known⟩
  server number hf h := ⟨h.sound.update hf.toFaithful number, h.known⟩
  stop _ := keeps_command fun _ _ => rfl
  remove _ := keeps_command fun _ _ => rfl

theorem ending (P : Attempts → Prop) : Ending contract (Heard P) where
  toQuiet := (calm P).toQuiet
  stopping h := ⟨h.sound, h.known⟩
  cancelled h := ⟨h.sound, h.known⟩
  unregister := Surroundings.keeps_unregister _ _
  shutdown := keeps_command fun _ _ => rfl

theorem keeps_untrack (s : Server) : Keeps contract (Heard P) (untrack s) :=
  fun _ _ h => ⟨h.sound.untrack s.process s.number, h.known⟩

theorem keeps_recognize (process : String) (phase : Phase) :
    Keeps contract (Heard P) (recognize process phase) :=
  (calm P).toQuiet.recognize (fun h hinsert => ⟨(h.sound.track rfl hinsert).update
    (Server.faithful_diagnose "recognized after reconnect") _, h.known⟩) process phase

theorem served (o : Occasion) : Served contract (Heard (·.occasion = some o)) where
  toCalm := calm _
  start p := by
    refine fun host m h => ⟨trivial, fun host' m' a ha => ?_⟩
    obtain ⟨rfl, rfl⟩ := answers_command.1 ha
    exact ⟨h.sound, (occasion_after m (.start p) a).trans h.known⟩
  recognize := keeps_recognize
  stopNow h _ := (calm _).stopNow keeps_untrack _ _ _ h

theorem meets_startServer (ho : o.launches) (h : Heard (· = { occasion := some o }) host m)
    (name : String) : (startServer name).Meets contract (fun _ => Settled) host m := by
  have hlaunch : Leads contract (Heard (· = { occasion := some o })) Settled (launch name).run :=
    fun host m h => (keeps_launch ho name host m h.launching).mono fun _ _ _ h => h.toSettled
  -- everything has been asked for before the wait, in which another occasion may take over
  exact quiet_settled.startServer (Surroundings.keeps_wait _ _ _)
    ((calm _).leads_tryStartServer (fun h => h.settled) keeps_untrack hlaunch host m h)

theorem meets_launching (ho : o.launches) (h : Heard (· = { occasion := some o }) host m) :
    o.operation.Meets contract (fun _ => Settled) host m := by
  have hquiet := quiet_launching o
  cases o with
  | stopServer | notice | restart | stop => cases ho
  | start =>
    exact (Keeps.bind (hquiet.start (keeps_launch ho)) fun _ => keeps_pure () :
      Keeps contract (Launching .start) Occasion.start.operation) host m h.launching |>.mono
        fun _ _ _ h => h.toSettled
  | startServers =>
    exact (hquiet.startServers (keeps_launch ho) host m h.launching).mono fun _ _ _ h => h.toSettled
  | startServer name => exact (meets_bind ..).2 (meets_startServer ho h name)
  | restartServer name gracefulTimeout =>
    refine (meets_bind ..).2 ((meets_bind ..).2 ?_)
    have hstop := (calm _).stopServer (fun h _ => (calm _).stopNow keeps_untrack _ _ _ h) name
      gracefulTimeout host m h
    exact hstop.mono fun _ _ _ h => meets_startServer ho h name

theorem meets_relaunching (ho : o.relaunches) (h : Heard (· = { occasion := some o }) host m) :
    o.operation.Meets contract (fun _ => Settled) host m := by
  have hcalm := calm (· = { occasion := some o })
  have hdown (p : String) :
      Leads contract (Heard (· = { occasion := some o })) Settled (serverDown p) := by
    refine hcalm.serverDown quiet_settled (fun h => h.settled)
      (fun h hget _ => meets_relaunch ho h hget) (fun h _ => ?_) p
    exact (hcalm.scheduleRestart (fun _ h => ⟨h.sound, h.known⟩) (fun _ _ h => ⟨h.sound, h.known⟩)
      _ _ _ h).mono fun _ _ _ h => h.settled
  rcases Occasion.cases_of_relaunches ho with ⟨r, rfl⟩ | ⟨p, rfl⟩ | ⟨p, i, uptime, rfl⟩
  · exact hcalm.fire quiet_settled (fun h => h.settled) (fun h hget _ => meets_relaunch ho h hget)
      ⟨h.sound, h.known⟩
  · exact hdown p host m h
  · exact hcalm.processStopped (fun h => h.settled) (hdown p) i uptime host m h

theorem meets_operation (o : Occasion) (h : Settled host m) :
    o.operation.Meets contract (fun _ => Settled) host { occasion := some o } := by
  have hfresh : Heard (· = { occasion := some o }) host { occasion := some o } := ⟨h.sound, rfl⟩
  have hknown : Heard (·.occasion = some o) host { occasion := some o } := ⟨h.sound, rfl⟩
  rcases o.classes with ho | ho | ho | ho | ⟨p, rfl⟩
  · exact ((served o).plain ho host _ hknown).mono
      fun _ _ _ h => h.settled_of_not (Occasion.not_launches_of_plain ho)
  · exact meets_launching ho hfresh
  · exact meets_relaunching ho hfresh
  · exact ((ending _).stops ho host _ hknown).mono
      fun _ _ _ h => h.settled_of_not (Occasion.not_launches_of_stops ho)
  · exact ((calm _).serverStarted (fun _ h => ⟨h.sound, h.known⟩) p host _ hknown).mono
      fun _ _ _ h => h.settled_of_not ⟨nofun, nofun⟩

end Attempts

open Attempts

variable {settings : Settings} {model : Option HostModel} {inDomain : Bool} {s : System Attempts}

theorem Attempts.settled_make : Settled (.make settings model inDomain) {} where
  sound := Roster.sound_empty _
  left _ _ _ _ hr := by cases hr

theorem System.Reaches.settled
    (h : System.Reaches surroundings ⟨.make settings model inDomain, {}, none, []⟩ s)
    (hidle : s.active = none) : Settled s.host s.around := by
  have hself : surroundings.SeenAs surroundings id := ⟨fun h => h, fun h => .single h⟩
  have hsteady : System.Steady surroundings (fun _ _ _ _ => True) Settled :=
    ⟨fun h => h.elim, fun h => h.elim⟩
  have horder : System.InOrder surroundings (fun _ _ _ _ => True) Settled id s := by
    refine System.InOrder.reaches hself hsteady (fun {host m o m'} hcall hs => ?_) ⟨?_, by simp⟩ h
    · obtain rfl : m' = { occasion := some o } := hcall
      exact meets_operation o hs
    · exact settled_make
  obtain ⟨host, m, active, sleepers⟩ := s
  cases hidle
  exact horder.active

/-- A record that boots already is not launched again. -/
theorem Steward.tryStartServer_of_booting {host : Steward} {name : String} {server : Server}
    (hget : host.server? name = some server) (hbooting : server.phase = .booting) :
    ∃ e, (tryStartServer name).run host =
      .done { host with journal := host.journal ++ [e] } (.ok ()) := by
  refine ⟨.warning ("Received request to start server " ++ name ++
    " but it is not stopped; server state is " ++ server.phase.label), ?_⟩
  unfold tryStartServer
  rw [Attempt.bind_of_done (Attempt.run_current host), hget]
  simp only [hbooting]
  rfl

theorem Steward.tryStartServer_of_untracked {host : Steward} {name : String}
    (hget : host.server? name = none) :
    (tryStartServer name).run host = (launch name).run host := by
  unfold tryStartServer
  rw [Attempt.bind_of_done (Attempt.run_current host), hget]

theorem Steward.status_eq {host : Steward} {name : String} {server : Server} {spec : ServerSpec}
    (hget : host.server? name = some server) (hspec : host.model.server? name = some spec) :
    host.status name = server.phase.status := by
  have hname : spec.name = name := by simpa using List.find?_some hspec
  have hroster : host.roster.get? spec.processName = some server := by
    unfold ServerSpec.processName
    rw [hname]
    exact hget
  unfold status statusOf
  rw [hspec]
  simp only [hroster]

/-- After a run of any operations, whichever commands were refused, the server that the last one
launched is untracked if it was to have a new record and could not be registered, and the next start
launches it. After every other refusal, and no matter which of the operations that launch it was, it
is left booting: it is reported to be starting, and a start asks for nothing. -/
theorem refusals_exact
    (h : System.Reaches surroundings ⟨.make settings model inDomain, {}, none, []⟩ s)
    (hidle : s.active = none) {o : Occasion} (ho : s.around.occasion = some o)
    (hlaunch : o.launches ∨ o.relaunches) {name : String} {r : Refusal}
    (hr : s.around.refused (processName name) = some r) :
    (o.launches ∧ r = .registration → s.host.server? name = none ∧
      (tryStartServer name).run s.host = (launch name).run s.host) ∧
    (¬ (o.launches ∧ r = .registration) →
      (∃ server, s.host.server? name = some server ∧ server.phase = .booting) ∧
      (∀ spec, s.host.model.server? name = some spec → s.host.status name = .starting) ∧
      ∃ e, (tryStartServer name).run s.host =
        .done { s.host with journal := s.host.journal ++ [e] } (.ok ())) := by
  have hleft := (h.settled hidle).left ho hlaunch hr
  refine ⟨fun hforgotten => ?_, fun hkept => ?_⟩
  · rw [Occasion.leaves_eq_none_iff.2 hforgotten] at hleft
    have hget : s.host.server? name = none := Option.map_eq_none_iff.1 hleft
    exact ⟨hget, tryStartServer_of_untracked hget⟩
  · have hkept : o.leaves r ≠ none := fun hnone => hkept (Occasion.leaves_eq_none_iff.1 hnone)
    rw [Occasion.leaves_of_ne_none hkept] at hleft
    obtain ⟨server, hget, hbooting⟩ := Option.map_eq_some_iff.1 hleft
    refine ⟨⟨server, hget, hbooting⟩, fun spec hspec => ?_, tryStartServer_of_booting hget hbooting⟩
    rw [status_eq hget hspec, hbooting]
    rfl

/-- An operator starts a server without a command: its process is registered, but cannot be started.
The operator has waited for it, and the server still boots. -/
theorem refusals_exact_startServer :
    ∃ s : System Attempts,
      System.Reaches surroundings ⟨.make { lifecycle := { startPollAttempts := 1 } }
        (some (.single "a" [])) false, {}, none, []⟩ s ∧
      s.active = none ∧ s.sleepers = [] ∧ s.around.occasion = some (.startServer "a") ∧
      s.around.refused "Server:a" = some .start ∧ s.host.status "a" = .starting ∧
      ∃ e, (tryStartServer "a").run s.host =
        .done { s.host with journal := s.host.journal ++ [e] } (.ok ()) := by
  have hcall : System.Reaches surroundings ⟨.make { lifecycle := { startPollAttempts := 1 } }
      (some (.single "a" [])) false, {}, none, []⟩ _ :=
    .single (.call (o := .startServer "a") rfl)
  have hadd := hcall.tail (.command (c := .add "Server:a" {}) (a := .ok 1) rfl)
  have hstart := hadd.tail (.command (c := .start "Server:a")
    (a := .error (.noCommand "Server:a")) rfl)
  have hended := ((hstart.tail .sleep).tail (@System.Step.wake _ _ _ _ [] _ _ [])).tail .finish
  have hrefused {m : Attempts} :
      (m.note "Server:a" (some .start)).refused (processName "a") = some .start :=
    refused_note_self m (processName "a") _
  obtain ⟨-, hblocked⟩ := refusals_exact hended rfl rfl (.inl rfl) hrefused
  obtain ⟨-, hstarting, hasks⟩ := hblocked fun h => nomatch h.2
  exact ⟨_, hended, rfl, rfl, rfl, by decide, hstarting _ rfl, hasks⟩

end HostSteward
