import HostSteward.Proofs.Steward.Interleaving
import HostSteward.Proofs.Steward.Refusals

/-!
# Operators in control

Whatever has happened before, and in whatever phase a server has been left, an operator can stop it,
start it and start it anew as soon as the supervisor accepts commands. No other server is touched by
this, and asking twice does nothing more.

There is one state out of which operators do not come. A launch tracks its record before the process
is registered, so that a server can be stopped and forgotten while it is being launched. The launch
goes on nevertheless, and leaves a process that is registered for no record: nothing stops it any
more, and it keeps the server from being launched again.
-/

namespace HostSteward

open Operation Steward

structure Dealings where
  registered : Registrations := fun _ => none
  /-- The incarnations that have been given out. -/
  issued : List Incarnation := []
  received : List Command := []

namespace Dealings

def after (d : Dealings) (c : Command) (a : c.Answer) : Dealings where
  registered := d.registered.after c a
  issued := d.issued ++ ((Request.command c).given a).toList
  received := d.received ++ [c]

theorem issued_after_eq (d : Dealings) {c : Command} {a : c.Answer}
    (hnone : (Request.command c).given a = none) : (d.after c a).issued = d.issued := by
  unfold after
  rw [hnone]
  exact List.append_nil _

/-- A supervisor that accepts commands and refuses them as it likes. -/
def fickle : Surroundings Dealings where
  obeys d c d' a := d' = d.after c a
  moves _ _ := False
  calls _ d _ d' := d' = d

end Dealings

/-- Every command is accepted, except that a process is not added as long as it is registered. -/
def Command.Accepted (registered : Registrations) : (c : Command) → c.Answer → Prop
  | .add p _, .ok _ => registered p = none
  | .add p _, .error e => registered p ≠ none ∧ e = .alreadyRegistered p
  | .start _, .ok _ | .stop _, .ok _ | .remove _, .ok _ => True
  | .requestInventory, .ok _ | .shutdown, .ok _ => True
  | _, _ => False

/-- The contract with a supervisor that accepts commands, when nobody else acts. Every registration
gets a new incarnation. -/
def accepting : Contract Dealings where
  owes _ _ _ := True
  answers r host d host' d' a :=
    host' = host ∧
    match r, a with
    | .command c, a => c.Accepted d.registered a ∧ d' = d.after c a ∧
      ∀ i, (Request.command c).given a = some i → i ∉ d.issued
    | _, _ => d' = d

structure Steward.Apart (host before : Steward) (process : String) : Prop where
  sound : host.roster.Sound host.nextNumber
  model : host.model = before.model
  others : ∀ p, process ≠ p → host.roster.get? p = before.roster.get? p

variable {σ : Type} {C : Contract σ} {host before : Steward} {d : Dealings} {s : Server}
  {spec : ServerSpec} {name process : String}

namespace Steward.Apart

theorem refl (hsound : host.roster.Sound host.nextNumber) (process : String) :
    host.Apart host process := ⟨hsound, rfl, fun _ _ => rfl⟩

theorem journal (h : host.Apart before process) (journal : List Entry) :
    Apart { host with journal } before process := ⟨h.sound, h.model, h.others⟩

theorem update (h : host.Apart before s.process) (ht : host.Tracks s) {f : Server → Server}
    (hf : Server.Faithful f) :
    Apart { host with roster := host.roster.update s.number f } before s.process where
  sound := h.sound.update hf s.number
  model := h.model
  others p hp := (ht.get?_update_of_ne h.sound hp f).trans (h.others p hp)

theorem untrack (h : host.Apart before s.process) :
    Apart { host with roster := host.roster.removeSame s.process s.number } before s.process where
  sound := h.sound.untrack s.process s.number
  model := h.model
  others p hp := by
    rw [Roster.get?_removeSame, if_neg fun hs => hp hs.1]
    exact h.others p hp

theorem track (h : host.Apart before s.process) {roster : Roster}
    (hnumber : s.number = host.nextNumber) (hinsert : host.roster.insert s = .ok roster) :
    Apart { host with roster, nextNumber := host.nextNumber + 1 } before s.process where
  sound := h.sound.track hnumber hinsert
  model := h.model
  others p hp := by
    rw [Roster.get?_of_insert hinsert, if_neg hp]
    exact h.others p hp

end Steward.Apart

/-! ## Commands that are accepted -/

theorem meets_wait_accepting (I : Steward → Dealings → Prop) (duration : Duration) :
    Keeps accepting I (ask (.wait duration)) := by
  refine fun host d h => ⟨trivial, ?_⟩
  rintro host' d' a ⟨rfl, rfl⟩
  exact h

section Accepted

variable {post : Outlook Dealings Unit} {failed : Outlook Dealings Failure}

theorem meets_start_accepting (h : post () host (d.after (.start s.process) (.ok ()))) :
    Attempt.Meets accepting (Attempt.start s) post failed host d := by
  refine ⟨trivial, ?_⟩
  rintro host' d' (e | u) ⟨rfl, haccepted, rfl, -⟩
  · exact haccepted.elim
  · exact h

theorem meets_remove_accepting (h : post () host (d.after (.remove s.process) (.ok ()))) :
    Attempt.Meets accepting (Attempt.remove s) post failed host d := by
  refine ⟨trivial, ?_⟩
  rintro host' d' (e | u) ⟨rfl, haccepted, rfl, -⟩
  · exact haccepted.elim
  · exact h

theorem meets_stop_accepting (h : post ()
      { host with roster := host.roster.update s.number (·.withPhase .stopping) }
      (d.after (.stop s.process) (.ok ()))) :
    Attempt.Meets accepting (Attempt.stop s) post failed host d := by
  unfold Attempt.stop
  rw [Attempt.meets_bind, Attempt.meets_lift, meets_setPhase]
  refine ⟨trivial, ?_⟩
  rintro host' d' (e | u) ⟨rfl, haccepted, rfl, -⟩
  · exact haccepted.elim
  · exact h

theorem meets_register_accepting (hnone : d.registered s.process = none)
    (h : ∀ i, i ∉ d.issued → post ()
      { host with
        roster := (host.roster.update s.number (·.withPhase .booting)).update s.number
          (·.registered i) } (d.after (.add s.process s.spec.launch) (.ok i))) :
    Attempt.Meets accepting (Attempt.register s) post failed host d := by
  refine (meets_register ..).2 ⟨trivial, ?_⟩
  rintro host' d' (e | i) ⟨rfl, haccepted, rfl, hfresh⟩
  · exact absurd hnone haccepted.1
  · exact h i (hfresh i rfl)

theorem meets_register_refusing (hsome : d.registered s.process ≠ none)
    (h : failed (.alreadyRegistered s.process)
      { host with roster := host.roster.update s.number (·.withPhase .booting) }
      (d.after (.add s.process s.spec.launch) (.error (.alreadyRegistered s.process)))) :
    Attempt.Meets accepting (Attempt.register s) post failed host d := by
  refine (meets_register ..).2 ⟨trivial, ?_⟩
  rintro host' d' (e | i) ⟨rfl, haccepted, rfl, -⟩
  · obtain ⟨-, rfl⟩ := haccepted
    exact h
  · exact absurd haccepted hsome

end Accepted

/-! ## Stopping -/

def Dealings.released (d : Dealings) (process : String) : Dealings :=
  (d.after (.stop process) (.ok ())).after (.remove process) (.ok ())

theorem Dealings.issued_released (d : Dealings) (process : String) :
    (d.released process).issued = d.issued :=
  (issued_after_eq _ rfl).trans (issued_after_eq _ rfl)

theorem Dealings.received_released (d : Dealings) (process : String) :
    (d.released process).received = d.received ++ [.stop process, .remove process] :=
  List.append_assoc ..

theorem meets_stopNow_accepting (h : host.Apart before s.process) (ht : host.Tracks s) :
    Attempt.Meets accepting (stopNow s)
      (fun _ host' d' => host'.Apart before s.process ∧ host'.nextNumber = host.nextNumber ∧
        host'.roster.get? s.process = none ∧ d' = d.released s.process)
      (fun _ _ _ => False) host d := by
  unfold stopNow
  rw [Attempt.meets_bind, Attempt.meets_lift]
  refine meets_checkPhase_update fun journal => ?_
  have hchecked := Server.faithful_check stoppable "stop"
  have hstopping := Server.faithful_withPhase .stopping
  have hstopped := Server.faithful_withPhase .stopped
  rw [Attempt.meets_bind]
  apply meets_stop_accepting
  rw [Attempt.meets_bind]
  apply meets_remove_accepting
  simp only [Attempt.meets_bind, Attempt.meets_lift, meets_setPhase, meets_tell]
  have htracks := ((ht.update hchecked s.number).update hstopping s.number).update hstopped s.number
  refine ⟨?_, rfl, htracks.get?_removeSame, rfl⟩
  have hafter := ((h.update ht hchecked).update (ht.update hchecked s.number) hstopping).update
    ((ht.update hchecked s.number).update hstopping s.number) hstopped
  exact hafter.untrack.journal _

def HostModel.idleStatus (m : HostModel) (name : String) : Status :=
  match m.server? name with
  | none => .doesNotExist
  | some spec => if spec.autoStart then .stopped else .disabled

theorem Steward.status_of_untracked (hnone : host.server? name = none) :
    host.status name = host.model.idleStatus name := by
  unfold status HostModel.idleStatus
  cases hspec : host.model.server? name with
  | none => rfl
  | some spec =>
    have hroster : host.roster.get? spec.processName = none :=
      HostModel.processName_of_server? hspec ▸ hnone
    simp only [statusOf, hroster]

/-- Stopping a server that is not tracked tells its status. -/
theorem meets_stopServer_untracked (hnone : host.server? name = none) {gracefulTimeout : Int}
    {post : Outlook σ Status} {s : σ} (hpost : post (host.model.idleStatus name) host s) :
    (stopServer name gracefulTimeout).Meets C post host s := by
  unfold stopServer
  rw [meets_bind, meets_current, hnone]
  simp only [meets_bind, meets_current, meets_pure]
  rw [status_of_untracked hnone]
  exact hpost

structure Forgotten (before : Steward) (name : String) (host : Steward) : Prop where
  apart : host.Apart before (processName name)
  number : host.nextNumber = before.nextNumber
  untracked : host.server? name = none

/-- An accepted stop releases the process and forgets its server. -/
theorem meets_stopServer_tracked (hsound : host.roster.Sound host.nextNumber)
    (hget : host.server? name = some s) (gracefulTimeout : Int) :
    (stopServer name gracefulTimeout).Meets accepting
      (fun status host' d' => status = host.model.idleStatus name ∧ Forgotten host name host' ∧
        d' = d.released (processName name)) host d := by
  have hkey : s.process = processName name := hsound.keyed hget
  have hrest {next : Except Failure Unit → Operation Status}
      (hok : next (.ok ()) = (do return (← current).status name)) (journal : List Entry) :
      Meets accepting ((stopNow s).run >>= next)
        (fun status host' d' => status = host.model.idleStatus name ∧ Forgotten host name host' ∧
          d' = d.released (processName name)) { host with journal } d := by
    rw [meets_bind, Attempt.meets_run]
    have hapart : Apart { host with journal } host s.process :=
      (Apart.refl hsound _).journal journal
    refine (meets_stopNow_accepting hapart ⟨s, hkey ▸ hget, rfl⟩).mono (fun _ host' d' h => ?_)
      fun _ _ _ h => h.elim
    obtain ⟨hapart, hnumber, hnone, rfl⟩ := h
    rw [hkey] at hapart hnone ⊢
    rw [hok, meets_bind, meets_current, meets_pure]
    exact ⟨(status_of_untracked hnone).trans (by rw [hapart.model]), ⟨hapart, hnumber, hnone⟩, rfl⟩
  unfold stopServer
  rw [meets_bind, meets_current, hget]
  simp only
  by_cases hgraceful : -1 < gracefulTimeout
  · rw [if_pos hgraceful, meets_bind, meets_tell]
    exact hrest rfl _
  · rw [if_neg hgraceful]
    exact hrest rfl host.journal

/-- The commands that release a process, if its server is tracked. -/
def Steward.releases (host : Steward) (name : String) : List Command :=
  if (host.server? name).isSome then [.stop (processName name), .remove (processName name)] else []

structure Released (before : Steward) (earlier : Dealings) (name : String) (host : Steward)
    (d : Dealings) : Prop where
  forgotten : Forgotten before name host
  received : d.received = earlier.received ++ before.releases name
  untracked : before.server? name = none → host = before ∧ d = earlier

theorem meets_stopServer_accepting (hsound : host.roster.Sound host.nextNumber)
    (gracefulTimeout : Int) :
    (stopServer name gracefulTimeout).Meets accepting
      (fun status host' d' => status = host.model.idleStatus name ∧ Released host d name host' d')
      host d := by
  cases hget : host.server? name with
  | none =>
    have hforgotten : Forgotten host name host := ⟨.refl hsound _, rfl, hget⟩
    refine meets_stopServer_untracked hget ⟨rfl, hforgotten, ?_, fun _ => ⟨rfl, rfl⟩⟩
    simp [releases, hget]
  | some s =>
    refine (meets_stopServer_tracked hsound hget gracefulTimeout).mono ?_
    rintro status host' d' ⟨hstatus, hforgotten, rfl⟩
    refine ⟨hstatus, hforgotten, ?_, fun hnone => nomatch hget.symm.trans hnone⟩
    simp [releases, hget, d.received_released]

/-! ## Starting -/

/-- A new record boots under an incarnation that was not among those given out before, and no other
server has been touched. -/
structure Booted (before : Steward) (issued : List Incarnation) (received : List Command)
    (spec : ServerSpec) (host : Steward) (d : Dealings) : Prop where
  apart : host.Apart before spec.processName
  booting : ∃ i, i ∉ issued ∧ host.roster.get? spec.processName = some
    { Server.ofSpec before.nextNumber before.hostName spec .booting with incarnation := some i }
  received : d.received = received ++ [.add spec.processName spec.launch, .start spec.processName]

/-- A server that is not tracked is launched by registering and starting the process of a new
record. -/
theorem meets_launch_untracked (hspec : host.model.server? name = some spec)
    (hnone : host.roster.get? spec.processName = none) {post : Outlook σ Unit}
    {failed : Outlook σ Failure} {t : σ}
    (h : ∀ roster, ∀ server : Server,
      server = .ofSpec host.nextNumber host.hostName spec .booting →
      host.roster.insert server = .ok roster →
      Attempt.Meets C (Attempt.register server)
        (fun _ => Attempt.Meets C (Attempt.start server) post failed)
        (fun e host => failed e
          { host with roster := host.roster.removeSame server.process server.number })
        { host with
          roster, nextNumber := host.nextNumber + 1
          journal := host.journal ++ [.info ("Launching server " ++ server.identity.text)] } t) :
    Attempt.Meets C (launch name) post failed host t := by
  obtain ⟨roster, hinsert⟩ :
      ∃ roster, host.roster.insert (.ofSpec host.nextNumber host.hostName spec .booting) = .ok roster :=
    ⟨_, Roster.insert_eq_ok_iff.2 ⟨hnone, rfl⟩⟩
  unfold launch
  rw [Attempt.meets_bind, Attempt.meets_lift, meets_current, hspec]
  simp only [Attempt.meets_bind, meets_track, hinsert, Attempt.meets_lift, meets_tell]
  rw [Attempt.meets_tryCatch]
  exact h roster _ rfl hinsert

theorem meets_launch_accepting (h : host.Apart before spec.processName)
    (hnumber : host.nextNumber = before.nextNumber)
    (hspec : host.model.server? name = some spec)
    (hnone : host.roster.get? spec.processName = none)
    (hfree : d.registered spec.processName = none) :
    Attempt.Meets accepting (launch name) (fun _ => Booted before d.issued d.received spec)
      (fun _ _ _ => False) host d := by
  apply meets_launch_untracked hspec hnone
  rintro roster server rfl hinsert
  apply meets_register_accepting hfree
  intro i hi
  apply meets_start_accepting
  have hget := (Roster.get?_of_insert hinsert spec.processName).trans (if_pos rfl)
  have htracked := (h.track rfl hinsert).journal (host.journal ++ [.info ("Launching server " ++
    (Server.ofSpec host.nextNumber host.hostName spec .booting).identity.text)])
  have htracks : Steward.Tracks { host with
      roster, nextNumber := host.nextNumber + 1
      journal := host.journal ++ [.info ("Launching server " ++
        (Server.ofSpec host.nextNumber host.hostName spec .booting).identity.text)] }
      (.ofSpec host.nextNumber host.hostName spec .booting) := ⟨_, hget, rfl⟩
  have hbooting := Server.faithful_withPhase .booting
  refine ⟨(htracked.update htracks hbooting).update (htracks.update hbooting _)
    (Server.faithful_registered i), ⟨i, hi, ?_⟩, List.append_assoc ..⟩
  rw [← hnumber, show before.hostName = host.hostName by unfold hostName; rw [h.model]]
  exact Roster.get?_update_self (Roster.get?_update_self hget (·.withPhase .booting))
    (·.registered i)

structure Stray (host : Steward) (d : Dealings) (process : String) : Prop where
  untracked : host.roster.get? process = none
  registered : d.registered process ≠ none

/-- A launch has come to nothing, since a stray process was in its way. It still is. -/
structure TurnedAway (before : Steward) (received : List Command) (spec : ServerSpec)
    (host : Steward) (d : Dealings) : Prop where
  apart : host.Apart before spec.processName
  stray : Stray host d spec.processName
  received : d.received = received ++ [.add spec.processName spec.launch]

theorem meets_launch_stray (hsound : host.roster.Sound host.nextNumber)
    (hspec : host.model.server? name = some spec) (hstray : Stray host d spec.processName) :
    Attempt.Meets accepting (launch name) (fun _ _ _ => False)
      (fun _ => TurnedAway host d.received spec) host d := by
  apply meets_launch_untracked hspec hstray.untracked
  rintro roster server rfl hinsert
  apply meets_register_refusing hstray.registered
  have hget := (Roster.get?_of_insert hinsert spec.processName).trans (if_pos rfl)
  have htracked := ((Apart.refl hsound spec.processName).track rfl hinsert).journal
    (host.journal ++ [.info ("Launching server " ++
      (Server.ofSpec host.nextNumber host.hostName spec .booting).identity.text)])
  have hbooting := Server.faithful_withPhase .booting
  have htracks : Steward.Tracks { host with
      roster, nextNumber := host.nextNumber + 1
      journal := host.journal ++ [.info ("Launching server " ++
        (Server.ofSpec host.nextNumber host.hostName spec .booting).identity.text)] }
      (.ofSpec host.nextNumber host.hostName spec .booting) := ⟨_, hget, rfl⟩
  exact ⟨(htracked.update htracks hbooting).untrack,
    ⟨(htracks.update hbooting _).get?_removeSame, hstray.registered⟩, rfl⟩

/-- A server that is tracked and has not stopped is not started. -/
theorem meets_tryStartServer_unstopped (hget : host.server? name = some s)
    (hphase : s.phase ≠ .stopped) {post : Outlook σ Unit} {failed : Outlook σ Failure} {t : σ}
    (hpost : ∀ journal, post () { host with journal } t) :
    Attempt.Meets C (tryStartServer name) post failed host t := by
  unfold tryStartServer
  rw [Attempt.meets_bind, Attempt.meets_lift, meets_current, hget]
  simp only
  rw [if_neg hphase, Attempt.meets_lift]
  exact hpost _

theorem meets_tryStartServer_untracked (hnone : host.server? name = none) {post : Outlook σ Unit}
    {failed : Outlook σ Failure} {t : σ}
    (hlaunch : Attempt.Meets C (launch name) post failed host t) :
    Attempt.Meets C (tryStartServer name) post failed host t := by
  unfold tryStartServer
  rw [Attempt.meets_bind, Attempt.meets_lift, meets_current, hnone]
  exact hlaunch

/-- The record of a stopped server makes way for a new one. -/
theorem meets_tryStartServer_stopped (hsound : host.roster.Sound host.nextNumber)
    (hspec : host.model.server? name = some spec) (hget : host.server? name = some s)
    (hstopped : s.phase = .stopped) :
    Attempt.Meets accepting (tryStartServer name)
      (fun _ => Booted host d.issued (d.received ++ [.remove (processName name)]) spec)
      (fun _ _ _ => False) host d := by
  have hkey : spec.processName = s.process :=
    (HostModel.processName_of_server? hspec).trans (hsound.keyed hget).symm
  have htracks : host.Tracks s := ⟨s, (hsound.keyed hget).symm ▸ hget, rfl⟩
  unfold tryStartServer
  rw [Attempt.meets_bind, Attempt.meets_lift, meets_current, hget]
  simp only
  rw [if_pos hstopped, Attempt.meets_bind]
  apply meets_remove_accepting
  rw [Attempt.meets_bind, Attempt.meets_lift, ← hsound.keyed hget,
    ← d.issued_after_eq (c := .remove s.process) (a := .ok ()) rfl]
  refine meets_launch_accepting (hkey ▸ (Apart.refl hsound _).untrack) rfl hspec
    (hkey ▸ htracks.get?_removeSame) ?_
  rw [hkey]
  exact if_pos rfl

/-- Waiting for a server changes nothing when nobody else acts. -/
theorem meets_startServer_accepting {I : Steward → Dealings → Prop}
    (htry : Attempt.Meets accepting (tryStartServer name) (fun _ => I)
      (fun _ host d => ∀ journal, I { host with journal } d) host d) :
    (startServer name).Meets accepting (fun _ => I) host d := by
  have hrest := keeps_current fun host d (h : I host d) =>
    keeps_pollWhileStarting (meets_wait_accepting I) name host.settings.lifecycle.pollInterval
      host.settings.lifecycle.startPollAttempts.toNat (host.status name) host d h
  unfold startServer
  rw [meets_bind, Attempt.meets_run]
  exact htry.mono (fun _ host d h => hrest host d h) fun _ host d h => hrest _ d (h _)

/-- Starting a server that has not stopped asks for nothing. -/
theorem meets_startServer_unstopped (hget : host.server? name = some s)
    (hphase : s.phase ≠ .stopped) :
    (startServer name).Meets accepting
      (fun _ host' d' => d' = d ∧ ∃ journal, host' = { host with journal }) host d :=
  meets_startServer_accepting (meets_tryStartServer_unstopped hget hphase fun _ => ⟨rfl, _, rfl⟩)

/-- What has just been made to boot is not started again. -/
theorem Booted.meets_startServer {issued : List Incarnation} {received : List Command}
    (h : Booted before issued received spec host d)
    (hspec : before.model.server? name = some spec) :
    (startServer name).Meets accepting
      (fun _ host' d' => d' = d ∧ ∃ journal, host' = { host with journal }) host d := by
  obtain ⟨i, -, hget⟩ := h.booting
  rw [HostModel.processName_of_server? hspec] at hget
  exact meets_startServer_unstopped hget nofun

theorem meets_startServer_untracked (h : Forgotten before name host)
    (hspec : before.model.server? name = some spec)
    (hfree : d.registered (processName name) = none) :
    (startServer name).Meets accepting (fun _ => Booted before d.issued d.received spec) host d := by
  have hkey := HostModel.processName_of_server? hspec
  have hlaunch := meets_launch_accepting (hkey ▸ h.apart) h.number (h.apart.model ▸ hspec)
    (hkey ▸ h.untracked) (hkey ▸ hfree)
  exact meets_startServer_accepting (meets_tryStartServer_untracked h.untracked
    (hlaunch.mono (fun _ _ _ h => h) fun _ _ _ h => h.elim))

theorem meets_startServer_stray (hsound : host.roster.Sound host.nextNumber)
    (hspec : host.model.server? name = some spec) (hstray : Stray host d (processName name)) :
    (startServer name).Meets accepting (fun _ => TurnedAway host d.received spec) host d := by
  have hkey := HostModel.processName_of_server? hspec
  have hlaunch := meets_launch_stray hsound hspec (hkey ▸ hstray)
  refine meets_startServer_accepting (meets_tryStartServer_untracked hstray.untracked
    (hlaunch.mono (fun _ _ _ h => h.elim) fun _ host' d' h journal => ?_))
  exact ⟨h.apart.journal journal, ⟨h.stray.untracked, h.stray.registered⟩, h.received⟩

theorem meets_startServer_stopped (hsound : host.roster.Sound host.nextNumber)
    (hspec : host.model.server? name = some spec) (hget : host.server? name = some s)
    (hstopped : s.phase = .stopped) :
    (startServer name).Meets accepting (fun _ =>
      Booted host d.issued (d.received ++ [.remove (processName name)]) spec) host d :=
  meets_startServer_accepting ((meets_tryStartServer_stopped hsound hspec hget hstopped).mono
    (fun _ _ _ h => h) fun _ _ _ h => h.elim)

/-! ## In control -/

structure Started (before : Steward) (earlier : Dealings) (name : String) (spec : ServerSpec)
    (host : Steward) (d : Dealings) : Prop where
  unstopped : ∀ s, before.server? name = some s → s.phase ≠ .stopped →
    d = earlier ∧ ∃ journal, host = { before with journal }
  stopped : ∀ s, before.server? name = some s → s.phase = .stopped →
    Booted before earlier.issued (earlier.received ++ [.remove (processName name)]) spec host d
  untracked : before.server? name = none → earlier.registered (processName name) = none →
    Booted before earlier.issued earlier.received spec host d
  stray : Stray before earlier (processName name) →
    TurnedAway before earlier.received spec host d
  again : ¬ Stray before earlier (processName name) → (startServer name).Meets accepting
    (fun _ host' d' => d' = d ∧ ∃ journal, host' = { host with journal }) host d

/-- What requests for a server come to as soon as the supervisor accepts commands. Unless the
server's process is stray, operators have their way. -/
structure Commanded (host : Steward) (d : Dealings) (name : String) : Prop where
  stop : ∀ gracefulTimeout, (stopServer name gracefulTimeout).Meets accepting
    (fun status host' d' => status = host.model.idleStatus name ∧ Released host d name host' d' ∧
      ∀ gracefulTimeout', (stopServer name gracefulTimeout').Meets accepting
        (fun status' host'' d'' => status' = status ∧ host'' = host' ∧ d'' = d') host' d') host d
  start : ∀ spec, host.model.server? name = some spec →
    (startServer name).Meets accepting (fun _ => Started host d name spec) host d
  restart : ∀ spec, host.model.server? name = some spec → ∀ gracefulTimeout,
    (restartServer name gracefulTimeout).Meets accepting (fun _ host' d' =>
      (¬ Stray host d (processName name) →
        Booted host d.issued (d.received ++ host.releases name) spec host' d') ∧
      (Stray host d (processName name) → TurnedAway host d.received spec host' d')) host d

theorem meets_startServer_started (hsound : host.roster.Sound host.nextNumber)
    (hspec : host.model.server? name = some spec) :
    (startServer name).Meets accepting (fun _ => Started host d name spec) host d := by
  cases hget : host.server? name with
  | none =>
    have hforgotten : Forgotten host name host := ⟨.refl hsound _, rfl, hget⟩
    have hnot {t : Server} {P : Prop} (ht : host.server? name = some t) : P :=
      nomatch hget.symm.trans ht
    by_cases hfree : d.registered (processName name) = none
    · refine (meets_startServer_untracked hforgotten hspec hfree).mono fun _ host' d' h => ?_
      exact ⟨fun _ ht => hnot ht, fun _ ht => hnot ht, fun _ _ => h,
        fun hstray => absurd hfree hstray.registered, fun _ => h.meets_startServer hspec⟩
    · have hstray : Stray host d (processName name) := ⟨hget, hfree⟩
      refine (meets_startServer_stray hsound hspec hstray).mono fun _ host' d' h => ?_
      exact ⟨fun _ ht => hnot ht, fun _ ht => hnot ht, fun _ hnone => absurd hnone hfree,
        fun _ => h, fun hno => absurd hstray hno⟩
  | some t =>
    have htracked {P : Prop} (hnone : host.server? name = none) : P :=
      nomatch hget.symm.trans hnone
    by_cases hstopped : t.phase = .stopped
    · refine (meets_startServer_stopped hsound hspec hget hstopped).mono fun _ host' d' h => ?_
      refine ⟨fun _ ht hphase => ?_, fun _ _ _ => h, fun hnone => htracked hnone,
        fun hstray => htracked hstray.untracked, fun _ => h.meets_startServer hspec⟩
      obtain rfl := Option.some.inj (hget.symm.trans ht)
      exact absurd hstopped hphase
    · refine (meets_startServer_unstopped hget hstopped).mono ?_
      rintro _ host' d' ⟨rfl, journal, rfl⟩
      refine ⟨fun _ _ _ => ⟨rfl, journal, rfl⟩, fun _ ht hphase => ?_, fun hnone => htracked hnone,
        fun hstray => htracked hstray.untracked, fun _ => meets_startServer_unstopped hget hstopped⟩
      obtain rfl := Option.some.inj (hget.symm.trans ht)
      exact absurd hphase hstopped

theorem meets_restartServer_accepting (hsound : host.roster.Sound host.nextNumber)
    (hspec : host.model.server? name = some spec) (gracefulTimeout : Int) :
    (restartServer name gracefulTimeout).Meets accepting (fun _ host' d' =>
      (¬ Stray host d (processName name) →
        Booted host d.issued (d.received ++ host.releases name) spec host' d') ∧
      (Stray host d (processName name) → TurnedAway host d.received spec host' d')) host d := by
  unfold restartServer
  rw [meets_bind]
  cases hget : host.server? name with
  | none =>
    apply meets_stopServer_untracked hget
    refine (meets_startServer_started hsound hspec).mono fun _ host' d' h => ⟨fun hnot => ?_, h.stray⟩
    have hfree : d.registered (processName name) = none :=
      Decidable.of_not_not fun hsome => hnot ⟨hget, hsome⟩
    simpa [releases, hget] using h.untracked hget hfree
  | some t =>
    refine (meets_stopServer_tracked hsound hget gracefulTimeout).mono ?_
    rintro - host' d' ⟨-, hforgotten, rfl⟩
    refine (meets_startServer_untracked hforgotten hspec (if_pos rfl)).mono fun _ host d h =>
      ⟨fun _ => ?_, fun hstray => nomatch hget.symm.trans hstray.untracked⟩
    simpa [releases, hget, Dealings.issued_released, Dealings.received_released] using h

theorem commanded (hsound : host.roster.Sound host.nextNumber) (d : Dealings) (name : String) :
    Commanded host d name where
  stop gracefulTimeout := by
    refine (meets_stopServer_accepting hsound gracefulTimeout).mono ?_
    rintro status host' d' ⟨hstatus, hreleased⟩
    refine ⟨hstatus, hreleased, fun gracefulTimeout' => ?_⟩
    refine meets_stopServer_untracked hreleased.forgotten.untracked ⟨?_, rfl, rfl⟩
    rw [hstatus, hreleased.forgotten.apart.model]
  start _ hspec := meets_startServer_started hsound hspec
  restart _ hspec gracefulTimeout := meets_restartServer_accepting hsound hspec gracefulTimeout

/-- What has passed by now, as far as it concerns what is to come. -/
def Interleaving.dealings (s : Interleaving) : Dealings where
  registered := s.registered
  issued := s.issued

open Dealings

theorem System.Reaches.agrees_of_fickle {settings : Settings} {model : Option HostModel}
    {inDomain : Bool} {s : System Dealings}
    (h : System.Reaches fickle ⟨.make settings model inDomain, {}, none, []⟩ s)
    (hidle : s.active = none) : Agrees s.host s.around.registered := by
  have hseen : fickle.SeenAs Registrations.registrar Dealings.registered :=
    ⟨fun h => congrArg Dealings.registered h, fun h => h.elim⟩
  have horder := h.agrees hseen (fun h => congrArg Dealings.registered h) fun _ => rfl
  obtain ⟨host, d, active, sleepers⟩ := s
  cases hidle
  exact horder.active

/-- However a steward has been used before, and whichever commands were refused to it or are still
under way, operators are in control of a server once the supervisor accepts commands, just if its
process is not stray. A stop releases the process of a tracked server, asks for nothing otherwise,
and leaves the server untracked. A start of a configured server asks for nothing and changes nothing
if the server is tracked and has not stopped; otherwise it leads to a new record that boots, and so
does a restart always. Asking again does nothing more, and no other server is touched. A stray
process is left alone by every stop and is in the way of every launch; it can be there only if
operations overlapped. -/
theorem operators_in_control (settings : Settings) (model : Option HostModel) (inDomain : Bool)
    (name : String) :
    (∀ s, Interleaving.Reaches (.beginning settings model inDomain) s →
      Commanded s.host s.dealings name) ∧
    ∀ s : System Dealings, System.Reaches fickle ⟨.make settings model inDomain, {}, none, []⟩ s →
      s.active = none →
        Commanded s.host s.around name ∧ ¬ Stray s.host s.around (processName name) := by
  refine ⟨fun s h => ?_, fun s h hidle => ?_⟩
  · exact commanded (Interleaving.apart_beginning.reaches h).sound _ _
  · have hagrees := h.agrees_of_fickle hidle
    exact ⟨commanded hagrees.sound _ _, fun hstray =>
      hstray.registered (hagrees.none_of_get? hstray.untracked)⟩

/-- A server is stopped while its process is being added. The process is added and started
nevertheless, and when all is done it is stray: a stop asks for nothing, and a restart is turned
away. In runs without overlaps, a server that was registered but could not be started is restarted. -/
theorem operators_in_control_overlapping :
    (∃ s, Interleaving.Reaches (.beginning {} (some (.single "a" ["true"])) false) s ∧
      s.errands = [] ∧ Stray s.host s.dealings "Server:a" ∧ s.host.releases "a" = [] ∧
      (restartServer "a" (-1)).Meets accepting (fun _ => TurnedAway s.host []
        { name := "a", group := "g", command := ["true"] }) s.host s.dealings) ∧
    ∃ s : System Dealings,
      System.Reaches fickle ⟨.make { lifecycle := { startPollAttempts := 1 } }
        (some (.single "a" [])) false, {}, none, []⟩ s ∧
      s.active = none ∧ s.host.status "a" = .starting ∧
      (restartServer "a" 0).Meets accepting
        (fun _ host d => Booted s.host [1]
          [.add "Server:a" {}, .start "Server:a", .stop "Server:a", .remove "Server:a"]
          { name := "a", group := "g" } host d) s.host s.around := by
  constructor
  · have hasked : Interleaving.Reaches (.beginning {} (some (.single "a" ["true"])) false) _ :=
      .single (.begins (.startServer "a"))
    have hstop := hasked.tail (.begins (.stopServer "a" (-1)))
    have hstopped := (hstop.tail (.answers 1 (r := .command (.stop "Server:a")) (.ok ()) rfl
      nofun)).tail (.resumes 1 rfl)
    have hremoved := (hstopped.tail (.answers 1 (r := .command (.remove "Server:a")) (.ok ()) rfl
      nofun)).tail (.resumes 1 rfl)
    have hadded := (hremoved.tail (.answers 0
      (r := .command (.add "Server:a" ⟨["true"], none, .empty⟩)) (.ok 1) rfl
      fun _ _ => List.not_mem_nil)).tail (.resumes 0 rfl)
    have hstarted := (hadded.tail (.answers 0 (r := .command (.start "Server:a")) (.ok ()) rfl
      nofun)).tail (.resumes 0 rfl)
    have hcommanded := (operators_in_control {} (some (.single "a" ["true"])) false "a").1 _ hstarted
    refine ⟨_, hstarted, rfl, ⟨rfl, Option.some_ne_none 1⟩, rfl, ?_⟩
    exact (hcommanded.restart _ rfl (-1)).mono fun _ _ _ h =>
      h.2 ⟨rfl, Option.some_ne_none 1⟩
  · have hcall : System.Reaches fickle ⟨.make { lifecycle := { startPollAttempts := 1 } }
        (some (.single "a" [])) false, {}, none, []⟩ _ :=
      .single (.call (o := .startServer "a") rfl)
    have hadd := hcall.tail (.command (c := .add "Server:a" {}) (a := .ok 1) rfl)
    have hstart := hadd.tail (.command (c := .start "Server:a")
      (a := .error (.noCommand "Server:a")) rfl)
    have hended := ((hstart.tail .sleep).tail (@System.Step.wake _ _ _ _ [] _ _ [])).tail .finish
    obtain ⟨hcommanded, hclear⟩ := (operators_in_control _ _ false "a").2 _ hended rfl
    refine ⟨_, hended, rfl, by decide, ?_⟩
    exact (hcommanded.restart { name := "a", group := "g" } rfl 0).mono fun _ _ _ h => h.1 hclear

end HostSteward
