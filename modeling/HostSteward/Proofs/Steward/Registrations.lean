import HostSteward.Proofs.Steward.Conduct

/-!
# The roster and the supervisor's registrations

Every process that is registered at the supervisor is tracked by the steward, with the incarnation
of that very registration. This holds between any two operations, whichever commands fail, and for
that reason the steward never asks for a process to be added that is registered already.
-/

namespace HostSteward

abbrev Registrations := String → Option Incarnation

namespace Registrations

def put (r : Registrations) (process : String) (incarnation : Option Incarnation) :
    Registrations :=
  fun p => if process = p then incarnation else r p

/-- What a command that was answered has done. A failed one has no effect. -/
def after (r : Registrations) : (c : Command) → c.Answer → Registrations
  | .add p _, .ok incarnation => r.put p (some incarnation)
  | .remove p, .ok _ => r.put p none
  | .shutdown, .ok _ => fun _ => none
  | _, _ => r

/-- A supervisor that carries out any command or fails to, as it likes, and registers processes
under incarnations of its choice. -/
def registrar : Surroundings Registrations where
  obeys r c r' a := r' = r.after c a
  moves _ _ := False
  calls _ r _ r' := r' = r

/-- Only a process that is not registered may be added. -/
def owes (c : Command) (_ : Steward) (r : Registrations) : Prop :=
  match c with
  | .add p _ => r p = none
  | _ => True

end Registrations

open Registrations Operation

structure Agrees (host : Steward) (r : Registrations) : Prop where
  sound : host.roster.Sound host.nextNumber
  tracked : ∀ {p i}, r p = some i → ∃ s, host.roster.get? p = some s ∧ s.incarnation = some i

def Steward.Tracks (host : Steward) (s : Server) : Prop :=
  ∃ t, host.roster.get? s.process = some t ∧ t.number = s.number

abbrev registrations : Contract Registrations := registrar.contract owes Agrees

namespace Agrees

variable {host host' : Steward} {r : Registrations} {s : Server} {f : Server → Server}

theorem of_eq (h : Agrees host r) (hroster : host'.roster = host.roster)
    (hnext : host'.nextNumber = host.nextNumber) : Agrees host' r where
  sound := hroster ▸ hnext ▸ h.sound
  tracked := by rw [hroster]; exact h.tracked

theorem none_of_get? (h : Agrees host r) {p : String} (hnone : host.roster.get? p = none) :
    r p = none := by
  cases hp : r p with
  | none => rfl
  | some i =>
    obtain ⟨s, hs, -⟩ := h.tracked hp
    cases hnone.symm.trans hs

theorem update (h : Agrees host r) (hf : Server.Faithful f)
    (hkeep : ∀ s, (f s).incarnation = s.incarnation) (number : Nat) :
    Agrees { host with roster := host.roster.update number f } r where
  sound := h.sound.update hf number
  tracked {p i} hp := by
    obtain ⟨s, hs, hi⟩ := h.tracked hp
    refine ⟨_, by rw [Roster.get?_update, hs, Option.map_some], ?_⟩
    split
    · exact (hkeep s).trans hi
    · exact hi

theorem register (h : Agrees host r) (ht : host.Tracks s) (i : Incarnation) :
    Agrees { host with roster := host.roster.update s.number (·.registered i) }
      (r.put s.process (some i)) where
  sound := h.sound.update (Server.faithful_registered i) s.number
  tracked {p j} hp := by
    obtain ⟨t, ht, hn⟩ := ht
    unfold put at hp
    by_cases hsp : s.process = p
    · rw [if_pos hsp] at hp
      cases hp
      subst hsp
      refine ⟨_, by rw [Roster.get?_update, ht, Option.map_some], ?_⟩
      rw [if_pos hn]
      rfl
    · rw [if_neg hsp] at hp
      obtain ⟨t', ht', hi⟩ := h.tracked hp
      refine ⟨_, by rw [Roster.get?_update, ht', Option.map_some], ?_⟩
      rw [if_neg fun he => hsp (h.sound.distinct ht ht' (hn.trans he.symm))]
      exact hi

theorem release (h : Agrees host r) (process : String) : Agrees host (r.put process none) where
  sound := h.sound
  tracked {p i} hp := by
    unfold put at hp
    split at hp
    · cases hp
    · exact h.tracked hp

theorem untrack (h : Agrees host r) (hnone : r s.process = none) :
    Agrees { host with roster := host.roster.removeSame s.process s.number } r where
  sound := h.sound.untrack s.process s.number
  tracked {p i} hp := by
    obtain ⟨t, ht, hi⟩ := h.tracked hp
    refine ⟨t, ?_, hi⟩
    rw [Roster.get?_removeSame, if_neg ?_, ht]
    rintro ⟨rfl, -⟩
    cases hnone.symm.trans hp

theorem track (h : Agrees host r) {roster : Roster} (hnumber : s.number = host.nextNumber)
    (hinsert : host.roster.insert s = .ok roster) :
    Agrees { host with roster := roster, nextNumber := host.nextNumber + 1 } r where
  sound := h.sound.track hnumber hinsert
  tracked {p i} hp := by
    obtain ⟨t, ht, hi⟩ := h.tracked hp
    refine ⟨t, ?_, hi⟩
    rw [Roster.get?_of_insert hinsert, if_neg ?_, ht]
    rintro rfl
    cases (Roster.insert_eq_ok_iff.1 hinsert).1.symm.trans ht

theorem nothing (h : host.roster.Sound host.nextNumber) : Agrees host fun _ => none := ⟨h, by simp⟩

end Agrees

variable {host : Steward} {r : Registrations} {s : Server}

theorem answers_command {c : Command} {host' : Steward} {r' : Registrations} {a : c.Answer} :
    registrations.answers (.command c) host r host' r' a ↔ host' = host ∧ r' = r.after c a :=
  Surroundings.answers_command_iff fun _ _ h => h

/-- A command that hurts nothing, whatever comes of it. -/
theorem keeps_command {c : Command} (howes : ∀ host r, owes c host r)
    (hafter : ∀ {host r} (a : c.Answer), Agrees host r → Agrees host (r.after c a)) :
    Keeps registrations Agrees (command c) := by
  refine fun host r h => ⟨howes host r, fun host' r' a ha => ?_⟩
  obtain ⟨rfl, rfl⟩ := answers_command.1 ha
  exact hafter a h

theorem keeps_remove (process : String) : Keeps registrations Agrees (command (.remove process)) := by
  refine keeps_command (fun _ _ => trivial) fun a h => ?_
  cases a with
  | ok _ => exact h.release process
  | error e => exact h

theorem upheld_agrees : Upheld registrations Agrees where
  journal _ h := h.of_eq rfl rfl
  budget _ h := h.of_eq rfl rfl
  stopping h := h.of_eq rfl rfl
  launched h := h.of_eq rfl rfl
  cancelled h := h.of_eq rfl rfl
  server number hf h := h.update hf.toFaithful hf.incarnation number
  wait := Surroundings.keeps_wait _ _ _
  register := Surroundings.keeps_register _ _
  unregister := Surroundings.keeps_unregister _ _
  inventory := keeps_command (fun _ _ => trivial) fun _ h => h
  stop p := keeps_command (fun _ _ => trivial) fun _ h => h
  remove := keeps_remove
  shutdown := by
    refine keeps_command (fun _ _ => trivial) fun a h => ?_
    cases a with
    | ok _ => exact .nothing h.sound
    | error e => exact h

theorem keeps_start (process : String) : Keeps registrations Agrees (command (.start process)) :=
  keeps_command (fun _ _ => trivial) fun _ h => h

theorem Steward.Tracks.update (h : host.Tracks s) {f : Server → Server} (hf : Server.Faithful f)
    (number : Nat) : { host with roster := host.roster.update number f : Steward }.Tracks s := by
  obtain ⟨t, ht, hn⟩ := h
  refine ⟨_, by rw [Roster.get?_update, ht, Option.map_some], ?_⟩
  split
  · exact (hf.number t).trans hn
  · exact hn

/-- No two processes are tracked under one number. -/
theorem Steward.Tracks.get?_update_of_ne (h : host.Tracks s)
    (hsound : host.roster.Sound host.nextNumber) {p : String} (hp : s.process ≠ p)
    (f : Server → Server) :
    (host.roster.update s.number f).get? p = host.roster.get? p := by
  obtain ⟨t, ht, hn⟩ := h
  rw [Roster.get?_update]
  cases hget : host.roster.get? p with
  | none => rfl
  | some u =>
    have hu : u.number ≠ s.number := fun he => hp (hsound.distinct ht hget (hn.trans he.symm))
    rw [Option.map_some, if_neg hu]

theorem Steward.Tracks.tracks (h : host.Tracks s) : host.roster.tracks s.process s.number := by
  obtain ⟨t, ht, hn⟩ := h
  simp [Roster.tracks, ht, hn]

theorem Steward.Tracks.get?_removeSame (h : host.Tracks s) :
    (host.roster.removeSame s.process s.number).get? s.process = none :=
  (Roster.get?_removeSame ..).trans (if_pos ⟨rfl, h.tracks⟩)

theorem meets_register_agrees (h : Agrees host r) (ht : host.Tracks s) (hnone : r s.process = none) :
    Attempt.Meets registrations (Attempt.register s) (fun _ => Agrees)
      (fun _ host r => Agrees host r ∧ r s.process = none) host r := by
  have hphase := h.update (Server.faithful_withPhase .booting) (fun _ => rfl) s.number
  refine (meets_register ..).2 ⟨hnone, fun host' r' a ha => ?_⟩
  obtain ⟨rfl, rfl⟩ := answers_command.1 ha
  cases a with
  | ok i => exact hphase.register (ht.update (Server.faithful_withPhase .booting) s.number) i
  | error e => exact ⟨hphase, hnone⟩

theorem keeps_launch (name : String) : Attempt.Keeps registrations Agrees (Steward.launch name) := by
  apply Attempt.keeps_iff.2
  intro host r h
  apply meets_launch (fun _ => h)
  intro spec roster server _ hserver hinsert
  let host' : Steward := { host with
    roster, nextNumber := host.nextNumber + 1
    journal := host.journal ++ [.info ("Launching server " ++ server.identity.text)] }
  have htracked : Agrees host' r := (h.track (hserver ▸ rfl) hinsert).of_eq rfl rfl
  refine (meets_register_agrees htracked ⟨server, ?_, rfl⟩ ?_).mono (fun _ host r h => ?_)
    fun e host r h => ?_
  · exact (Roster.get?_of_insert hinsert _).trans (if_pos rfl)
  · exact h.none_of_get? (Roster.insert_eq_ok_iff.1 hinsert).1
  · exact Attempt.keeps_iff.1 (keeps_start _) host r h
  · exact h.1.untrack h.2

/-- Removing a process ends its registration, or has no effect. -/
theorem meets_remove (h : Agrees host r) {post : Outlook Registrations Unit}
    (hpost : ∀ r', Agrees host r' → r' s.process = none → post () host r') :
    Attempt.Meets registrations (Attempt.remove s) post (fun _ => Agrees) host r := by
  refine ⟨trivial, fun host' r' a ha => ?_⟩
  obtain ⟨rfl, rfl⟩ := answers_command.1 ha
  cases a with
  | ok _ => exact hpost _ (h.release s.process) (if_pos rfl)
  | error e => exact h

theorem meets_relaunch (h : Agrees host r) (ht : host.Tracks s) :
    Attempt.Meets registrations (Steward.relaunch s) (fun _ => Agrees) (fun _ => Agrees) host r := by
  unfold Steward.relaunch
  rw [Attempt.meets_bind]
  apply meets_remove h
  intro r' h hnone
  rw [Attempt.meets_bind]
  refine (meets_register_agrees h ht hnone).mono (fun _ host r h => ?_) fun e host r h => h.1
  exact Attempt.keeps_iff.1 (keeps_start _) host r h

theorem keeps_tryStartServer (name : String) :
    Attempt.Keeps registrations Agrees (Steward.tryStartServer name) := by
  apply Attempt.keeps_iff.2
  intro host r h
  unfold Steward.tryStartServer
  rw [Attempt.meets_bind, Attempt.meets_lift, meets_current]
  cases host.server? name with
  | none => exact Attempt.keeps_iff.1 (keeps_launch name) host r h
  | some server =>
    simp only
    by_cases hstopped : server.phase = .stopped
    · rw [if_pos hstopped, Attempt.meets_bind]
      apply meets_remove h
      intro r' h hnone
      rw [Attempt.meets_bind, Attempt.meets_lift]
      exact Attempt.keeps_iff.1 (keeps_launch name) _ r' (h.untrack hnone)
    · rw [if_neg hstopped]
      exact upheld_agrees.journal _ h

theorem meets_stopNow (h : Agrees host r) :
    Attempt.Meets registrations (Steward.stopNow s) (fun _ => Agrees) (fun _ => Agrees) host r := by
  unfold Steward.stopNow Attempt.stop
  simp only [Attempt.meets_bind, Attempt.meets_lift]
  apply (upheld_agrees.checkPhase s _ _ host r h).mono
  intro _ host r h
  apply (upheld_agrees.setPhase s .stopping host r h).mono
  intro _ host r h
  apply (upheld_agrees.stop s.process host r h).mono
  intro answer host r h
  cases answer with
  | error e => exact h
  | ok _ =>
    apply meets_remove h
    intro r' h hnone
    rw [meets_setPhase]
    have hstopped := upheld_agrees.setPhase s .stopped host r' h
    exact upheld_agrees.journal _ (Agrees.untrack hstopped hnone)

theorem keeps_recognize (process : String) (phase : Phase) :
    Keeps registrations Agrees (Steward.recognize process phase) :=
  upheld_agrees.toQuiet.recognize (fun h hinsert => (h.track rfl hinsert).update
    (Server.faithful_diagnose "recognized after reconnect") (fun _ => rfl) _) process phase

theorem mastered_agrees : Mastered registrations Agrees where
  toUpheld := upheld_agrees
  restarts _ _ h := h.of_eq rfl rfl
  start := keeps_start
  launch := keeps_launch
  tryStartServer := keeps_tryStartServer
  recognize := keeps_recognize
  relaunch h hget := (Attempt.meets_run _ _).2
    (meets_relaunch h ⟨_, (h.sound.keyed hget).symm ▸ hget, rfl⟩)
  stopNow h _ := (Attempt.meets_run _ _).2 (meets_stopNow h)

/-- A steward that is at work from the beginning is in agreement with its supervisor all the time:
between operations, and whenever it asks for a process to be added. -/
theorem System.Reaches.agrees {σ : Type} {S : Surroundings σ} {view : σ → Registrations}
    (hS : S.SeenAs registrar view) (hcalls : ∀ {host s o s'}, S.calls host s o s' → view s' = view s)
    {settings : Settings} {model : Option HostModel} {inDomain : Bool} {s₀ : σ}
    (hnone : ∀ p, view s₀ p = none) {s : System σ}
    (h : System.Reaches S ⟨.make settings model inDomain, s₀, none, []⟩ s) :
    System.InOrder registrar (fun _ => owes) Agrees view s := by
  have hsteady : System.Steady registrar (fun _ => owes) Agrees := ⟨fun h => h.elim, fun h => h.elim⟩
  refine System.InOrder.reaches hS hsteady (fun {host s o s'} hcall hs => ?_) ⟨?_, by simp⟩ h
  · rw [hcalls hcall]
    exact mastered_agrees.operation o host _ hs
  · refine ⟨Roster.sound_empty _, fun {p i} hp => ?_⟩
    cases (hnone p).symm.trans hp

end HostSteward
