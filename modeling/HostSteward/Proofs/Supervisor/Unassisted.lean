import HostSteward.Proofs.Supervisor.Vacancies

/-!
# A steward that restarts nothing

A steward that starts its servers itself and does not restart them sends a start command for a
process that was not launched yet, or because the notice of its boot has come.
-/

namespace HostSteward

open Operation

namespace Works

variable {w w' : Works} {host host' : Steward} {o : Occasion}

structure Unassisted (host : Steward) (w : Works) : Prop where
  fresh : host.settings.host.bootMode = .fresh
  manual : host.settings.lifecycle.autoRestart = false
  restarts : host.restarts = []
  sound : host.roster.Sound host.nextNumber
  sane : w.Sane

/-- A start command concerns a process that was not launched yet, unless it is sent because a
server is available. -/
def owes (o : Occasion) (c : Command) (_ : Steward) (w : Works) : Prop :=
  match c with
  | .start p => o = .notice (.serverAvailable p) ∨ w.launches p = 0
  | _ => True

namespace Unassisted

theorem of_eq (h : Unassisted host w) (hsettings : host'.settings = host.settings)
    (hrestarts : host'.restarts = host.restarts)
    (hsound : host'.roster.Sound host'.nextNumber) : Unassisted host' w where
  fresh := hsettings ▸ h.fresh
  manual := hsettings ▸ h.manual
  restarts := hrestarts ▸ h.restarts
  sound := hsound
  sane := h.sane

theorem withWorks (h : Unassisted host w) (hsane : w'.Sane) : Unassisted host w' :=
  ⟨h.fresh, h.manual, h.restarts, h.sound, hsane⟩

theorem obeys (h : Unassisted host w) {c : Command} {a : c.Answer}
    (hobeys : surroundings.obeys w c w' a) : Unassisted host w' :=
  h.withWorks (h.sane.obeys hobeys)

theorem many (h : Unassisted host w) (hmoves : Relation.ReflTransGen Moves w w') :
    Unassisted host w' := by
  induction hmoves with
  | refl => exact h
  | tail _ hmove ih => exact ih.withWorks (ih.sane.moves hmove)

end Unassisted

abbrev contract (o : Occasion) : Contract Works := surroundings.contract (owes o) Unassisted

theorem steady_unassisted : System.Steady surroundings owes Unassisted where
  holds hmove h := h.withWorks (h.sane.moves hmove)
  owes {o c host w w'} hmove h := by
    cases c with
    | start p => exact h.imp_right fun hp => (launches_moves hmove p).trans hp
    | _ => trivial

theorem keeps_command {c : Command} (howes : ∀ host w, owes o c host w) :
    Keeps (contract o) Unassisted (command c) := by
  refine fun host w h => ⟨howes host w, ?_⟩
  rintro host' w' a ⟨rfl, w₁, hmoves, hobeys⟩
  exact (h.many hmoves).obeys hobeys

theorem upheld_unassisted (o : Occasion) : Upheld (contract o) Unassisted where
  journal _ h := h.of_eq rfl rfl h.sound
  budget _ h := h.of_eq rfl rfl h.sound
  stopping h := h.of_eq rfl rfl h.sound
  launched h := h.of_eq rfl rfl h.sound
  cancelled h := h.of_eq rfl rfl h.sound
  server number hf h := h.of_eq rfl rfl (h.sound.update hf.toFaithful number)
  wait := Surroundings.keeps_wait _ _ _
  register := Surroundings.keeps_register _ _
  unregister := Surroundings.keeps_unregister _ _
  inventory := keeps_command fun _ _ => trivial
  stop _ := keeps_command fun _ _ => trivial
  remove _ := keeps_command fun _ _ => trivial
  shutdown := keeps_command fun _ _ => trivial

theorem keeps_launch (name : String) :
    Attempt.Keeps (contract o) Unassisted (Steward.launch name) := by
  apply Attempt.keeps_iff.2
  intro host w h
  apply meets_launch (fun _ => h)
  intro spec roster server _ hserver hinsert
  refine (meets_register ..).2 ⟨trivial, ?_⟩
  rintro host' w' a ⟨rfl, w₁, hmoves, hobeys⟩
  have htracked := h.sound.track (hserver ▸ rfl) hinsert
  have hphase := htracked.update (Server.faithful_withPhase .booting) server.number
  have hadded := (h.many hmoves).obeys hobeys
  cases a with
  | error e => exact hadded.of_eq rfl rfl (hphase.untrack server.process server.number)
  | ok i =>
    refine ⟨Or.inr (launches_added hobeys), ?_⟩
    rintro host' w' a ⟨rfl, w₂, hmoves, hobeys⟩
    have hstarted := (hadded.many hmoves).obeys hobeys
    have hregistered := hphase.update (Server.faithful_registered i) server.number
    cases a <;> exact hstarted.of_eq rfl rfl hregistered

theorem keeps_untrack (s : Server) : Keeps (contract o) Unassisted (Steward.untrack s) :=
  fun _ _ h => h.of_eq rfl rfl (h.sound.untrack s.process s.number)

theorem keeps_tryStartServer (name : String) :
    Attempt.Keeps (contract o) Unassisted (Steward.tryStartServer name) :=
  (upheld_unassisted o).tryStartServer keeps_untrack keeps_launch name

theorem keeps_stopServer (name : String) (gracefulTimeout : Int) :
    Keeps (contract o) Unassisted (Steward.stopServer name gracefulTimeout) :=
  (upheld_unassisted o).stopServer
    (fun h _ => (upheld_unassisted o).stopNow keeps_untrack _ _ _ h) name gracefulTimeout

/-- Every notice that a supervisor of children publishes is followed as it ought to be. -/
theorem keeps_handle {n : Notice} (hown : IsOwn n) :
    Keeps (contract (.notice n)) Unassisted (Steward.handle n) := by
  have hI := upheld_unassisted (.notice n)
  cases n with
  | serverAvailable p =>
    refine hI.serverAvailable fun host w h => ⟨Or.inl rfl, ?_⟩
    rintro host' w' a ⟨rfl, w₁, hmoves, hobeys⟩
    exact (h.many hmoves).obeys hobeys
  | serverStarted p => exact hI.serverStarted hI.budget p
  | processStopped p incarnation uptime =>
    refine hI.processStopped (fun h => h) (hI.serverDown hI.toQuiet (fun h => h)
      (fun h _ hlost => ?_) (fun h hauto => ?_) p) incarnation uptime
    · simp [Steward.lostItsHost, h.fresh] at hlost
    · rw [h.manual] at hauto
      cases hauto
  | inventory processes => exact keeps_current fun host w h => hI.tellAll _ host w h
  | connectionFinished => exact hI.tell _
  | processAdded p => exact keeps_pure ()
  | processStarted p => exact keeps_pure ()
  | processRemoved p => exact keeps_pure ()
  | serverStartFailed | serverStopped | serverReconnected | serverDown | serverDisconnected =>
    exact hown.elim
  | shutdownRequested | connectionFailed => exact hown.elim

/-- So is everything that the steward is made to do. -/
theorem meets_operation (hcall : surroundings.calls host w o w') (h : Unassisted host w) :
    o.operation.Meets (contract o) (fun _ => Unassisted) host w' := by
  have hI := upheld_unassisted o
  have hkeeps (hsame : w' = w) (hkeeps : Keeps (contract o) Unassisted o.operation) :
      o.operation.Meets (contract o) (fun _ => Unassisted) host w' :=
    hkeeps host w' (hsame ▸ h)
  cases o with
  | start => exact hkeeps hcall (Keeps.bind (hI.start keeps_launch) fun _ => keeps_pure ())
  | startServers => exact hkeeps hcall (hI.startServers keeps_launch)
  | startServer name =>
    exact hkeeps hcall ((hI.startServer keeps_tryStartServer name).bind fun _ => keeps_pure ())
  | stopServer name gracefulTimeout =>
    exact hkeeps hcall ((keeps_stopServer name gracefulTimeout).bind fun _ => keeps_pure ())
  | restartServer name gracefulTimeout =>
    exact hkeeps hcall ((hI.restartServer keeps_tryStartServer keeps_stopServer name
      gracefulTimeout).bind fun _ => keeps_pure ())
  | stop => exact hkeeps hcall (hI.stopSteward.bind fun _ => keeps_pure ())
  | restart r =>
    obtain ⟨hr, -⟩ := hcall
    rw [h.restarts] at hr
    cases hr
  | notice n =>
    obtain ⟨hn, rfl⟩ := hcall
    refine keeps_handle (h.sane.own n (List.mem_of_getElem? hn)) host _ ?_
    exact h.withWorks ⟨h.sane.own, h.sane.fits⟩

end Works

end HostSteward
