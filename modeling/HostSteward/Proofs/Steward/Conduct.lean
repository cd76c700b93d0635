import HostSteward.Proofs.Steward.Roster
import HostSteward.Proofs.Steward.System

/-!
# What every operation upholds

Most of what the steward does is noting things, changing phases and asking for something whose
answer does not matter much. What is not hurt by these is upheld by all operations that consist of
them; registering, forgetting and replacing servers is left to be looked at for each property.
-/

namespace HostSteward

open Operation Steward

namespace Server

def Concise (s : Server) : Prop := s.diagnostics.length ≤ maxDiagnostics

structure Modest (f : Server → Server) : Prop extends Faithful f where
  incarnation : ∀ s, (f s).incarnation = s.incarnation
  concise : ∀ s, s.Concise → (f s).Concise

theorem modest_withPhase (phase : Phase) : Modest (·.withPhase phase) :=
  ⟨faithful_withPhase phase, fun _ => rfl, fun _ h => h⟩

theorem concise_diagnose (s : Server) (message : String) : (s.diagnose message).Concise := by
  unfold Concise diagnose
  rw [List.length_drop]
  omega

theorem modest_diagnose (message : String) : Modest (·.diagnose message) :=
  ⟨faithful_diagnose message, fun _ => rfl, fun s _ => s.concise_diagnose message⟩

theorem modest_check (expected : List Phase) (operation : String) :
    Modest (·.check expected operation) := by
  refine ⟨faithful_check expected operation, fun s => ?_, fun s h => ?_⟩
  · unfold check
    split <;> rfl
  · unfold check
    split
    · exact h
    · exact s.concise_diagnose _

end Server

/-- A modest change leaves every process to the record that it had. -/
theorem Roster.exists_of_get?_modest {r : Roster} {f : Server → Server} {p : String} {s : Server}
    {number : Nat} (hf : Server.Modest f) (hget : (r.update number f).get? p = some s) :
    ∃ t, r.get? p = some t ∧ s.number = t.number ∧ s.incarnation = t.incarnation := by
  obtain ⟨t, ht, rfl⟩ := exists_of_get?_update hget
  refine ⟨t, ht, ?_⟩
  split
  · exact ⟨hf.number t, hf.incarnation t⟩
  · exact ⟨rfl, rfl⟩

variable {σ α : Type} {C : Contract σ} {I : Steward → σ → Prop}

theorem meets_tellAny {e : Option Entry} {post : Outlook σ Unit} {host : Steward} {s : σ}
    (hpost : ∀ journal, post () { host with journal } s) : (tellAny e).Meets C post host s := by
  cases e with
  | none => exact hpost host.journal
  | some e => exact hpost _

/-- A server that is checked has its record checked. -/
theorem meets_checkPhase_update {server : Server} {expected : List Phase} {operation : String}
    {post : Outlook σ Unit} {host : Steward} {s : σ}
    (hpost : ∀ journal, post ()
      { host with
        journal, roster := host.roster.update server.number (·.check expected operation) } s) :
    (checkPhase server expected operation).Meets C post host s := by
  unfold checkPhase
  rw [meets_bind]
  exact meets_tellAny fun journal => hpost journal

theorem meets_checkPhase {server : Server} {expected : List Phase} {operation : String}
    {post : Outlook σ Unit} {host : Steward} {s : σ}
    (hpost : ∀ journal roster, post () { host with journal, roster } s) :
    (checkPhase server expected operation).Meets C post host s :=
  meets_checkPhase_update fun journal => hpost journal _

def Steward.followed? (host : Steward) (process : String) : Option Server :=
  if host.stopping then none else host.roster.get? process

theorem meets_subject? {process notice : String} {post : Outlook σ (Option Server)} {host : Steward}
    {s : σ} (hpost : ∀ journal, post (host.followed? process) { host with journal } s) :
    (subject? process notice).Meets C post host s := by
  unfold followed? at hpost
  unfold subject?
  rw [meets_bind, meets_current]
  by_cases hstopping : host.stopping
  · rw [if_pos hstopping] at hpost ⊢
    exact hpost host.journal
  · rw [if_neg hstopping] at hpost ⊢
    cases hget : host.roster.get? process with
    | none =>
      rw [hget] at hpost
      exact hpost _
    | some server =>
      rw [hget] at hpost
      exact hpost host.journal

/-- Tracking gives the next number to a record, unless its process is tracked already. -/
theorem meets_track (spec : ServerSpec) (phase : Phase) (post : Outlook σ Server)
    (failed : Outlook σ Failure) (host : Steward) (s : σ) :
    Attempt.Meets C (track spec phase) post failed host s ↔
      match host.roster.insert (.ofSpec host.nextNumber host.hostName spec phase) with
      | .ok roster => post (.ofSpec host.nextNumber host.hostName spec phase)
          { host with roster, nextNumber := host.nextNumber + 1 } s
      | .error e => failed e host s := by
  unfold track track.liftExcept
  simp only [Attempt.meets_bind, Attempt.meets_lift, Attempt.meets_mk, meets_current, meets_pure]
  cases host.roster.insert (.ofSpec host.nextNumber host.hostName spec phase) <;> exact Iff.rfl

/-- Registering sets the phase, asks, and notes the incarnation that is answered. -/
theorem meets_register (server : Server) (post : Outlook σ Unit) (failed : Outlook σ Failure)
    (host : Steward) (s : σ) :
    Attempt.Meets C (Attempt.register server) post failed host s ↔
      C.owes (.command (.add server.process server.spec.launch))
        { host with roster := host.roster.update server.number (·.withPhase .booting) } s ∧
      ∀ host' s' (a : Except Failure Incarnation),
        C.answers (.command (.add server.process server.spec.launch))
          { host with roster := host.roster.update server.number (·.withPhase .booting) } s
          host' s' a →
        match a with
        | .ok incarnation => post ()
            { host' with roster := host'.roster.update server.number (·.registered incarnation) } s'
        | .error e => failed e host' s' := by
  unfold Attempt.register
  simp only [Attempt.meets_bind, Attempt.meets_lift, Attempt.meets_mk, meets_setPhase]
  apply and_congr_right
  intro _
  refine forall_congr' fun host' => forall_congr' fun s' => forall_congr' fun a => ?_
  apply imp_congr_right
  intro _
  cases a <;> exact Iff.rfl

/-- A launch comes down to registering and starting a new record, which is forgotten again if it
cannot be registered. -/
theorem meets_launch {name : String} {post : Outlook σ Unit} {failed : Outlook σ Failure}
    {host : Steward} {s : σ} (hfailed : ∀ e, failed e host s)
    (hregister : ∀ spec roster, ∀ server : Server, host.model.server? name = some spec →
      server = .ofSpec host.nextNumber host.hostName spec .booting →
      host.roster.insert server = .ok roster →
      Attempt.Meets C (Attempt.register server)
        (fun _ => Attempt.Meets C (Attempt.start server) post failed)
        (fun e host s => failed e
          { host with roster := host.roster.removeSame server.process server.number } s)
        { host with
          roster, nextNumber := host.nextNumber + 1
          journal := host.journal ++ [.info ("Launching server " ++ server.identity.text)] } s) :
    Attempt.Meets C (launch name) post failed host s := by
  unfold launch
  rw [Attempt.meets_bind, Attempt.meets_lift, meets_current]
  cases hspec : host.model.server? name with
  | none => exact hfailed _
  | some spec =>
    simp only [Attempt.meets_bind, meets_track]
    cases hinsert : host.roster.insert (.ofSpec host.nextNumber host.hostName spec .booting) with
    | error e => exact hfailed e
    | ok roster =>
      simp only [Attempt.meets_lift, meets_tell]
      rw [Attempt.meets_tryCatch]
      exact hregister spec roster _ hspec rfl hinsert

theorem run_track {host : Steward} {spec : ServerSpec} {phase : Phase} {roster : Roster}
    (hinsert : host.roster.insert (.ofSpec host.nextNumber host.hostName spec phase) = .ok roster) :
    (track spec phase).run host =
      .done { host with roster, nextNumber := host.nextNumber + 1 }
        (.ok (.ofSpec host.nextNumber host.hostName spec phase)) := by
  unfold track
  rw [Attempt.bind_of_done (Attempt.run_current host)]
  simp only [hinsert]
  rfl

/-- A launch tracks a new record and registers its process, notes the incarnation and starts the
process. -/
theorem run_launch {host : Steward} {name : String} {spec : ServerSpec} {server : Server}
    {roster : Roster} (hspec : host.model.server? name = some spec)
    (hserver : server = .ofSpec host.nextNumber host.hostName spec .booting)
    (hinsert : host.roster.insert server = .ok roster) :
    ∃ journal resume, (launch name).run host =
        .ask { host with
            roster := roster.update server.number (·.withPhase .booting)
            nextNumber := host.nextNumber + 1, journal }
          (.command (.add server.process server.spec.launch)) resume ∧
      ∀ host i, ∃ resume', resume host (.ok i) =
          .ask { host with roster := host.roster.update server.number (·.registered i) }
            (.command (.start server.process)) resume' ∧
        ∀ host, resume' host (.ok ()) = .done host (.ok ()) := by
  subst hserver
  unfold launch
  rw [Attempt.bind_of_done (Attempt.run_current host)]
  simp only [hspec]
  rw [Attempt.bind_of_done (run_track hinsert)]
  exact ⟨_, _, rfl, fun host i => ⟨_, rfl, fun host => rfl⟩⟩

theorem keeps_pollWhileStarting (hwait : ∀ d, Keeps C I (ask (.wait d))) (name : String)
    (interval : Duration) (polls : Nat) (last : Status) :
    Keeps C I (pollWhileStarting name interval polls last) := by
  induction polls generalizing last with
  | zero => exact keeps_pure last
  | succ polls ih =>
    refine keeps_current fun host s h => keeps_ite (fun _ => ?_) (fun _ => keeps_pure _) host s h
    exact (hwait interval).bind fun _ => ih _

/-- A property that is not hurt by notes, nor by questions whose answers change nothing. -/
structure Quiet (C : Contract σ) (I : Steward → σ → Prop) : Prop where
  journal : ∀ {h s} journal, I h s → I { h with journal } s
  launched : ∀ {h s}, I h s → I { h with launched := true } s
  register : ∀ name, Keeps C I (ask (.register name))
  inventory : Keeps C I (command .requestInventory)

namespace Quiet

variable (hI : Quiet C I)

include hI

theorem tell (e : Entry) : Keeps C I (tell e) := fun _ _ h => hI.journal _ h

theorem tellAny (e : Option Entry) : Keeps C I (tellAny e) := by
  cases e with
  | none => exact keeps_pure ()
  | some e => exact hI.tell e

theorem tellAll (entries : List Entry) : Keeps C I (tellAll entries) := by
  induction entries with
  | nil => exact keeps_pure ()
  | cons e rest ih => exact (hI.tell e).bind fun _ => ih

theorem noteFailure (process operation : String) (e : Failure) :
    Keeps C I (noteFailure process operation e) := by
  apply keeps_current
  intro host s h
  by_cases hstop : host.stopping
  · simpa [hstop] using h
  · simpa [hstop] using hI.tell _ host s h

theorem subject? (process notice : String) {host : Steward} {s : σ} (h : I host s) :
    (subject? process notice).Meets C (fun found host s => I host s ∧
      ∀ server, found = some server → host.roster.get? process = some server) host s := by
  unfold Steward.subject?
  rw [meets_bind, meets_current]
  by_cases hstop : host.stopping
  · simpa [hstop] using h
  · simp only [hstop]
    cases hget : host.roster.get? process with
    | none => exact ⟨hI.journal _ h, by simp⟩
    | some server => exact ⟨h, fun _ hs => hs ▸ hget⟩

theorem follow {process notice : String} {next : Option Server → Operation Unit}
    {post : Outlook σ Unit} (hnone : ∀ host s, I host s → (next none).Meets C post host s)
    (hsome : ∀ server host s, host.roster.get? process = some server → I host s →
      (next (some server)).Meets C post host s) (host : Steward) (s : σ) (h : I host s) :
    (Steward.subject? process notice >>= next).Meets C post host s := by
  rw [meets_bind]
  apply (hI.subject? process notice h).mono
  intro found host s hfound
  obtain ⟨h, hget⟩ := hfound
  cases found with
  | none => exact hnone host s h
  | some server => exact hsome server host s (hget server rfl) h

theorem joinDomain : Attempt.Keeps C I joinDomain := by
  apply (Attempt.keeps_lift (keeps_current fun _ _ h => h)).bind
  intro host
  refine keeps_ite (fun _ => ?_) fun _ => Attempt.keeps_pure ()
  apply (Attempt.keeps_lift (hI.register host.hostName)).bind
  intro answer
  cases answer with
  | ok _ => exact Attempt.keeps_lift (hI.tell _)
  | error e => exact (Attempt.keeps_lift (hI.tell _)).bind fun _ => Attempt.keeps_throw _

theorem launchAll (hlaunch : ∀ name, Attempt.Keeps C I (launch name)) (specs : List ServerSpec) :
    Keeps C I (launchAll specs) := by
  induction specs with
  | nil => exact keeps_pure ()
  | cons spec rest ih =>
    refine keeps_ite (fun _ => ?_) fun _ => (hI.tell _).bind fun _ => ih
    refine (hI.tell _).bind fun _ => Keeps.bind (hlaunch spec.name) (keeps_answer ih fun e => ?_)
    exact (hI.tell _).bind fun _ => ih

theorem startServers (hlaunch : ∀ name, Attempt.Keeps C I (launch name)) :
    Keeps C I startServers := by
  refine keeps_current fun host s h => keeps_ite (fun _ => keeps_pure ()) (fun _ => ?_) host s h
  refine Keeps.bind (fun _ _ h => hI.launched h) fun _ => ?_
  exact keeps_ite (fun _ => hI.tell _) fun _ => hI.launchAll hlaunch host.model.servers

theorem start (hlaunch : ∀ name, Attempt.Keeps C I (launch name)) : Attempt.Keeps C I start := by
  apply (Attempt.keeps_lift (keeps_current fun _ _ h => h)).bind
  intro host
  apply (Attempt.keeps_lift (hI.tell _)).bind
  intro _
  apply (Attempt.keeps_lift hI.inventory).bind
  intro answer
  cases answer with
  | ok _ => exact hI.joinDomain.bind fun _ => Attempt.keeps_lift (hI.startServers hlaunch)
  | error e => exact (Attempt.keeps_lift (hI.tell _)).bind fun _ => Attempt.keeps_throw _

/-- Whatever a start leads to, waiting for the server keeps it. -/
theorem startServer {name : String} {host : Steward} {s : σ}
    (hwait : ∀ d, Keeps C I (ask (.wait d)))
    (htry : Meets C (Steward.tryStartServer name).run (fun _ => I) host s) :
    (Steward.startServer name).Meets C (fun _ => I) host s := by
  have hpoll : Keeps C I (do
      let host ← current
      Steward.pollWhileStarting name host.settings.lifecycle.pollInterval
        host.settings.lifecycle.startPollAttempts.toNat (host.status name)) :=
    keeps_current fun host s h => keeps_pollWhileStarting hwait _ _ _ _ host s h
  unfold Steward.startServer
  rw [meets_bind]
  exact htry.mono (keeps_answer hpoll fun e => (hI.tell _).bind fun _ => hpoll)

/-- A server that is recognized gets a record of its own, and a note in it. -/
theorem meets_recognize {process : String} {phase : Phase} {host : Steward} {s : σ} (h : I host s)
    (htrack : ∀ {spec roster}, host.model.server? spec.name = some spec →
      spec.processName = process →
      host.roster.insert (.ofSpec host.nextNumber host.hostName spec phase) = .ok roster →
      I { host with
        roster := roster.update host.nextNumber (·.diagnose "recognized after reconnect")
        nextNumber := host.nextNumber + 1 } s) :
    (Steward.recognize process phase).Meets C (fun _ => I) host s := by
  unfold Steward.recognize
  rw [meets_bind, meets_current]
  cases hspec : (serverOfProcess? process).bind host.model.server? with
  | none => exact h
  | some spec =>
    obtain ⟨name, hname, hserver⟩ := Option.bind_eq_some_iff.1 hspec
    obtain rfl : spec.name = name := by simpa using List.find?_some hserver
    simp only
    rw [meets_bind, Attempt.meets_run, meets_track]
    cases hinsert : host.roster.insert (.ofSpec host.nextNumber host.hostName spec phase) with
    | error e => exact h
    | ok roster =>
      exact hI.journal _ (htrack hserver (processName_of_serverOfProcess? hname) hinsert)

theorem recognize (htrack : ∀ {host s spec phase roster}, I host s →
      host.roster.insert (.ofSpec host.nextNumber host.hostName spec phase) = .ok roster →
      I { host with
        roster := roster.update host.nextNumber (·.diagnose "recognized after reconnect")
        nextNumber := host.nextNumber + 1 } s)
    (process : String) (phase : Phase) : Keeps C I (recognize process phase) :=
  fun _ _ h => hI.meets_recognize h fun _ _ hinsert => htrack h hinsert

/-- A pending restart that is carried out or given up leads to whatever relaunching leads to. -/
theorem fire {J : Steward → σ → Prop} (hJ : Quiet C J) (himp : ∀ {host s}, I host s → J host s)
    {r : PendingRestart} (hrelaunch : ∀ {host s server}, I host s →
      host.roster.get? r.process = some server → host.wants r →
        Meets C (Steward.relaunch server).run (fun _ => J) host s) {host : Steward} {s : σ}
    (h : I { host with restarts := host.restarts.filter (·.ticket ≠ r.ticket) } s) :
    (Steward.fire r).Meets C (fun _ => J) host s := by
  unfold Steward.fire
  rw [meets_bind, meets_modify, meets_bind, meets_current]
  split
  next hwants =>
    cases hget : host.roster.get? r.process with
    | none => exact himp h
    | some server =>
      simp only
      rw [meets_bind, meets_tell, meets_bind]
      have hmeets := hrelaunch (hI.journal (host.journal ++
        [.info ("Restarting server " ++ r.process)]) h) hget hwants
      exact hmeets.mono (keeps_answer (keeps_pure ()) (hJ.noteFailure r.process "restart"))
  · exact himp h

end Quiet

/-- A property that changes of phases do not hurt either, nor that processes are stopped and
removed. -/
structure Calm (C : Contract σ) (I : Steward → σ → Prop) : Prop extends Quiet C I where
  server : ∀ {h s f} number, Server.Modest f → I h s →
    I { h with roster := h.roster.update number f } s
  stop : ∀ p, Keeps C I (command (.stop p))
  remove : ∀ p, Keeps C I (command (.remove p))

namespace Calm

variable (hI : Calm C I)

include hI

theorem updateServer (number : Nat) {f : Server → Server} (hf : Server.Modest f) :
    Keeps C I (updateServer number f) := fun _ _ h => hI.server number hf h

theorem setPhase (s : Server) (phase : Phase) : Keeps C I (setPhase s phase) :=
  hI.updateServer s.number (Server.modest_withPhase phase)

theorem checkPhase (s : Server) (expected : List Phase) (operation : String) :
    Keeps C I (checkPhase s expected operation) :=
  (hI.tellAny _).bind fun _ => hI.updateServer s.number (Server.modest_check expected operation)

theorem serverAvailable {process : String} (hstart : Keeps C I (command (.start process))) :
    Keeps C I (serverAvailable process) := by
  refine hI.follow (fun _ _ h => h) fun server host s _ h => ?_
  refine ((hI.checkPhase server [.booting] "available").bind fun _ =>
    (hI.setPhase server .available).bind fun _ => (hI.tell _).bind fun _ =>
      hstart.bind (keeps_answer (hI.setPhase server .starting)
        (hI.noteFailure process "start"))) host s h

theorem serverStarted (hbudget : ∀ {h s} budget, I h s → I { h with budget } s) (process : String) :
    Keeps C I (serverStarted process) := by
  refine hI.follow (fun _ _ h => h) fun server host s _ h => ?_
  refine ((hI.checkPhase server [.starting] "started").bind fun _ =>
    (hI.setPhase server .started).bind fun _ => keeps_current fun host s h => ?_) host s h
  refine ((hI.tellAny _).bind fun _ => Keeps.bind (fun _ _ h => ?_) fun _ => hI.tell _) host s h
  exact hbudget _ h

theorem serverStartFailed (process : String) : Keeps C I (serverStartFailed process) := by
  refine hI.follow (fun _ _ h => h) fun server host s _ h => ?_
  exact ((hI.checkPhase server [.starting] "start failed").bind fun _ =>
    (hI.setPhase server .failed).bind fun _ => hI.tell _) host s h

theorem serverStopped (process : String) : Keeps C I (serverStopped process) := by
  refine hI.follow (fun _ _ h => h) fun server host s _ h => ?_
  refine ((hI.checkPhase server [.stopping] "stopped").bind fun _ =>
    (hI.setPhase server .stopped).bind fun _ =>
      (hI.stop process).bind (keeps_answer ?_ fun e => ?_)) host s h
  · exact (hI.remove process).bind (keeps_answer (keeps_pure ()) (hI.noteFailure process "remove"))
  · exact (hI.noteFailure process "stop" e).bind fun _ =>
      (hI.remove process).bind (keeps_answer (keeps_pure ()) (hI.noteFailure process "remove"))

theorem serverDisconnected (process : String) : Keeps C I (serverDisconnected process) :=
  hI.follow (fun _ _ h => h) fun server host s _ h =>
    hI.checkPhase server [.stopping, .stopped, .maxFailed] "connection closed" host s h

/-! ## Operators' requests -/

/-- A start leads to whatever launching the server leads to. -/
theorem leads_tryStartServer {J : Steward → σ → Prop} (himp : ∀ {host s}, I host s → J host s)
    (hremove : ∀ s, Keeps C I (untrack s)) {name : String}
    (hlaunch : Leads C I J (launch name).run) :
    Leads C I J (tryStartServer name).run := by
  intro host s h
  unfold Steward.tryStartServer
  rw [Attempt.meets_run, Attempt.meets_bind, Attempt.meets_lift, meets_current]
  have hnew {host s} (h : I host s) :
      Attempt.Meets C (launch name) (fun _ => J) (fun _ => J) host s :=
    (Attempt.meets_run _ fun _ => J).1 (hlaunch host s h)
  cases host.server? name with
  | none => exact hnew h
  | some server =>
    simp only
    by_cases hstopped : server.phase = .stopped
    · rw [if_pos hstopped, Attempt.meets_bind]
      refine Operation.Meets.mono (hI.remove server.process host s h) fun answer host s h => ?_
      cases answer with
      | error e => exact himp h
      | ok _ =>
        simp only [Attempt.meets_bind, Attempt.meets_lift]
        exact (hremove server host s h).mono fun _ _ _ h => hnew h
    · rw [if_neg hstopped, Attempt.meets_lift]
      exact himp (hI.tell _ host s h)

theorem tryStartServer (hremove : ∀ s, Keeps C I (untrack s))
    (hlaunch : ∀ name, Attempt.Keeps C I (launch name)) (name : String) :
    Attempt.Keeps C I (tryStartServer name) :=
  hI.leads_tryStartServer (fun h => h) hremove (hlaunch name)

theorem stopNow (hremove : ∀ s, Keeps C I (untrack s)) (s : Server) :
    Attempt.Keeps C I (stopNow s) := by
  apply (Attempt.keeps_lift (hI.checkPhase s _ _)).bind
  intro _
  have hstop : Attempt.Keeps C I (Attempt.stop s) :=
    (Attempt.keeps_lift (hI.setPhase s .stopping)).bind fun _ => hI.stop s.process
  refine hstop.bind fun _ => Attempt.Keeps.bind (hI.remove s.process) fun _ => ?_
  apply (Attempt.keeps_lift (hI.setPhase s .stopped)).bind
  intro _
  exact (Attempt.keeps_lift (hremove s)).bind fun _ => Attempt.keeps_lift (hI.tell _)

theorem stopServer (hstop : ∀ {host s p server}, I host s → host.roster.get? p = some server →
      Meets C (Steward.stopNow server).run (fun _ => I) host s) (name : String)
    (gracefulTimeout : Int) :
    Keeps C I (stopServer name gracefulTimeout) := by
  have hstatus : Keeps C I (do return (← current).status name) := keeps_current fun _ _ h => h
  apply keeps_current
  intro host s h
  cases hget : host.server? name with
  | none => exact hstatus host s h
  | some server =>
    have hrest {host s} (h : I host s) (hget : host.server? name = some server)
        {next} (hok : next (.ok ()) = (do return (← current).status name))
        (herror : ∀ e, Keeps C I (next (.error e))) :
        Meets C ((Steward.stopNow server).run >>= next) (fun _ => I) host s := by
      rw [meets_bind]
      exact (hstop h hget).mono fun answer => keeps_answer (hok ▸ hstatus) herror answer
    simp only
    by_cases hgraceful : -1 < gracefulTimeout
    · rw [if_pos hgraceful, meets_bind]
      refine hrest ?_ ?_ rfl fun e => ?_
      · exact hI.journal _ h
      · exact hget
      · exact (hI.tell _).bind fun _ => hstatus
    · rw [if_neg hgraceful]
      apply hrest h hget rfl
      intro e
      exact (hI.tell _).bind fun _ => hstatus

/-! ## Notices and restarts -/

theorem serverReconnected {process : String} {phase : Phase}
    (hstart : Keeps C I (command (.start process)))
    (hrecognize : ∀ {host s}, I host s → host.stopping = false →
      host.roster.get? process = none →
      (recognize process phase).Meets C (fun _ => I) host s) :
    Keeps C I (serverReconnected process phase) := by
  refine keeps_current fun host s h => ?_
  by_cases hstopping : host.stopping
  · rw [if_pos hstopping]
    exact h
  rw [if_neg hstopping]
  extract_lets follow
  have hfollow : ∀ found, Keeps C I (follow found) := by
    intro found
    cases found with
    | none => exact hI.tell _
    | some server =>
      apply (hI.setPhase server phase).bind
      intro _
      refine keeps_ite (fun _ => (hI.tell _).bind fun _ => ?_) fun _ => keeps_pure ()
      exact hstart.bind
        (keeps_answer (keeps_pure ()) (hI.noteFailure process "start reconnected"))
  cases hget : host.roster.get? process with
  | none =>
    simp only [meets_bind]
    exact (hrecognize h (by simpa using hstopping) hget).mono fun found host s h =>
      hfollow found host s h
  | some server =>
    exact ((hI.checkPhase server _ _).bind fun _ => (keeps_pure _).bind hfollow) host s h

theorem scheduleRestart (hbudget : ∀ {h s} budget, I h s → I { h with budget } s)
    (hrestarts : ∀ {h s} nextTicket restarts, I h s → I { h with nextTicket, restarts } s)
    (server : Server) : Keeps C I (scheduleRestart server) := by
  apply keeps_current
  intro host s h
  refine ((hI.tell _).bind fun _ => Keeps.bind (fun _ _ h => ?_) fun _ => ?_) host s h
  · exact hbudget _ h
  · cases host.budget.decision server.process with
    | giveUp =>
      exact (hI.setPhase server .maxFailed).bind fun _ =>
        hI.updateServer server.number (Server.modest_diagnose _)
    | retryAfter delay => exact fun _ _ h => hrestarts _ _ h

/-- What is done about a server that went down: its process is registered from scratch, or it has
failed and may be restarted. -/
theorem serverDown {J : Steward → σ → Prop} (hJ : Quiet C J)
    (himp : ∀ {host s}, I host s → J host s)
    (hrelaunch : ∀ {host s p server}, I host s → host.roster.get? p = some server →
      host.lostItsHost server → Meets C (relaunch server).run (fun _ => J) host s)
    (hrestart : ∀ {host s server}, I host s → host.settings.lifecycle.autoRestart →
      Meets C (Steward.scheduleRestart server) (fun _ => J) host s) (process : String) :
    Leads C I J (serverDown process) := by
  refine hI.follow (fun _ _ h => himp h) fun server host s hget h => ?_
  rw [meets_bind, meets_current]
  by_cases hlost : host.lostItsHost server
  · rw [if_pos hlost, meets_bind, meets_tell, meets_bind]
    have hmeets := hrelaunch (hI.journal (host.journal ++
      [.info ("Re-registering server " ++ process ++ " after host restart")]) h) hget hlost
    exact hmeets.mono (keeps_answer (keeps_pure ()) fun e => hJ.tell _)
  · rw [if_neg hlost, meets_bind, meets_setPhase, meets_bind, meets_tell]
    have hfailed := hI.setPhase server .failed host s h
    by_cases hauto : host.settings.lifecycle.autoRestart
    · rw [if_pos hauto]
      exact hrestart (hI.journal _ hfailed) hauto
    · rw [if_neg hauto]
      exact himp (hI.journal _ hfailed)

theorem processStopped {J : Steward → σ → Prop} (himp : ∀ {host s}, I host s → J host s)
    {process : String} (hdown : Leads C I J (Steward.serverDown process))
    (incarnation : Incarnation) (uptime : Duration) :
    Leads C I J (processStopped process incarnation uptime) := by
  intro host s h
  unfold Steward.processStopped
  rw [meets_bind, meets_current]
  cases host.roster.get? process with
  | none => exact himp h
  | some server =>
    simp only
    split
    · rw [meets_bind]
      exact hdown _ s (hI.journal _ h)
    · exact himp h

/-- A plain notice asks for starts at most, except that a server may be recognized. -/
theorem notice (hstart : ∀ p, Keeps C I (command (.start p))) {n : Notice}
    (hreconnect : ∀ p phase, n = .serverReconnected p phase →
      Keeps C I (Steward.serverReconnected p phase)) (ho : (Occasion.notice n).plain) :
    Keeps C I (handle n) := by
  cases n with
  | serverStarted | serverDown | processStopped | shutdownRequested => cases ho
  | serverAvailable p => exact hI.serverAvailable (hstart p)
  | serverStartFailed p => exact hI.serverStartFailed p
  | serverStopped p => exact hI.serverStopped p
  | serverReconnected p phase => exact hreconnect p phase rfl
  | serverDisconnected p => exact hI.serverDisconnected p
  | inventory processes => exact keeps_current fun host s h => hI.tellAll _ host s h
  | connectionFailed cause =>
    exact keeps_current fun host s h =>
      keeps_ite (fun _ => keeps_pure ()) (fun _ => hI.tell _) host s h
  | connectionFinished => exact hI.tell _
  | processAdded p => exact keeps_pure ()
  | processStarted p => exact keeps_pure ()
  | processRemoved p => exact keeps_pure ()

/-- If it is kept when the budget is spent and restarts come and go, it is on every occasion of a
restart. -/
theorem relaunching (hbudget : ∀ {h s} budget, I h s → I { h with budget } s)
    (hrestarts : ∀ {h s} nextTicket restarts, I h s → I { h with nextTicket, restarts } s)
    (hrelaunch : ∀ {host s p server}, I host s → host.roster.get? p = some server →
      Meets C (relaunch server).run (fun _ => I) host s) {o : Occasion} (ho : o.relaunches) :
    Keeps C I o.operation := by
  have hdown (p : String) : Keeps C I (Steward.serverDown p) :=
    hI.serverDown hI.toQuiet (fun h => h) (fun h hget _ => hrelaunch h hget)
      (fun h _ => hI.scheduleRestart hbudget hrestarts _ _ _ h) p
  rcases Occasion.cases_of_relaunches ho with ⟨r, rfl⟩ | ⟨p, rfl⟩ | ⟨p, i, uptime, rfl⟩
  · exact fun host s h => hI.toQuiet.fire hI.toQuiet (fun h => h) (fun h hget _ => hrelaunch h hget)
      (hrestarts host.nextTicket _ h)
  · exact hdown p
  · exact hI.processStopped (fun h => h) (hdown p) i uptime

end Calm

structure Served (C : Contract σ) (I : Steward → σ → Prop) : Prop extends Calm C I where
  start : ∀ p, Keeps C I (command (.start p))
  recognize : ∀ p phase, Keeps C I (recognize p phase)
  stopNow : ∀ {host s p server}, I host s → host.roster.get? p = some server →
    Meets C (stopNow server).run (fun _ => I) host s

namespace Served

variable (hI : Served C I)

include hI

/-- It is kept on every plain occasion. -/
theorem plain {o : Occasion} (ho : o.plain) : Keeps C I o.operation := by
  cases o with
  | start | startServers | startServer | restartServer | restart | stop => cases ho
  | stopServer name gracefulTimeout =>
    exact (hI.toCalm.stopServer hI.stopNow name gracefulTimeout).bind fun _ => keeps_pure ()
  | notice n =>
    apply hI.toCalm.notice hI.start _ ho
    rintro p phase -
    exact hI.toCalm.serverReconnected (hI.start p) fun h _ _ => hI.recognize p phase _ _ h

/-- If it is kept when single servers are launched, it is on every occasion of a launch. -/
theorem launching (hwait : ∀ d, Keeps C I (ask (.wait d)))
    (hlaunch : ∀ name, Attempt.Keeps C I (launch name))
    (htry : ∀ name, Attempt.Keeps C I (tryStartServer name)) {o : Occasion} (ho : o.launches) :
    Keeps C I o.operation := by
  have hstart (name : String) : Keeps C I (startServer name) :=
    fun host s h => hI.toQuiet.startServer hwait (htry name host s h)
  cases o with
  | stopServer | notice | restart | stop => cases ho
  | start => exact Keeps.bind (hI.toQuiet.start hlaunch) fun _ => keeps_pure ()
  | startServers => exact hI.toQuiet.startServers hlaunch
  | startServer name => exact (hstart name).bind fun _ => keeps_pure ()
  | restartServer name gracefulTimeout =>
    exact ((hI.toCalm.stopServer hI.stopNow name gracefulTimeout).bind
      fun _ => hstart name).bind fun _ => keeps_pure ()

end Served

structure Ending (C : Contract σ) (I : Steward → σ → Prop) : Prop extends Quiet C I where
  stopping : ∀ {h s}, I h s → I { h with stopping := true } s
  cancelled : ∀ {h s}, I h s → I { h with cancelled := true } s
  unregister : Keeps C I (ask .unregister)
  shutdown : Keeps C I (command .shutdown)

namespace Ending

variable (hI : Ending C I)

include hI

theorem stopSteward : Keeps C I Steward.stop := by
  have hclose : Keeps C I (do
      modify fun host => { host with cancelled := true }
      Operation.tell (.info "Host controller stopped")
      return true) :=
    Keeps.bind (fun _ _ h => hI.cancelled h) fun _ => (hI.tell _).bind fun _ => keeps_pure _
  refine keeps_current fun host s h => keeps_ite (fun _ => keeps_pure _) (fun _ => ?_) host s h
  refine Keeps.bind (fun _ _ h => hI.stopping h) fun _ => (hI.tell _).bind fun _ => ?_
  refine keeps_ite (fun _ => hI.unregister.bind
    (keeps_answer ?_ fun e => (hI.tell _).bind fun _ => ?_)) fun _ => ?_
  all_goals exact hI.shutdown.bind (keeps_answer hclose fun e => (hI.tell _).bind fun _ => hclose)

theorem stops {o : Occasion} (ho : o.stops) : Keeps C I o.operation := by
  rw [Occasion.operation_of_stops ho]
  exact hI.stopSteward.bind fun _ => keeps_pure ()

end Ending

structure Upheld (C : Contract σ) (I : Steward → σ → Prop) : Prop extends
    Calm C I, Ending C I where
  budget : ∀ {h s} budget, I h s → I { h with budget } s
  wait : ∀ d, Keeps C I (ask (.wait d))

namespace Upheld

variable (hI : Upheld C I)

include hI

theorem startServer (htry : ∀ name, Attempt.Keeps C I (Steward.tryStartServer name))
    (name : String) :
    Keeps C I (startServer name) :=
  fun host s h => hI.toQuiet.startServer hI.wait (htry name host s h)

theorem restartServer (htry : ∀ name, Attempt.Keeps C I (Steward.tryStartServer name))
    (hstop : ∀ name gracefulTimeout, Keeps C I (Steward.stopServer name gracefulTimeout))
    (name : String) (gracefulTimeout : Int) : Keeps C I (restartServer name gracefulTimeout) :=
  (hstop name gracefulTimeout).bind fun _ => hI.startServer htry name

end Upheld

structure Mastered (C : Contract σ) (I : Steward → σ → Prop) : Prop extends
    Upheld C I, Served C I where
  restarts : ∀ {h s} nextTicket restarts, I h s → I { h with nextTicket, restarts } s
  launch : ∀ name, Attempt.Keeps C I (launch name)
  tryStartServer : ∀ name, Attempt.Keeps C I (tryStartServer name)
  relaunch : ∀ {host s p server}, I host s → host.roster.get? p = some server →
    Meets C (relaunch server).run (fun _ => I) host s

/-- So it is upheld by everything that a steward may be made to do. -/
theorem Mastered.operation (hI : Mastered C I) (o : Occasion) : Keeps C I o.operation := by
  rcases o.classes with ho | ho | ho | ho | ⟨p, rfl⟩
  · exact hI.toServed.plain ho
  · exact hI.toServed.launching hI.wait hI.launch hI.tryStartServer ho
  · exact hI.toCalm.relaunching hI.budget hI.restarts hI.relaunch ho
  · exact hI.toEnding.stops ho
  · exact hI.toCalm.serverStarted hI.budget p

/-- A property that has nothing to do with the servers that are tracked, nor with what is asked for
while the steward does not stop. -/
structure Aloof (C : Contract σ) (I : Steward → σ → Prop) : Prop where
  journal : ∀ {h s} journal, I h s → I { h with journal } s
  launched : ∀ {h s}, I h s → I { h with launched := true } s
  roster : ∀ {h s} roster nextNumber, I h s → I { h with roster, nextNumber } s
  ask : ∀ r, r ≠ .unregister → r ≠ .command .shutdown → Keeps C I (ask r)

namespace Aloof

variable (hI : Aloof C I)

include hI

theorem command {c : Command} (hc : c ≠ .shutdown) : Keeps C I (command c) :=
  hI.ask (.command c) nofun (by simpa using hc)

theorem calm : Calm C I where
  journal := hI.journal
  launched := hI.launched
  register name := hI.ask (.register name) nofun nofun
  inventory := hI.command nofun
  server {h _ _} _ _ hs := hI.roster _ h.nextNumber hs
  stop _ := hI.command nofun
  remove _ := hI.command nofun

theorem untrack (s : Server) : Keeps C I (untrack s) :=
  fun host _ h => hI.roster _ host.nextNumber h

theorem register (s : Server) : Attempt.Keeps C I (Attempt.register s) := by
  have hset : Keeps C I (setPhase s .booting) := hI.calm.setPhase s .booting
  refine (Attempt.keeps_lift hset).bind fun _ => Attempt.Keeps.bind (hI.command nofun) fun i => ?_
  exact Attempt.keeps_lift fun host _ h => hI.roster _ host.nextNumber h

theorem start (s : Server) : Attempt.Keeps C I (Attempt.start s) := hI.command nofun

theorem launch (name : String) : Attempt.Keeps C I (launch name) := by
  apply Attempt.keeps_iff.2
  intro host s h
  refine meets_launch (fun _ => h) fun spec roster server _ _ _ => ?_
  have htracked := hI.journal (host.journal ++
    [.info ("Launching server " ++ server.identity.text)])
    (hI.roster roster (host.nextNumber + 1) h)
  refine (Attempt.keeps_iff.1 (hI.register server) _ s htracked).mono (fun _ host s h => ?_)
    fun _ host s h => hI.roster _ host.nextNumber h
  exact Attempt.keeps_iff.1 (hI.start server) host s h

theorem relaunch (s : Server) : Attempt.Keeps C I (relaunch s) :=
  Attempt.Keeps.bind (hI.command nofun) fun _ => (hI.register s).bind fun _ => hI.start s

theorem recognize (process : String) (phase : Phase) : Keeps C I (recognize process phase) :=
  hI.calm.toQuiet.recognize (fun h _ => hI.roster _ _ h) process phase

theorem served : Served C I where
  toCalm := hI.calm
  start _ := hI.command nofun
  recognize := hI.recognize
  stopNow h _ := hI.calm.stopNow hI.untrack _ _ _ h

theorem launching {o : Occasion} (ho : o.launches) : Keeps C I o.operation :=
  hI.served.launching (fun d => hI.ask (.wait d) nofun nofun) hI.launch
    (hI.calm.tryStartServer hI.untrack hI.launch) ho

end Aloof

end HostSteward
