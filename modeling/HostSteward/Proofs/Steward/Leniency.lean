import HostSteward.Proofs.Steward.Concise
import HostSteward.Proofs.Steward.Worlds

/-!
# The lenient course of a server

A steward that starts its servers itself and does not restart them takes a server through the phases
that the supervisor's notifications lead to, in whatever phase they find it. A phase that a
notification does not expect is noted in the record as it is found, and nothing is left out for it.
-/

namespace HostSteward

open Operation Steward

inductive Notification where
  | available
  | started
  | startFailed
  | stopped
  | reconnected (phase : Phase)
  | down
  | disconnected

namespace Notification

def notice (process : String) : Notification → Notice
  | .available => .serverAvailable process
  | .started => .serverStarted process
  | .startFailed => .serverStartFailed process
  | .stopped => .serverStopped process
  | .reconnected phase => .serverReconnected process phase
  | .down => .serverDown process
  | .disconnected => .serverDisconnected process

def label : Notification → String
  | .available => "available"
  | .started => "started"
  | .startFailed => "start failed"
  | .stopped => "stopped"
  | .reconnected _ => "reconnect"
  | .down => "down"
  | .disconnected => "connection closed"

def expected : Notification → List Phase
  | .available => [.booting]
  | .started | .startFailed => [.starting]
  | .stopped => [.stopping]
  | .reconnected _ => [.failed, .maxFailed, .stopped]
  | .down => Phase.all
  | .disconnected => [.stopping, .stopped, .maxFailed]

/-- The phase to which a notification leads. It depends on whether the command to start is accepted,
where there is one to be sent because the server is available. -/
def leads (accepted : Bool) : Notification → Phase → Phase
  | .available, _ => if accepted then .starting else .available
  | .started, _ => .started
  | .startFailed, _ => .failed
  | .stopped, _ => .stopped
  | .reconnected phase, _ => phase
  | .down, _ => .failed
  | .disconnected, phase => phase

def commands (process : String) : Notification → List Command
  | .available => [.start process]
  | .stopped => [.stop process, .remove process]
  | .reconnected phase => if phase.relaunchedOnReconnect then [.start process] else []
  | .started | .startFailed | .down | .disconnected => []

def complaint? (n : Notification) (phase : Phase) : Option Diagnostic :=
  if phase ∈ n.expected then none
  else some ⟨phase, n.label ++ " in state " ++ phase.label ++ ", expected " ++
    String.intercalate " or " (n.expected.map Phase.label)⟩

end Notification

structure Episode where
  notification : Notification
  answer : (c : Command) → c.Answer

def Episode.accepts (e : Episode) (process : String) : Bool := (e.answer (.start process)).isOk

/-- The phase in which episodes of a server leave it, and what is noted of them. -/
def course (process : String) (phase : Phase) : List Episode → Phase × List Diagnostic
  | [] => (phase, [])
  | e :: rest =>
    let (last, noted) := course process (e.notification.leads (e.accepts process) phase) rest
    (last, (e.notification.complaint? phase).toList ++ noted)

def answering (answer : (c : Command) → c.Answer) : Program.World (List Command) :=
  fun sent host r =>
    match r with
    | .command c => (sent ++ [c], host, answer c)
    | .register _ | .unregister => (sent, host, .ok ())
    | .wait _ => (sent, host, ())

/-- The commands that have been sent and the state of the steward after one more episode of the
server of a process. -/
def Episode.follow (process : String) (sent : List Command) (host : Steward) (e : Episode) :
    List Command × Steward :=
  let (sent, host, _) :=
    (handle (e.notification.notice process) host).run (answering e.answer) sent
  (sent, host)

/-- The commands that a steward sends in some episodes, one after another, and its state then. -/
def Steward.follow (host : Steward) (process : String) (episodes : List Episode) :
    List Command × Steward :=
  episodes.foldl (fun (sent, host) e => e.follow process sent host) ([], host)

def latest (entries : List Diagnostic) : List Diagnostic :=
  entries.drop (entries.length - Server.maxDiagnostics)

structure Steward.Tends (host : Steward) (process : String) (t : Server) : Prop where
  running : host.stopping = false
  fresh : host.settings.host.bootMode = .fresh
  manual : host.settings.lifecycle.autoRestart = false
  tracked : host.roster.get? process = some t

def Notification.amend (n : Notification) (accepted : Bool) (t : Server) : Server :=
  (t.check n.expected n.label).withPhase (n.leads accepted t.phase)

variable {σ : Type} {C : Contract σ} {host : Steward} {s : σ} {p : String} {t : Server}
  {f : Server → Server}

namespace Steward.Tends

theorem journal (h : host.Tends p t) (journal : List Entry) : Tends { host with journal } p t :=
  ⟨h.running, h.fresh, h.manual, h.tracked⟩

theorem update (h : host.Tends p t) {number : Nat} (hnumber : t.number = number)
    (f : Server → Server) :
    Tends { host with roster := host.roster.update number f } p (f t) where
  running := h.running
  fresh := h.fresh
  manual := h.manual
  tracked := hnumber ▸ Roster.get?_update_self h.tracked f

theorem followed (h : host.Tends p t) : host.followed? p = some t := by
  unfold followed?
  rw [h.running, h.tracked]
  rfl

end Steward.Tends

theorem meets_noteFailure {process operation : String} {e : Failure} {post : Outlook σ Unit}
    (hpost : ∀ journal, post () { host with journal } s) :
    (noteFailure process operation e).Meets C post host s := by
  unfold noteFailure
  rw [meets_bind, meets_current]
  by_cases hstopping : host.stopping
  · rw [if_pos hstopping]
    exact hpost host.journal
  · rw [if_neg hstopping]
    exact hpost _

theorem number_check (t : Server) (expected : List Phase) (operation : String) :
    (t.check expected operation).number = t.number := (Server.faithful_check ..).number t

section Notices

variable {answer : (c : Command) → c.Answer} {sent : List Command}

/-- A notice leaves the server as its notification amends it, and sends what that calls for. -/
def Done (answer : (c : Command) → c.Answer) (sent : List Command) (p : String) (t : Server)
    (n : Notification) (host : Steward) (sent' : List Command) : Prop :=
  host.Tends p (n.amend (answer (.start p)).isOk t) ∧ sent' = sent ++ n.commands p

theorem meets_serverAvailable_done (h : host.Tends p t) :
    (serverAvailable p).Meets (answering answer).contract
      (fun _ => Done answer sent p t .available) host sent := by
  unfold serverAvailable
  rw [meets_bind]
  refine meets_subject? fun journal => ?_
  rw [h.followed]
  simp only [meets_bind, meets_setPhase, meets_tell]
  refine meets_checkPhase_update fun journal => ?_
  have havailable := ((h.journal journal).update rfl (·.check [.booting] "available")).update
    (number_check ..) (·.withPhase .available)
  refine meets_ask_world.2 ?_
  simp only [answering]
  unfold Done Notification.amend
  cases answer (.start p) with
  | ok _ => exact ⟨(havailable.journal _).update (number_check ..) (·.withPhase .starting), rfl⟩
  | error e => exact meets_noteFailure fun journal => ⟨havailable.journal journal, rfl⟩

theorem meets_serverStarted_done (h : host.Tends p t) :
    (serverStarted p).Meets (answering answer).contract
      (fun _ => Done answer sent p t .started) host sent := by
  unfold serverStarted
  rw [meets_bind]
  refine meets_subject? fun journal => ?_
  rw [h.followed]
  simp only [meets_bind, meets_setPhase, meets_current]
  refine meets_checkPhase_update fun journal => meets_tellAny fun journal => ?_
  have hstarted := ((h.journal journal).update rfl (·.check [.starting] "started")).update
    (number_check ..) (·.withPhase .started)
  exact ⟨⟨hstarted.running, hstarted.fresh, hstarted.manual, hstarted.tracked⟩,
    (List.append_nil _).symm⟩

theorem meets_serverStartFailed_done (h : host.Tends p t) :
    (serverStartFailed p).Meets (answering answer).contract
      (fun _ => Done answer sent p t .startFailed) host sent := by
  unfold serverStartFailed
  rw [meets_bind]
  refine meets_subject? fun journal => ?_
  rw [h.followed]
  simp only [meets_bind, meets_setPhase, meets_tell]
  refine meets_checkPhase_update fun journal => ?_
  exact ⟨(((h.journal journal).update rfl (·.check [.starting] "start failed")).update
    (number_check ..) (·.withPhase .failed)).journal _, (List.append_nil _).symm⟩

theorem meets_serverStopped_done (h : host.Tends p t) :
    (serverStopped p).Meets (answering answer).contract
      (fun _ => Done answer sent p t .stopped) host sent := by
  unfold serverStopped
  rw [meets_bind]
  refine meets_subject? fun journal => ?_
  rw [h.followed]
  simp only [meets_bind, meets_setPhase]
  refine meets_checkPhase_update fun journal => ?_
  have hstopped := ((h.journal journal).update rfl (·.check [.stopping] "stopped")).update
    (number_check ..) (·.withPhase .stopped)
  have hremove {host : Steward} {next : Except Failure Unit → Operation Unit}
      (h : host.Tends p (Notification.stopped.amend true t)) (hok : next (.ok ()) = pure ())
      (herror : ∀ e, next (.error e) = noteFailure p "remove" e) :
      Meets (answering answer).contract (command (.remove p) >>= next)
        (fun _ => Done answer sent p t .stopped) host (sent ++ [.stop p]) := by
    rw [meets_bind]
    refine meets_ask_world.2 ?_
    simp only [answering, List.append_assoc]
    cases answer (.remove p) with
    | ok _ =>
      rw [hok]
      exact ⟨h, rfl⟩
    | error e =>
      rw [herror]
      exact meets_noteFailure fun journal => ⟨h.journal journal, rfl⟩
  refine meets_ask_world.2 ?_
  simp only [answering]
  cases answer (.stop p) with
  | ok _ => exact hremove hstopped rfl fun _ => rfl
  | error e =>
    rw [meets_bind]
    exact meets_noteFailure fun journal => hremove (hstopped.journal journal) rfl fun _ => rfl

theorem meets_serverReconnected_done (h : host.Tends p t) (phase : Phase) :
    (serverReconnected p phase).Meets (answering answer).contract
      (fun _ => Done answer sent p t (.reconnected phase)) host sent := by
  unfold serverReconnected
  rw [meets_bind, meets_current]
  rw [if_neg (by simp [h.running])]
  extract_lets follow
  rw [h.tracked]
  simp only [meets_bind]
  refine meets_checkPhase_update fun journal => ?_
  have hset := ((h.journal journal).update rfl
    (·.check [.failed, .maxFailed, .stopped] "reconnect")).update (number_check ..)
    (·.withPhase phase)
  rw [meets_pure]
  simp only [follow, meets_bind, meets_setPhase]
  unfold Done
  by_cases hrelaunched : phase.relaunchedOnReconnect
  · rw [if_pos hrelaunched, meets_bind, meets_tell, meets_bind, Notification.commands,
      if_pos hrelaunched]
    refine meets_ask_world.2 ?_
    simp only [answering]
    cases answer (.start p) with
    | ok _ => exact ⟨hset.journal _, rfl⟩
    | error e => exact meets_noteFailure fun journal => ⟨hset.journal journal, rfl⟩
  · rw [if_neg hrelaunched, Notification.commands, if_neg hrelaunched]
    exact ⟨hset, (List.append_nil _).symm⟩

theorem meets_serverDown_done (h : host.Tends p t) :
    (serverDown p).Meets (answering answer).contract
      (fun _ => Done answer sent p t .down) host sent := by
  unfold serverDown
  rw [meets_bind]
  refine meets_subject? fun journal => ?_
  rw [h.followed]
  simp only [meets_bind, meets_current]
  have hkept : ¬ lostItsHost { host with journal } t := by simp [lostItsHost, h.fresh]
  have hmanual : ¬ { host with journal : Steward }.settings.lifecycle.autoRestart := by
    simp [h.manual]
  rw [if_neg hkept, meets_bind, meets_setPhase, meets_bind, meets_tell, if_neg hmanual]
  have hexpected : t.check Phase.all "down" = t := if_pos (by cases t.phase <;> decide)
  unfold Done Notification.amend
  rw [Notification.expected, Notification.label, hexpected]
  exact ⟨((h.journal journal).update rfl (·.withPhase .failed)).journal _,
    (List.append_nil _).symm⟩

theorem meets_serverDisconnected_done (h : host.Tends p t) :
    (serverDisconnected p).Meets (answering answer).contract
      (fun _ => Done answer sent p t .disconnected) host sent := by
  unfold serverDisconnected
  rw [meets_bind]
  refine meets_subject? fun journal => ?_
  rw [h.followed]
  simp only
  refine meets_checkPhase_update fun journal => ?_
  have hchecked := (h.journal journal).update rfl
    (·.check [.stopping, .stopped, .maxFailed] "connection closed")
  have hphase :
      (t.check [.stopping, .stopped, .maxFailed] "connection closed").phase = t.phase := by
    unfold Server.check
    split <;> rfl
  unfold Done Notification.amend
  rw [Notification.leads, ← hphase]
  exact ⟨hchecked, (List.append_nil _).symm⟩

/-- Whatever is told, and whatever is answered to it, the server is amended and nothing is left
out. -/
theorem meets_handle_done (h : host.Tends p t) (n : Notification) :
    (handle (n.notice p)).Meets (answering answer).contract (fun _ => Done answer sent p t n) host
      sent := by
  cases n with
  | available => exact meets_serverAvailable_done h
  | started => exact meets_serverStarted_done h
  | startFailed => exact meets_serverStartFailed_done h
  | stopped => exact meets_serverStopped_done h
  | reconnected phase => exact meets_serverReconnected_done h phase
  | down => exact meets_serverDown_done h
  | disconnected => exact meets_serverDisconnected_done h

end Notices

/-! ## Diagnostics -/

theorem latest_append_latest (l m : List Diagnostic) :
    latest (latest l ++ m) = latest (l ++ m) := by
  unfold latest
  simp only [List.drop_append, List.drop_drop, List.length_append, List.length_drop]
  congr 2 <;> omega

theorem latest_of_concise (h : t.Concise) : latest t.diagnostics = t.diagnostics := by
  unfold latest
  rw [Nat.sub_eq_zero_of_le h]
  rfl

/-- A check leaves what a notification has to complain of, and nothing else. -/
theorem amend_eq (h : t.Concise) (n : Notification) (accepted : Bool) :
    n.amend accepted t = { t with
      phase := n.leads accepted t.phase
      diagnostics := latest (t.diagnostics ++ (n.complaint? t.phase).toList) } := by
  unfold Notification.amend Server.check Notification.complaint?
  by_cases hexpected : t.phase ∈ n.expected
  · rw [if_pos hexpected, if_pos hexpected, Option.toList_none, List.append_nil,
      latest_of_concise h]
    rfl
  · rw [if_neg hexpected, if_neg hexpected]
    rfl

theorem concise_amend (h : t.Concise) (n : Notification) (accepted : Bool) :
    (n.amend accepted t).Concise := (Server.modest_check ..).concise t h

/-! ## Runs -/

def Server.through (t : Server) (process : String) (episodes : List Episode) : Server :=
  { t with
    phase := (course process t.phase episodes).1
    diagnostics := latest (t.diagnostics ++ (course process t.phase episodes).2) }

theorem through_cons (h : t.Concise) (p : String) (e : Episode) (rest : List Episode) :
    t.through p (e :: rest) = (e.notification.amend (e.accepts p) t).through p rest := by
  rw [amend_eq h]
  unfold Server.through
  rw [latest_append_latest, List.append_assoc]
  rfl

/-- One episode amends the server and sends the commands of its notification. -/
theorem Episode.follow_spec (h : host.Tends p t) (e : Episode) (sent : List Command) :
    (e.follow p sent host).2.Tends p (e.notification.amend (e.accepts p) t) ∧
      (e.follow p sent host).1 = sent ++ e.notification.commands p :=
  Program.meets_world.1 (meets_handle_done h e.notification)

theorem foldl_follow_spec (episodes : List Episode) (h : host.Tends p t) (hconcise : t.Concise)
    (sent : List Command) :
    let (sent', host') := episodes.foldl (fun (sent, host) e => e.follow p sent host) (sent, host)
    host'.Tends p (t.through p episodes) ∧
      sent' = sent ++ episodes.flatMap (·.notification.commands p) := by
  induction episodes generalizing t host sent with
  | nil =>
    have hthrough : t.through p [] = t := by
      unfold Server.through
      rw [course, List.append_nil, latest_of_concise hconcise]
    exact ⟨hthrough.symm ▸ h, (List.append_nil _).symm⟩
  | cons e rest ih =>
    obtain ⟨htends, hsent⟩ := e.follow_spec h sent
    obtain ⟨hrest, hcommands⟩ := ih htends (concise_amend hconcise _ _) (e.follow p sent host).1
    rw [List.foldl_cons, through_cons hconcise]
    refine ⟨hrest, ?_⟩
    rw [hcommands, hsent, List.flatMap_cons, List.append_assoc]

/-- Whatever the supervisor tells about a tracked server, one thing after another, and whichever
commands it refuses meanwhile, the server goes through the phases that the notifications lead to.
Of its diagnostics the latest are kept, to which was added what each notification found that it did
not expect; no command is left out. -/
theorem follows_leniently {settings : Settings} {model : Option HostModel} {inDomain : Bool}
    {log : List Stretch} {s : Interleaving} (h : Chronicle (.make settings model inDomain) log s)
    (hrunning : s.host.stopping = false) (hfresh : s.host.settings.host.bootMode = .fresh)
    (hmanual : s.host.settings.lifecycle.autoRestart = false) {p : String} {t : Server}
    (ht : s.host.roster.get? p = some t) (episodes : List Episode) :
    let (sent, host) := s.host.follow p episodes
    host.roster.get? p = some { t with
      phase := (course p t.phase episodes).1
      diagnostics := latest (t.diagnostics ++ (course p t.phase episodes).2) } ∧
    sent = episodes.flatMap (·.notification.commands p) := by
  have htends : s.host.Tends p t := ⟨hrunning, hfresh, hmanual, ht⟩
  obtain ⟨hfollowed, hsent⟩ := foldl_follow_spec episodes htends (h.concise p t ht) []
  exact ⟨hfollowed.tracked, hsent⟩

/-- A supervisor that lets every process be added but refuses to start any. -/
def reluctant : (c : Command) → c.Answer
  | .add _ _ => .ok 1
  | .start p => .error (.notRegistered p)
  | .stop _ | .remove _ | .requestInventory | .shutdown => .ok ()

/-- A server that boots is reported to have started, then to be available, and closes its
connection. -/
theorem follows_leniently_reluctant :
    ∃ log s, Chronicle (.make {} (some (.single "a" ["true"])) false) log s ∧
      s.host.stopping = false ∧ s.host.settings.host.bootMode = .fresh ∧
      s.host.settings.lifecycle.autoRestart = false ∧
      ∃ t, s.host.roster.get? "Server:a" = some t ∧ t.phase = .booting ∧
      let (sent, host) := s.host.follow "Server:a"
        [⟨.started, reluctant⟩, ⟨.available, reluctant⟩, ⟨.disconnected, reluctant⟩]
      host.roster.get? "Server:a" = some { t with
        phase := .available
        diagnostics := [⟨.booting, "started in state BOOTING, expected STARTING"⟩,
          ⟨.started, "available in state STARTED, expected BOOTING"⟩,
          ⟨.available,
            "connection closed in state AVAILABLE, expected STOPPING or STOPPED or MAX_FAILED"⟩] } ∧
      sent = [.start "Server:a"] := by
  have hbegun : Chronicle (.make {} (some (.single "a" ["true"])) false) _ _ :=
    Chronicle.nil.begins (.startServer "a") nofun
  have hadded := (hbegun.answers 0 (r := .command (.add "Server:a" ⟨["true"], none, .empty⟩))
    (.ok 1) rfl).resumes 0 rfl
  exact ⟨_, _, hadded, rfl, rfl, rfl, _, rfl, rfl, follows_leniently hadded rfl rfl rfl rfl
    [⟨.started, reluctant⟩, ⟨.available, reluctant⟩, ⟨.disconnected, reluctant⟩]⟩

end HostSteward
