import HostSteward.Proofs.Steward.Configured
import HostSteward.Supervisor.Children

/-!
# Startup

While the steward launches its servers it already follows what the supervisor says about them. These
are two tasks, and each goes on while the other waits: for a command to be carried out, and for its
notices to be published one after another. Published notices are queued up, and the task that
follows them takes the next one as soon as it is done with the one before.

No child ends in the course of this, and no notice is missed.
-/

namespace HostSteward

open Operation Steward

inductive Task where
  | launcher
  | follower
deriving DecidableEq

inductive Activity where
  | idle
  /-- A request was handed out. -/
  | asks (r : Request) (resume : Steward → r.Answer → Program Unit)
  /-- The request was carried out, and these notices of it are not published yet. -/
  | hears (notices : List Notice) (resume : Steward → Program Unit)

namespace Activity

def pending : Activity → List Notice
  | .hears notices _ => notices
  | _ => []

end Activity

structure Startup where
  host : Steward
  supervisor : ChildSupervisor := {}
  /-- What was published and is still to be followed. -/
  queue : List Notice := []
  tasks : Task → Activity := fun _ => .idle

namespace Startup

def setTask (s : Startup) (t : Task) (a : Activity) : Startup :=
  { s with tasks := Function.update s.tasks t a }

/-- A task runs until it is done or has to ask for something. -/
def proceed (s : Startup) (t : Task) : Program Unit → Startup
  | .done host () => { s.setTask t .idle with host }
  | .ask host r resume => { s.setTask t (.asks r resume) with host }

/-- The machine's part in launches is `attempt`. -/
inductive Step (attempt : Launch → Except String Unit) (s : Startup) : Startup → Prop
  | obeys {t c resume supervisor answer notices} (hasks : s.tasks t = .asks (.command c) resume)
      (hobeys : s.supervisor.obey attempt c = (supervisor, answer, notices)) :
      Step attempt s { s.setTask t (.hears notices (resume · answer)) with supervisor }
  | publishes {t n rest resume} (hhears : s.tasks t = .hears (n :: rest) resume) :
      Step attempt s { s.setTask t (.hears rest resume) with queue := s.queue ++ [n] }
  | goesOn {t resume} (hhears : s.tasks t = .hears [] resume) :
      Step attempt s (s.proceed t (resume s.host))
  | follows {n rest} (hidle : s.tasks .follower = .idle) (hqueue : s.queue = n :: rest) :
      Step attempt s ({ s with queue := rest }.proceed .follower (Steward.handle n s.host))

inductive Runs (attempt : Launch → Except String Unit) (s : Startup) : Nat → Startup → Prop
  | refl : Runs attempt s 0 s
  | step {n s' s''} (h : Runs attempt s n s') (hstep : Step attempt s' s'') :
      Runs attempt s (n + 1) s''

def beginning (settings : Settings) (inDomain : Bool) : Startup :=
  let host := Steward.make settings none inDomain
  ({ host } : Startup).proceed .launcher (startServers host)

structure AtRest (s : Startup) : Prop where
  launched : s.tasks .launcher = .idle
  followed : s.tasks .follower = .idle
  queue : s.queue = []

end Startup

/-! ## The legs of the two tasks -/

variable {host : Steward} {spec : ServerSpec} {rest : List ServerSpec} {roster : Roster}

/-- Once the process of a server is registered, the incarnation is noted and the process started;
after that the other servers are launched. -/
def StartsNext (server : Server) (rest : List ServerSpec) (i : Incarnation)
    (resume : Steward → Program Unit) : Prop :=
  ∀ host, ∃ resume', resume host = .ask
      { host with roster := host.roster.update server.number (·.registered i) }
      (.command (.start server.process)) resume' ∧
    ∀ host, resume' host (.ok ()) = launchAll rest host

theorem launchAll_manual (hmanual : spec.autoStart = false) :
    launchAll (spec :: rest) host = launchAll rest { host with
      journal := host.journal ++
        [.info ("Server " ++ spec.name ++ " is configured to not be started")] } := by
  rw [launchAll, hmanual]
  rfl

theorem launchAll_auto {server : Server} (rest : List ServerSpec) (hauto : spec.autoStart)
    (hserver : server = .ofSpec host.nextNumber host.hostName spec .booting)
    (hspec : host.model.server? spec.name = some spec)
    (hinsert : host.roster.insert server = .ok roster) :
    ∃ journal resume, launchAll (spec :: rest) host =
        .ask { host with
            roster := roster.update server.number (·.withPhase .booting)
            nextNumber := host.nextNumber + 1, journal }
          (.command (.add server.process server.spec.launch)) resume ∧
      ∀ i, StartsNext server rest i (resume · (.ok i)) := by
  let told : Steward := { host with
    journal := host.journal ++ [.info ("Starting server " ++ spec.name)] }
  have hspec : told.model.server? spec.name = some spec := hspec
  obtain ⟨journal, resume, hlaunch, hregistered⟩ := run_launch hspec hserver hinsert
  rw [launchAll, if_pos hauto]
  refine ⟨journal, _, congrArg (Program.andThen _) hlaunch, fun i host => ?_⟩
  obtain ⟨resume', hstart, hstarted⟩ := hregistered host i
  refine ⟨_, congrArg (Program.andThen _) hstart, fun host => ?_⟩
  exact congrArg (Program.andThen _) (hstarted host)

variable {server : Server} {p : String}

theorem run_subject? (notice : String) (hrunning : host.stopping = false)
    (hget : host.roster.get? p = some server) :
    subject? p notice host = .done host (some server) := by
  unfold subject?
  rw [bind_of_done (rfl : current host = _), hrunning, hget]
  rfl

theorem run_tellAny (e : Option Entry) (host : Steward) :
    ∃ journal, tellAny e host = .done { host with journal } () := by
  cases e <;> exact ⟨_, rfl⟩

theorem run_checkPhase (server : Server) (expected : List Phase) (operation : String)
    (host : Steward) : ∃ journal, checkPhase server expected operation host = .done { host with
        roster := host.roster.update server.number (·.check expected operation), journal } () := by
  obtain ⟨journal, htell⟩ := run_tellAny (server.checkEntry? expected operation) host
  unfold checkPhase
  rw [bind_of_done htell]
  exact ⟨journal, rfl⟩

/-- A server that is available gets the command to start. -/
theorem run_serverAvailable (hrunning : host.stopping = false)
    (hget : host.roster.get? p = some server) :
    ∃ journal resume, serverAvailable p host =
        .ask { host with
            roster := (host.roster.update server.number (·.check [.booting] "available")).update
              server.number (·.withPhase .available)
            journal }
          (.command (.start p)) resume ∧
      ∀ host, resume host (.ok ()) = .done
        { host with roster := host.roster.update server.number (·.withPhase .starting) } () := by
  obtain ⟨journal, hcheck⟩ := run_checkPhase server [.booting] "available" host
  unfold serverAvailable
  rw [bind_of_done (run_subject? "available" hrunning hget)]
  dsimp only
  rw [bind_of_done hcheck]
  exact ⟨_, _, rfl, fun host => rfl⟩

theorem run_serverStarted (hrunning : host.stopping = false)
    (hget : host.roster.get? p = some server) :
    ∃ journal budget, serverStarted p host =
      .done { host with
          roster := (host.roster.update server.number (·.check [.starting] "started")).update
            server.number (·.withPhase .started)
          journal, budget } () := by
  obtain ⟨journal, hcheck⟩ := run_checkPhase server [.starting] "started" host
  let started : Steward := { host with
    roster := (host.roster.update server.number (·.check [.starting] "started")).update
      server.number (·.withPhase .started)
    journal }
  obtain ⟨journal', htell⟩ := run_tellAny (started.budget.resetAnnouncement? p) started
  unfold serverStarted
  rw [bind_of_done (run_subject? "started" hrunning hget)]
  dsimp only
  rw [bind_of_done hcheck, bind_of_done (rfl : setPhase server .started _ = .done started ()),
    bind_of_done (rfl : current started = _), bind_of_done htell]
  exact ⟨_, _, rfl⟩

end HostSteward
