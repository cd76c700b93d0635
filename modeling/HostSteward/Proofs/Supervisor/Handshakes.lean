import HostSteward.Proofs.Supervisor.Startup
import Mathlib.Algebra.BigOperators.Group.Finset.Basic

/-!
# Handshakes

A server is started by a handshake of the two tasks. The launcher registers its process and starts
it; the notice that it is available makes the follower start it once more, which acknowledges that
it has booted; the notice that it has started completes the handshake.

How far the handshake about a process has come is told by what there is of the process: its record,
its registration, its children, and the notices about it that are on their way.
-/

namespace HostSteward

open Operation Steward

/-- How far a handshake has come. The server is its record as it was made. -/
inductive Handshake where
  | waiting
  /-- The process is to be registered. -/
  | adding (s : Server)
  /-- It is registered, which the launcher has still to hear. -/
  | added (s : Server) (i : Incarnation)
  /-- It is to be started. -/
  | starting (s : Server) (i : Incarnation)
  /-- It was started, and the notice that it is available is on its way. -/
  | launched (s : Server) (i : Incarnation) (child : Nat)
  /-- It is to be started once more. -/
  | acknowledging (s : Server) (i : Incarnation) (child : Nat)
  /-- It was, which the follower has still to hear. -/
  | acknowledged (s : Server) (i : Incarnation) (child : Nat)
  /-- The notice that it has started is on its way. -/
  | awaited (s : Server) (i : Incarnation) (child : Nat)
  | started (s : Server) (i : Incarnation) (child : Nat)

structure Standing where
  record : Option Server := none
  registration : Option Registration := none
  /-- Its children and their numbers. -/
  children : List (Child × Nat) := []
  /-- The notices on their way that it is available, or has started. -/
  available : Nat := 0
  started : Nat := 0

def Server.manned (s : Server) (i : Incarnation) (child : Nat) (booted : Bool) : Standing where
  record := some (s.registered i)
  registration := some ⟨i, s.spec.launch, some ⟨child, booted⟩⟩
  children := [({ process := s.process, incarnation := i, launch := s.spec.launch }, child)]

namespace Handshake

def standing : Handshake → Standing
  | .waiting => {}
  | .adding s => { record := some s }
  | .added s i => { record := some s, registration := some ⟨i, s.spec.launch, none⟩ }
  | .starting s i =>
    { record := some (s.registered i), registration := some ⟨i, s.spec.launch, none⟩ }
  | .launched s i child => { s.manned i child false with available := 1 }
  | .acknowledging s i child => (s.withPhase .available).manned i child false
  | .acknowledged s i child => { (s.withPhase .available).manned i child true with started := 1 }
  | .awaited s i child => { (s.withPhase .starting).manned i child true with started := 1 }
  | .started s i child => (s.withPhase .started).manned i child true

def server? : Handshake → Option Server
  | .waiting => none
  | .adding s | .added s _ | .starting s _ => some s
  | .launched s _ _ | .acknowledging s _ _ | .acknowledged s _ _ | .awaited s _ _
  | .started s _ _ => some s

def task? : Handshake → Option Task
  | .adding _ | .added _ _ | .starting _ _ => some .launcher
  | .acknowledging _ _ _ | .acknowledged _ _ _ => some .follower
  | .waiting | .launched _ _ _ | .awaited _ _ _ | .started _ _ _ => none

def isLaunched : Handshake → Bool
  | .waiting | .adding _ | .added _ _ | .starting _ _ => false
  | _ => true

theorem task?_of_isLaunched {h : Handshake} (hlaunched : h.isLaunched) :
    h.task? ≠ some .launcher := by
  cases h <;> simp_all [isLaunched, task?]

theorem ne_waiting_of_isLaunched {h : Handshake} (hlaunched : h.isLaunched) : h ≠ .waiting := by
  rintro rfl
  cases hlaunched

theorem exists_launched {h : Handshake} (havailable : 0 < h.standing.available) :
    ∃ s i child, h = .launched s i child := by
  cases h <;> simp_all [standing, Server.manned]

theorem exists_awaited {h : Handshake} (hstarted : 0 < h.standing.started)
    (hfree : h.task? ≠ some .follower) : ∃ s i child, h = .awaited s i child := by
  cases h <;> simp_all [standing, Server.manned, task?]

/-- The steps that a handshake still takes, apart from those of a task that is at it now and those
of the notices that are on their way. -/
def remaining : Handshake → Nat
  | .waiting => 14
  | .adding _ => 13
  | .added _ _ => 10
  | .starting _ _ => 9
  | .launched _ _ _ => 4
  | .acknowledging _ _ _ => 3
  | .acknowledged _ _ _ | .awaited _ _ _ | .started _ _ _ => 0

end Handshake

namespace ChildSupervisor

variable {s : ChildSupervisor} {p q : String} {launch : Launch} {r : Registration}

def childrenOf (s : ChildSupervisor) (p : String) : List (Child × Nat) :=
  s.children.zipIdx.filter (·.1.process = p)

theorem childrenOf_spawn (s : ChildSupervisor) (p : String) (r : Registration) (q : String) :
    (s.spawn p r).childrenOf q = s.childrenOf q ++ if p = q then
      [({ process := p, incarnation := r.incarnation, launch := r.launch }, s.children.length)]
      else [] := by
  unfold childrenOf spawn setRunning
  rw [List.zipIdx_append, List.filter_append]
  by_cases hp : p = q <;> simp [hp]

theorem add_of_get? (hnew : s.processes.get? p = none) :
    s.add p launch =
      { supervisor := { s with
          processes := s.processes.insert p { incarnation := s.nextIncarnation, launch }
          nextIncarnation := s.nextIncarnation + 1 }
        answer := .ok s.nextIncarnation
        notices := [.processAdded p] } := by
  simp [add, OrderedMap.contains, hnew]

variable {attempt : Launch → Except String Unit}

theorem start_of_childless (hget : s.processes.get? p = some r) (hnone : r.running = none)
    (hcommand : r.launch.command ≠ []) (hattempt : attempt r.launch = .ok ()) :
    s.start attempt p =
      { supervisor := s.spawn p r
        answer := .ok ()
        notices := [.processStarted p, .serverAvailable p] } := by
  simp [start, hget, hnone, hcommand, hattempt]

theorem start_of_booting {child : Nat} (hget : s.processes.get? p = some r)
    (hrunning : r.running = some ⟨child, false⟩) :
    s.start attempt p =
      { supervisor := s.setRunning p r (some ⟨child, true⟩)
        answer := .ok ()
        notices := [.serverStarted p] } := by
  simp [start, hget, hrunning]

end ChildSupervisor

/-- A server that is checked in a phase that is expected goes into the next phase, and nothing else
changes. -/
theorem Roster.Sound.get?_check {r : Roster} {number : Nat} {p operation : String} {s : Server}
    {expected : List Phase} (h : r.Sound number) (hget : r.get? p = some s)
    (hphase : s.phase ∈ expected) (phase : Phase) (q : String) :
    ((r.update s.number (·.check expected operation)).update s.number (·.withPhase phase)).get? q =
      if p = q then some (s.withPhase phase) else r.get? q := by
  have hsame : s.check expected operation = s := if_pos hphase
  have hcheck := h.get?_update hget (·.check expected operation)
  have hget' : (r.update s.number (·.check expected operation)).get? p = some s := by
    rw [hcheck, if_pos rfl, hsame]
  have hsound := h.update (Server.faithful_check expected operation) s.number
  rw [hsound.get?_update hget', hcheck]
  by_cases hq : p = q <;> simp [hq]

def Notice.isNews : Notice → Bool
  | .processAdded _ | .processStarted _ | .serverAvailable _ | .serverStarted _ => true
  | _ => false

structure Server.Fresh (s : Server) : Prop where
  phase : s.phase = .booting
  diagnostics : s.diagnostics = []
  auto : s.spec.autoStart = true

/-- A steward, its supervisor and the notices on their way are as the handshakes tell. -/
structure Stands (settings : Settings) (σ : String → Handshake) (host : Steward)
    (supervisor : ChildSupervisor) (due : List Notice) : Prop where
  configured : host.Configured settings
  running : host.stopping = false
  record : ∀ p, host.roster.get? p = (σ p).standing.record
  registration : ∀ p, supervisor.processes.get? p = (σ p).standing.registration
  children : ∀ p, supervisor.childrenOf p = (σ p).standing.children
  available : ∀ p, due.count (.serverAvailable p) = (σ p).standing.available
  started : ∀ p, due.count (.serverStarted p) = (σ p).standing.started
  fresh : ∀ {p server}, (σ p).server? = some server → server.Fresh ∧ server.process = p
  news : ∀ n ∈ due, n.isNews

namespace Stands

variable {settings : Settings} {σ : String → Handshake} {host host' : Steward}
  {supervisor supervisor' : ChildSupervisor} {due due' : List Notice} {p : String}
  {next : Handshake} {server : Server} {i : Incarnation} {child : Nat}

theorem perm (h : Stands settings σ host supervisor due) (hperm : due.Perm due') :
    Stands settings σ host supervisor due' where
  configured := h.configured
  running := h.running
  record := h.record
  registration := h.registration
  children := h.children
  available p := (hperm.count_eq _).symm.trans (h.available p)
  started p := (hperm.count_eq _).symm.trans (h.started p)
  fresh := h.fresh
  news n hn := h.news n (hperm.mem_iff.2 hn)

theorem journal (h : Stands settings σ host supervisor due) (journal : List Entry) :
    Stands settings σ { host with journal } supervisor due where
  configured := h.configured.of_eq rfl ⟨rfl, rfl⟩ rfl rfl
  running := h.running
  record := h.record
  registration := h.registration
  children := h.children
  available := h.available
  started := h.started
  fresh := h.fresh
  news := h.news

/-- Handshakes are about the processes of servers that start with the host. -/
theorem configured_spec (h : Stands settings σ host supervisor due)
    (hserver : (σ p).server? = some server) :
    server.spec ∈ settings.servers ∧ server.spec.processName = p ∧ server.spec.autoStart := by
  have hrecord : ∃ t, host.roster.get? p = some t ∧ t.spec = server.spec := by
    have hp := h.record p
    cases hx : σ p with
    | waiting =>
      rw [hx] at hserver
      cases hserver
    | _ =>
      rw [hx] at hp hserver
      cases hserver
      exact ⟨_, hp, rfl⟩
  obtain ⟨t, hget, hspec⟩ := hrecord
  obtain ⟨-, hmem, rfl, rfl, -⟩ := h.configured.known hget
  rw [← hspec]
  exact ⟨hmem, rfl, hspec ▸ (h.fresh hserver).1.auto⟩

/-- What is told about one process changes, and what is told about the others does not. -/
theorem advance (h : Stands settings σ host supervisor due)
    (hconfigured : host'.Configured settings) (hrunning : host'.stopping = false)
    (hrecord : ∀ q, host'.roster.get? q =
      if p = q then next.standing.record else host.roster.get? q)
    (hregistration : ∀ q, supervisor'.processes.get? q =
      if p = q then next.standing.registration else supervisor.processes.get? q)
    (hchildren : ∀ q, supervisor'.childrenOf q =
      if p = q then next.standing.children else supervisor.childrenOf q)
    (havailable : ∀ q, due'.count (.serverAvailable q) =
      if p = q then next.standing.available else due.count (.serverAvailable q))
    (hstarted : ∀ q, due'.count (.serverStarted q) =
      if p = q then next.standing.started else due.count (.serverStarted q))
    (hfresh : ∀ {server}, next.server? = some server → server.Fresh ∧ server.process = p)
    (hnews : ∀ n ∈ due', n.isNews) :
    Stands settings (Function.update σ p next) host' supervisor' due' := by
  have htold {α : Type} {f f' : String → α} {g : Standing → α}
      (hf : ∀ q, f q = g (σ q).standing) (hf' : ∀ q, f' q = if p = q then g next.standing else f q)
      (q : String) : f' q = g (Function.update σ p next q).standing := by
    rw [hf', hf]
    by_cases hq : p = q
    · subst hq
      rw [if_pos rfl, Function.update_self]
    · rw [if_neg hq, Function.update_of_ne (Ne.symm hq)]
  refine ⟨hconfigured, hrunning, htold h.record hrecord, htold h.registration hregistration,
    htold h.children hchildren, htold h.available havailable, htold h.started hstarted, ?_, hnews⟩
  intro q server hserver
  by_cases hq : q = p
  · subst hq
    rw [Function.update_self] at hserver
    exact hfresh hserver
  · rw [Function.update_of_ne hq] at hserver
    exact h.fresh hserver

/-- What a handshake goes on telling need not change. -/
theorem kept {α : Type} (g : Standing → α) {f : String → α} (hf : ∀ q, f q = g (σ q).standing)
    (hg : g (σ p).standing = g next.standing) (q : String) :
    f q = if p = q then g next.standing else f q := by
  by_cases hq : p = q
  · rw [if_pos hq, ← hg, hq, hf]
  · rw [if_neg hq]

theorem changed {α : Type} {f f' : String → α} {a : α} (hself : f' p = a)
    (hothers : ∀ q, p ≠ q → f' q = f q) (q : String) : f' q = if p = q then a else f q := by
  by_cases hq : p = q
  · rw [if_pos hq, ← hq, hself]
  · rw [if_neg hq, hothers q hq]

/-- Only the record of the server changes. -/
theorem rewrite (h : Stands settings σ host supervisor due)
    (hconfigured : host'.Configured settings) (hrunning : host'.stopping = false)
    (hrecord : ∀ q, host'.roster.get? q =
      if p = q then next.standing.record else host.roster.get? q)
    (hsame : next.standing = { (σ p).standing with record := next.standing.record })
    (hfresh : ∀ {server}, next.server? = some server → server.Fresh ∧ server.process = p) :
    Stands settings (Function.update σ p next) host' supervisor due :=
  h.advance hconfigured hrunning hrecord
    (kept Standing.registration h.registration (by rw [hsame]))
    (kept Standing.children h.children (by rw [hsame]))
    (kept Standing.available h.available (by rw [hsame]))
    (kept Standing.started h.started (by rw [hsame])) hfresh h.news

/-! ### Commands -/

/-- The process is registered. -/
theorem add (h : Stands settings σ host supervisor due)
    (hstage : σ server.process = .adding server) :
    ∃ supervisor' i, supervisor.add server.process server.spec.launch =
        { supervisor := supervisor', answer := .ok i, notices := [.processAdded server.process] } ∧
      Stands settings (Function.update σ server.process (.added server i)) host supervisor'
        (due ++ [.processAdded server.process]) := by
  have hnew : supervisor.processes.get? server.process = none := by
    rw [h.registration, hstage]
    rfl
  refine ⟨_, _, ChildSupervisor.add_of_get? hnew, h.advance h.configured h.running
    (kept Standing.record h.record (by rw [hstage]; rfl)) (fun q => OrderedMap.get?_insert ..)
    (kept Standing.children h.children (by rw [hstage]; rfl)) (fun q => ?_) (fun q => ?_)
    (fun hserver => h.fresh (hserver ▸ hstage ▸ rfl)) ?_⟩
  · simpa using kept Standing.available h.available (by rw [hstage]; rfl) q
  · simpa using kept Standing.started h.started (by rw [hstage]; rfl) q
  · exact List.forall_mem_append.2 ⟨h.news, by simp [Notice.isNews]⟩

/-- The process is launched. -/
theorem launch (h : Stands settings σ host supervisor due)
    {attempt : Launch → Except String Unit}
    (hstage : σ server.process = .starting server i)
    (hcommand : server.spec.command ≠ []) (hattempt : attempt server.spec.launch = .ok ()) :
    ∃ supervisor' child, supervisor.start attempt server.process =
        { supervisor := supervisor', answer := .ok ()
          notices := [.processStarted server.process, .serverAvailable server.process] } ∧
      Stands settings (Function.update σ server.process (.launched server i child)) host supervisor'
        (due ++ [.processStarted server.process, .serverAvailable server.process]) := by
  have hget : supervisor.processes.get? server.process = some ⟨i, server.spec.launch, none⟩ := by
    rw [h.registration, hstage]
    rfl
  refine ⟨_, _, ChildSupervisor.start_of_childless hget rfl hcommand hattempt,
    h.advance h.configured h.running (kept Standing.record h.record (by rw [hstage]; rfl))
      (fun q => OrderedMap.get?_insert ..) (changed ?_ fun q hq => ?_)
      (changed ?_ fun q hq => ?_) (fun q => ?_)
      (fun hserver => h.fresh (hserver ▸ hstage ▸ rfl)) ?_⟩
  · rw [ChildSupervisor.childrenOf_spawn, if_pos rfl, h.children, hstage]
    rfl
  · rw [ChildSupervisor.childrenOf_spawn, if_neg hq, List.append_nil]
  · rw [List.count_append, h.available, hstage]
    simp [Handshake.standing]
  · simp [hq]
  · simpa using kept Standing.started h.started (by rw [hstage]; rfl) q
  · exact List.forall_mem_append.2 ⟨h.news, by simp [Notice.isNews]⟩

/-- The boot of the process is acknowledged. -/
theorem acknowledge (h : Stands settings σ host supervisor due)
    (attempt : Launch → Except String Unit)
    (hstage : σ server.process = .acknowledging server i child) :
    ∃ supervisor', supervisor.start attempt server.process =
        { supervisor := supervisor', answer := .ok ()
          notices := [.serverStarted server.process] } ∧
      Stands settings (Function.update σ server.process (.acknowledged server i child)) host
        supervisor' (due ++ [.serverStarted server.process]) := by
  have hget : supervisor.processes.get? server.process =
      some ⟨i, server.spec.launch, some ⟨child, false⟩⟩ := by
    rw [h.registration, hstage]
    rfl
  refine ⟨_, ChildSupervisor.start_of_booting hget rfl, h.advance h.configured h.running
    (kept Standing.record h.record (by rw [hstage]; rfl)) (fun q => OrderedMap.get?_insert ..)
    (kept Standing.children h.children (by rw [hstage]; rfl)) (fun q => ?_)
    (changed ?_ fun q hq => ?_) (fun hserver => h.fresh (hserver ▸ hstage ▸ rfl)) ?_⟩
  · simpa using kept Standing.available h.available (by rw [hstage]; rfl) q
  · rw [List.count_append, h.started, hstage]
    simp [Handshake.standing, Server.manned]
  · simp [hq]
  · exact List.forall_mem_append.2 ⟨h.news, by simp [Notice.isNews]⟩

/-! ### Legs of the launcher -/

/-- A server is tracked under a new record. -/
theorem track (h : Stands settings σ host supervisor due) {spec : ServerSpec}
    (hspec : spec ∈ settings.servers) (hauto : spec.autoStart)
    (hstage : σ spec.processName = .waiting)
    (hserver : server = .ofSpec host.nextNumber host.hostName spec .booting) :
    ∃ roster, host.roster.insert server = .ok roster ∧ ∀ journal,
      Stands settings (Function.update σ spec.processName (.adding server))
        { host with
          roster := roster.update server.number (·.withPhase .booting)
          nextNumber := host.nextNumber + 1, journal } supervisor due := by
  have hnew : host.roster.get? server.process = none := by
    subst hserver
    exact (h.record spec.processName).trans (by rw [hstage]; rfl)
  obtain ⟨roster, hinsert⟩ : ∃ roster, host.roster.insert server = .ok roster :=
    ⟨_, Roster.insert_eq_ok_iff.2 ⟨hnew, rfl⟩⟩
  have htracked := h.configured.track (h.configured.servers ▸ hspec) (hserver ▸ hinsert)
  have hself : roster.get? spec.processName = some server := by
    subst hserver
    exact (Roster.get?_of_insert hinsert _).trans (if_pos rfl)
  refine ⟨roster, hinsert, fun journal => h.rewrite
    ((htracked.update (Server.faithful_withPhase .booting) server.number).of_eq rfl ⟨rfl, rfl⟩ rfl
      rfl) h.running (changed ?_ fun q hq => ?_) (by rw [hstage]; rfl) fun hserver => ?_⟩
  · subst hserver
    exact Roster.get?_update_self hself _
  · have hprocess : server.process ≠ q := by
      subst hserver
      exact hq
    have hupdate := htracked.sound.get?_update hself (·.withPhase .booting) q
    rw [if_neg hq, Roster.get?_of_insert hinsert, if_neg hprocess] at hupdate
    exact hupdate
  · cases hserver
    subst hserver
    exact ⟨⟨rfl, rfl, hauto⟩, rfl⟩

/-- The incarnation is noted. -/
theorem note (h : Stands settings σ host supervisor due)
    (hstage : σ server.process = .added server i) :
    Stands settings (Function.update σ server.process (.starting server i))
      { host with roster := host.roster.update server.number (·.registered i) } supervisor due := by
  have hget : host.roster.get? server.process = some server := by
    rw [h.record, hstage]
    rfl
  exact h.rewrite (h.configured.update (Server.faithful_registered i) server.number) h.running
    (h.configured.sound.get?_update hget _) (by rw [hstage]; rfl)
    fun hserver => h.fresh (hserver ▸ hstage ▸ rfl)

/-! ### Legs of the follower -/

/-- A server that is available is going to be started. -/
theorem makeAvailable (h : Stands settings σ host supervisor (.serverAvailable p :: due)) :
    ∃ server i child, server.process = p ∧ σ p = .launched server i child ∧
      host.roster.get? p = some (server.registered i) ∧ ∀ journal,
        Stands settings (Function.update σ p (.acknowledging server i child))
          { host with
            roster := (host.roster.update server.number (·.check [.booting] "available")).update
              server.number (·.withPhase .available)
            journal } supervisor due := by
  obtain ⟨server, i, child, hstage⟩ : ∃ server i child, σ p = .launched server i child := by
    apply Handshake.exists_launched
    rw [← h.available, List.count_cons_self]
    omega
  obtain ⟨hfresh, hprocess⟩ := h.fresh (show (σ p).server? = some server by rw [hstage]; rfl)
  have hget : host.roster.get? p = some (server.registered i) := by
    rw [h.record, hstage]
    rfl
  have hphase : (server.registered i).phase ∈ [Phase.booting] := List.mem_singleton.2 hfresh.phase
  have hcheck := Server.faithful_check [.booting] "available"
  refine ⟨server, i, child, hprocess, hstage, hget, fun journal => h.advance
    (((h.configured.update hcheck server.number).update (Server.faithful_withPhase .available)
      server.number).of_eq rfl ⟨rfl, rfl⟩ rfl rfl) h.running
    (h.configured.sound.get?_check hget hphase _)
    (kept Standing.registration h.registration (by rw [hstage]; rfl))
    (kept Standing.children h.children (by rw [hstage]; rfl)) (changed ?_ fun q hq => ?_)
    (fun q => ?_) (fun hserver => h.fresh (hserver ▸ hstage ▸ rfl))
    (List.forall_mem_cons.1 h.news).2⟩
  · have hcount := h.available p
    rw [hstage, List.count_cons_self] at hcount
    exact Nat.succ.inj hcount
  · rw [List.count_cons_of_ne (by simpa using hq)]
  · simpa using kept Standing.started h.started (by rw [hstage]; rfl) q

/-- The server is about to start. -/
theorem await (h : Stands settings σ host supervisor due)
    (hstage : σ server.process = .acknowledged server i child) :
    Stands settings (Function.update σ server.process (.awaited server i child))
      { host with roster := host.roster.update server.number (·.withPhase .starting) } supervisor
      due := by
  have hget : host.roster.get? server.process =
      some ((server.withPhase .available).registered i) := by
    rw [h.record, hstage]
    rfl
  exact h.rewrite (h.configured.update (Server.faithful_withPhase .starting) server.number)
    h.running (h.configured.sound.get?_update hget _) (by rw [hstage]; rfl)
    fun hserver => h.fresh (hserver ▸ hstage ▸ rfl)

/-- Unless the follower has still to hear of it, a server whose notice is taken has started. -/
theorem start (h : Stands settings σ host supervisor (.serverStarted p :: due))
    (hfree : (σ p).task? ≠ some .follower) :
    ∃ server i child, server.process = p ∧ σ p = .awaited server i child ∧
      host.roster.get? p = some ((server.withPhase .starting).registered i) ∧ ∀ journal budget,
        Stands settings (Function.update σ p (.started server i child))
          { host with
            roster := (host.roster.update server.number (·.check [.starting] "started")).update
              server.number (·.withPhase .started)
            journal, budget } supervisor due := by
  obtain ⟨server, i, child, hstage⟩ : ∃ server i child, σ p = .awaited server i child := by
    apply Handshake.exists_awaited _ hfree
    rw [← h.started, List.count_cons_self]
    omega
  obtain ⟨-, hprocess⟩ := h.fresh (show (σ p).server? = some server by rw [hstage]; rfl)
  have hget : host.roster.get? p = some ((server.withPhase .starting).registered i) := by
    rw [h.record, hstage]
    rfl
  have hphase : ((server.withPhase .starting).registered i).phase ∈ [Phase.starting] :=
    List.mem_singleton_self _
  have hcheck := Server.faithful_check [.starting] "started"
  refine ⟨server, i, child, hprocess, hstage, hget, fun journal budget => h.advance
    (((h.configured.update hcheck server.number).update (Server.faithful_withPhase .started)
      server.number).of_eq rfl ⟨rfl, rfl⟩ rfl rfl) h.running
    (h.configured.sound.get?_check hget hphase _)
    (kept Standing.registration h.registration (by rw [hstage]; rfl))
    (kept Standing.children h.children (by rw [hstage]; rfl)) (fun q => ?_)
    (changed ?_ fun q hq => ?_) (fun hserver => h.fresh (hserver ▸ hstage ▸ rfl))
    (List.forall_mem_cons.1 h.news).2⟩
  · simpa using kept Standing.available h.available (by rw [hstage]; rfl) q
  · have hcount := h.started p
    rw [hstage, List.count_cons_self] at hcount
    exact Nat.succ.inj hcount
  · rw [List.count_cons_of_ne (by simpa using hq)]

/-- The other notices change nothing. -/
theorem drop {n : Notice} (h : Stands settings σ host supervisor (n :: due))
    (havailable : ∀ p, n ≠ .serverAvailable p) (hstarted : ∀ p, n ≠ .serverStarted p) :
    Stands settings σ host supervisor due where
  configured := h.configured
  running := h.running
  record := h.record
  registration := h.registration
  children := h.children
  available p := by rw [← h.available, List.count_cons_of_ne (havailable p)]
  started p := by rw [← h.started, List.count_cons_of_ne (hstarted p)]
  fresh := h.fresh
  news := (List.forall_mem_cons.1 h.news).2

end Stands

end HostSteward
