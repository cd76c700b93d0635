import HostSteward.Proofs.Settings.Checks
import HostSteward.Proofs.Supervisor.Handshakes

/-!
# Startup converges

Every step of a startup takes the handshake about one process further, or lets go of a notice. What
is left to do gets less with every step and does not depend on the order of the steps, so that
whatever goes on first, startup comes to rest, and by then all handshakes are completed.
-/

namespace HostSteward

open Operation Steward

def autoProcesses (specs : List ServerSpec) : List String :=
  (specs.filter (·.autoStart)).map (·.processName)

theorem length_autoProcesses (specs : List ServerSpec) :
    (autoProcesses specs).length = specs.countP (·.autoStart) := by
  rw [autoProcesses, List.length_map, List.countP_eq_length_filter]

theorem mem_autoProcesses {spec : ServerSpec} {specs : List ServerSpec} (hspec : spec ∈ specs)
    (hauto : spec.autoStart) : spec.processName ∈ autoProcesses specs :=
  List.mem_map.2 ⟨spec, List.mem_filter.2 ⟨hspec, hauto⟩, rfl⟩

theorem nodup_autoProcesses {settings : Settings} (hvalid : settings.problem? = none) :
    (autoProcesses settings.servers).Nodup := by
  have hnames : ((settings.servers.filter (·.autoStart)).map (·.name)).Nodup :=
    (Settings.problem?_eq_none_iff.1 hvalid).nodup_names.sublist (List.filter_sublist.map _)
  have hprocesses := hnames.map processName_injective
  rwa [List.map_map] at hprocesses

variable {settings : Settings} {σ : String → Handshake} {p : String} {next : Handshake} {t : Task}
  {a : Activity} {current : Option String} {spec : ServerSpec} {rest : List ServerSpec}

/-! ## Where the tasks are -/

/-- The process whose handshake it is the turn of a task to take further. -/
def Busy (σ : String → Handshake) (t : Task) (current : Option String) : Prop :=
  ∀ p, (σ p).task? = some t ↔ current = some p

theorem Busy.update (h : Busy σ t current) (hold : (σ p).task? ≠ some t)
    (hnext : next.task? ≠ some t) : Busy (Function.update σ p next) t current := by
  intro q
  by_cases hq : q = p
  · subst hq
    rw [Function.update_self]
    exact iff_of_false hnext fun hcurrent => hold ((h q).2 hcurrent)
  · rw [Function.update_of_ne hq]
    exact h q

theorem Busy.move (h : Busy σ t current) (hcurrent : ∀ q, current = some q → q = p)
    (hnext : next.task? = some t) : Busy (Function.update σ p next) t (some p) := by
  intro q
  by_cases hq : q = p
  · subst hq
    rw [Function.update_self]
    exact iff_of_true hnext rfl
  · rw [Function.update_of_ne hq]
    refine iff_of_false (fun hturn => hq (hcurrent q ((h q).1 hturn))) fun hsome => ?_
    exact hq (Option.some.inj hsome).symm

theorem Busy.release (h : Busy σ t (some p)) (hnext : next.task? ≠ some t) :
    Busy (Function.update σ p next) t none := by
  intro q
  by_cases hq : q = p
  · subst hq
    rw [Function.update_self]
    exact iff_of_false hnext nofun
  · rw [Function.update_of_ne hq]
    exact iff_of_false (fun hturn => hq (Option.some.inj ((h q).1 hturn)).symm) nofun

structure Ahead (settings : Settings) (σ : String → Handshake) (rest : List ServerSpec) : Prop where
  suffix : rest <:+ settings.servers
  waiting : ∀ p ∈ autoProcesses settings.servers, σ p = .waiting ↔ p ∈ autoProcesses rest

theorem Ahead.update (h : Ahead settings σ rest) (hold : σ p ≠ .waiting)
    (hnext : next ≠ .waiting) : Ahead settings (Function.update σ p next) rest := by
  refine ⟨h.suffix, fun q hq => ?_⟩
  by_cases hqp : q = p
  · subst hqp
    rw [Function.update_self]
    exact iff_of_false hnext fun hrest => hold ((h.waiting q hq).2 hrest)
  · rw [Function.update_of_ne hqp]
    exact h.waiting q hq

theorem Ahead.skip (h : Ahead settings σ (spec :: rest)) (hmanual : spec.autoStart = false) :
    Ahead settings σ rest := by
  refine ⟨(List.suffix_cons spec rest).trans h.suffix, fun q hq => ?_⟩
  rw [h.waiting q hq]
  simp [autoProcesses, hmanual]

theorem Ahead.launch (h : Ahead settings σ (spec :: rest)) (hvalid : settings.problem? = none)
    (hauto : spec.autoStart) (hnext : next ≠ .waiting) :
    Ahead settings (Function.update σ spec.processName next) rest := by
  have hcons : autoProcesses (spec :: rest) = spec.processName :: autoProcesses rest := by
    simp [autoProcesses, hauto]
  have hnew : spec.processName ∉ autoProcesses rest := by
    obtain ⟨before, hbefore⟩ := h.suffix
    have hnodup := nodup_autoProcesses hvalid
    rw [← hbefore] at hnodup
    have hnodup : (autoProcesses (spec :: rest)).Nodup := by
      simp only [autoProcesses, List.filter_append, List.map_append] at hnodup
      exact (List.nodup_append.1 hnodup).2.1
    rw [hcons] at hnodup
    exact (List.nodup_cons.1 hnodup).1
  refine ⟨(List.suffix_cons spec rest).trans h.suffix, fun q hq => ?_⟩
  by_cases hqp : q = spec.processName
  · subst hqp
    rw [Function.update_self]
    exact iff_of_false hnext hnew
  · rw [Function.update_of_ne hqp, h.waiting q hq, hcons, List.mem_cons]
    exact or_iff_right hqp

inductive LauncherAt (settings : Settings) (σ : String → Handshake) : Activity → Prop
  | returned (hbusy : Busy σ .launcher none) (hahead : Ahead settings σ []) :
      LauncherAt settings σ .idle
  | adding {server rest resume} (hstage : σ server.process = .adding server)
      (hbusy : Busy σ .launcher (some server.process)) (hahead : Ahead settings σ rest)
      (hresume : ∀ i, StartsNext server rest i (resume · (.ok i))) :
      LauncherAt settings σ (.asks (.command (.add server.process server.spec.launch)) resume)
  | added {server rest i notices resume} (hstage : σ server.process = .added server i)
      (hbusy : Busy σ .launcher (some server.process)) (hahead : Ahead settings σ rest)
      (hresume : StartsNext server rest i resume) : LauncherAt settings σ (.hears notices resume)
  | starting {server rest i resume} (hstage : σ server.process = .starting server i)
      (hbusy : Busy σ .launcher (some server.process)) (hahead : Ahead settings σ rest)
      (hresume : ∀ host, resume host (.ok ()) = launchAll rest host) :
      LauncherAt settings σ (.asks (.command (.start server.process)) resume)
  | launched {rest notices resume} (hbusy : Busy σ .launcher none) (hahead : Ahead settings σ rest)
      (hresume : ∀ host, resume host = launchAll rest host) :
      LauncherAt settings σ (.hears notices resume)

inductive FollowerAt (σ : String → Handshake) : Activity → Prop
  | free (hbusy : Busy σ .follower none) : FollowerAt σ .idle
  | acknowledging {server i child resume}
      (hstage : σ server.process = .acknowledging server i child)
      (hbusy : Busy σ .follower (some server.process))
      (hresume : ∀ host, resume host (.ok ()) =
        .done { host with roster := host.roster.update server.number (·.withPhase .starting) } ()) :
      FollowerAt σ (.asks (.command (.start server.process)) resume)
  | acknowledged {server i child notices resume}
      (hstage : σ server.process = .acknowledged server i child)
      (hbusy : Busy σ .follower (some server.process))
      (hresume : ∀ host, resume host =
        .done { host with roster := host.roster.update server.number (·.withPhase .starting) } ()) :
      FollowerAt σ (.hears notices resume)

theorem LauncherAt.update (h : LauncherAt settings σ a) (hold : (σ p).isLaunched)
    (hnext : next.isLaunched) : LauncherAt settings (Function.update σ p next) a := by
  have hbusy {current} (h : Busy σ .launcher current) :=
    h.update (Handshake.task?_of_isLaunched hold) (Handshake.task?_of_isLaunched hnext)
  have hahead {rest} (h : Ahead settings σ rest) :=
    h.update (Handshake.ne_waiting_of_isLaunched hold) (Handshake.ne_waiting_of_isLaunched hnext)
  have hstage {q : String} {x : Handshake} (h : σ q = x) (hx : x.isLaunched = false) :
      Function.update σ p next q = x := by
    rw [Function.update_of_ne, h]
    rintro rfl
    rw [h, hx] at hold
    cases hold
  cases h with
  | returned hb ha => exact .returned (hbusy hb) (hahead ha)
  | adding hs hb ha hr => exact .adding (hstage hs rfl) (hbusy hb) (hahead ha) hr
  | added hs hb ha hr => exact .added (hstage hs rfl) (hbusy hb) (hahead ha) hr
  | starting hs hb ha hr => exact .starting (hstage hs rfl) (hbusy hb) (hahead ha) hr
  | launched hb ha hr => exact .launched (hbusy hb) (hahead ha) hr

theorem FollowerAt.update (h : FollowerAt σ a) (hold : (σ p).task? ≠ some .follower)
    (hnext : next.task? ≠ some .follower) : FollowerAt (Function.update σ p next) a := by
  have hstage {q : String} {x : Handshake} (h : σ q = x) (hx : x.task? = some .follower) :
      Function.update σ p next q = x := by
    rw [Function.update_of_ne, h]
    rintro rfl
    exact hold (h ▸ hx)
  cases h with
  | free hb => exact .free (hb.update hold hnext)
  | acknowledging hs hb hr => exact .acknowledging (hstage hs rfl) (hb.update hold hnext) hr
  | acknowledged hs hb hr => exact .acknowledged (hstage hs rfl) (hb.update hold hnext) hr

theorem LauncherAt.publish {n : Notice} {notices : List Notice} {resume : Steward → Program Unit}
    (h : LauncherAt settings σ (.hears (n :: notices) resume)) :
    LauncherAt settings σ (.hears notices resume) := by
  cases h with
  | added hstage hbusy hahead hresume => exact .added hstage hbusy hahead hresume
  | launched hbusy hahead hresume => exact .launched hbusy hahead hresume

theorem FollowerAt.publish {n : Notice} {notices : List Notice} {resume : Steward → Program Unit}
    (h : FollowerAt σ (.hears (n :: notices) resume)) : FollowerAt σ (.hears notices resume) := by
  cases h with
  | acknowledged hstage hbusy hresume => exact .acknowledged hstage hbusy hresume

/-! ## Steps -/

def Activity.remaining : Activity → Nat
  | .idle => 0
  | .asks _ _ => 1
  | .hears notices _ => 1 + 2 * notices.length

namespace Startup

variable {s s' : Startup}

/-- The notices on their way, those that were not published yet included. -/
def due (s : Startup) : List Notice :=
  s.queue ++ ((s.tasks .launcher).pending ++ (s.tasks .follower).pending)

def effort (s : Startup) : Nat :=
  (s.tasks .launcher).remaining + (s.tasks .follower).remaining + s.queue.length

theorem perm_due_setTask (s : Startup) (t : Task) (a : Activity) :
    ((s.setTask t a).due ++ (s.tasks t).pending).Perm (s.due ++ a.pending) := by
  apply List.perm_iff_count.2
  intro n
  unfold due setTask
  cases t <;> simp [Function.update, List.count_append] <;> omega

theorem effort_setTask (s : Startup) (t : Task) (a : Activity) :
    (s.setTask t a).effort + (s.tasks t).remaining = s.effort + a.remaining := by
  unfold effort setTask
  cases t <;> simp [Function.update] <;> omega

theorem perm_due_of_idle (hidle : s.tasks t = .idle) (a : Activity) :
    (s.setTask t a).due.Perm (s.due ++ a.pending) := by
  have hdue := perm_due_setTask s t a
  rwa [hidle, show Activity.idle.pending = [] from rfl, List.append_nil] at hdue

theorem effort_of_idle (hidle : s.tasks t = .idle) (a : Activity) :
    (s.setTask t a).effort = s.effort + a.remaining := by
  have heffort := effort_setTask s t a
  rwa [hidle] at heffort

structure Underway (settings : Settings) (σ : String → Handshake) (s : Startup) : Prop where
  stands : Stands settings σ s.host s.supervisor s.due
  launcher : LauncherAt settings σ (s.tasks .launcher)
  follower : FollowerAt σ (s.tasks .follower)

def remaining (settings : Settings) (σ : String → Handshake) (s : Startup) : Nat :=
  ∑ p ∈ (autoProcesses settings.servers).toFinset, (σ p).remaining + s.effort

def Advances (settings : Settings) (σ : String → Handshake) (s s' : Startup) : Prop :=
  ∃ σ', Underway settings σ' s' ∧ s'.remaining settings σ' + 1 = s.remaining settings σ

theorem Advances.of_update {server : Server}
    (hunder : Underway settings (Function.update σ p next) s')
    (hserver : next.server? = some server)
    (hless : next.remaining + s'.effort + 1 = (σ p).remaining + s.effort) :
    Advances settings σ s s' := by
  refine ⟨_, hunder, ?_⟩
  have hp : p ∈ (autoProcesses settings.servers).toFinset := by
    obtain ⟨hmem, hp, hauto⟩ := hunder.stands.configured_spec (p := p)
      (by rw [Function.update_self, hserver])
    exact List.mem_toFinset.2 (hp ▸ mem_autoProcesses hmem hauto)
  have hothers : ∑ q ∈ (autoProcesses settings.servers).toFinset.erase p,
      (Function.update σ p next q).remaining =
        ∑ q ∈ (autoProcesses settings.servers).toFinset.erase p, (σ q).remaining := by
    refine Finset.sum_congr rfl fun q hq => ?_
    rw [Function.update_of_ne (Finset.ne_of_mem_erase hq)]
  unfold remaining
  rw [← Finset.add_sum_erase _ _ hp, ← Finset.add_sum_erase _ _ hp, hothers, Function.update_self]
  omega

section Steps

variable {attempt : Launch → Except String Unit} {host : Steward}
  {supervisor : ChildSupervisor} {server : Server} {c : Command} {answer : c.Answer}
  {notices : List Notice}

theorem Advances.of_setTask (hpending : (s.tasks t).pending = [])
    (hstands : Stands settings (Function.update σ p next) host supervisor (s.due ++ a.pending))
    (hlauncher : LauncherAt settings (Function.update σ p next) ((s.setTask t a).tasks .launcher))
    (hfollower : FollowerAt (Function.update σ p next) ((s.setTask t a).tasks .follower))
    (hserver : next.server? = some server)
    (hless : next.remaining + a.remaining + 1 = (σ p).remaining + (s.tasks t).remaining) :
    Advances settings σ s { s.setTask t a with host, supervisor } := by
  have hdue := perm_due_setTask s t a
  rw [hpending, List.append_nil] at hdue
  have heffort := effort_setTask s t a
  refine .of_update ⟨hstands.perm hdue.symm, hlauncher, hfollower⟩ hserver ?_
  change next.remaining + (s.setTask t a).effort + 1 = (σ p).remaining + s.effort
  omega

/-- The launcher takes a handshake further. -/
theorem Underway.ofLauncher (h : Underway settings σ s)
    (hpending : (s.tasks .launcher).pending = [])
    (hstands : Stands settings (Function.update σ p next) host supervisor (s.due ++ a.pending))
    (hlauncher : LauncherAt settings (Function.update σ p next) a)
    (hold : (σ p).task? ≠ some .follower) (hnext : next.task? ≠ some .follower)
    (hserver : next.server? = some server)
    (hless : next.remaining + a.remaining + 1 = (σ p).remaining + (s.tasks .launcher).remaining) :
    Advances settings σ s { s.setTask .launcher a with host, supervisor } :=
  .of_setTask hpending hstands hlauncher (h.follower.update hold hnext) hserver hless

/-- The follower takes a handshake further. -/
theorem Underway.ofFollower (h : Underway settings σ s)
    (hpending : (s.tasks .follower).pending = [])
    (hstands : Stands settings (Function.update σ p next) host supervisor (s.due ++ a.pending))
    (hfollower : FollowerAt (Function.update σ p next) a)
    (hold : (σ p).isLaunched) (hnext : next.isLaunched) (hserver : next.server? = some server)
    (hless : next.remaining + a.remaining + 1 = (σ p).remaining + (s.tasks .follower).remaining) :
    Advances settings σ s { s.setTask .follower a with host, supervisor } :=
  .of_setTask hpending hstands (h.launcher.update hold hnext) hfollower hserver hless

/-- A command of the launcher is carried out. -/
theorem Underway.obeys_launcher (h : Underway settings σ s)
    (hspawn : ∀ spec ∈ settings.servers, spec.autoStart →
      spec.command ≠ [] ∧ attempt spec.launch = .ok ())
    {resume : Steward → c.Answer → Program Unit}
    (hasks : s.tasks .launcher = .asks (.command c) resume)
    (hobeys : s.supervisor.obey attempt c = (supervisor, answer, notices)) :
    Advances settings σ s { s.setTask .launcher (.hears notices (resume · answer)) with
      supervisor } := by
  have hlauncher := h.launcher
  rw [hasks] at hlauncher
  cases hlauncher with
  | @adding server rest resume hstage hbusy hahead hresume =>
    obtain ⟨supervisor', i, hadd, hstands⟩ := h.stands.add hstage
    have hobey : s.supervisor.obey attempt (.add server.process server.spec.launch) =
        (supervisor', .ok i, [.processAdded server.process]) := by
      rw [ChildSupervisor.obey, hadd]
    cases hobey.symm.trans hobeys
    refine h.ofLauncher (by rw [hasks]; rfl) hstands (.added (Function.update_self ..)
      (hbusy.move (by simp) rfl) (hahead.update ?_ ?_) (hresume i)) ?_ ?_ rfl ?_
    · simp [hstage]
    · simp
    · simp [hstage, Handshake.task?]
    · simp [Handshake.task?]
    · simp [hstage, hasks, Handshake.remaining, Activity.remaining]
  | @starting server rest i resume hstage hbusy hahead hresume =>
    obtain ⟨hspec, -, hauto⟩ := h.stands.configured_spec (p := server.process) (by rw [hstage]; rfl)
    obtain ⟨hcommand, hattempt⟩ := hspawn server.spec hspec hauto
    obtain ⟨supervisor', child, hstart, hstands⟩ := h.stands.launch hstage hcommand hattempt
    have hobey : s.supervisor.obey attempt (.start server.process) =
        (supervisor', .ok (),
          [.processStarted server.process, .serverAvailable server.process]) := by
      rw [ChildSupervisor.obey, hstart]
    cases hobey.symm.trans hobeys
    refine h.ofLauncher (by rw [hasks]; rfl) hstands (.launched (hbusy.release ?_)
      (hahead.update ?_ ?_) hresume) ?_ ?_ rfl ?_
    · simp [Handshake.task?]
    · simp [hstage]
    · simp
    · simp [hstage, Handshake.task?]
    · simp [Handshake.task?]
    · simp [hstage, hasks, Handshake.remaining, Activity.remaining]

theorem Underway.obeys_follower (h : Underway settings σ s)
    {resume : Steward → c.Answer → Program Unit}
    (hasks : s.tasks .follower = .asks (.command c) resume)
    (hobeys : s.supervisor.obey attempt c = (supervisor, answer, notices)) :
    Advances settings σ s { s.setTask .follower (.hears notices (resume · answer)) with
      supervisor } := by
  have hfollower := h.follower
  rw [hasks] at hfollower
  cases hfollower with
  | @acknowledging server i child resume hstage hbusy hresume =>
    obtain ⟨supervisor', hstart, hstands⟩ := h.stands.acknowledge attempt hstage
    have hobey : s.supervisor.obey attempt (.start server.process) =
        (supervisor', .ok (), [.serverStarted server.process]) := by
      rw [ChildSupervisor.obey, hstart]
    cases hobey.symm.trans hobeys
    refine h.ofFollower (by rw [hasks]; rfl) hstands (.acknowledged (Function.update_self ..)
      (hbusy.move (by simp) rfl) hresume) ?_ rfl rfl ?_
    · rw [hstage]
      rfl
    · simp [hstage, hasks, Handshake.remaining, Activity.remaining]

/-- The follower has heard that the boot was acknowledged. -/
theorem Underway.goesOn_follower (h : Underway settings σ s) {resume : Steward → Program Unit}
    (hhears : s.tasks .follower = .hears [] resume) :
    Advances settings σ s (s.proceed .follower (resume s.host)) := by
  have hfollower := h.follower
  rw [hhears] at hfollower
  cases hfollower with
  | @acknowledged server i child _ _ hstage hbusy hresume =>
    have hstands := h.stands.await hstage
    rw [← List.append_nil s.due] at hstands
    rw [hresume]
    refine h.ofFollower (a := .idle) (by rw [hhears]; rfl) hstands (.free (hbusy.release nofun)) ?_
      rfl rfl ?_
    · rw [hstage]
      rfl
    · simp [hstage, hhears, Handshake.remaining, Activity.remaining]

/-- Servers are passed over until there is one to launch. -/
theorem Underway.launches (h : Underway settings σ s) (hvalid : settings.problem? = none)
    {resume : Steward → Program Unit} (hhears : s.tasks .launcher = .hears [] resume)
    (hbusy : Busy σ .launcher none) (hahead : Ahead settings σ rest)
    (hstands : Stands settings σ host s.supervisor s.due) :
    Advances settings σ s (s.proceed .launcher (launchAll rest host)) := by
  induction rest generalizing host with
  | nil =>
    have hdue := perm_due_setTask s .launcher .idle
    have heffort := effort_setTask s .launcher .idle
    rw [hhears] at hdue heffort
    have hsame : s.due.Perm (s.setTask .launcher .idle).due := by
      simpa [Activity.pending] using hdue.symm
    refine ⟨σ, ⟨hstands.perm hsame, .returned hbusy hahead, h.follower⟩, ?_⟩
    · change _ + (s.setTask .launcher .idle).effort + 1 = _ + s.effort
      simp only [Activity.remaining, List.length_nil] at heffort
      omega
  | cons spec rest ih =>
    cases hauto : spec.autoStart with
    | false =>
      -- The host says so and goes on in the same leg, which is no step of its own.
      rw [launchAll_manual hauto]
      exact ih (hahead.skip hauto) (hstands.journal _)
    | true =>
      have hspec : spec ∈ settings.servers := hahead.suffix.subset List.mem_cons_self
      have hstage : σ spec.processName = .waiting :=
        (hahead.waiting _ (mem_autoProcesses hspec hauto)).2
          (mem_autoProcesses List.mem_cons_self hauto)
      obtain ⟨roster, hinsert, hstands'⟩ := hstands.track hspec hauto hstage rfl
      obtain ⟨journal, resume, hlaunch, hresume⟩ := launchAll_auto rest hauto rfl
        (hstands.configured.server?_eq hvalid hspec) hinsert
      rw [hlaunch]
      have htracked := hstands' journal
      rw [← List.append_nil s.due] at htracked
      refine h.ofLauncher (a := .asks _ resume) (by rw [hhears]; rfl) htracked
        (.adding (Function.update_self ..) (hbusy.move nofun rfl)
          (hahead.launch hvalid hauto nofun) hresume) ?_ nofun rfl ?_
      · simp [hstage, Handshake.task?]
      · simp [hstage, hhears, Handshake.remaining, Activity.remaining]

theorem Underway.goesOn_launcher (h : Underway settings σ s) (hvalid : settings.problem? = none)
    {resume : Steward → Program Unit} (hhears : s.tasks .launcher = .hears [] resume) :
    Advances settings σ s (s.proceed .launcher (resume s.host)) := by
  have hlauncher := h.launcher
  rw [hhears] at hlauncher
  cases hlauncher with
  | @added server rest i _ _ hstage hbusy hahead hresume =>
    obtain ⟨resume', hgoes, hstarted⟩ := hresume s.host
    have hstands := h.stands.note hstage
    rw [← List.append_nil s.due] at hstands
    rw [hgoes]
    refine h.ofLauncher (a := .asks _ resume') (by rw [hhears]; rfl) hstands
      (.starting (Function.update_self ..) (hbusy.move (by simp) rfl) (hahead.update ?_ nofun)
        hstarted) ?_ nofun rfl ?_
    · simp [hstage]
    · simp [hstage, Handshake.task?]
    · simp [hstage, hhears, Handshake.remaining, Activity.remaining]
  | @launched rest _ _ hbusy hahead hresume =>
    rw [hresume]
    exact h.launches hvalid hhears hbusy hahead h.stands

theorem perm_due_of_hears {n : Notice} {notices : List Notice} {resume : Steward → Program Unit}
    (hhears : s.tasks t = .hears (n :: notices) resume) :
    s.due.Perm { s.setTask t (.hears notices resume) with queue := s.queue ++ [n] }.due := by
  let told := s.setTask t (.hears notices resume)
  have hdue : (told.due ++ n :: notices).Perm (s.due ++ notices) := by
    have hdue := perm_due_setTask s t (.hears notices resume)
    rwa [hhears] at hdue
  change s.due.Perm { told with queue := s.queue ++ [n] }.due
  apply List.perm_iff_count.2
  intro m
  have hcount := hdue.count_eq m
  have hqueue : ({ told with queue := s.queue ++ [n] } : Startup).due.count m =
      told.due.count m + [n].count m := by
    simp only [told, due, setTask, List.count_append]
    omega
  simp only [List.count_append, List.count_cons] at hcount
  rw [hqueue, List.count_singleton]
  omega

theorem effort_of_hears {n : Notice} {notices : List Notice} {resume : Steward → Program Unit}
    (hhears : s.tasks t = .hears (n :: notices) resume) :
    ({ s.setTask t (.hears notices resume) with queue := s.queue ++ [n] } : Startup).effort + 1 =
      s.effort := by
  have heffort := effort_setTask s t (.hears notices resume)
  rw [hhears] at heffort
  simp only [effort, setTask, Activity.remaining, List.length_append, List.length_cons,
    List.length_nil] at heffort ⊢
  omega

theorem Underway.publishes (h : Underway settings σ s) {n : Notice} {notices : List Notice}
    {resume : Steward → Program Unit} (hhears : s.tasks t = .hears (n :: notices) resume) :
    Advances settings σ s { s.setTask t (.hears notices resume) with queue := s.queue ++ [n] } := by
  refine ⟨σ, ⟨h.stands.perm (perm_due_of_hears hhears), ?_, ?_⟩, ?_⟩
  · cases t with
    | launcher =>
      have hlauncher := h.launcher
      rw [hhears] at hlauncher
      exact hlauncher.publish
    | follower => exact h.launcher
  · cases t with
    | launcher => exact h.follower
    | follower =>
      have hfollower := h.follower
      rw [hhears] at hfollower
      exact hfollower.publish
  · have heffort := effort_of_hears hhears
    unfold remaining
    omega

theorem effort_of_queue {n : Notice} {queue : List Notice} (hqueue : s.queue = n :: queue) :
    s.effort = ({ s with queue } : Startup).effort + 1 := by
  simp only [effort, hqueue, List.length_cons]
  omega

/-- The follower takes a handshake further because of a notice. -/
theorem Underway.ofNotice (h : Underway settings σ s) {n : Notice} {queue : List Notice}
    (hidle : s.tasks .follower = .idle) (hqueue : s.queue = n :: queue) (hpending : a.pending = [])
    (hstands : Stands settings (Function.update σ p next) host s.supervisor { s with queue }.due)
    (hfollower : FollowerAt (Function.update σ p next) a) (hold : (σ p).isLaunched)
    (hnext : next.isLaunched) (hserver : next.server? = some server)
    (hless : next.remaining + a.remaining = (σ p).remaining) :
    Advances settings σ s { ({ s with queue } : Startup).setTask .follower a with host } := by
  have hdue := perm_due_of_idle (s := { s with queue }) hidle a
  have heffort := effort_of_idle (s := { s with queue }) hidle a
  have htaken := effort_of_queue hqueue
  rw [hpending, List.append_nil] at hdue
  refine .of_update ⟨hstands.perm hdue.symm, h.launcher.update hold hnext, hfollower⟩ hserver ?_
  change next.remaining + (({ s with queue } : Startup).setTask .follower a).effort + 1 = _
  omega

/-- A notice that says nothing about the handshakes is let go of. -/
theorem Underway.ignores (h : Underway settings σ s) {n : Notice} {queue : List Notice}
    (hidle : s.tasks .follower = .idle) (hqueue : s.queue = n :: queue)
    (hstands : Stands settings σ s.host s.supervisor { s with queue }.due) :
    Advances settings σ s (({ s with queue } : Startup).setTask .follower .idle) := by
  have hdue := perm_due_of_idle (s := { s with queue }) hidle .idle
  have heffort := effort_of_idle (s := { s with queue }) hidle .idle
  have htaken := effort_of_queue hqueue
  rw [show Activity.idle.pending = [] from rfl, List.append_nil] at hdue
  refine ⟨σ, ⟨hstands.perm hdue.symm, h.launcher, hidle ▸ h.follower⟩, ?_⟩
  unfold remaining
  rw [heffort, htaken]
  rfl

theorem Underway.follows (h : Underway settings σ s) {n : Notice} {queue : List Notice}
    (hidle : s.tasks .follower = .idle) (hqueue : s.queue = n :: queue) :
    Advances settings σ s
      (({ s with queue } : Startup).proceed .follower (Steward.handle n s.host)) := by
  have hbusy : Busy σ .follower none := by
    have hfollower := h.follower
    rw [hidle] at hfollower
    cases hfollower with
    | free hbusy => exact hbusy
  have hstands : Stands settings σ s.host s.supervisor (n :: { s with queue }.due) := by
    have hdue : s.due = n :: { s with queue }.due := by
      unfold due
      rw [hqueue]
      rfl
    exact hdue ▸ h.stands
  have hrunning := h.stands.running
  have hnews := hstands.news n List.mem_cons_self
  cases n with
  | processAdded p => exact h.ignores hidle hqueue (hstands.drop nofun nofun)
  | processStarted p => exact h.ignores hidle hqueue (hstands.drop nofun nofun)
  | serverAvailable p =>
    obtain ⟨server, i, child, rfl, hstage, hget, hstands⟩ := hstands.makeAvailable
    obtain ⟨journal, resume, hrun, hresume⟩ := run_serverAvailable hrunning hget
    rw [show Steward.handle (.serverAvailable server.process) s.host = _ from hrun]
    refine h.ofNotice (a := .asks _ resume) hidle hqueue rfl (hstands journal)
      (.acknowledging (Function.update_self ..) (hbusy.move nofun rfl) hresume) ?_ rfl rfl ?_
    · rw [hstage]
      rfl
    · simp [hstage, Handshake.remaining, Activity.remaining]
  | serverStarted p =>
    have hfree : (σ p).task? ≠ some .follower := fun hturn => nomatch (hbusy p).1 hturn
    obtain ⟨server, i, child, rfl, hstage, hget, hstands⟩ := hstands.start hfree
    obtain ⟨journal, budget, hrun⟩ := run_serverStarted hrunning hget
    rw [show Steward.handle (.serverStarted server.process) s.host = _ from hrun]
    refine h.ofNotice (a := .idle) hidle hqueue rfl (hstands journal budget)
      (.free (hbusy.update hfree nofun)) ?_ rfl rfl ?_
    · rw [hstage]
      rfl
    · simp [hstage, Handshake.remaining, Activity.remaining]
  | _ => cases hnews

theorem Underway.step (h : Underway settings σ s) (hvalid : settings.problem? = none)
    (hspawn : ∀ spec ∈ settings.servers, spec.autoStart →
      spec.command ≠ [] ∧ attempt spec.launch = .ok ()) (hstep : Step attempt s s') :
    Advances settings σ s s' := by
  cases hstep with
  | @obeys t c resume supervisor answer notices hasks hobeys =>
    cases t with
    | launcher => exact h.obeys_launcher hspawn hasks hobeys
    | follower => exact h.obeys_follower hasks hobeys
  | publishes hhears => exact h.publishes hhears
  | @goesOn t resume hhears =>
    cases t with
    | launcher => exact h.goesOn_launcher hvalid hhears
    | follower => exact h.goesOn_follower hhears
  | follows hidle hqueue => exact h.follows hidle hqueue

/-- Unless there is nothing left to do, something can be done. -/
theorem Underway.exists_step (h : Underway settings σ s) (hrest : ¬ s.AtRest) :
    ∃ s', Step attempt s s' := by
  have hhears {t notices resume} (hhears : s.tasks t = .hears notices resume) :
      ∃ s', Step attempt s s' := by
    cases notices with
    | nil => exact ⟨_, .goesOn hhears⟩
    | cons n rest => exact ⟨_, .publishes hhears⟩
  -- The follower waits for the queue alone, and the launcher for nothing but its own request.
  have hlauncher := h.launcher
  have hfollower := h.follower
  generalize hl : s.tasks .launcher = launcher at hlauncher
  generalize hf : s.tasks .follower = follower at hfollower
  cases hlauncher with
  | adding | starting => exact ⟨_, .obeys hl rfl⟩
  | added | launched => exact hhears hl
  | returned =>
    cases hfollower with
    | acknowledging => exact ⟨_, .obeys hf rfl⟩
    | acknowledged => exact hhears hf
    | free =>
      cases hqueue : s.queue with
      | nil => exact absurd ⟨hl, hf, hqueue⟩ hrest
      | cons n rest => exact ⟨_, .follows hf hqueue⟩

end Steps

/-! ## The beginning -/

/-- The first leg is that of a launcher with all servers ahead of it and nothing left to hear. -/
theorem beginning_eq (hfresh : settings.host.bootMode = .fresh) (inDomain : Bool) :
    let host : Steward := { Steward.make settings none inDomain with launched := true }
    beginning settings inDomain = (({ host } : Startup).setTask .launcher
      (.hears [] (launchAll settings.servers))).proceed .launcher
        (launchAll settings.servers host) := by
  intro host
  have hstart : startServers (Steward.make settings none inDomain) =
      launchAll settings.servers host := by
    have hrestart : ¬ settings.host.bootMode = .restart := by
      rw [hfresh]
      exact nofun
    exact congrFun (if_neg hrestart) host
  change ({ host := Steward.make settings none inDomain } : Startup).proceed .launcher
    (startServers (Steward.make settings none inDomain)) = _
  rw [hstart]
  cases launchAll settings.servers host <;> simp [proceed, setTask]

theorem exists_underway_beginning {inDomain : Bool} (hvalid : settings.problem? = none)
    (hfresh : settings.host.bootMode = .fresh) :
    ∃ σ, Underway settings σ (beginning settings inDomain) ∧
      (beginning settings inDomain).remaining settings σ =
        14 * settings.servers.countP (·.autoStart) := by
  let host : Steward := { Steward.make settings none inDomain with launched := true }
  let σ : String → Handshake := fun _ => .waiting
  let s : Startup := ({ host } : Startup).setTask .launcher (.hears [] (launchAll settings.servers))
  have hstands : Stands settings σ host s.supervisor s.due := by
    refine ⟨(configured_make settings inDomain).of_eq rfl ⟨rfl, rfl⟩ rfl rfl, rfl, fun _ => rfl,
      fun _ => rfl, fun _ => rfl, fun _ => rfl, fun _ => rfl, nofun, ?_⟩
    exact fun n hn => nomatch hn
  have hbusy (t : Task) : Busy σ t none := fun p => iff_of_false nofun nofun
  have hahead : Ahead settings σ settings.servers :=
    ⟨List.suffix_rfl, fun p hp => iff_of_true rfl hp⟩
  have hunder : Underway settings σ s :=
    ⟨hstands, .launched (hbusy .launcher) hahead fun _ => rfl, .free (hbusy .follower)⟩
  have hremaining : s.remaining settings σ = 14 * settings.servers.countP (·.autoStart) + 1 := by
    change ∑ p ∈ (autoProcesses settings.servers).toFinset, 14 + 1 = _
    rw [Finset.sum_const, List.toFinset_card_of_nodup (nodup_autoProcesses hvalid),
      length_autoProcesses, Nat.nsmul_eq_mul, Nat.mul_comm]
  obtain ⟨σ', hunder', hless⟩ := hunder.launches hvalid rfl (hbusy .launcher) hahead hstands
  have hbeginning : beginning settings inDomain =
      s.proceed .launcher (launchAll settings.servers host) := beginning_eq hfresh inDomain
  rw [← hbeginning] at hunder' hless
  exact ⟨σ', hunder', by omega⟩

/-! ## The end -/

theorem Underway.completed (h : Underway settings σ s) (hrest : s.AtRest)
    (hp : p ∈ autoProcesses settings.servers) :
    ∃ server i child, σ p = .started server i child := by
  have hlauncher := h.launcher
  have hfollower := h.follower
  rw [hrest.launched] at hlauncher
  rw [hrest.followed] at hfollower
  obtain ⟨hlbusy, hahead⟩ := hlauncher
  obtain ⟨hfbusy⟩ := hfollower
  have hdue : s.due = [] := by
    unfold due
    rw [hrest.queue, hrest.launched, hrest.followed]
    rfl
  have havailable := h.stands.available p
  have hstarted := h.stands.started p
  rw [hdue] at havailable hstarted
  -- Nothing is ahead, it is no task's turn, and no notice is on its way.
  have hwaiting : σ p ≠ .waiting := fun hwaiting => nomatch (hahead.waiting p hp).1 hwaiting
  have hturn (t : Task) : (σ p).task? ≠ some t := by
    cases t with
    | launcher => exact fun hturn => nomatch (hlbusy p).1 hturn
    | follower => exact fun hturn => nomatch (hfbusy p).1 hturn
  generalize σ p = x at *
  cases x with
  | started server i child => exact ⟨server, i, child, rfl⟩
  | waiting => exact absurd rfl hwaiting
  | adding | added | starting => exact absurd rfl (hturn .launcher)
  | acknowledging | acknowledged => exact absurd rfl (hturn .follower)
  | launched => cases havailable
  | awaited => cases hstarted

theorem Underway.atRest_iff (h : Underway settings σ s) :
    s.AtRest ↔ s.remaining settings σ = 0 := by
  unfold remaining effort
  constructor
  · intro hrest
    rw [hrest.launched, hrest.followed, hrest.queue, Finset.sum_eq_zero]
    · rfl
    · intro p hp
      obtain ⟨server, i, child, hstarted⟩ := h.completed hrest (List.mem_toFinset.1 hp)
      rw [hstarted]
      rfl
  · intro hnone
    have hidle {a : Activity} (ha : a.remaining = 0) : a = .idle := by
      cases a <;> simp_all [Activity.remaining]
    exact ⟨hidle (by omega), hidle (by omega), List.length_eq_zero_iff.1 (by omega)⟩

/-- A process without a handshake is one of no server that starts with the host. -/
theorem Underway.waiting_of_not_mem (h : Underway settings σ s)
    (hp : p ∉ autoProcesses settings.servers) : σ p = .waiting := by
  cases hserver : (σ p).server? with
  | none =>
    generalize σ p = x at hserver ⊢
    cases x <;> first | rfl | cases hserver
  | some server =>
    obtain ⟨hmem, hprocess, hauto⟩ := h.stands.configured_spec hserver
    exact absurd (hprocess ▸ mem_autoProcesses hmem hauto) hp

/-- A server has started with nothing odd about it, and its process has one child, which runs under
the incarnation that is noted in its record. -/
structure HasStarted (s : Startup) (spec : ServerSpec) (server : Server) (i : Incarnation)
    (child : Nat) : Prop where
  tracked : s.host.roster.get? spec.processName = some server
  configured : server.spec = spec
  phase : server.phase = .started
  diagnostics : server.diagnostics = []
  incarnation : server.incarnation = some i
  status : s.host.status spec.name = .started
  registered : s.supervisor.processes.get? spec.processName =
    some { incarnation := i, launch := spec.launch, running := some { child, booted := true } }
  running : s.supervisor.childrenOf spec.processName =
    [({ process := spec.processName, incarnation := i, launch := spec.launch, told := false
        stage := .alive }, child)]

structure Settled (settings : Settings) (s : Startup) : Prop where
  started : ∀ spec ∈ settings.servers, spec.autoStart →
    ∃ server i child, s.HasStarted spec server i child
  disabled : ∀ spec ∈ settings.servers, spec.autoStart = false →
    s.host.roster.get? spec.processName = none ∧ s.host.status spec.name = .disabled
  running : s.supervisor.runningCount = settings.servers.countP (·.autoStart)

theorem Underway.hasStarted (h : Underway settings σ s) (hvalid : settings.problem? = none)
    (hrest : s.AtRest) (hspec : spec ∈ settings.servers) (hauto : spec.autoStart) :
    ∃ server i child, s.HasStarted spec server i child := by
  obtain ⟨server, i, child, hstage⟩ := h.completed hrest (mem_autoProcesses hspec hauto)
  have hserver : (σ spec.processName).server? = some server := by
    rw [hstage]
    rfl
  obtain ⟨hmem, hname, -⟩ := h.stands.configured_spec hserver
  obtain ⟨hfresh, hprocess⟩ := h.stands.fresh hserver
  obtain rfl := Settings.eq_of_name hvalid hmem hspec (processName_injective hname)
  have hrecord := h.stands.record server.spec.processName
  have hregistration := h.stands.registration server.spec.processName
  have hchildren := h.stands.children server.spec.processName
  rw [hstage] at hrecord hregistration hchildren
  refine ⟨_, i, child, hrecord, rfl, rfl, hfresh.diagnostics, rfl, ?_, hregistration, ?_⟩
  · rw [h.stands.configured.status_eq hvalid hmem, Steward.statusOf, hrecord]
    rfl
  · rw [hchildren, ← hprocess]
    rfl

theorem Underway.disabled (h : Underway settings σ s) (hvalid : settings.problem? = none)
    (hspec : spec ∈ settings.servers) (hmanual : spec.autoStart = false) :
    s.host.roster.get? spec.processName = none ∧ s.host.status spec.name = .disabled := by
  have hp : spec.processName ∉ autoProcesses settings.servers := by
    intro hp
    obtain ⟨spec', hspec', hname⟩ := List.mem_map.1 hp
    obtain ⟨hmem, hauto⟩ := List.mem_filter.1 hspec'
    obtain rfl := Settings.eq_of_name hvalid hmem hspec (processName_injective hname)
    rw [hmanual] at hauto
    cases hauto
  have hnone : s.host.roster.get? spec.processName = none := by
    rw [h.stands.record, h.waiting_of_not_mem hp]
    rfl
  refine ⟨hnone, ?_⟩
  rw [h.stands.configured.status_eq hvalid hspec, Steward.statusOf, hnone]
  exact if_neg (by simp [hmanual])

/-- At rest exactly the processes of servers that start with the host are registered, and all of
them run. -/
theorem Underway.runningCount_eq (h : Underway settings σ s) (hvalid : settings.problem? = none)
    (hrest : s.AtRest) :
    s.supervisor.runningCount = settings.servers.countP (·.autoStart) := by
  have hruns {p} (hp : p ∈ autoProcesses settings.servers) :
      ∃ r, s.supervisor.processes.get? p = some r ∧ r.running.isSome := by
    obtain ⟨server, i, child, hstage⟩ := h.completed hrest hp
    have hregistration := h.stands.registration p
    rw [hstage] at hregistration
    exact ⟨_, hregistration, rfl⟩
  have hmem {p r} (hget : s.supervisor.processes.get? p = some r) :
      p ∈ autoProcesses settings.servers := by
    by_contra hp
    rw [h.stands.registration, h.waiting_of_not_mem hp] at hget
    cases hget
  have hall : s.supervisor.processes.values.filter (·.running.isSome) =
      s.supervisor.processes.values := by
    apply List.filter_eq_self.2
    intro r hr
    obtain ⟨p, hget⟩ := OrderedMap.mem_values_iff.1 hr
    obtain ⟨r', hget', hrunning⟩ := hruns (hmem hget)
    rwa [Option.some.inj (hget.symm.trans hget')]
  have hperm : s.supervisor.processes.keys.Perm (autoProcesses settings.servers) := by
    apply (List.perm_ext_iff_of_nodup (OrderedMap.nodup_keys _) (nodup_autoProcesses hvalid)).2
    intro p
    rw [OrderedMap.mem_keys_iff]
    refine ⟨fun ⟨r, hget⟩ => hmem hget, fun hp => ?_⟩
    obtain ⟨r, hget, -⟩ := hruns hp
    exact ⟨r, hget⟩
  have hlength := hperm.length_eq
  unfold ChildSupervisor.runningCount
  rw [hall, OrderedMap.values, List.length_map]
  rwa [OrderedMap.keys, List.length_map, length_autoProcesses] at hlength

theorem Underway.settled (h : Underway settings σ s) (hvalid : settings.problem? = none)
    (hrest : s.AtRest) : s.Settled settings :=
  ⟨fun _ hspec hauto => h.hasStarted hvalid hrest hspec hauto,
    fun _ hspec hmanual => h.disabled hvalid hspec hmanual, h.runningCount_eq hvalid hrest⟩

theorem exists_underway {attempt : Launch → Except String Unit} {inDomain : Bool} {n : Nat}
    (hvalid : settings.problem? = none) (hfresh : settings.host.bootMode = .fresh)
    (hspawn : ∀ spec ∈ settings.servers, spec.autoStart →
      spec.command ≠ [] ∧ attempt spec.launch = .ok ())
    (h : (beginning settings inDomain).Runs attempt n s) :
    ∃ σ, Underway settings σ s ∧
      s.remaining settings σ + n = 14 * settings.servers.countP (·.autoStart) := by
  induction h with
  | refl => exact exists_underway_beginning hvalid hfresh
  | step _ hstep ih =>
    obtain ⟨σ, hunder, hremaining⟩ := ih
    obtain ⟨σ', hunder', hless⟩ := hunder.step hvalid hspawn hstep
    exact ⟨σ', hunder', by omega⟩

end Startup

/-- If every server that is to start with the host can be launched, and no child ends, then startup
comes to rest after fourteen steps for each of these servers, in whatever order the steps of its two
tasks are taken. By then these servers have started, each with one child, and no other server is
tracked. -/
theorem startup_converges {settings : Settings} {inDomain : Bool}
    {attempt : Launch → Except String Unit} {n : Nat} {s : Startup}
    (hvalid : settings.problem? = none) (hfresh : settings.host.bootMode = .fresh)
    (hspawn : ∀ spec ∈ settings.servers, spec.autoStart →
      spec.command ≠ [] ∧ attempt spec.launch = .ok ())
    (hruns : (Startup.beginning settings inDomain).Runs attempt n s) :
    n ≤ 14 * settings.servers.countP (·.autoStart) ∧
      (s.AtRest ↔ n = 14 * settings.servers.countP (·.autoStart)) ∧
      (¬ s.AtRest → ∃ s', Startup.Step attempt s s') ∧
      (s.AtRest → s.Settled settings) := by
  obtain ⟨σ, hunder, hremaining⟩ := Startup.exists_underway hvalid hfresh hspawn hruns
  refine ⟨by omega, ?_, hunder.exists_step, hunder.settled hvalid⟩
  rw [hunder.atRest_iff]
  omega

/-- Two of three servers start with the host. -/
theorem startup_converges_two :
    let settings : Settings := { servers := [
      { name := "a", group := "g", command := ["sleep", "30"] },
      { name := "b", group := "g", autoStart := false },
      { name := "c", group := "g", command := ["sleep", "60"] }] }
    ∃ s, (Startup.beginning settings false).Runs (fun _ => .ok ()) 28 s ∧ s.AtRest ∧
      s.Settled settings := by
  intro settings
  have hspawn : ∀ spec ∈ settings.servers, spec.autoStart →
      spec.command ≠ [] ∧ (fun _ => .ok () : Launch → Except String Unit) spec.launch =
        .ok () := by
    simp [settings]
  have hcount : 14 * settings.servers.countP (·.autoStart) = 28 := rfl
  have hexact {n : Nat} {s : Startup}
      (hruns : (Startup.beginning settings false).Runs (fun _ => .ok ()) n s) :=
    startup_converges (by decide) rfl hspawn hruns
  have hruns (n : Nat) (hn : n ≤ 28) :
      ∃ s, (Startup.beginning settings false).Runs (fun _ => .ok ()) n s := by
    induction n with
    | zero => exact ⟨_, .refl⟩
    | succ n ih =>
      obtain ⟨s, hs⟩ := ih (by omega)
      obtain ⟨-, hrest, hstep, -⟩ := hexact hs
      obtain ⟨s', hstep⟩ := hstep fun h => by
        have hn := hrest.1 h
        omega
      exact ⟨s', .step hs hstep⟩
  obtain ⟨s, hs⟩ := hruns 28 (by omega)
  obtain ⟨-, hrest, -, hsettled⟩ := hexact hs
  have hatRest := hrest.2 hcount.symm
  exact ⟨s, hs, hatRest, hsettled hatRest⟩

end HostSteward
