import HostSteward.Proofs.Supervisor.ChildCounts
import HostSteward.Proofs.Supervisor.Unassisted

/-!
# Launches of a registered process

A steward that starts its servers itself and does not restart them works with a supervisor that
runs children and publishes all notices. A registered process is launched at most once, with one
exception: the start command that acknowledges a boot launches a child again if the first one is
gone by the time at which the command is carried out.
-/

namespace HostSteward

open Operation

namespace Works

def beginning (settings : Settings) (model : Option HostModel) (inDomain : Bool) : System Works where
  host := .make settings model inDomain
  around := {}

structure Late (s : System Works) (p : String) : Prop where
  sent : ∃ host resume,
    s.active = some (.notice (.serverAvailable p), .ask host (.command (.start p)) resume)
  launched : 1 ≤ s.around.launches p
  childless : ∃ r, s.around.supervisor.processes.get? p = some r ∧ r.running = none

section Runs

variable {settings : Settings} {model : Option HostModel} {inDomain : Bool} {s s' : System Works}
  {p : String}

theorem sane_beginning : (beginning settings model inDomain).around.Sane :=
  ⟨by simp [beginning], fun _ _ hget => by cases hget⟩

/-- In a step the works go on by themselves, or carry out a command of the steward. -/
theorem around_step (hstep : System.Step surroundings s s') :
    Moves s.around s'.around ∨ ∃ o host c resume a,
      s.active = some (o, .ask host (.command c) resume) ∧
        surroundings.obeys s.around c s'.around a := by
  cases hstep with
  | move hmove => exact Or.inl hmove
  | @command h h' w w' o c resume answer l hobeys =>
    exact Or.inr ⟨o, h', c, resume, answer, rfl, hobeys⟩
  | @call h w w' o l hcall =>
    refine Or.inl ?_
    cases o with
    | notice n => exact hcall.2 ▸ .misses 1
    | restart r => exact hcall.2 ▸ .misses 0
    | _ =>
      have hcall : w' = w := hcall
      exact hcall ▸ .misses 0
  | wake => exact Or.inl (.misses 0)
  | register answer => exact Or.inl (.misses 0)
  | unregister answer => exact Or.inl (.misses 0)
  | sleep => exact Or.inl (.misses 0)
  | finish => exact Or.inl (.misses 0)

theorem sane_of_reaches (h : System.Reaches surroundings (beginning settings model inDomain) s) :
    s.around.Sane := by
  induction h with
  | refl => exact sane_beginning
  | tail _ hstep ih =>
    rcases around_step hstep with hmove | ⟨o, host, c, resume, a, -, hobeys⟩
    · exact ih.moves hmove
    · exact ih.obeys hobeys

/-- As long as incarnations do not repeat, a registered process was launched as often as it has
children of its incarnation. -/
theorem counts_of_reaches
    (h : System.Reaches surroundings (beginning settings model inDomain) s)
    (hbound : s.around.adds + 1 < UInt64.size) : s.around.Counts := by
  induction h with
  | refl =>
    refine ⟨rfl, fun p r hget => ?_, by simp [beginning]⟩
    cases hget
  | @tail s s' _ hstep ih =>
    rcases around_step hstep with hmove | ⟨o, host, c, resume, a, -, hobeys⟩
    · exact Counts.moves (ih (adds_moves hmove ▸ hbound)) hmove
    · exact Counts.obeys ih hobeys hbound

/-- All operations are carried out as they ought to be. -/
theorem inOrder_of_reaches (hfresh : settings.host.bootMode = .fresh)
    (hmanual : settings.lifecycle.autoRestart = false)
    (h : System.Reaches surroundings (beginning settings model inDomain) s) :
    System.InOrder surroundings owes Unassisted id s := by
  have hself : surroundings.SeenAs surroundings id := ⟨fun h => h, fun h => .single h⟩
  refine System.InOrder.reaches hself steady_unassisted meets_operation ⟨?_, by simp [beginning]⟩ h
  exact ⟨hfresh, hmanual, rfl, Roster.sound_empty _, sane_beginning⟩

/-- A step launches a process at most once, and only by a start command for one without a child. -/
theorem launches_step (hstep : System.Step surroundings s s') (p : String) :
    s'.around.launches p ≤ s.around.launches p ∨
      s'.around.launches p = s.around.launches p + 1 ∧
        (∃ r, s.around.supervisor.processes.get? p = some r ∧ r.running = none) ∧
        ∃ o host resume, s.active = some (o, .ask host (.command (.start p)) resume) := by
  rcases around_step hstep with hmove | ⟨o, host, c, resume, a, hactive, hobeys⟩
  · exact Or.inl (Nat.le_of_eq (launches_moves hmove p))
  · obtain ⟨supervisor, notices, heffect, hw⟩ := exists_effect hobeys
    rw [hw, launches_publish]
    rcases heffect.tally_le p (s.around.launches p) with hle | ⟨rfl, hone, hnone⟩
    · exact Or.inl hle
    · exact Or.inr ⟨hone, hnone, o, host, resume, hactive⟩

/-- A process that was launched is launched again only if the acknowledgement is late. -/
theorem late_of_launches_lt (ho : System.InOrder surroundings owes Unassisted id s)
    (hstep : System.Step surroundings s s') (hlt : s.around.launches p < s'.around.launches p) :
    s'.around.launches p = s.around.launches p + 1 ∧ (s.around.launches p = 0 ∨ Late s p) := by
  rcases launches_step hstep p with hle | ⟨hone, hchildless, o, host, resume, hactive⟩
  · omega
  · refine ⟨hone, ?_⟩
    obtain ⟨h, w, active, l⟩ := s
    simp only at hactive
    subst hactive
    rcases ho.handsOut with rfl | hzero
    · by_cases hzero : w.launches p = 0
      · exact Or.inl hzero
      · exact Or.inr ⟨⟨host, resume, rfl⟩, by simp only; omega, hchildless⟩
    · exact Or.inl hzero

/-- If the acknowledgement is late, a child of the same registration is gone, and another one may
be launched. -/
theorem launched_of_late (hs : s.around.Sane) (h : Late s p) :
    ∃ r, s.around.supervisor.processes.get? p = some r ∧
      (∃ c ∈ s.around.supervisor.children, c.process = p ∧ c.incarnation = r.incarnation ∧ c.Gone) ∧
      ∃ s' c, System.Step surroundings s s' ∧
        s'.around.launches p = s.around.launches p + 1 ∧
        s'.around.supervisor.children = s.around.supervisor.children ++ [c] ∧
        c.process = p ∧ c.incarnation = r.incarnation := by
  obtain ⟨⟨host, resume, hactive⟩, hlaunched, r, hget, hnone⟩ := h
  obtain ⟨h, w, active, l⟩ := s
  simp only at hactive hlaunched hget hs
  subst hactive
  obtain ⟨hcommand, hgone⟩ := hs.fits p r hget hlaunched
  -- The machine may well launch the child.
  let attempt : Launch → Except String Unit := fun _ => .ok ()
  have hstart : w.supervisor.start attempt p =
      { supervisor := w.supervisor.spawn p r, answer := .ok ()
        notices := [.processStarted p, .serverAvailable p] } := by
    simp [ChildSupervisor.start, hget, hnone, hcommand, attempt]
  have hobey : w.supervisor.obey attempt (.start p) =
      (w.supervisor.spawn p r, .ok (), [.processStarted p, .serverAvailable p]) := by
    simp only [ChildSupervisor.obey, hstart]
  refine ⟨r, hget, hgone hnone, _, { process := p, incarnation := r.incarnation, launch := r.launch },
    .command (c := .start p) (a := .ok ()) ⟨attempt, ?_, rfl⟩, ?_, ?_, rfl, rfl⟩
  · rw [hobey]
  · rw [launches_publish, hobey]
    simp [tally]
  · rw [hobey]
    rfl

theorem exists_serverAvailable {host : Steward} {server : Server} (hrunning : host.stopping = false)
    (htracked : host.roster.get? p = some server) :
    ∃ host' resume, Steward.serverAvailable p host = .ask host' (.command (.start p)) resume := by
  have hsubject : Steward.subject? p "available" host = .done host (some server) := by
    unfold Steward.subject?
    rw [bind_of_done (rfl : current host = _), hrunning, htracked]
    rfl
  have hcheck : ∃ host', checkPhase server [.booting] "available" host = .done host' () := by
    unfold checkPhase
    cases server.checkEntry? [.booting] "available" with
    | none => exact ⟨_, rfl⟩
    | some e => exact ⟨_, rfl⟩
  obtain ⟨checked, hcheck⟩ := hcheck
  unfold Steward.serverAvailable
  rw [bind_of_done hsubject]
  dsimp only
  rw [bind_of_done hcheck]
  exact ⟨_, _, rfl⟩

/-- Taking the notice of a boot after the child is gone makes the acknowledgement late. -/
theorem exists_late {server : Server} {r : Registration} (hactive : s.active = none)
    (hnotice : s.around.published[s.around.taken]? = some (.serverAvailable p))
    (hrunning : s.host.stopping = false) (htracked : s.host.roster.get? p = some server)
    (hlaunched : 1 ≤ s.around.launches p)
    (hget : s.around.supervisor.processes.get? p = some r) (hnone : r.running = none) :
    ∃ s', System.Step surroundings s s' ∧ Late s' p := by
  obtain ⟨h, w, active, l⟩ := s
  simp only at hactive hnotice hrunning htracked
  subst hactive
  refine ⟨_, .call (o := .notice (.serverAvailable p)) ⟨hnotice, rfl⟩, ?_, hlaunched, r, hget, hnone⟩
  obtain ⟨host, resume, hask⟩ := exists_serverAvailable hrunning htracked
  exact ⟨host, resume, congrArg (fun p => some (_, p)) hask⟩

/-- What a system may come to if no acknowledgement is ever late. -/
abbrev ReachesInTime : System Works → System Works → Prop :=
  Relation.ReflTransGen fun s s' => System.Step surroundings s s' ∧ ∀ p, ¬ Late s p

theorem ReachesInTime.reaches (h : ReachesInTime s s') : System.Reaches surroundings s s' :=
  Relation.ReflTransGen.mono (fun _ _ hstep => hstep.1) _ _ h

theorem launches_le_one (hfresh : settings.host.bootMode = .fresh)
    (hmanual : settings.lifecycle.autoRestart = false)
    (h : ReachesInTime (beginning settings model inDomain) s) (p : String) :
    s.around.launches p ≤ 1 := by
  induction h with
  | refl => exact Nat.zero_le 1
  | @tail s s' h hstep ih =>
    by_cases hlt : s.around.launches p < s'.around.launches p
    · have ho := inOrder_of_reaches hfresh hmanual (ReachesInTime.reaches h)
      obtain ⟨hone, hzero | hlate⟩ := late_of_launches_lt ho hstep.1 hlt
      · omega
      · exact absurd hlate (hstep.2 p)
    · omega

end Runs

/-- A steward that starts its servers itself and restarts none launches a registered process again
exactly if an acknowledgement comes late: when the command to start is carried out that is sent
because of the notice of a boot, the child that booted is gone. -/
theorem launches_exact (settings : Settings) (model : Option HostModel) (inDomain : Bool)
    (hfresh : settings.host.bootMode = .fresh)
    (hmanual : settings.lifecycle.autoRestart = false) :
    (∀ s s' p, System.Reaches surroundings (beginning settings model inDomain) s →
      System.Step surroundings s s' → 1 ≤ s.around.launches p →
      s.around.launches p < s'.around.launches p → Late s p) ∧
    (∀ s p, System.Reaches surroundings (beginning settings model inDomain) s → Late s p →
      ∃ r, s.around.supervisor.processes.get? p = some r ∧
        (∃ c ∈ s.around.supervisor.children,
          c.process = p ∧ c.incarnation = r.incarnation ∧ c.Gone) ∧
        ∃ s' c, System.Step surroundings s s' ∧
          s'.around.launches p = s.around.launches p + 1 ∧
          s'.around.supervisor.children = s.around.supervisor.children ++ [c] ∧
          c.process = p ∧ c.incarnation = r.incarnation) ∧
    (∀ s p server r, System.Reaches surroundings (beginning settings model inDomain) s →
      s.active = none → s.around.published[s.around.taken]? = some (.serverAvailable p) →
      s.host.stopping = false → s.host.roster.get? p = some server → 1 ≤ s.around.launches p →
      s.around.supervisor.processes.get? p = some r → r.running = none →
      ∃ s', System.Step surroundings s s' ∧ Late s' p) ∧
    ∀ s, ReachesInTime (beginning settings model inDomain) s →
      (∀ p, s.around.launches p ≤ 1) ∧
      (s.around.adds + 1 < UInt64.size → ∀ p r,
        s.around.supervisor.processes.get? p = some r →
        s.around.supervisor.childCount p r.incarnation ≤ 1) := by
  refine ⟨fun s s' p h hstep hlaunched hlt => ?_, fun s p h hlate => ?_,
    fun s p server r _ hactive hnotice hrunning htracked hlaunched hget hnone => ?_,
    fun s h => ⟨launches_le_one hfresh hmanual h, fun hbound p r hget => ?_⟩⟩
  · obtain ⟨-, hzero | hlate⟩ :=
      late_of_launches_lt (inOrder_of_reaches hfresh hmanual h) hstep hlt
    · omega
    · exact hlate
  · exact launched_of_late (sane_of_reaches h) hlate
  · exact exists_late hactive hnotice hrunning htracked hlaunched hget hnone
  · have hcounts := counts_of_reaches h.reaches hbound
    rw [(hcounts.registered p r hget).2]
    exact launches_le_one hfresh hmanual h p

/-- A server whose process ends as soon as it is launched is launched twice under one
registration. -/
theorem launches_exact_shortLived :
    ∃ s, System.Reaches surroundings (beginning {} (some (.single "a" ["true"])) false) s ∧
      2 ≤ s.around.launches "Server:a" := by
  let attempt : Launch → Except String Unit := fun _ => .ok ()
  let launch : Launch := ⟨["true"], none, .empty⟩
  have hcall : System.Reaches surroundings (beginning {} (some (.single "a" ["true"])) false) _ :=
    .single (.call (o := .startServers) rfl)
  have hadd := hcall.tail (.command (c := .add "Server:a" launch) (a := .ok 1) ⟨attempt, rfl, rfl⟩)
  have hstart := hadd.tail (.command (c := .start "Server:a") (a := .ok ()) ⟨attempt, rfl, rfl⟩)
  have hidle := hstart.tail .finish
  -- The child ends and its watcher clears the process before the boot is noticed.
  have hgone := (hidle.tail (.move (.ends 0))).tail (.move (.clears 0))
  have hadded := (hgone.tail (.call (o := .notice (.processAdded "Server:a")) ⟨rfl, rfl⟩)).tail
    .finish
  have hstarted := (hadded.tail (.call (o := .notice (.processStarted "Server:a")) ⟨rfl, rfl⟩)).tail
    .finish
  obtain ⟨-, hagain, hlate, -⟩ := launches_exact {} (some (.single "a" ["true"])) false rfl rfl
  obtain ⟨s, hstep, hlate⟩ := hlate _ "Server:a" _ ⟨1, launch, none⟩ hstarted rfl rfl rfl rfl
    (by decide) (by decide) rfl
  have hreach := hstarted.tail hstep
  obtain ⟨-, -, -, s', -, hstep', hone, -⟩ := hagain s "Server:a" hreach hlate
  have hlaunched := hlate.launched
  exact ⟨s', hreach.tail hstep', by omega⟩

end Works

end HostSteward
