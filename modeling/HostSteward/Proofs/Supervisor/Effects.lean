import HostSteward.Supervisor.Children

/-!
# Effects of commands and of watchers

All that a command may do to a supervisor of children, and all that a watcher may do. What holds of
every effect holds whatever is asked for, and however a launch turns out.
-/

namespace HostSteward

namespace ChildSupervisor

/-- What may come of a command: the supervisor after it, its answer and the notices. -/
inductive Effect (s : ChildSupervisor) :
    (c : Command) → ChildSupervisor → c.Answer → List Notice → Prop
  | added {process launch} (hnew : s.processes.get? process = none) :
      Effect s (.add process launch)
        { s with
          processes := s.processes.insert process { incarnation := s.nextIncarnation, launch }
          nextIncarnation := s.nextIncarnation + 1 }
        (.ok s.nextIncarnation) [.processAdded process]
  | refused {process launch r} (hget : s.processes.get? process = some r) :
      Effect s (.add process launch) s (.error (.alreadyRegistered process)) []
  | launched {process r} (hget : s.processes.get? process = some r) (hnone : r.running = none)
      (hcommand : r.launch.command.isEmpty = false) :
      Effect s (.start process) (s.spawn process r) (.ok ())
        [.processStarted process, .serverAvailable process]
  | booted {process r} (running : Running) (hget : s.processes.get? process = some r)
      (hrunning : r.running = some running) :
      Effect s (.start process)
        (s.setRunning process r (some { running with booted := true })) (.ok ())
        [.serverStarted process]
  | unmoved {process} (answer : Except Failure Unit) : Effect s (.start process) s answer []
  | stopped {process} : Effect s (.stop process) (s.stop process).supervisor (.ok ()) []
  | removed {process} :
      Effect s (.remove process)
        { (s.stop process).supervisor with processes := s.processes.erase process } (.ok ())
        [.processRemoved process]
  | absent {process} (hnone : s.processes.get? process = none) :
      Effect s (.remove process) s (.ok ()) []
  | listed : Effect s .requestInventory s (.ok ()) [.inventory s.inventory]
  | shutDown : Effect s .shutdown s.shutdown.supervisor (.ok ()) [.connectionFinished]

variable {s : ChildSupervisor} {process : String}

theorem contains_eq_false_iff :
    s.processes.contains process = false ↔ s.processes.get? process = none := by
  unfold OrderedMap.contains
  rw [Option.isSome_eq_false_iff, Option.isNone_iff_eq_none]

theorem effect_add (s : ChildSupervisor) (process : String) (launch : Launch) :
    Effect s (.add process launch) (s.add process launch).supervisor
      (s.add process launch).answer (s.add process launch).notices := by
  unfold add
  by_cases hin : s.processes.contains process
  · rw [if_pos hin]
    obtain ⟨r, hget⟩ := Option.isSome_iff_exists.1 hin
    exact .refused hget
  · rw [if_neg hin]
    exact .added (contains_eq_false_iff.1 (Bool.eq_false_iff.2 hin))

theorem effect_start (attempt : Launch → Except String Unit) (s : ChildSupervisor)
    (process : String) : Effect s (.start process) (s.start attempt process).supervisor
      (s.start attempt process).answer (s.start attempt process).notices := by
  unfold start
  cases hget : s.processes.get? process with
  | none => exact .unmoved _
  | some r =>
    cases hrunning : r.running with
    | some running =>
      by_cases hbooted : running.booted
      · simp only [hrunning, hbooted, if_true]
        exact .unmoved _
      · simp only [hrunning, hbooted, Bool.false_eq_true, if_false]
        exact .booted running hget hrunning
    | none =>
      by_cases hcommand : r.launch.command.isEmpty
      · simp only [hrunning, hcommand, if_true]
        exact .unmoved _
      · simp only [hrunning, hcommand, Bool.false_eq_true, if_false]
        cases attempt r.launch with
        | error fault => exact .unmoved _
        | ok _ => exact .launched hget hrunning (Bool.eq_false_iff.2 hcommand)

theorem effect_remove (s : ChildSupervisor) (process : String) :
    Effect s (.remove process) (s.remove process).supervisor (s.remove process).answer
      (s.remove process).notices := by
  unfold remove
  by_cases hin : s.processes.contains process
  · rw [if_pos hin]
    exact .removed
  · rw [if_neg hin]
    exact .absent (contains_eq_false_iff.1 (Bool.eq_false_iff.2 hin))

/-- Whatever is commanded, and however launches turn out, it has one of the effects. -/
theorem effect_obey (attempt : Launch → Except String Unit) (s : ChildSupervisor)
    (c : Command) :
    Effect s c (s.obey attempt c).1 (s.obey attempt c).2.1 (s.obey attempt c).2.2 := by
  cases c with
  | add process launch => exact effect_add s process launch
  | start process => exact effect_start attempt s process
  | stop process => exact .stopped
  | remove process => exact effect_remove s process
  | requestInventory => exact .listed
  | shutdown => exact .shutDown

theorem processes_stop (s : ChildSupervisor) (process : String) :
    (s.stop process).supervisor.processes = s.processes := by
  unfold stop
  cases (s.processes.get? process).bind (·.running) <;> rfl

/-- A watcher that reports anything reports the exit of its child. -/
theorem reportExit_cases (s : ChildSupervisor) (i : Nat) (uptime : Duration) :
    s.reportExit i uptime = (s, []) ∨
      ∃ c : Child, s.reportExit i uptime = (s.updateChild i fun c => { c with stage := .reported },
        [.processStopped c.process c.incarnation uptime]) := by
  unfold reportExit
  cases s.children[i]? with
  | none => exact Or.inl rfl
  | some c =>
    by_cases hcleared : c.stage = .cleared
    · exact Or.inr ⟨c, if_pos hcleared⟩
    · exact Or.inl (if_neg hcleared)

/-- A watcher that clears anything clears the process of its child, unless that is registered anew. -/
theorem clearProcess_cases (s : ChildSupervisor) (i : Nat) :
    s.clearProcess i = s ∨ ∃ c cleared, s.children[i]? = some c ∧
      cleared = (s.updateChild i fun c => { c with stage := .cleared }) ∧
      (s.clearProcess i = cleared ∨ ∃ r, s.processes.get? c.process = some r ∧
        r.incarnation = c.incarnation ∧ s.clearProcess i = cleared.setRunning c.process r none) := by
  unfold clearProcess
  cases hchild : s.children[i]? with
  | none => exact Or.inl rfl
  | some c =>
    simp only
    by_cases hended : c.stage = .ended
    · rw [if_pos hended]
      refine Or.inr ⟨c, _, rfl, rfl, ?_⟩
      cases hget : (s.updateChild i fun c => { c with stage := .cleared }).processes.get?
          c.process with
      | none => exact Or.inl rfl
      | some r =>
        by_cases hsame : r.incarnation = c.incarnation
        · exact Or.inr ⟨r, hget, hsame, if_pos hsame⟩
        · exact Or.inl (if_neg hsame)
    · rw [if_neg hended]
      exact Or.inl rfl

end ChildSupervisor

end HostSteward
