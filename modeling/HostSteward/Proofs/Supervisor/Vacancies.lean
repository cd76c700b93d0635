import HostSteward.Proofs.Supervisor.Works

/-!
# Vacant registrations

A process that was launched and has no child any more had one of its own incarnation, whose end its
watcher has seen. This is kept by everything that a supervisor and its children do.
-/

namespace HostSteward

namespace ChildSupervisor

/-- With these numbers of launches, a registered process that was launched can be launched, and if
it has no child its last one is gone. -/
def Fits (s : ChildSupervisor) (n : String → Nat) : Prop :=
  ∀ p r, s.processes.get? p = some r → 1 ≤ n p →
    r.launch.command.isEmpty = false ∧ (r.running = none →
      ∃ c ∈ s.children, c.process = p ∧ c.incarnation = r.incarnation ∧ c.Gone)

variable {s : ChildSupervisor} {n n' : String → Nat} {process : String} {r : Registration}

/-- A change of a child after which it is what it was, and is gone if it was. -/
theorem Fits.updateChild (h : Fits s n) (i : Nat) {f : Child → Child}
    (hf : ∀ c, (f c).process = c.process ∧ (f c).incarnation = c.incarnation ∧
      (c.Gone → (f c).Gone)) : Fits (s.updateChild i f) n := by
  intro p r hget hn
  obtain ⟨hcommand, hgone⟩ := h p r hget hn
  refine ⟨hcommand, fun hnone => ?_⟩
  obtain ⟨c, hc, hp, hi, hg⟩ := hgone hnone
  obtain ⟨j, hj⟩ := List.mem_iff_getElem?.1 hc
  have hget' : (s.updateChild i f).children[j]? = some (if i = j then f c else c) := by
    simp only [ChildSupervisor.updateChild, List.getElem?_modify, hj]
    split <;> rfl
  refine ⟨_, List.mem_of_getElem? hget', ?_⟩
  obtain ⟨hprocess, hincarnation, hkeep⟩ := hf c
  split
  · exact ⟨hprocess.trans hp, hincarnation.trans hi, hkeep hg⟩
  · exact ⟨hp, hi, hg⟩

theorem Fits.setRunning (h : Fits s n) (hother : ∀ p, p ≠ process → n' p = n p)
    {running : Option Running}
    (hhere : 1 ≤ n' process → r.launch.command.isEmpty = false ∧ (running = none →
      ∃ c ∈ s.children, c.process = process ∧ c.incarnation = r.incarnation ∧ c.Gone)) :
    Fits (s.setRunning process r running) n' := by
  intro p r' hget hn
  simp only [ChildSupervisor.setRunning, OrderedMap.get?_insert] at hget
  by_cases hp : process = p
  · subst hp
    rw [if_pos rfl] at hget
    obtain rfl := Option.some.inj hget
    exact hhere hn
  · rw [if_neg hp] at hget
    exact h p r' hget (hother p (Ne.symm hp) ▸ hn)

theorem Fits.register (h : Fits s n) (launch : Launch) :
    Fits { s with
        processes := s.processes.insert process { incarnation := s.nextIncarnation, launch }
        nextIncarnation := s.nextIncarnation + 1 } fun p => if process = p then 0 else n p := by
  intro p r hget hn
  simp only [OrderedMap.get?_insert] at hget hn
  by_cases hp : process = p
  · rw [if_pos hp] at hn
    omega
  · rw [if_neg hp] at hget hn
    exact h p r hget hn

theorem Fits.spawn (h : Fits s n) (hcommand : r.launch.command.isEmpty = false)
    (hother : ∀ p, p ≠ process → n' p = n p) : Fits (s.spawn process r) n' := by
  have hchildren : Fits { s with children := s.children ++
      [{ process, incarnation := r.incarnation, launch := r.launch }] } n := by
    intro p r' hget hn
    obtain ⟨hcommand, hgone⟩ := h p r' hget hn
    refine ⟨hcommand, fun hnone => ?_⟩
    obtain ⟨c, hc, hrest⟩ := hgone hnone
    exact ⟨c, List.mem_append_left _ hc, hrest⟩
  exact Fits.setRunning (r := r) hchildren hother fun _ => ⟨hcommand, by simp⟩

theorem Fits.stop (h : Fits s n) (process : String) : Fits (s.stop process).supervisor n := by
  unfold ChildSupervisor.stop
  cases (s.processes.get? process).bind (·.running) with
  | none => exact h
  | some running =>
    exact h.updateChild running.child (f := fun c => { c with told := true })
      fun c => ⟨rfl, rfl, fun hg => hg⟩

theorem Fits.remove (h : Fits s n) (process : String) :
    Fits { (s.stop process).supervisor with processes := s.processes.erase process } n := by
  intro p r hget hn
  simp only [OrderedMap.get?_erase] at hget
  split at hget
  · cases hget
  · apply h.stop process p r _ hn
    rw [processes_stop]
    exact hget

/-- An effect leaves a supervisor with the launches that its notices tell of. -/
theorem Fits.effect (h : Fits s n) {c : Command} {s' : ChildSupervisor} {a : c.Answer}
    {notices : List Notice} (heffect : Effect s c s' a notices) :
    Fits s' fun p => notices.foldl (Works.tally p) (n p) := by
  cases heffect with
  | added => exact h.register _
  | launched hget hnone hcommand =>
    apply h.spawn hcommand
    intro p hp
    simp [Works.tally, hp.symm]
  | @booted process r running hget =>
    apply h.setRunning (fun p _ => rfl)
    intro hn
    exact ⟨(h process r hget hn).1, by simp⟩
  | stopped => exact h.stop _
  | removed => exact h.remove _
  | shutDown =>
    intro p r hget
    cases hget
  | _ => exact h

theorem Fits.childEnds (h : Fits s n) (i : Nat) : Fits (s.childEnds i) n := by
  apply h.updateChild i
  intro c
  by_cases hc : c.stage = .alive
  · simp [hc, Child.Gone]
  · simp [hc]

theorem Fits.reportExit (h : Fits s n) (i : Nat) (uptime : Duration) :
    Fits (s.reportExit i uptime).1 n := by
  rcases s.reportExit_cases i uptime with hsame | ⟨c, hreported⟩
  · rw [hsame]
    exact h
  · rw [hreported]
    exact h.updateChild i (f := fun c => { c with stage := .reported })
      fun c => ⟨rfl, rfl, fun _ => Or.inr rfl⟩

theorem Fits.clearProcess (h : Fits s n) (i : Nat) : Fits (s.clearProcess i) n := by
  have hupdate := h.updateChild i (f := fun c => { c with stage := .cleared })
    fun c => ⟨rfl, rfl, fun _ => Or.inl rfl⟩
  rcases s.clearProcess_cases i with hsame | ⟨c, cleared, hc, rfl, hkept | ⟨r, hget, hr, hcleared⟩⟩
  · rw [hsame]
    exact h
  · rw [hkept]
    exact hupdate
  · rw [hcleared]
    apply hupdate.setRunning (fun _ _ => rfl)
    intro hn
    refine ⟨(h _ r hget hn).1, fun _ => ⟨{ c with stage := .cleared }, ?_, rfl, hr.symm, Or.inl rfl⟩⟩
    refine List.mem_of_getElem? (i := i) ?_
    simp [ChildSupervisor.updateChild, hc]

end ChildSupervisor

namespace Works

structure Sane (w : Works) : Prop where
  own : ∀ n ∈ w.published, IsOwn n
  fits : w.supervisor.Fits w.launches

variable {w w' : Works}

namespace Sane

theorem publish (h : w.Sane) {s : ChildSupervisor} {notices : List Notice}
    (hown : ∀ n ∈ notices, IsOwn n)
    (hfits : s.Fits fun p => notices.foldl (tally p) (w.launches p)) :
    (w.publish s notices).Sane where
  own n hn := by
    rcases List.mem_append.1 hn with hn | hn
    · exact h.own n hn
    · exact hown n hn
  fits := by
    have hlaunches : (w.publish s notices).launches = fun p =>
        notices.foldl (tally p) (w.launches p) := funext fun p => launches_publish ..
    rw [hlaunches]
    exact hfits

theorem moves (h : w.Sane) (hmove : Moves w w') : w'.Sane := by
  cases hmove with
  | ends i => exact h.publish (by simp) (h.fits.childEnds i)
  | clears i => exact h.publish (by simp) (h.fits.clearProcess i)
  | misses count => exact ⟨h.own, h.fits⟩
  | reports i uptime =>
    have hlaunches := fun p => launches_moves (w := w) (.reports i uptime) p
    simp only [launches_publish] at hlaunches
    refine h.publish (fun n hn => ?_) ?_
    · rcases w.supervisor.reportExit_cases i uptime with hsame | ⟨c, hreported⟩
      · rw [hsame] at hn
        cases hn
      · rw [hreported] at hn
        rw [List.mem_singleton.1 hn]
        trivial
    · simp only [hlaunches]
      exact h.fits.reportExit i uptime

theorem obeys (h : w.Sane) {c : Command} {a : c.Answer} (hobeys : surroundings.obeys w c w' a) :
    w'.Sane := by
  obtain ⟨s, notices, heffect, rfl⟩ := exists_effect hobeys
  exact h.publish heffect.own (h.fits.effect heffect)

end Sane

end Works

end HostSteward
