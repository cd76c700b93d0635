import HostSteward.Proofs.Supervisor.Works

/-!
# Counting children

As long as incarnations do not repeat, the launches that the notices tell of are the children that
were launched under the registration of a process.
-/

namespace HostSteward

namespace ChildSupervisor

def childCount (s : ChildSupervisor) (process : String) (incarnation : Incarnation) : Nat :=
  s.children.countP fun c => c.process = process && c.incarnation = incarnation

/-- After `adds` registrations, none of them under the incarnation of another, as many children were
launched for every registered process as the numbers say. -/
structure Counts (s : ChildSupervisor) (adds : Nat) (n : String → Nat) : Prop where
  next : s.nextIncarnation.toNat = adds + 1
  registered : ∀ p r, s.processes.get? p = some r →
    r.incarnation.toNat ≤ adds ∧ s.childCount p r.incarnation = n p
  children : ∀ c ∈ s.children, c.incarnation.toNat ≤ adds

theorem countP_modify {l : List Child} {q : Child → Bool} {f : Child → Child}
    (hf : ∀ c, q (f c) = q c) (i : Nat) : (l.modify i f).countP q = l.countP q := by
  induction l generalizing i with
  | nil => simp
  | cons c l ih =>
    cases i with
    | zero => simp [List.countP_cons, hf]
    | succ i => simp [List.countP_cons, ih]

variable {s : ChildSupervisor} {adds : Nat} {n : String → Nat} {process : String}
  {r : Registration}

theorem Counts.updateChild (h : Counts s adds n) (i : Nat) {f : Child → Child}
    (hf : ∀ c, (f c).process = c.process ∧ (f c).incarnation = c.incarnation) :
    Counts (s.updateChild i f) adds n where
  next := h.next
  registered p r hget := by
    refine ⟨(h.registered p r hget).1, ?_⟩
    rw [← (h.registered p r hget).2]
    exact countP_modify (fun c => by rw [(hf c).1, (hf c).2]) i
  children c hc := by
    obtain ⟨j, hj⟩ := List.mem_iff_getElem?.1 hc
    simp only [ChildSupervisor.updateChild, List.getElem?_modify, Option.map_eq_map,
      Option.map_eq_some_iff] at hj
    obtain ⟨c', hj, rfl⟩ := hj
    have hle := h.children c' (List.mem_of_getElem? hj)
    split
    · rw [(hf c').2]
      exact hle
    · exact hle

theorem Counts.setRunning (h : Counts s adds n) (hget : s.processes.get? process = some r)
    (running : Option Running) : Counts (s.setRunning process r running) adds n where
  next := h.next
  registered p r' hget' := by
    simp only [ChildSupervisor.setRunning, OrderedMap.get?_insert] at hget'
    by_cases hp : process = p
    · subst hp
      rw [if_pos rfl] at hget'
      obtain rfl := Option.some.inj hget'
      exact h.registered process r hget
    · rw [if_neg hp] at hget'
      exact h.registered p r' hget'
  children := h.children

theorem Counts.spawn (h : Counts s adds n) (hget : s.processes.get? process = some r) :
    Counts (s.spawn process r) adds fun p => if process = p then n p + 1 else n p := by
  have hchild : Counts { s with children := s.children ++
      [{ process, incarnation := r.incarnation, launch := r.launch }] } adds
      fun p => if process = p then n p + 1 else n p := by
    refine ⟨h.next, fun p r' hget' => ⟨(h.registered p r' hget').1, ?_⟩, fun c hc => ?_⟩
    · rw [← (h.registered p r' hget').2]
      simp only [childCount, List.countP_append, List.countP_singleton]
      by_cases hp : process = p
      · subst hp
        obtain rfl := Option.some.inj (hget.symm.trans hget')
        simp
      · simp [hp]
    · rcases List.mem_append.1 hc with hc | hc
      · exact h.children c hc
      · rw [List.mem_singleton.1 hc]
        exact (h.registered process r hget).1
  exact hchild.setRunning hget _

theorem Counts.stop (h : Counts s adds n) (process : String) :
    Counts (s.stop process).supervisor adds n := by
  unfold ChildSupervisor.stop
  cases (s.processes.get? process).bind (·.running) with
  | none => exact h
  | some running =>
    exact h.updateChild running.child (f := fun c => { c with told := true }) fun c => ⟨rfl, rfl⟩

theorem Counts.forget (h : Counts s adds n) {processes : OrderedMap String Registration}
    (hsub : ∀ p r, processes.get? p = some r → s.processes.get? p = some r) :
    Counts { s with processes } adds n where
  next := h.next
  registered p r hget := h.registered p r (hsub p r hget)
  children := h.children

theorem Counts.remove (h : Counts s adds n) (process : String) :
    Counts { (s.stop process).supervisor with processes := s.processes.erase process } adds n := by
  apply (h.stop process).forget
  intro p r hget
  rw [OrderedMap.get?_erase] at hget
  rw [processes_stop]
  split at hget
  · cases hget
  · exact hget

theorem Counts.shutdown (h : Counts s adds n) : Counts s.shutdown.supervisor adds n := by
  have hall : ∀ ps : List String, ∀ s, Counts s adds n →
      Counts (ps.foldl (fun s p => (s.stop p).supervisor) s) adds n := by
    intro ps
    induction ps with
    | nil => exact fun s h => h
    | cons p ps ih => exact fun s h => ih _ (h.stop p)
  exact (hall _ s h).forget fun p r hget => by cases hget

theorem Counts.register (h : Counts s adds n) (hbound : adds + 2 < UInt64.size) (launch : Launch) :
    Counts { s with
        processes := s.processes.insert process { incarnation := s.nextIncarnation, launch }
        nextIncarnation := s.nextIncarnation + 1 } (adds + 1)
      fun p => if process = p then 0 else n p := by
  have hnext := h.next
  refine ⟨?_, fun p r hget => ?_, fun c hc => Nat.le_succ_of_le (h.children c hc)⟩
  · rw [UInt64.toNat_add, hnext]
    exact Nat.mod_eq_of_lt hbound
  · simp only [OrderedMap.get?_insert] at hget
    by_cases hp : process = p
    · rw [if_pos hp] at hget
      obtain rfl := Option.some.inj hget
      refine ⟨Nat.le_of_eq hnext, ?_⟩
      -- The incarnation is above those of all children.
      rw [if_pos hp, childCount, List.countP_eq_zero]
      intro c hc hsame
      have hle := h.children c hc
      simp only [Bool.and_eq_true, decide_eq_true_eq] at hsame
      rw [hsame.2, hnext] at hle
      omega
    · rw [if_neg hp] at hget
      rw [if_neg hp]
      exact ⟨Nat.le_succ_of_le (h.registered p r hget).1, (h.registered p r hget).2⟩

/-- An effect leaves as many children as its notices tell of. -/
theorem Counts.effect (h : Counts s adds n) {c : Command} {s' : ChildSupervisor} {a : c.Answer}
    {notices : List Notice} (heffect : Effect s c s' a notices)
    (hbound : adds + notices.countP Works.isAdded + 1 < UInt64.size) :
    Counts s' (adds + notices.countP Works.isAdded)
      fun p => notices.foldl (Works.tally p) (n p) := by
  cases heffect with
  | added => exact h.register hbound _
  | launched hget => exact h.spawn hget
  | booted running hget => exact h.setRunning hget _
  | stopped => exact h.stop _
  | removed => exact h.remove _
  | shutDown => exact h.shutdown
  | refused | unmoved | absent | listed => exact h

theorem Counts.childEnds (h : Counts s adds n) (i : Nat) : Counts (s.childEnds i) adds n := by
  apply h.updateChild i
  intro c
  split <;> exact ⟨rfl, rfl⟩

theorem Counts.reportExit (h : Counts s adds n) (i : Nat) (uptime : Duration) :
    Counts (s.reportExit i uptime).1 adds n := by
  rcases s.reportExit_cases i uptime with hsame | ⟨c, hreported⟩
  · rw [hsame]
    exact h
  · rw [hreported]
    exact h.updateChild i (f := fun c => { c with stage := .reported }) fun c => ⟨rfl, rfl⟩

theorem Counts.clearProcess (h : Counts s adds n) (i : Nat) : Counts (s.clearProcess i) adds n := by
  have hupdate := h.updateChild i (f := fun c => { c with stage := .cleared }) fun c => ⟨rfl, rfl⟩
  rcases s.clearProcess_cases i with hsame | ⟨c, cleared, -, rfl, hkept | ⟨r, hget, -, hcleared⟩⟩
  · rw [hsame]
    exact h
  · rw [hkept]
    exact hupdate
  · rw [hcleared]
    exact hupdate.setRunning hget none

end ChildSupervisor

namespace Works

variable {w w' : Works}

abbrev Counts (w : Works) : Prop := w.supervisor.Counts w.adds w.launches

theorem Counts.moves (h : w.Counts) (hmove : Moves w w') : w'.Counts := by
  unfold Counts
  rw [adds_moves hmove, funext (launches_moves hmove)]
  cases hmove with
  | ends i => exact h.childEnds i
  | clears i => exact h.clearProcess i
  | reports i uptime => exact h.reportExit i uptime
  | misses count => exact h

theorem Counts.obeys (h : w.adds + 1 < UInt64.size → w.Counts) {c : Command} {a : c.Answer}
    (hobeys : surroundings.obeys w c w' a) (hbound : w'.adds + 1 < UInt64.size) : w'.Counts := by
  obtain ⟨s, notices, heffect, rfl⟩ := exists_effect hobeys
  rw [adds_publish] at hbound
  unfold Counts
  rw [adds_publish, funext (launches_publish w _ _)]
  exact (h (by omega)).effect heffect hbound

end Works

end HostSteward
