import HostSteward.Proofs.Supervisor.Children

/-!
# A supervisor of children at work

The children of a supervisor end when they like, their watchers see it later, and the notices are
taken one by one by the steward. How often a process was launched since it was registered, and how
many processes were registered, is told by the notices that the supervisor published.
-/

namespace HostSteward

/-- A supervisor with the notices that it published, of which the steward took as many as it says
or missed them. -/
structure Works where
  supervisor : ChildSupervisor := {}
  published : List Notice := []
  taken : Nat := 0

def Child.Gone (c : Child) : Prop := c.stage = .cleared ∨ c.stage = .reported

namespace Works

/-- What a notice says about the number of launches since a process was registered. -/
def tally (process : String) (n : Nat) : Notice → Nat
  | .processAdded p => if p = process then 0 else n
  | .processStarted p => if p = process then n + 1 else n
  | _ => n

def isAdded : Notice → Bool
  | .processAdded _ => true
  | _ => false

def launches (w : Works) (process : String) : Nat := w.published.foldl (tally process) 0

def publish (w : Works) (s : ChildSupervisor) (notices : List Notice) : Works :=
  { w with supervisor := s, published := w.published ++ notices }

/-- What may happen of itself: children end, their watchers do their work, and notices are missed. -/
inductive Moves (w : Works) : Works → Prop
  | ends (i : Nat) : Moves w (w.publish (w.supervisor.childEnds i) [])
  | clears (i : Nat) : Moves w (w.publish (w.supervisor.clearProcess i) [])
  | reports (i : Nat) (uptime : Duration) :
      Moves w (w.publish (w.supervisor.reportExit i uptime).1 (w.supervisor.reportExit i uptime).2)
  | misses (count : Nat) : Moves w { w with taken := w.taken + count }

/-- The notices come in the order in which they were published, and only restarts that were put on
the list are carried out. -/
def surroundings : Surroundings Works where
  obeys w c w' a := ∃ attempt, a = (w.supervisor.obey attempt c).2.1 ∧
    w' = w.publish (w.supervisor.obey attempt c).1 (w.supervisor.obey attempt c).2.2
  moves := Moves
  calls host w o w' :=
    match o with
    | .notice n => w.published[w.taken]? = some n ∧ w' = { w with taken := w.taken + 1 }
    | .restart r => r ∈ host.restarts ∧ w' = w
    | _ => w' = w

variable {w w' : Works} {p q : String}

theorem launches_publish (w : Works) (s : ChildSupervisor) (notices : List Notice) (p : String) :
    (w.publish s notices).launches p = notices.foldl (tally p) (w.launches p) :=
  List.foldl_append

theorem launches_moves (h : Moves w w') (p : String) : w'.launches p = w.launches p := by
  cases h with
  | ends i => exact launches_publish ..
  | clears i => exact launches_publish ..
  | misses count => rfl
  | reports i uptime =>
    rw [launches_publish]
    rcases w.supervisor.reportExit_cases i uptime with hsame | ⟨c, hreported⟩
    · rw [hsame]
      rfl
    · rw [hreported]
      rfl

def IsOwn : Notice → Prop
  | .processAdded _ | .processStarted _ | .processStopped _ _ _ | .processRemoved _ => True
  | .inventory _ | .serverAvailable _ | .serverStarted _ | .connectionFinished => True
  | _ => False

def adds (w : Works) : Nat := w.published.countP isAdded

theorem adds_publish (w : Works) (s : ChildSupervisor) (notices : List Notice) :
    (w.publish s notices).adds = w.adds + notices.countP isAdded := List.countP_append

theorem adds_moves (h : Moves w w') : w'.adds = w.adds := by
  cases h with
  | ends i => exact adds_publish ..
  | clears i => exact adds_publish ..
  | misses count => rfl
  | reports i uptime =>
    rw [adds_publish]
    rcases w.supervisor.reportExit_cases i uptime with hsame | ⟨c, hreported⟩
    · rw [hsame]
      rfl
    · rw [hreported]
      rfl

/-- A command that is carried out has one of the effects on the supervisor. -/
theorem exists_effect {c : Command} {a : c.Answer} (h : surroundings.obeys w c w' a) :
    ∃ s notices, w.supervisor.Effect c s a notices ∧ w' = w.publish s notices := by
  obtain ⟨attempt, rfl, hw⟩ := h
  exact ⟨_, _, ChildSupervisor.effect_obey attempt w.supervisor c, hw⟩

end Works

namespace ChildSupervisor.Effect

variable {s s' : ChildSupervisor} {c : Command} {a : c.Answer} {notices : List Notice}

theorem own (h : Effect s c s' a notices) : ∀ notice ∈ notices, Works.IsOwn notice := by
  cases h <;> simp [Works.IsOwn]

/-- Only a start command counts as a launch, and only if the process has no child. -/
theorem tally_le (h : Effect s c s' a notices) (process : String) (k : Nat) :
    notices.foldl (Works.tally process) k ≤ k ∨
      c = .start process ∧ notices.foldl (Works.tally process) k = k + 1 ∧
        ∃ r, s.processes.get? process = some r ∧ r.running = none := by
  cases h with
  | @added p =>
    refine Or.inl ?_
    by_cases hp : p = process <;> simp [Works.tally, hp]
  | @launched p r hget hnone =>
    by_cases hp : p = process
    · subst hp
      exact Or.inr ⟨rfl, by simp [Works.tally], r, hget, hnone⟩
    · exact Or.inl (by simp [Works.tally, hp])
  | _ => exact Or.inl (Nat.le_refl k)

end ChildSupervisor.Effect

namespace Works

variable {w w' : Works}

theorem launches_added {p : String} {launch : Launch} {i : Incarnation}
    (h : surroundings.obeys w (.add p launch) w' (.ok i)) : w'.launches p = 0 := by
  obtain ⟨s, notices, heffect, rfl⟩ := exists_effect h
  rw [launches_publish]
  cases heffect
  simp [tally]

end Works

end HostSteward
