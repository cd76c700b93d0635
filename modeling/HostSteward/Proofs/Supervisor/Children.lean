import HostSteward.Proofs.Steward.Registrations
import HostSteward.Proofs.Supervisor.Effects

/-!
# Child processes as surroundings

A supervisor whose servers are children of the host answers commands as any supervisor may, and
what becomes of a child in between changes no registration. So its registrations agree with the
steward's roster, and it never refuses a registration because the process is registered already.
-/

namespace HostSteward

namespace ChildSupervisor

/-- What a child and its watcher may do at any time. -/
inductive Moves (s : ChildSupervisor) : ChildSupervisor → Prop
  | ends (i : Nat) : Moves s (s.childEnds i)
  | clears (i : Nat) : Moves s (s.clearProcess i)
  | reports (i : Nat) (uptime : Duration) : Moves s (s.reportExit i uptime).1

def surroundings : Surroundings ChildSupervisor where
  obeys s c s' a := ∃ attempt notices, s.obey attempt c = (s', a, notices)
  moves := Moves
  calls _ s _ s' := s' = s

def registered (s : ChildSupervisor) : Registrations := fun p =>
  (s.processes.get? p).map (·.incarnation)

variable {s : ChildSupervisor} {process : String} {r : Registration}

theorem registered_setRunning (hr : s.processes.get? process = some r) (running : Option Running) :
    (s.setRunning process r running).registered = s.registered := by
  funext p
  unfold registered setRunning
  rw [OrderedMap.get?_insert]
  by_cases hp : process = p
  · subst hp
    simp [hr]
  · simp [hp]

/-- Every command is carried out as any supervisor may do it. -/
theorem Effect.registered {c : Command} {s' : ChildSupervisor} {a : c.Answer}
    {notices : List Notice} (h : Effect s c s' a notices) :
    s'.registered = s.registered.after c a := by
  cases h with
  | added hnew =>
    funext p
    simp only [ChildSupervisor.registered, Registrations.after, Registrations.put]
    rw [OrderedMap.get?_insert]
    split <;> rfl
  | launched hget =>
    unfold spawn
    exact registered_setRunning (s := { s with children := _ }) hget _
  | booted running hget => exact registered_setRunning hget _
  | @stopped process =>
    unfold ChildSupervisor.registered
    rw [processes_stop]
    rfl
  | removed =>
    funext p
    simp only [ChildSupervisor.registered, Registrations.after, Registrations.put]
    rw [OrderedMap.get?_erase]
    split <;> rfl
  | @absent process hnone =>
    funext p
    simp only [ChildSupervisor.registered, Registrations.after, Registrations.put]
    by_cases hp : process = p
    · subst hp
      rw [if_pos rfl, hnone]
      rfl
    · rw [if_neg hp]
  | refused | unmoved | listed | shutDown => rfl

theorem registered_moves {s s' : ChildSupervisor} (h : Moves s s') :
    s'.registered = s.registered := by
  cases h with
  | ends i => rfl
  | reports i uptime =>
    rcases reportExit_cases s i uptime with hsame | ⟨c, hreported⟩
    · rw [hsame]
    · rw [hreported]
      rfl
  | clears i =>
    rcases clearProcess_cases s i with hsame | ⟨c, cleared, -, rfl, hkept | ⟨r, hget, -, hcleared⟩⟩
    · rw [hsame]
    · rw [hkept]
      rfl
    · rw [hcleared]
      exact registered_setRunning (s := s.updateChild i _) hget none

theorem seenAs_registrar : surroundings.SeenAs Registrations.registrar registered where
  obeys := by
    rintro s c s' a ⟨attempt, notices, h⟩
    have heffect := effect_obey attempt s c
    rw [h] at heffect
    exact heffect.registered
  moves h := by
    rw [registered_moves h]

end ChildSupervisor

/-- Between any two operations every registered process is tracked with the incarnation of its
registration, and no process is asked to be added that is registered. This is so with a supervisor
that may fail at any command and register under any incarnations, and with one that runs children,
which therefore never refuses a registration because of an earlier one. -/
theorem registrations_agree (settings : Settings) (model : Option HostModel) (inDomain : Bool) :
    (∀ s : System Registrations,
      System.Reaches Registrations.registrar
        ⟨.make settings model inDomain, fun _ => none, none, []⟩ s →
      (s.active = none → ∀ p i, s.around p = some i →
        ∃ server, s.host.roster.get? p = some server ∧ server.incarnation = some i) ∧
      ∀ o host p launch resume,
        s.active = some (o, .ask host (.command (.add p launch)) resume) →
        s.around p = none) ∧
    ∀ (s₀ : ChildSupervisor) (s : System ChildSupervisor), s₀.processes = .empty →
      System.Reaches ChildSupervisor.surroundings ⟨.make settings model inDomain, s₀, none, []⟩ s →
      (s.active = none → ∀ p r, s.around.processes.get? p = some r →
        ∃ server, s.host.roster.get? p = some server ∧ server.incarnation = some r.incarnation) ∧
      ∀ o host p launch resume,
        s.active = some (o, .ask host (.command (.add p launch)) resume) →
        ∀ attempt, (s.around.obey attempt (.add p launch)).2.1 ≠ .error (.alreadyRegistered p) := by
  refine ⟨fun s h => ?_, fun s₀ s hempty h => ?_⟩
  · have hself : Registrations.registrar.SeenAs Registrations.registrar id :=
      ⟨fun h => h, fun h => .single h⟩
    have horder := h.agrees hself (fun h => h) fun _ => rfl
    obtain ⟨host, r, active, sleepers⟩ := s
    refine ⟨?_, ?_⟩
    · rintro rfl p i hp
      exact horder.active.tracked hp
    · rintro o host' p launch resume rfl
      exact horder.handsOut
  · have hnone (p : String) : s₀.registered p = none := by
      unfold ChildSupervisor.registered
      rw [hempty]
      rfl
    have horder := h.agrees ChildSupervisor.seenAs_registrar
      (fun {_ s _ s'} (h : s' = s) => by rw [h]) hnone
    obtain ⟨host, c, active, sleepers⟩ := s
    refine ⟨?_, ?_⟩
    · rintro rfl p r hp
      refine horder.active.tracked (p := p) (i := r.incarnation) ?_
      exact Option.map_eq_some_iff.2 ⟨r, hp, rfl⟩
    · rintro o host' p launch resume rfl attempt
      have howes : c.registered p = none := horder.handsOut
      have hnew := ChildSupervisor.contains_eq_false_iff.2 (Option.map_eq_none_iff.1 howes)
      simp [ChildSupervisor.obey, ChildSupervisor.add, hnew]

/-- A server that an operator started is registered and tracked while it is waited for. -/
theorem registrations_agree_startServer :
    ∃ s : System Registrations,
      System.Reaches Registrations.registrar
        ⟨.make {} (some (.single "a" [])) false, fun _ => none, none, []⟩ s ∧
      s.active = none ∧ s.around "Server:a" = some 7 ∧
      ∃ server, s.host.roster.get? "Server:a" = some server ∧ server.incarnation = some 7 := by
  have hcall : System.Reaches Registrations.registrar
      ⟨.make {} (some (.single "a" [])) false, fun _ => none, none, []⟩ _ :=
    .single (.call (o := .startServer "a") rfl)
  have hadd := hcall.tail (.command (c := .add "Server:a" {}) (a := .ok 7) rfl)
  have hstart := hadd.tail (.command (c := .start "Server:a") (a := .ok ()) rfl)
  have hwait := hstart.tail .sleep
  obtain ⟨hbooks, -⟩ := registrations_agree {} (some (.single "a" [])) false
  exact ⟨_, hwait, rfl, by decide, (hbooks _ hwait).1 rfl "Server:a" 7 (by decide)⟩

end HostSteward
