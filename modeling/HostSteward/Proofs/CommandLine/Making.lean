import HostSteward.CommandLine.Response
import HostSteward.Proofs.Settings.Checks

/-!
# When a steward can be made

There are two ways to a steward. One checks the settings and then makes a bus of the configured
capacity, the other makes the bus before anything is checked. A check asks only that the
capacity is not zero, and there are capacities above zero of which there is no bus.
-/

namespace HostSteward

namespace Bus

def Feasible (capacity : UInt64) : Prop := capacity ≠ 0 ∧ capacity.toNat ≤ largestSize

instance (capacity : UInt64) : Decidable (Feasible capacity) := instDecidableAnd

def HasRoom (memory : Nat) (capacity : UInt64) : Prop :=
  slotSize * roundedUp capacity.toNat ≤ memory

variable {κ : Type} [LT κ] {memory : Nat} {capacity : UInt64}

theorem not_feasible_iff : ¬ Feasible capacity ↔ capacity = 0 ∨ largestSize < capacity.toNat := by
  rw [Feasible, not_and_or, not_not, Nat.not_le]

theorem make_of_not_feasible (h : ¬ Feasible capacity) :
    make κ memory capacity = .error .capacity := by
  simp only [make, ofCapacity?, if_pos (not_feasible_iff.1 h)]

theorem make_of_feasible (h : Feasible capacity) : make κ memory capacity =
    if memory < slotSize * roundedUp capacity.toNat then .error .memory
    else .ok { size := roundedUp capacity.toNat } := by
  simp only [make, ofCapacity?, if_neg (mt not_feasible_iff.2 (not_not.2 h))]

theorem make_of_not_hasRoom (h : Feasible capacity) (hroom : ¬ HasRoom memory capacity) :
    make κ memory capacity = .error .memory := by
  rw [make_of_feasible h, if_pos (Nat.not_le.1 hroom)]

theorem make_of_hasRoom (h : Feasible capacity) (hroom : HasRoom memory capacity) :
    make κ memory capacity = .ok { size := roundedUp capacity.toNat } := by
  rw [make_of_feasible h, if_neg (Nat.not_lt.2 hroom)]

end Bus

namespace Settings

theorem busCapacity_ne_zero {s : Settings} (h : s.problem? = none) :
    s.system.busCapacity ≠ 0 :=
  UInt64.pos_iff_ne_zero.1 (problem?_eq_none_iff.1 h).busCapacity

/-- Of settings without a problem only the capacities that are too large have no bus. -/
theorem feasible_iff {s : Settings} (h : s.problem? = none) :
    Bus.Feasible s.system.busCapacity ↔ ¬ Bus.largestSize < s.system.busCapacity.toNat :=
  ⟨fun hfeasible => Nat.not_lt.2 hfeasible.2,
    fun hsmall => ⟨busCapacity_ne_zero h, Nat.not_lt.1 hsmall⟩⟩

end Settings

namespace Steward

variable {settings : Settings} (memory : Nat) (model : Option HostModel) (inDomain : Bool)

theorem construct_of_problem {problem : SettingsProblem} (h : settings.problem? = some problem)
    (bus : Option (Bus Nat)) :
    construct memory { settings, model, inDomain, bus } = .refused (.settings problem) := by
  simp only [construct, h]

/-- A bus that is given is the one that is used. -/
theorem construct_of_bus (h : settings.problem? = none) (bus : Bus Nat) :
    construct memory { settings, model, inDomain, bus := some bus } =
      .made (make settings model inDomain) bus := by
  simp [construct, h]

/-- What a construction without a bus comes to: the checks come first, and what they let pass
fails for the largest capacities, or for want of memory. -/
structure Construction.Follows (c : Construction) (memory : Nat) (settings : Settings)
    (host : Steward) : Prop where
  refused : ∀ cause, c = .refused cause ↔
    ∃ problem, settings.problem? = some problem ∧ cause = .settings problem
  made : ∀ made bus, c = .made made bus ↔
    settings.problem? = none ∧ settings.system.busCapacity.toNat ≤ Bus.largestSize ∧
      Bus.HasRoom memory settings.system.busCapacity ∧
      made = host ∧ bus = { size := Bus.roundedUp settings.system.busCapacity.toNat }
  noBus : c = .noBus .capacity ↔
    settings.problem? = none ∧ Bus.largestSize < settings.system.busCapacity.toNat
  outOfMemory : c = .noBus .memory ↔
    settings.problem? = none ∧ settings.system.busCapacity.toNat ≤ Bus.largestSize ∧
      ¬ Bus.HasRoom memory settings.system.busCapacity

theorem construct_follows (settings : Settings) :
    (construct memory { settings, model, inDomain }).Follows memory settings
      (make settings model inDomain) := by
  rcases hproblem : settings.problem? with _ | problem
  · have hfeasible := Settings.feasible_iff hproblem
    by_cases hlarge : Bus.largestSize < settings.system.busCapacity.toNat
    · have hmake : Bus.make Nat memory settings.system.busCapacity = .error .capacity :=
        Bus.make_of_not_feasible (hfeasible.1 · hlarge)
      constructor <;> simp [construct, hproblem, hmake, hlarge, Nat.not_le.2 hlarge]
    · by_cases hroom : Bus.HasRoom memory settings.system.busCapacity
      · have hmake := Bus.make_of_hasRoom (κ := Nat) (hfeasible.2 hlarge) hroom
        constructor <;>
          simp [construct, hproblem, hmake, hroom, hlarge, Nat.not_lt.1 hlarge, eq_comm]
      · have hmake := Bus.make_of_not_hasRoom (κ := Nat) (hfeasible.2 hlarge) hroom
        constructor <;> simp [construct, hproblem, hmake, hroom, hlarge, Nat.not_lt.1 hlarge]
  · rw [construct_of_problem memory model inDomain hproblem none]
    constructor <;> simp [hproblem, eq_comm]

end Steward

namespace CommandLine

variable {memory : Nat} {settings : Settings}

theorem makeSteward_of_shortage {shortage : Bus.Shortage}
    (h : Bus.make Nat memory settings.system.busCapacity = .error shortage) :
    makeSteward memory settings = .error (lacking shortage) := by
  rw [makeSteward, h]
  rfl

theorem makeSteward_of_problem {bus : Bus Nat}
    (hbus : Bus.make Nat memory settings.system.busCapacity = .ok bus)
    {problem : SettingsProblem} (h : settings.problem? = some problem) :
    makeSteward memory settings =
      .error (.failure ("Error: " ++ (Failure.settings problem).message ++ "\n")) := by
  simp only [makeSteward, hbus, Except.mapError, bind, Except.bind,
    Steward.construct_of_problem memory none false h]
  rfl

theorem makeSteward_of_bus {bus : Bus Nat}
    (hbus : Bus.make Nat memory settings.system.busCapacity = .ok bus)
    (h : settings.problem? = none) :
    makeSteward memory settings = .ok (.make settings none false) := by
  simp only [makeSteward, hbus, Except.mapError, bind, Except.bind,
    Steward.construct_of_bus memory none false h]
  rfl

/-- What the command comes to before its servers run: the bus comes first, and the checks say
something only where there is one. -/
structure Follows (r : Except Response Steward) (memory : Nat) (settings : Settings)
    (host : Steward) : Prop where
  crash : (∃ reason, r = .error (.crash reason)) ↔
    settings.system.busCapacity = 0 ∨ Bus.largestSize < settings.system.busCapacity.toNat
  outOfMemory : r = .error .outOfMemory ↔
    Bus.Feasible settings.system.busCapacity ∧
      ¬ Bus.HasRoom memory settings.system.busCapacity
  failure : ∀ text, r = .error (.failure text) ↔
    (Bus.Feasible settings.system.busCapacity ∧
      Bus.HasRoom memory settings.system.busCapacity) ∧
      ∃ problem, settings.problem? = some problem ∧
        text = "Error: " ++ (Failure.settings problem).message ++ "\n"
  ok : ∀ made, r = .ok made ↔
    (Bus.Feasible settings.system.busCapacity ∧
      Bus.HasRoom memory settings.system.busCapacity) ∧
      settings.problem? = none ∧ made = host

theorem makeSteward_follows (memory : Nat) (settings : Settings) :
    Follows (makeSteward memory settings) memory settings (.make settings none false) := by
  by_cases hbus : Bus.Feasible settings.system.busCapacity
  · have hcapacity := mt Bus.not_feasible_iff.2 (not_not.2 hbus)
    by_cases hroom : Bus.HasRoom memory settings.system.busCapacity
    · have hmake := Bus.make_of_hasRoom (κ := Nat) hbus hroom
      rcases hproblem : settings.problem? with _ | problem
      · rw [makeSteward_of_bus hmake hproblem]
        constructor <;> simp [hbus, hroom, hcapacity, hproblem, eq_comm]
      · rw [makeSteward_of_problem hmake hproblem]
        constructor <;> simp [hbus, hroom, hcapacity, hproblem, eq_comm, Response.crash,
          Response.failure, Response.outOfMemory]
    · rw [makeSteward_of_shortage (Bus.make_of_not_hasRoom hbus hroom)]
      constructor <;> simp [hbus, hroom, hcapacity, lacking, Response.crash, Response.failure,
        Response.outOfMemory]
  · rw [makeSteward_of_shortage (Bus.make_of_not_feasible hbus)]
    constructor
    case crash => exact iff_of_true ⟨_, rfl⟩ (Bus.not_feasible_iff.1 hbus)
    all_goals simp [hbus, lacking, Response.crash, Response.failure, Response.outOfMemory]

end CommandLine

/-- On a machine with any memory, a steward without a bus of its own is refused exactly where a
check fails, and otherwise made unless the bus is too large for any memory or for this one. The
command ends in a crash, whatever the checks say, exactly where there is no bus of the configured
capacity; elsewhere, if memory allows, the checks decide. -/
theorem construction_exact (memory : Nat) (settings : Settings) (model : Option HostModel)
    (inDomain : Bool) :
    (Steward.construct memory { settings, model, inDomain }).Follows memory settings
        (.make settings model inDomain) ∧
      CommandLine.Follows (CommandLine.makeSteward memory settings) memory settings
        (.make settings none false) :=
  ⟨Steward.construct_follows memory model inDomain settings,
    CommandLine.makeSteward_follows memory settings⟩

example :
    let settings : Settings := { system := { busCapacity := 0x8000000000000000 } }
    settings.problem? = none ∧ ¬ Bus.Feasible settings.system.busCapacity := by decide

end HostSteward
