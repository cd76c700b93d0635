import HostSteward.Settings.Validation
import Mathlib.Data.List.DropRight
import Mathlib.Tactic.Common

/-!
# What the checks of settings come to

Settings are checked for one thing after another: first the host and the numbers, then every server
in turn, each against the servers before it. The problem of settings is that of the first check that
is not met, and settings without a problem are exactly the well-formed ones.
-/

namespace HostSteward

namespace Text

def trim (s : String) : String :=
  String.ofList ((s.toList.dropWhile isBlankChar).rdropWhile isBlankChar)

theorem trim_eq_empty_iff (s : String) : trim s = "" ↔ isBlank s = true := by
  rw [trim, isBlank, ← String.toList_inj, String.toList_ofList, String.toList_empty,
    List.rdropWhile_eq_nil_iff, List.all_eq_true]
  constructor
  · intro hrest
    rw [← List.dropWhile_eq_nil_iff]
    -- Otherwise what is left begins with a character that is not white space.
    by_contra hleft
    have hhead := List.head_dropWhile_not isBlankChar hleft
    rw [hrest _ (List.head_mem hleft)] at hhead
    cases hhead
  · intro hall c hc
    exact hall c ((List.dropWhile_suffix _).subset hc)

theorem isBlank_iff (s : String) : isBlank s = true ↔ ¬ trim s ≠ "" :=
  (trim_eq_empty_iff s).symm.trans not_not.symm

end Text

structure Check where
  Asked : Prop
  problem : SettingsProblem

namespace Check

def AllMet (checks : List Check) : Prop := ∀ c ∈ checks, c.Asked

inductive FirstUnmet : List Check → SettingsProblem → Prop
  | here {c : Check} {rest : List Check} (h : ¬ c.Asked) : FirstUnmet (c :: rest) c.problem
  | later {c : Check} {rest : List Check} {p : SettingsProblem} (h : c.Asked)
      (hrest : FirstUnmet rest p) : FirstUnmet (c :: rest) p

variable {c : Check} {checks others : List Check} {p : SettingsProblem}

theorem allMet_cons : AllMet (c :: checks) ↔ c.Asked ∧ AllMet checks := List.forall_mem_cons

theorem allMet_append : AllMet (checks ++ others) ↔ AllMet checks ∧ AllMet others :=
  List.forall_mem_append

theorem firstUnmet_cons : FirstUnmet (c :: checks) p ↔
    ¬ c.Asked ∧ c.problem = p ∨ c.Asked ∧ FirstUnmet checks p := by
  constructor
  · rintro (h | ⟨h, hrest⟩)
    · exact Or.inl ⟨h, rfl⟩
    · exact Or.inr ⟨h, hrest⟩
  · rintro (⟨h, rfl⟩ | ⟨h, hrest⟩)
    · exact .here h
    · exact .later h hrest

theorem firstUnmet_append : FirstUnmet (checks ++ others) p ↔
    FirstUnmet checks p ∨ AllMet checks ∧ FirstUnmet others p := by
  induction checks with
  | nil => exact ⟨fun h => Or.inr ⟨nofun, h⟩, fun h => (h.resolve_left nofun).2⟩
  | cons c checks ih =>
    rw [List.cons_append, firstUnmet_cons, firstUnmet_cons, ih, allMet_cons]
    tauto

structure Decides (checks : List Check) (found : Option SettingsProblem) : Prop where
  none_iff : found = none ↔ AllMet checks
  some_iff : ∀ p, found = some p ↔ FirstUnmet checks p

theorem decides_nil : Decides [] none := ⟨iff_of_true rfl nofun, fun _ => iff_of_false nofun nofun⟩

/-- One check comes before others. -/
theorem Decides.cons {found : Option SettingsProblem} {wrong : Prop} [Decidable wrong]
    (hwrong : wrong ↔ ¬ c.Asked) (h : Decides checks found) :
    Decides (c :: checks) (if wrong then some c.problem else found) := by
  by_cases hasked : c.Asked
  · rw [if_neg fun hw => hwrong.1 hw hasked]
    refine ⟨?_, fun p => ?_⟩
    · rw [h.none_iff, allMet_cons, and_iff_right hasked]
    · rw [h.some_iff, firstUnmet_cons]
      simp [hasked]
  · rw [if_pos (hwrong.2 hasked)]
    refine ⟨?_, fun p => ?_⟩
    · simp [allMet_cons, hasked]
    · simp [firstUnmet_cons, hasked]

end Check

namespace ServerSpec

variable {seen : List String} {earlier specs : List ServerSpec} {p : SettingsProblem}

def checks (earlier : List ServerSpec) (s : ServerSpec) : List Check :=
  [⟨Text.trim s.name ≠ "", .blankServerName⟩,
    ⟨Text.trim s.group ≠ "", .serverWithoutGroup s.name⟩,
    ⟨∀ t ∈ earlier, t.name ≠ s.name, .serverRepeated s.name⟩]

def allChecks (earlier : List ServerSpec) : List ServerSpec → List Check
  | [] => []
  | s :: rest => s.checks earlier ++ allChecks (earlier ++ [s]) rest

theorem decides_problem? (hseen : ∀ name, name ∈ seen ↔ ∃ t ∈ earlier, t.name = name) :
    Check.Decides (allChecks earlier specs) (problem? seen specs) := by
  induction specs generalizing seen earlier with
  | nil => exact Check.decides_nil
  | cons s rest ih =>
    have hrepeated : s.name ∈ seen ↔ ¬ ∀ t ∈ earlier, t.name ≠ s.name := by
      simp [hseen]
    have hrest : ∀ name, name ∈ s.name :: seen ↔ ∃ t ∈ earlier ++ [s], t.name = name := by
      intro name
      simp only [List.mem_cons, hseen, List.mem_append, List.not_mem_nil, or_false]
      grind
    exact .cons (Text.isBlank_iff _) (.cons (Text.isBlank_iff _) (.cons hrepeated (ih hrest)))

/-- All servers meet their checks if their names and groups are not blank and every name is that of
one server only. -/
theorem allMet_allChecks : Check.AllMet (allChecks earlier specs) ↔
    (∀ s ∈ specs, Text.trim s.name ≠ "") ∧ (∀ s ∈ specs, Text.trim s.group ≠ "") ∧
      (∀ t ∈ earlier, ∀ s ∈ specs, t.name ≠ s.name) ∧
      specs.Pairwise fun s t => s.name ≠ t.name := by
  induction specs generalizing earlier with
  | nil => simp [allChecks, Check.AllMet]
  | cons s rest ih =>
    rw [allChecks, Check.allMet_append, ih]
    simp only [checks, Check.AllMet, List.forall_mem_cons, List.forall_mem_append,
      List.pairwise_cons]
    grind

/-- The server at a position is the first one that does not meet all its checks, and the first of
these that it does not meet has the problem. -/
def FirstAt (earlier specs : List ServerSpec) (p : SettingsProblem) (i : Nat) : Prop :=
  ∃ s, specs[i]? = some s ∧ Check.FirstUnmet (s.checks (earlier ++ specs.take i)) p ∧
    ∀ j < i, ∀ t, specs[j]? = some t → Check.AllMet (t.checks (earlier ++ specs.take j))

theorem firstAt_zero (s : ServerSpec) (rest : List ServerSpec) :
    FirstAt earlier (s :: rest) p 0 ↔ Check.FirstUnmet (s.checks earlier) p := by
  simp [FirstAt]

theorem firstAt_succ (s : ServerSpec) (rest : List ServerSpec) (i : Nat) :
    FirstAt earlier (s :: rest) p (i + 1) ↔
      Check.AllMet (s.checks earlier) ∧ FirstAt (earlier ++ [s]) rest p i := by
  simp only [FirstAt, List.getElem?_cons_succ, List.take_succ_cons, List.append_assoc,
    List.singleton_append]
  constructor
  · rintro ⟨t, ht, hfirst, hmet⟩
    refine ⟨by simpa using hmet 0 i.succ_pos s rfl, t, ht, hfirst, fun j hj u hu => ?_⟩
    simpa using hmet (j + 1) (Nat.succ_lt_succ hj) u hu
  · rintro ⟨hs, t, ht, hfirst, hmet⟩
    refine ⟨t, ht, hfirst, fun j hj u hu => ?_⟩
    cases j with
    | zero =>
      obtain rfl : s = u := Option.some.inj hu
      simpa using hs
    | succ j => simpa using hmet j (Nat.lt_of_succ_lt_succ hj) u hu

theorem firstUnmet_allChecks :
    Check.FirstUnmet (allChecks earlier specs) p ↔ ∃ i, FirstAt earlier specs p i := by
  induction specs generalizing earlier with
  | nil => exact iff_of_false nofun fun ⟨_, _, hget, _⟩ => nomatch hget
  | cons s rest ih =>
    have hsplit := Nat.or_exists_add_one (p := FirstAt earlier (s :: rest) p)
    rw [allChecks, Check.firstUnmet_append, ih, ← hsplit, firstAt_zero]
    simp only [firstAt_succ, exists_and_left]

end ServerSpec

namespace Settings

def ownChecks (s : Settings) : List Check :=
  [⟨Text.trim s.host.name ≠ "", .blankHostName⟩,
    ⟨0 < s.lifecycle.startPollAttempts, .noStartPolls⟩,
    ⟨s.lifecycle.restartBaseDelay ≤ s.lifecycle.restartMaxDelay, .baseDelayAboveMaximum⟩,
    ⟨0 < s.system.busCapacity, .noBusCapacity⟩]

structure WellFormed (s : Settings) : Prop where
  hostName : Text.trim s.host.name ≠ ""
  startPolls : 0 < s.lifecycle.startPollAttempts
  busCapacity : 0 < s.system.busCapacity
  delays : s.lifecycle.restartBaseDelay ≤ s.lifecycle.restartMaxDelay
  serverNames : ∀ spec ∈ s.servers, Text.trim spec.name ≠ ""
  serverGroups : ∀ spec ∈ s.servers, Text.trim spec.group ≠ ""
  distinct : s.servers.Pairwise fun a b => a.name ≠ b.name

theorem decides_problem? (s : Settings) :
    Check.Decides (s.ownChecks ++ ServerSpec.allChecks [] s.servers) s.problem? := by
  have hpolls : s.lifecycle.startPollAttempts = 0 ↔ ¬ 0 < s.lifecycle.startPollAttempts := by
    rw [UInt32.pos_iff_ne_zero, not_not]
  have hcapacity : s.system.busCapacity = 0 ↔ ¬ 0 < s.system.busCapacity := by
    rw [UInt64.pos_iff_ne_zero, not_not]
  have hservers : Check.Decides (ServerSpec.allChecks [] s.servers)
      (ServerSpec.problem? [] s.servers) := ServerSpec.decides_problem? (by simp)
  exact .cons (Text.isBlank_iff _) (.cons hpolls (.cons UInt64.not_le.symm
    (.cons hcapacity hservers)))

theorem allMet_iff (s : Settings) :
    Check.AllMet (s.ownChecks ++ ServerSpec.allChecks [] s.servers) ↔ s.WellFormed := by
  rw [Check.allMet_append, ServerSpec.allMet_allChecks]
  simp only [ownChecks, Check.AllMet, List.forall_mem_cons, List.not_mem_nil]
  constructor
  · rintro ⟨⟨hname, hpolls, hdelays, hcapacity, -⟩, hnames, hgroups, -, hdistinct⟩
    exact ⟨hname, hpolls, hcapacity, hdelays, hnames, hgroups, hdistinct⟩
  · rintro ⟨hname, hpolls, hcapacity, hdelays, hnames, hgroups, hdistinct⟩
    exact ⟨⟨hname, hpolls, hdelays, hcapacity, nofun⟩, hnames, hgroups, nofun, hdistinct⟩

theorem problem?_eq_none_iff {s : Settings} : s.problem? = none ↔ s.WellFormed :=
  s.decides_problem?.none_iff.trans s.allMet_iff

theorem WellFormed.nodup_names {s : Settings} (h : s.WellFormed) :
    (s.servers.map (·.name)).Nodup := List.pairwise_map.2 h.distinct

/-- Settings have no problem just if they are well formed. Otherwise their problem is that of the
first check that is not met: one of the host and the numbers, or else one of the first server that
does not meet all its checks, where a server is compared with the ones before it. -/
theorem problem_exact (s : Settings) :
    (s.problem? = none ↔ s.WellFormed) ∧
    ∀ p, s.problem? = some p ↔
      Check.FirstUnmet s.ownChecks p ∨
      Check.AllMet s.ownChecks ∧
        ∃ (i : Nat) (spec : ServerSpec), s.servers[i]? = some spec ∧
          Check.FirstUnmet (spec.checks (s.servers.take i)) p ∧
          ∀ j < i, ∀ other : ServerSpec, s.servers[j]? = some other →
            Check.AllMet (other.checks (s.servers.take j)) := by
  refine ⟨problem?_eq_none_iff, fun p => ?_⟩
  rw [s.decides_problem?.some_iff, Check.firstUnmet_append, ServerSpec.firstUnmet_allChecks]
  rfl

/-- The third server repeats a name, and what is wrong with the fourth is not said. -/
example :
    let spec (name group : String) : ServerSpec := { name, group }
    let settings : Settings :=
      { servers := [spec "a" "g", spec "b" "g", spec "a" "h", spec " " "g"] }
    settings.problem? = some (.serverRepeated "a") := by decide

end Settings

end HostSteward
