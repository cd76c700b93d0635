import HostSteward.Proofs.Distribution.Reports
import Mathlib.Data.List.Induction
import Mathlib.Data.List.Nodup

/-!
# Reports by category

Answers are recorded in a report one after another. The report keeps the last answer of every
server, so the answers of different servers may come in any order. What it keeps can be read by
category: five lists share out the servers that have an outcome, each of them in ascending order.
-/

namespace HostSteward

/-- The kinds of outcomes, whatever value or fault they come with. -/
inductive Category where
  | succeeded
  | failed
  | rolledBack
  | cancelled
  | timedOut
deriving DecidableEq

namespace Category

def all : List Category := [.succeeded, .failed, .rolledBack, .cancelled, .timedOut]

theorem mem_all (c : Category) : c ∈ all := by
  cases c <;> decide

theorem nodup_all : all.Nodup := by decide

end Category

namespace Outcome

def category : Outcome → Category
  | .succeeded _ => .succeeded
  | .failed _ => .failed
  | .rolledBack => .rolledBack
  | .cancelled => .cancelled
  | .timedOut => .timedOut

theorem isSome_value? (o : Outcome) : o.value?.isSome = decide (o.category = .succeeded) := by
  cases o <;> rfl

theorem isSome_fault? (o : Outcome) : o.fault?.isSome = decide (o.category = .failed) := by
  cases o <;> rfl

theorem isSucceeded_iff (o : Outcome) : o.isSucceeded = true ↔ o.category = .succeeded := by
  rw [isSucceeded, isSome_value?, decide_eq_true_iff]

theorem value?_eq_some_iff {o : Outcome} {value : Json} :
    o.value? = some value ↔ o = .succeeded value := by
  cases o <;> simp [value?]

theorem fault?_eq_some_iff {o : Outcome} {cause : Fault} :
    o.fault? = some cause ↔ o = .failed cause := by
  cases o <;> simp [fault?]

end Outcome

namespace Report

variable {r : Report} {server : Identity} {c d : Category}

def recordAll (r : Report) (answers : List (Identity × Outcome)) : Report :=
  answers.foldl (fun r a => r.record a.1 a.2) r

def lastAnswer? (server : Identity) (answers : List (Identity × Outcome)) : Option Outcome :=
  ((answers.filter fun a => a.1 = server).getLast?).map (·.2)

def serversIn (r : Report) : Category → List Identity
  | .succeeded => r.results.map (·.1)
  | .failed => r.failures.map (·.1)
  | .rolledBack => r.rolledBack
  | .cancelled => r.cancelled
  | .timedOut => r.timedOut

structure Partitioned (r : Report) : Prop where
  results : ∀ server value,
    (server, value) ∈ r.results ↔ r.outcome? server = some (.succeeded value)
  failures : ∀ server cause,
    (server, cause) ∈ r.failures ↔ r.outcome? server = some (.failed cause)
  listed : ∀ server c,
    server ∈ r.serversIn c ↔ ∃ o, r.outcome? server = some o ∧ o.category = c
  apart : ∀ c d, c ≠ d → (r.serversIn c).Disjoint (r.serversIn d)
  ascending : ∀ c, (r.serversIn c).Pairwise (· < ·)
  together : ∀ server, (∃ c, server ∈ r.serversIn c) ↔ (r.outcome? server).isSome
  sizes : r.results.length + r.failures.length + r.rolledBack.length + r.cancelled.length +
    r.timedOut.length = r.serverCount
  /-- The results are as many as the servers only if each of these has one. -/
  covered : r.results.length = r.serverCount ↔
    ∀ server, (r.outcome? server).isSome → server ∈ r.serversIn .succeeded
  rollback : r.requiresRollback = false ↔
    r.hostFault = none ∧ r.results.length = r.serverCount

section Recording

variable {answers others : List (Identity × Outcome)} {a b : Identity × Outcome}

theorem recordAll_concat (r : Report) (answers : List (Identity × Outcome))
    (a : Identity × Outcome) :
    r.recordAll (answers ++ [a]) = (r.recordAll answers).record a.1 a.2 :=
  List.foldl_concat ..

theorem lastAnswer?_concat (server : Identity) (answers : List (Identity × Outcome))
    (a : Identity × Outcome) : lastAnswer? server (answers ++ [a]) =
      if a.1 = server then some a.2 else lastAnswer? server answers := by
  unfold lastAnswer?
  rw [List.filter_append]
  by_cases h : a.1 = server
  · simp [h]
  · simp [h]

/-- The last answer of a server is what is recorded; a server without one keeps its outcome. -/
theorem outcome?_recordAll (r : Report) (answers : List (Identity × Outcome)) (server : Identity) :
    (r.recordAll answers).outcome? server =
      (lastAnswer? server answers).or (r.outcome? server) := by
  -- The last answer decides, so answers are taken off at the end.
  induction answers using List.reverseRecOn with
  | nil => rfl
  | append_singleton answers a ih =>
    rw [recordAll_concat, outcome?_record, lastAnswer?_concat, ih]
    by_cases h : a.1 = server
    · rw [if_pos h, if_pos h, Option.some_or]
    · rw [if_neg h, if_neg h]

theorem hostFault_recordAll (r : Report) (answers : List (Identity × Outcome)) :
    (r.recordAll answers).hostFault = r.hostFault := by
  induction answers generalizing r with
  | nil => rfl
  | cons a answers ih => exact (ih (r.record a.1 a.2)).trans (hostFault_record ..)

/-- It makes no difference which of two servers answers first. -/
theorem record_comm (r : Report) (h : a.1 ≠ b.1) :
    (r.record a.1 a.2).record b.1 b.2 = (r.record b.1 b.2).record a.1 a.2 := by
  refine ext_outcome? (by simp only [hostFault_record]) fun server => ?_
  simp only [outcome?_record]
  by_cases ha : a.1 = server
  · rw [if_pos ha, if_pos ha, if_neg fun hb => h (ha.trans hb.symm)]
  · rw [if_neg ha, if_neg ha]

theorem recordAll_perm (r : Report) (hnd : (answers.map (·.1)).Nodup)
    (h : others.Perm answers) : r.recordAll others = r.recordAll answers := by
  refine (h.symm.foldl_eq' (fun a ha b hb r => ?_) r).symm
  by_cases hab : a.1 = b.1
  -- A server has one answer, so this is the same answer twice.
  · rw [List.inj_on_of_nodup_map hnd ha hb hab]
  · exact record_comm r hab

end Recording

section Lists

theorem map_fst_filterMap {α : Type} (f : Outcome → Option α) (l : List (Identity × Outcome)) :
    (l.filterMap fun e => (f e.2).map (e.1, ·)).map (·.1) =
      (l.filter fun e => (f e.2).isSome).map (·.1) := by
  induction l with
  | nil => rfl
  | cons e l ih =>
    cases h : f e.2 with
    | none => simp [h, ih]
    | some value => simp [h, ih]

/-- Every list has the servers of the outcomes of its category, as they stand in the report. -/
theorem serversIn_eq (r : Report) (c : Category) :
    r.serversIn c = (r.outcomes.entries.filter fun e => e.2.category = c).map (·.1) := by
  have hsame {p : Outcome → Bool} (hp : ∀ o, p o = decide (o.category = c)) :
      r.outcomes.entries.filter (fun e => p e.2) =
        r.outcomes.entries.filter fun e => e.2.category = c :=
    List.filter_congr fun e _ => hp e.2
  cases c with
  | succeeded => exact (map_fst_filterMap ..).trans (congrArg _ (hsame Outcome.isSome_value?))
  | failed => exact (map_fst_filterMap ..).trans (congrArg _ (hsame Outcome.isSome_fault?))
  | rolledBack => exact congrArg _ (hsame (p := (· = .rolledBack)) fun o => by cases o <;> rfl)
  | cancelled => exact congrArg _ (hsame (p := (· = .cancelled)) fun o => by cases o <;> rfl)
  | timedOut => exact congrArg _ (hsame (p := (· = .timedOut)) fun o => by cases o <;> rfl)

theorem mem_serversIn :
    server ∈ r.serversIn c ↔ ∃ o, r.outcome? server = some o ∧ o.category = c := by
  simp [serversIn_eq, outcome?, OrderedMap.get?_eq_some_iff]

theorem mem_results {value : Json} :
    (server, value) ∈ r.results ↔ r.outcome? server = some (.succeeded value) := by
  simp [results, outcome?, OrderedMap.get?_eq_some_iff, Outcome.value?_eq_some_iff]

theorem mem_failures {cause : Fault} :
    (server, cause) ∈ r.failures ↔ r.outcome? server = some (.failed cause) := by
  simp [failures, outcome?, OrderedMap.get?_eq_some_iff, Outcome.fault?_eq_some_iff]

theorem serversIn_ascending (r : Report) (c : Category) : (r.serversIn c).Pairwise (· < ·) := by
  rw [serversIn_eq]
  exact List.pairwise_map.2 (r.outcomes.ascending.filter _)

theorem serversIn_disjoint (r : Report) (h : c ≠ d) :
    (r.serversIn c).Disjoint (r.serversIn d) := by
  intro server hc hd
  obtain ⟨o, ho, rfl⟩ := mem_serversIn.1 hc
  obtain ⟨o', ho', rfl⟩ := mem_serversIn.1 hd
  rw [Option.some.inj (ho.symm.trans ho')] at h
  exact h rfl

theorem exists_mem_serversIn :
    (∃ c, server ∈ r.serversIn c) ↔ (r.outcome? server).isSome := by
  simp [mem_serversIn, Option.isSome_iff_exists]

/-- The lists together are the servers of the report, each once. -/
theorem serversIn_perm (r : Report) : (Category.all.flatMap r.serversIn).Perm r.outcomes.keys := by
  have hlists : (Category.all.flatMap r.serversIn).Nodup := by
    refine List.nodup_flatMap.2 ⟨fun c _ => ?_, ?_⟩
    · exact (r.serversIn_ascending c).imp LinearKey.ne_of_lt
    · exact Category.nodup_all.imp r.serversIn_disjoint
  refine (List.perm_ext_iff_of_nodup hlists r.outcomes.nodup_keys).2 fun server => ?_
  rw [OrderedMap.mem_keys_iff, ← Option.isSome_iff_exists, List.mem_flatMap]
  simp only [Category.mem_all, true_and]
  exact exists_mem_serversIn

theorem sum_length_serversIn (r : Report) :
    (Category.all.map fun c => (r.serversIn c).length).sum = r.serverCount := by
  rw [← List.length_flatMap, r.serversIn_perm.length_eq, OrderedMap.keys, List.length_map]
  rfl

/-- There are as many results as outcomes only if all outcomes are results. -/
theorem length_results_eq_iff (r : Report) : r.results.length = r.serverCount ↔
    ∀ e ∈ r.outcomes.entries, e.2.category = .succeeded := by
  have hlength := congrArg List.length (r.serversIn_eq .succeeded)
  rw [serversIn, List.length_map, List.length_map] at hlength
  rw [hlength, serverCount, OrderedMap.size, List.length_filter_eq_length_iff]
  simp only [decide_eq_true_iff]

theorem covered_iff (r : Report) : r.results.length = r.serverCount ↔
    ∀ server, (r.outcome? server).isSome → server ∈ r.serversIn .succeeded := by
  rw [length_results_eq_iff]
  constructor
  · intro h server hsome
    obtain ⟨o, ho⟩ := Option.isSome_iff_exists.1 hsome
    exact mem_serversIn.2 ⟨o, ho, h _ (OrderedMap.get?_eq_some_iff.1 ho)⟩
  · intro h e he
    have ho : r.outcome? e.1 = some e.2 := OrderedMap.get?_eq_some_iff.2 he
    obtain ⟨o, ho', hc⟩ := mem_serversIn.1 (h e.1 (by rw [ho]; rfl))
    rwa [Option.some.inj (ho.symm.trans ho')]

theorem requiresRollback_eq_false_iff (r : Report) : r.requiresRollback = false ↔
    r.hostFault = none ∧ r.results.length = r.serverCount := by
  rw [length_results_eq_iff, requiresRollback, Bool.or_eq_false_iff, List.any_eq_false]
  simp [Outcome.isSucceeded_iff]

theorem partitioned (r : Report) : r.Partitioned where
  results _ _ := mem_results
  failures _ _ := mem_failures
  listed _ _ := mem_serversIn
  apart _ _ := r.serversIn_disjoint
  ascending := r.serversIn_ascending
  together _ := exists_mem_serversIn
  sizes := by
    have h := r.sum_length_serversIn
    simp only [Category.all, serversIn, List.map_cons, List.map_nil, List.length_map,
      List.sum_cons, List.sum_nil] at h
    omega
  covered := r.covered_iff
  rollback := r.requiresRollback_eq_false_iff

end Lists

/-- Whatever a report begins with and whatever answers are recorded, every server has its last
answer or, without one, what it had before; answers of different servers may come in any order. The
lists of the report share out the outcomes. -/
theorem recording_exact (start : Report) (answers : List (Identity × Outcome)) :
    let r := start.recordAll answers
    (∀ server, r.outcome? server = (lastAnswer? server answers).or (start.outcome? server)) ∧
    r.hostFault = start.hostFault ∧
    ((answers.map (·.1)).Nodup → ∀ others, others.Perm answers → start.recordAll others = r) ∧
    r.Partitioned :=
  ⟨start.outcome?_recordAll answers, start.hostFault_recordAll answers,
    fun hnd _ h => start.recordAll_perm hnd h, partitioned _⟩

/-- Two servers answer, in either order; one of them had been rolled back before. -/
theorem recording_exact_swapped :
    let a : Identity := ⟨"h", "g", "a"⟩
    let b : Identity := ⟨"h", "g", "b"⟩
    let start := neutral.record b .rolledBack
    let answers : List (Identity × Outcome) := [(b, .timedOut), (a, .succeeded .null)]
    let r := start.recordAll answers
    (answers.map (·.1)).Nodup ∧ start.recordAll answers.reverse = r ∧
      r.outcome? b = some .timedOut ∧ b ∉ r.rolledBack ∧
      r.results.length + r.failures.length + r.rolledBack.length + r.cancelled.length +
        r.timedOut.length = 2 := by
  intro a b start answers r
  have hnd : (answers.map (·.1)).Nodup := by decide
  obtain ⟨hlast, -, hperm, hpart⟩ := recording_exact start answers
  have hb : r.outcome? b = some .timedOut := hlast b
  refine ⟨hnd, hperm hnd _ answers.reverse_perm, hb, fun hmem => ?_, hpart.sizes.trans (by decide)⟩
  obtain ⟨o, ho, hc⟩ := (hpart.listed b .rolledBack).1 hmem
  rw [← Option.some.inj (hb.symm.trans ho)] at hc
  cases hc

end Report

end HostSteward
