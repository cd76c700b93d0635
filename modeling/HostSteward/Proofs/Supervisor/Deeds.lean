import HostSteward.Proofs.Steward.Interleaving
import HostSteward.Proofs.Supervisor.Custody
import Mathlib.Data.List.Induction

/-!
# Deeds of a supervisor and its children

Commands, the ends of children and the two steps of their watchers may follow each other in any
order. Whatever has happened, no child was lost or taken for another, incarnations were given out
in ascending order, and the exits that were published are those that the watchers reported.
-/

namespace HostSteward

def Notice.exit? : Notice → Option (String × Incarnation)
  | .processStopped process incarnation _ => some (process, incarnation)
  | _ => none

def Child.exit? (c : Child) : Option (String × Incarnation) :=
  if c.stage = .reported then some (c.process, c.incarnation) else none

/-- One thing that happens to a supervisor of children. The machine's part in a launch is
`attempt`. -/
inductive Deed where
  | command (c : Command) (attempt : Launch → Except String Unit)
  | ends (i : Nat)
  | clears (i : Nat)
  | reports (i : Nat) (uptime : Duration)

def Deed.Forgets (d : Deed) (process : String) : Prop :=
  ∃ attempt, d = .command (.remove process) attempt ∨ d = .command .shutdown attempt

structure Past where
  supervisor : ChildSupervisor := {}
  issued : List Incarnation := []
  published : List Notice := []

namespace Past

def after (w : Past) : Deed → Past
  | .command c attempt =>
    let (s, a, notices) := w.supervisor.obey attempt c
    { supervisor := s
      issued := w.issued ++ ((Request.command c).given a).toList
      published := w.published ++ notices }
  | .ends i => { w with supervisor := w.supervisor.childEnds i }
  | .clears i => { w with supervisor := w.supervisor.clearProcess i }
  | .reports i uptime =>
    let (s, notices) := w.supervisor.reportExit i uptime
    { w with supervisor := s, published := w.published ++ notices }

def of (deeds : List Deed) : Past := deeds.foldl after {}

end Past

namespace ChildSupervisor

variable {s s' : ChildSupervisor} {adds i j : Nat} {process p : String} {r : Registration}
  {k : Incarnation} {command : Command} {a : command.Answer} {notices : List Notice}

/-! ## Commands -/

theorem Custody.effect (h : Custody s adds) (heffect : Effect s command s' a notices)
    (hbound : adds + ((Request.command command).given a).toList.length < UInt64.size) :
    Custody s' (adds + ((Request.command command).given a).toList.length) := by
  cases heffect with
  | added hnew => exact h.register hbound hnew _
  | launched hget hnone => exact h.spawn hget hnone
  | booted running hget hrunning => exact h.acknowledge hget hrunning
  | stopped => exact h.stop _
  | removed => exact h.remove _
  | shutDown => exact h.shutdown
  | refused | unmoved | absent | listed => exact h

/-- Only a registration is answered with an incarnation, which is the next one. -/
theorem Effect.given (heffect : Effect s command s' a notices)
    (hk : (Request.command command).given a = some k) : k = s.nextIncarnation := by
  cases heffect with
  | added => exact (Option.some.inj hk).symm
  | _ => cases hk

/-- A process loses its running child by a command only when it is forgotten itself. -/
theorem Effect.runs (heffect : Effect s command s' a notices) (h : s.Runs p k i) :
    s'.Runs p k i ∨ (command = .remove p ∨ command = .shutdown) ∧ s'.processes.get? p = none := by
  obtain ⟨r, running, hget, hk, hrunning, hi⟩ := h
  cases heffect with
  | @added process launch hnew =>
    have hp : process ≠ p := by
      rintro rfl
      rw [hnew] at hget
      cases hget
    exact Or.inl ⟨r, running, by rw [OrderedMap.get?_insert, if_neg hp, hget], hk, hrunning, hi⟩
  | @launched process r' hget' hnone =>
    have hp : process ≠ p := by
      rintro rfl
      obtain rfl := Option.some.inj (hget.symm.trans hget')
      rw [hnone] at hrunning
      cases hrunning
    refine Or.inl ?_
    unfold ChildSupervisor.spawn
    exact runs_setRunning.2 (Or.inr ⟨hp, r, running, hget, hk, hrunning, hi⟩)
  | booted running' hget' hrunning' =>
    exact Or.inl ((runs_acknowledge hget' hrunning').2 ⟨r, running, hget, hk, hrunning, hi⟩)
  | stopped =>
    refine Or.inl ⟨r, running, ?_, hk, hrunning, hi⟩
    rw [processes_stop]
    exact hget
  | @removed process =>
    by_cases hp : process = p
    · subst hp
      exact Or.inr ⟨Or.inl rfl, by rw [OrderedMap.get?_erase, if_pos rfl]⟩
    · refine Or.inl ⟨r, running, ?_, hk, hrunning, hi⟩
      rw [OrderedMap.get?_erase, if_neg hp]
      exact hget
  | shutDown => exact Or.inr ⟨Or.inr rfl, rfl⟩
  | refused | unmoved | absent | listed => exact Or.inl ⟨r, running, hget, hk, hrunning, hi⟩

/-! ## Watchers -/

theorem runs_unique (h : s.Runs p k i) (h' : s.Runs p k j) : i = j := by
  obtain ⟨r, running, hget, -, hrunning, rfl⟩ := h
  obtain ⟨r', running', hget', -, hrunning', rfl⟩ := h'
  obtain rfl := Option.some.inj (hget.symm.trans hget')
  obtain rfl := Option.some.inj (hrunning.symm.trans hrunning')
  rfl

theorem runs_reportExit (h : s.Runs p k i) (j : Nat) (uptime : Duration) :
    (s.reportExit j uptime).1.Runs p k i := by
  rcases s.reportExit_cases j uptime with hsame | ⟨c, hreported⟩
  · rw [hsame]
    exact h
  · rw [hreported]
    exact h

/-- A watcher clears nothing but its own child, even if the process was registered anew. -/
theorem Custody.runs_clearProcess (hcustody : Custody s adds) (h : s.Runs p k i) (hij : j ≠ i) :
    (s.clearProcess j).Runs p k i := by
  rcases s.clearProcess_outcome j with ⟨-, hsame⟩ | ⟨c, cleared, hc, hstage, rfl,
    ⟨-, hkept⟩ | ⟨r, hget, hr, hcleared⟩⟩
  · rw [hsame]
    exact h
  · rw [hkept]
    exact h
  · have hp : c.process ≠ p := by
      rintro rfl
      -- The process would run the child whose watcher this is.
      have hk := registered_eq_some_iff.2 ⟨r, hget, hr⟩
      have hrun := (hcustody.owned hc (Or.inr hstage) hk).2
      obtain rfl := Option.some.inj (h.registered.symm.trans hk)
      exact hij (runs_unique hrun h)
    rw [hcleared, runs_setRunning]
    exact Or.inr ⟨hp, h⟩

/-! ## Exits -/

def exits (s : ChildSupervisor) : List (String × Incarnation) := s.children.filterMap Child.exit?

theorem filterMap_modify {l : List Child} {g : Child → Option (String × Incarnation)}
    {f : Child → Child} (hf : ∀ c, l[i]? = some c → g (f c) = g c) :
    (l.modify i f).filterMap g = l.filterMap g := by
  induction l generalizing i with
  | nil => simp
  | cons c l ih =>
    cases i with
    | zero => simp [List.filterMap_cons, hf c rfl]
    | succ i => simp only [List.modify_succ_cons, List.filterMap_cons, ih hf]

theorem filterMap_modify_perm {l : List Child} {g : Child → Option (String × Incarnation)}
    {f : Child → Child} {c : Child} {e : String × Incarnation} (hc : l[i]? = some c)
    (hnone : g c = none) (hsome : g (f c) = some e) :
    ((l.modify i f).filterMap g).Perm (l.filterMap g ++ [e]) := by
  induction l generalizing i with
  | nil => cases hc
  | cons d l ih =>
    cases i with
    | zero =>
      obtain rfl : d = c := Option.some.inj hc
      simp only [List.modify_zero_cons, List.filterMap_cons, hsome, hnone]
      exact (List.perm_append_singleton e _).symm
    | succ i =>
      simp only [List.modify_succ_cons, List.filterMap_cons]
      cases g d with
      | none => exact ih hc
      | some e' => exact (ih hc).cons e'

theorem exits_updateChild {f : Child → Child}
    (hf : ∀ c, s.children[i]? = some c → (f c).exit? = c.exit?) :
    (s.updateChild i f).exits = s.exits := filterMap_modify hf

theorem exits_stop (s : ChildSupervisor) (process : String) :
    (s.stop process).supervisor.exits = s.exits := by
  unfold ChildSupervisor.stop
  cases (s.processes.get? process).bind (·.running) with
  | none => rfl
  | some running => exact exits_updateChild (f := fun c => { c with told := true }) fun _ _ => rfl

theorem exits_stopAll (ps : List String) (s : ChildSupervisor) :
    (ps.foldl (fun s p => (s.stop p).supervisor) s).exits = s.exits := by
  induction ps generalizing s with
  | nil => rfl
  | cons p ps ih => exact (ih _).trans (exits_stop s p)

/-- No command reports an exit. -/
theorem Effect.exits (heffect : Effect s command s' a notices) :
    s'.exits = s.exits ∧ notices.filterMap Notice.exit? = [] := by
  cases heffect with
  | launched hget hnone =>
    refine ⟨?_, rfl⟩
    show List.filterMap _ (s.children ++ _) = _
    rw [List.filterMap_append]
    exact List.append_nil _
  | stopped => exact ⟨exits_stop s _, rfl⟩
  | removed => exact ⟨exits_stop s _, rfl⟩
  | shutDown => exact ⟨exits_stopAll _ s, rfl⟩
  | _ => exact ⟨rfl, rfl⟩

theorem exits_childEnds (s : ChildSupervisor) (i : Nat) : (s.childEnds i).exits = s.exits := by
  apply exits_updateChild
  intro c _
  by_cases halive : c.stage = .alive <;> simp [Child.exit?, halive]

theorem exits_clearProcess (s : ChildSupervisor) (i : Nat) : (s.clearProcess i).exits = s.exits := by
  rcases s.clearProcess_outcome i with ⟨-, hsame⟩ | ⟨c, cleared, hc, hstage, hcleared, hwatcher⟩
  · rw [hsame]
  · have hexits : cleared.exits = s.exits := by
      rw [hcleared]
      apply exits_updateChild
      intro c' hc'
      obtain rfl := Option.some.inj (hc.symm.trans hc')
      simp [Child.exit?, hstage]
    rcases hwatcher with ⟨-, hkept⟩ | ⟨r, -, -, hvacated⟩
    · rw [hkept, hexits]
    · rw [hvacated]
      exact hexits

/-- A watcher publishes the exit that it reports. -/
theorem exits_reportExit (s : ChildSupervisor) (i : Nat) (uptime : Duration) :
    (s.reportExit i uptime).1.exits.Perm
      (s.exits ++ (s.reportExit i uptime).2.filterMap Notice.exit?) := by
  by_cases hcleared : ∃ c, s.children[i]? = some c ∧ c.stage = .cleared
  · obtain ⟨c, hc, hstage⟩ := hcleared
    rw [reportExit_of_cleared hc hstage]
    exact filterMap_modify_perm hc (by simp [Child.exit?, hstage]) rfl
  · rw [reportExit_of_not_cleared fun c hc hstage => hcleared ⟨c, hc, hstage⟩]
    exact List.Perm.of_eq (List.append_nil _).symm

/-- The watcher of an ended child goes on with its work, whatever has become of the process. -/
theorem getElem?_clearProcess {c : Child} (hc : s.children[i]? = some c) (hended : c.stage = .ended) :
    (s.clearProcess i).children[i]? = some { c with stage := .cleared } := by
  have hchild : (s.updateChild i fun c => { c with stage := .cleared }).children[i]? =
      some { c with stage := .cleared } := by
    rw [getElem?_updateChild, hc, Option.map_some, if_pos rfl]
  rcases s.clearProcess_outcome i with ⟨hnot, -⟩ | ⟨c', cleared, -, -, rfl,
    ⟨-, hkept⟩ | ⟨r, -, -, hcleared⟩⟩
  · exact absurd hended (hnot c hc)
  · rw [hkept]
    exact hchild
  · rw [hcleared]
    exact hchild

end ChildSupervisor

namespace Past

open ChildSupervisor

variable {w : Past} {d : Deed} {p : String} {k : Incarnation} {i : Nat}

/-- What holds of every past with fewer registrations than there are incarnations. -/
structure Kept (w : Past) : Prop where
  custody : w.supervisor.Custody w.issued.length
  below : ∀ k ∈ w.issued, k.toNat ≤ w.issued.length
  ascending : w.issued.Pairwise (· < ·)
  exits : (w.published.filterMap Notice.exit?).Perm w.supervisor.exits

theorem kept_empty : Kept {} where
  custody := custody_empty
  below _ hk := nomatch hk
  ascending := .nil
  exits := .nil

theorem pairwise_toList (given : Option Incarnation) : given.toList.Pairwise (· < ·) := by
  cases given with
  | none => exact .nil
  | some k => exact List.pairwise_singleton _ _

theorem Kept.command (h : w.Kept) {c : Command} {attempt : Launch → Except String Unit}
    (hbound : (w.after (.command c attempt)).issued.length < UInt64.size) :
    (w.after (.command c attempt)).Kept := by
  have heffect := effect_obey attempt w.supervisor c
  obtain ⟨hexits, hnone⟩ := heffect.exits
  simp only [after, List.length_append] at hbound
  have hcustody := h.custody.effect heffect hbound
  have hnew : ∀ k ∈ ((Request.command c).given (w.supervisor.obey attempt c).2.1).toList,
      k.toNat = w.issued.length + 1 := by
    intro k hk
    have hgiven := Option.mem_toList.1 hk
    rw [Option.mem_def.1 hgiven, Option.toList_some, List.length_singleton] at hbound
    rw [heffect.given hgiven, h.custody.next, UInt64.toNat_ofNat_of_lt' hbound]
  refine ⟨by simpa only [after, List.length_append] using hcustody, fun k hk => ?_, ?_, ?_⟩
  · simp only [after, List.length_append]
    rcases List.mem_append.1 hk with hk | hk
    · exact Nat.le_add_right_of_le (h.below k hk)
    · rw [hnew k hk]
      exact Nat.add_le_add_left (List.length_pos_of_mem hk) _
  · refine List.pairwise_append.2 ⟨h.ascending, ?_, fun k hk k' hk' => ?_⟩
    · exact pairwise_toList _
    · rw [UInt64.lt_iff_toNat_lt, hnew k' hk']
      exact Nat.lt_succ_of_le (h.below k hk)
  · simp only [after, List.filterMap_append]
    rw [hnone, List.append_nil, hexits]
    exact h.exits

theorem Kept.after (h : w.Kept) (hbound : (w.after d).issued.length < UInt64.size) :
    (w.after d).Kept := by
  cases d with
  | command c attempt => exact h.command hbound
  | ends i =>
    exact ⟨h.custody.childEnds i, h.below, h.ascending, (exits_childEnds w.supervisor i) ▸ h.exits⟩
  | clears i =>
    exact ⟨h.custody.clearProcess i, h.below, h.ascending,
      (exits_clearProcess w.supervisor i) ▸ h.exits⟩
  | reports i uptime =>
    refine ⟨h.custody.reportExit i uptime, h.below, h.ascending, ?_⟩
    simp only [Past.after, List.filterMap_append]
    exact (h.exits.append_right _).trans (exits_reportExit w.supervisor i uptime).symm

theorem length_issued_le (w : Past) (d : Deed) : w.issued.length ≤ (w.after d).issued.length := by
  cases d <;> simp [after]

theorem of_concat (deeds : List Deed) (d : Deed) : of (deeds ++ [d]) = (of deeds).after d :=
  List.foldl_append

theorem kept_of (deeds : List Deed) (hbound : (of deeds).issued.length < UInt64.size) :
    (of deeds).Kept := by
  induction deeds using List.reverseRecOn with
  | nil => exact kept_empty
  | append_singleton deeds d ih =>
    rw [of_concat] at hbound ⊢
    exact (ih (Nat.lt_of_le_of_lt (length_issued_le _ d) hbound)).after hbound

/-- A process keeps its running child until the watcher of that child clears it or the process is
forgotten. -/
theorem Kept.runs (h : w.Kept) (hruns : w.supervisor.Runs p k i) (d : Deed) :
    (w.after d).supervisor.Runs p k i ∨ d = .clears i ∨
      d.Forgets p ∧ (w.after d).supervisor.processes.get? p = none := by
  cases d with
  | command c attempt =>
    rcases (effect_obey attempt w.supervisor c).runs hruns with h | ⟨rfl | rfl, hnone⟩
    · exact Or.inl h
    · exact Or.inr (Or.inr ⟨⟨attempt, Or.inl rfl⟩, hnone⟩)
    · exact Or.inr (Or.inr ⟨⟨attempt, Or.inr rfl⟩, hnone⟩)
  | ends j => exact Or.inl hruns
  | clears j =>
    by_cases hij : j = i
    · exact Or.inr (Or.inl (congrArg Deed.clears hij))
    · exact Or.inl (h.custody.runs_clearProcess hruns hij)
  | reports j uptime => exact Or.inl (runs_reportExit hruns j uptime)

end Past

open ChildSupervisor Past

/-- A supervisor of children neither loses nor confuses a child, whatever happens in which order, as
long as incarnations do not repeat: they are given out in ascending order; a child that lives and
was not told to stop runs for its process; of one incarnation at most one child is watched; a
process loses its running child, which can be told to stop, only to the watcher of that child or
because it is forgotten; and every child that has ended comes to have its exit published, once. -/
theorem children_in_custody (deeds : List Deed)
    (hbound : (Past.of deeds).issued.length < UInt64.size) :
    let w := Past.of deeds
    let s := w.supervisor
    w.issued.Pairwise (· < ·) ∧
    (∀ (i : Nat) c, s.children[i]? = some c → c.stage = .alive → c.told = false →
      s.Runs c.process c.incarnation i) ∧
    (∀ (i j : Nat) c d, s.children[i]? = some c → s.children[j]? = some d → c.Watched →
      d.Watched → c.incarnation = d.incarnation → i = j) ∧
    (∀ p k i, s.Runs p k i → ∃ c, s.children[i]? = some c ∧ c.process = p ∧ c.incarnation = k ∧
      (∀ attempt, (w.after (.command (.stop p) attempt)).supervisor.children[i]? =
        some { c with told := true }) ∧
      ∀ d, (w.after d).supervisor.Runs p k i ∨ d = .clears i ∨
        d.Forgets p ∧ (w.after d).supervisor.processes.get? p = none) ∧
    (w.published.filterMap Notice.exit?).Perm (s.children.filterMap Child.exit?) ∧
    ∀ (i : Nat) c, s.children[i]? = some c →
      (c.stage = .ended →
        (w.after (.clears i)).supervisor.children[i]? = some { c with stage := .cleared }) ∧
      (c.stage = .cleared → ∀ uptime,
        (w.after (.reports i uptime)).supervisor.children[i]? = some { c with stage := .reported } ∧
        (w.after (.reports i uptime)).published =
          w.published ++ [.processStopped c.process c.incarnation uptime]) := by
  have h := kept_of deeds hbound
  refine ⟨h.ascending, fun i c hc halive htold => h.custody.runs_of_carefree hc ⟨halive, htold⟩,
    fun i j c d => h.custody.single, fun p k i hruns => ?_, h.exits, fun i c hc => ⟨?_, ?_⟩⟩
  · obtain ⟨c, hc, hp, hk, -⟩ := h.custody.running hruns
    refine ⟨c, hc, hp, hk, fun attempt => ?_, h.runs hruns⟩
    show ((Past.of deeds).supervisor.stop p).supervisor.children[i]? = _
    rw [stop_of_runs hruns, getElem?_updateChild, hc, Option.map_some, if_pos rfl]
  · exact getElem?_clearProcess hc
  · intro hcleared uptime
    simp only [after]
    rw [reportExit_of_cleared hc hcleared]
    refine ⟨?_, rfl⟩
    rw [getElem?_updateChild, hc, Option.map_some, if_pos rfl]

/-- A process is launched, removed, registered and launched again before its first child ends. -/
def addedTwice : List Deed :=
  [.add "a" { command := ["sleep"] }, .start "a", .remove "a", .add "a" { command := ["sleep"] },
    .start "a"].map (.command · fun _ => .ok ()) ++ [.ends 0]

/-- The late exit of a removed registration leaves the process running that was registered since. -/
theorem children_in_custody_addedTwice :
    (Past.of addedTwice).issued.length < UInt64.size ∧
      (Past.of addedTwice).issued = [1, 2] ∧
      (Past.of addedTwice).supervisor.children.map (·.told) = [true, false] ∧
      ((Past.of addedTwice).after (.clears 0)).supervisor.Runs "a" 2 1 := by
  have hissued : (Past.of addedTwice).issued = [1, 2] := rfl
  have hbound : (Past.of addedTwice).issued.length < UInt64.size := by
    rw [hissued]
    decide
  obtain ⟨-, hcarefree, -, hruns, -⟩ := children_in_custody addedTwice hbound
  have hrun : (Past.of addedTwice).supervisor.Runs "a" 2 1 :=
    hcarefree 1 ⟨"a", 2, { command := ["sleep"] }, false, .alive⟩ rfl rfl rfl
  obtain ⟨c, -, -, -, -, hkept⟩ := hruns "a" 2 1 hrun
  refine ⟨hbound, hissued, rfl, ?_⟩
  rcases hkept (.clears 0) with h | h | ⟨⟨_, h⟩, -⟩
  · exact h
  · cases h
  · rcases h with h | h <;> cases h

end HostSteward
