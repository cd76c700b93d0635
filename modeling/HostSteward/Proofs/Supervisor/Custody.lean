import HostSteward.Proofs.Supervisor.Children

/-!
# Custody of children

As long as incarnations do not repeat, a supervisor answers for each of its children: one that
lives and was not told to stop is the running child of a process that is registered under the
child's incarnation, and no two children of one incarnation are out of their watchers' hands.
Whatever is commanded, and whatever children and watchers do, keeps this.
-/

namespace HostSteward

namespace Child

/-- Its watcher has not cleared the process of a child yet. -/
def Watched (c : Child) : Prop := c.stage = .alive ∨ c.stage = .ended

/-- A child that lives and was not told to stop. -/
def Carefree (c : Child) : Prop := c.stage = .alive ∧ c.told = false

structure Ages (c d : Child) : Prop where
  process : d.process = c.process
  incarnation : d.incarnation = c.incarnation
  watched : d.Watched → c.Watched
  carefree : d.Carefree → c.Carefree

variable {c : Child}

theorem Carefree.watched (h : c.Carefree) : c.Watched := Or.inl h.1

theorem Ages.refl (c : Child) : c.Ages c := ⟨rfl, rfl, id, id⟩

theorem ages_told (c : Child) : c.Ages { c with told := true } :=
  ⟨rfl, rfl, id, fun h => Bool.noConfusion h.2⟩

theorem ages_ended (c : Child) :
    c.Ages (if c.stage = .alive then { c with stage := .ended } else c) := by
  by_cases halive : c.stage = .alive
  · rw [if_pos halive]
    exact ⟨rfl, rfl, fun _ => Or.inl halive, fun h => ChildStage.noConfusion h.1⟩
  · rw [if_neg halive]
    exact .refl c

theorem ages_unwatched {stage : ChildStage} (hstage : stage = .cleared ∨ stage = .reported)
    (c : Child) : c.Ages { c with stage } := by
  refine ⟨rfl, rfl, fun h => ?_, fun h => ?_⟩
  · rcases hstage with rfl | rfl <;> rcases h with h | h <;> cases h
  · rcases hstage with rfl | rfl <;> cases h.1

end Child

namespace ChildSupervisor

/-- The running child of a process that is registered under an incarnation. -/
def Runs (s : ChildSupervisor) (process : String) (incarnation : Incarnation) (i : Nat) : Prop :=
  ∃ r running, s.processes.get? process = some r ∧ r.incarnation = incarnation ∧
    r.running = some running ∧ running.child = i

/-- After `adds` registrations every child is under an incarnation of its own process, and a
carefree one under the current incarnation of its process. -/
structure Accounted (s : ChildSupervisor) (adds : Nat) : Prop where
  next : s.nextIncarnation = .ofNat (adds + 1)
  given : ∀ {p k}, s.registered p = some k → k.toNat ≤ adds
  distinct : ∀ {p q k}, s.registered p = some k → s.registered q = some k → p = q
  issued : ∀ {i : Nat} {c}, s.children[i]? = some c → c.incarnation.toNat ≤ adds
  single : ∀ {i j : Nat} {c d}, s.children[i]? = some c → s.children[j]? = some d → c.Watched →
    d.Watched → c.incarnation = d.incarnation → i = j
  carefree : ∀ {i : Nat} {c}, s.children[i]? = some c → c.Carefree →
    s.registered c.process = some c.incarnation

structure Custody (s : ChildSupervisor) (adds : Nat) : Prop extends Accounted s adds where
  owned : ∀ {i : Nat} {c p}, s.children[i]? = some c → c.Watched →
    s.registered p = some c.incarnation → p = c.process ∧ s.Runs p c.incarnation i
  running : ∀ {p k i}, s.Runs p k i →
    ∃ c, s.children[i]? = some c ∧ c.process = p ∧ c.incarnation = k ∧ c.Watched

variable {s : ChildSupervisor} {adds i j : Nat} {process p : String} {r : Registration}
  {k : Incarnation} {c : Child} {f : Child → Child}

theorem registered_eq_some_iff :
    s.registered p = some k ↔ ∃ r, s.processes.get? p = some r ∧ r.incarnation = k :=
  Option.map_eq_some_iff

theorem Runs.registered (h : s.Runs p k i) : s.registered p = some k := by
  obtain ⟨r, running, hget, hr, -⟩ := h
  exact registered_eq_some_iff.2 ⟨r, hget, hr⟩

theorem Custody.runs_of_carefree (h : Custody s adds) (hchild : s.children[i]? = some c)
    (hcarefree : c.Carefree) : s.Runs c.process c.incarnation i :=
  (h.owned hchild hcarefree.watched (h.carefree hchild hcarefree)).2

theorem custody_empty : Custody {} 0 where
  next := rfl
  given h := nomatch h
  distinct h := nomatch h
  issued h := nomatch h
  single h := nomatch h
  carefree h := nomatch h
  owned h := nomatch h
  running h := nomatch h.registered

/-! ## Children that change -/

theorem getElem?_updateChild (s : ChildSupervisor) (i j : Nat) (f : Child → Child) :
    (s.updateChild i f).children[j]? =
      s.children[j]?.map fun c => if i = j then f c else c :=
  List.getElem?_modify ..

theorem exists_ages (hf : ∀ c, s.children[i]? = some c → c.Ages (f c))
    (h : (s.updateChild i f).children[j]? = some c) :
    ∃ c', s.children[j]? = some c' ∧ c'.Ages c := by
  rw [getElem?_updateChild, Option.map_eq_some_iff] at h
  obtain ⟨c', hc', rfl⟩ := h
  refine ⟨c', hc', ?_⟩
  split
  next heq =>
    subst heq
    exact hf c' hc'
  next => exact .refl c'

theorem Accounted.updateChild (h : Accounted s adds) {i : Nat}
    (hf : ∀ c, s.children[i]? = some c → c.Ages (f c)) : Accounted (s.updateChild i f) adds where
  next := h.next
  given := h.given
  distinct := h.distinct
  issued hc := by
    obtain ⟨c', hc', hages⟩ := exists_ages hf hc
    rw [hages.incarnation]
    exact h.issued hc'
  single hc hd hwc hwd heq := by
    obtain ⟨c', hc', hagesc⟩ := exists_ages hf hc
    obtain ⟨d', hd', hagesd⟩ := exists_ages hf hd
    rw [hagesc.incarnation, hagesd.incarnation] at heq
    exact h.single hc' hd' (hagesc.watched hwc) (hagesd.watched hwd) heq
  carefree hc hcarefree := by
    obtain ⟨c', hc', hages⟩ := exists_ages hf hc
    rw [hages.process, hages.incarnation]
    exact h.carefree hc' (hages.carefree hcarefree)

theorem Accounted.setRunning (h : Accounted s adds) (hget : s.processes.get? process = some r)
    (running : Option Running) : Accounted (s.setRunning process r running) adds := by
  have hregistered := registered_setRunning hget running
  refine ⟨h.next, ?_, ?_, h.issued, h.single, ?_⟩
  · rw [hregistered]
    exact h.given
  · rw [hregistered]
    exact h.distinct
  · rw [hregistered]
    exact h.carefree

/-- A child may change as long as no process loses its running child by it. -/
theorem Custody.updateChild (h : Custody s adds) (i : Nat)
    (hf : ∀ c, s.children[i]? = some c → c.Ages (f c))
    (hkeep : ∀ c, s.children[i]? = some c → c.Watched → s.Runs c.process c.incarnation i →
      (f c).Watched) : Custody (s.updateChild i f) adds where
  toAccounted := h.toAccounted.updateChild hf
  owned hc hw hget := by
    obtain ⟨c', hc', hages⟩ := exists_ages hf hc
    rw [hages.incarnation] at hget
    rw [hages.process, hages.incarnation]
    exact h.owned hc' (hages.watched hw) hget
  running {p k j} hruns := by
    obtain ⟨c, hc, rfl, rfl, hw⟩ := h.running hruns
    by_cases heq : i = j
    · subst heq
      refine ⟨f c, ?_, (hf c hc).process, (hf c hc).incarnation, hkeep c hc hw hruns⟩
      rw [getElem?_updateChild, hc, Option.map_some, if_pos rfl]
    · refine ⟨c, ?_, rfl, rfl, hw⟩
      rw [getElem?_updateChild, hc, Option.map_some, if_neg heq]

theorem Custody.childEnds (h : Custody s adds) (i : Nat) : Custody (s.childEnds i) adds := by
  refine h.updateChild i (fun c _ => c.ages_ended) fun c _ hw _ => ?_
  split
  · exact Or.inr rfl
  · exact hw

/-- A running child that is told to stop goes on running until it ends. -/
theorem Custody.stop (h : Custody s adds) (process : String) :
    Custody (s.stop process).supervisor adds := by
  unfold ChildSupervisor.stop
  cases (s.processes.get? process).bind (·.running) with
  | none => exact h
  | some running =>
    exact h.updateChild running.child (fun c _ => c.ages_told) fun c _ hw _ => hw

/-! ## Processes that are registered and forgotten -/

theorem Custody.register (h : Custody s adds) (hbound : adds + 1 < UInt64.size)
    (hnew : s.processes.get? process = none) (launch : Launch) :
    Custody { s with
      processes := s.processes.insert process { incarnation := s.nextIncarnation, launch }
      nextIncarnation := s.nextIncarnation + 1 } (adds + 1) := by
  have hnext : s.nextIncarnation.toNat = adds + 1 := by
    rw [h.next, UInt64.toNat_ofNat_of_lt' hbound]
  -- Nobody has the new incarnation yet.
  have hfresh : ∀ {k : Incarnation}, k.toNat ≤ adds → k ≠ s.nextIncarnation := by
    rintro k hk rfl
    omega
  have hcases : ∀ {p k}, registered { s with
        processes := s.processes.insert process { incarnation := s.nextIncarnation, launch }
        nextIncarnation := s.nextIncarnation + 1 } p = some k →
      process = p ∧ k = s.nextIncarnation ∨ process ≠ p ∧ s.registered p = some k := by
    intro p k hk
    simp only [registered, OrderedMap.get?_insert] at hk
    split at hk
    next heq => exact Or.inl ⟨heq, (Option.some.inj hk).symm⟩
    next hne => exact Or.inr ⟨hne, hk⟩
  have hother : ∀ {p k}, s.registered p = some k → process ≠ p := by
    rintro p k hk rfl
    rw [registered, hnew] at hk
    cases hk
  refine ⟨⟨?_, fun hk => ?_, fun hk hk' => ?_, fun hc => Nat.le_succ_of_le (h.issued hc), h.single,
    fun hc hcarefree => ?_⟩, fun hc hw hk => ?_, ?_⟩
  · show s.nextIncarnation + 1 = _
    rw [h.next]
    exact UInt64.toNat_inj.1 (by simp)
  · rcases hcases hk with ⟨-, rfl⟩ | ⟨-, hk⟩
    · exact Nat.le_of_eq hnext
    · exact Nat.le_succ_of_le (h.given hk)
  · rcases hcases hk with ⟨hp, rfl⟩ | ⟨-, hk⟩ <;> rcases hcases hk' with ⟨hq, heq⟩ | ⟨-, hk'⟩
    · exact hp.symm.trans hq
    · exact absurd rfl (hfresh (h.given hk'))
    · exact absurd heq (hfresh (h.given hk))
    · exact h.distinct hk hk'
  · have hk := h.carefree hc hcarefree
    rw [registered, OrderedMap.get?_insert, if_neg (hother hk)]
    exact hk
  · rcases hcases hk with ⟨-, heq⟩ | ⟨hp, hk⟩
    · exact absurd heq (hfresh (h.issued hc))
    · obtain ⟨rfl, r, running, hget, hr⟩ := h.owned hc hw hk
      exact ⟨rfl, r, running, by rw [OrderedMap.get?_insert, if_neg hp, hget], hr⟩
  · rintro p k i ⟨r, running, hget, hk, hrunning, hi⟩
    rw [OrderedMap.get?_insert] at hget
    split at hget
    · cases hget
      cases hrunning
    · exact h.running ⟨r, running, hget, hk, hrunning, hi⟩

/-- Processes may be forgotten once they have no carefree child any more. -/
theorem Custody.forget (h : Custody s adds) (processes : OrderedMap String Registration)
    (hsub : ∀ p r, processes.get? p = some r → s.processes.get? p = some r)
    (hkept : ∀ (i : Nat) (c : Child), s.children[i]? = some c → c.Carefree →
      processes.get? c.process = s.processes.get? c.process) :
    Custody { s with processes } adds := by
  have hregistered : ∀ {p k}, registered { s with processes } p = some k →
      s.registered p = some k := by
    intro p k hk
    obtain ⟨r, hget, hr⟩ := registered_eq_some_iff.1 hk
    exact registered_eq_some_iff.2 ⟨r, hsub p r hget, hr⟩
  refine ⟨⟨h.next, fun hk => h.given (hregistered hk),
    fun hk hk' => h.distinct (hregistered hk) (hregistered hk'), h.issued, h.single,
    fun hc hcarefree => ?_⟩, fun hc hw hk => ?_, ?_⟩
  · rw [registered, hkept _ _ hc hcarefree]
    exact h.carefree hc hcarefree
  · obtain ⟨hp, r, running, hget, hruns⟩ := h.owned hc hw (hregistered hk)
    obtain ⟨r', hget', -⟩ := registered_eq_some_iff.1 hk
    obtain rfl := Option.some.inj (hget.symm.trans (hsub _ r' hget'))
    exact ⟨hp, r, running, hget', hruns⟩
  · rintro p k i ⟨r, running, hget, hruns⟩
    exact h.running ⟨r, running, hsub p r hget, hruns⟩

def Quelled (s : ChildSupervisor) (process : String) : Prop :=
  ∀ (i : Nat) (c : Child), s.children[i]? = some c → c.process = process → ¬ c.Carefree

theorem stop_of_runs (h : s.Runs p k i) :
    (s.stop p).supervisor = s.updateChild i fun c => { c with told := true } := by
  obtain ⟨r, running, hget, -, hrunning, rfl⟩ := h
  have hbind : (s.processes.get? p).bind (·.running) = some running := by
    rw [hget]
    exact hrunning
  unfold ChildSupervisor.stop
  rw [hbind]
  rfl

theorem quelled_stop (h : Custody s adds) (process : String) :
    (s.stop process).supervisor.Quelled process := by
  rintro i c hc rfl hcarefree
  have hruns := (h.stop c.process).runs_of_carefree hc hcarefree
  unfold Runs at hruns
  rw [processes_stop] at hruns
  rw [stop_of_runs hruns, getElem?_updateChild, Option.map_eq_some_iff] at hc
  obtain ⟨c', -, rfl⟩ := hc
  rw [if_pos rfl] at hcarefree
  cases hcarefree.2

theorem Quelled.stop (h : s.Quelled p) (process : String) :
    (s.stop process).supervisor.Quelled p := by
  unfold ChildSupervisor.stop
  cases (s.processes.get? process).bind (·.running) with
  | none => exact h
  | some running =>
    intro i c hc hp hcarefree
    obtain ⟨c', hc', hages⟩ := exists_ages (fun c _ => c.ages_told) hc
    exact h i c' hc' (hages.process.symm.trans hp) (hages.carefree hcarefree)

theorem Custody.remove (h : Custody s adds) (process : String) :
    Custody { (s.stop process).supervisor with processes := s.processes.erase process } adds := by
  apply (h.stop process).forget
  · intro p r hget
    rw [OrderedMap.get?_erase] at hget
    rw [processes_stop]
    split at hget
    · cases hget
    · exact hget
  · intro i c hc hcarefree
    have hp : process ≠ c.process := fun hp => quelled_stop h process i c hc hp.symm hcarefree
    rw [OrderedMap.get?_erase, if_neg hp, processes_stop]

/-- Telling processes to stop one by one quells them all, and forgets none. -/
theorem Custody.stopAll (ps : List String) (h : Custody s adds) :
    let s' := ps.foldl (fun s p => (s.stop p).supervisor) s
    Custody s' adds ∧ s'.processes = s.processes ∧ ∀ p, p ∈ ps ∨ s.Quelled p → s'.Quelled p := by
  induction ps generalizing s with
  | nil => exact ⟨h, rfl, fun p hp => hp.resolve_left List.not_mem_nil⟩
  | cons q ps ih =>
    obtain ⟨hcustody, hprocesses, hquelled⟩ := ih (h.stop q)
    refine ⟨hcustody, hprocesses.trans (processes_stop s q), fun p hp => hquelled p ?_⟩
    rcases hp with hp | hp
    · rcases List.mem_cons.1 hp with rfl | hp
      · exact Or.inr (quelled_stop h p)
      · exact Or.inl hp
    · exact Or.inr (hp.stop q)

theorem Custody.shutdown (h : Custody s adds) : Custody s.shutdown.supervisor adds := by
  obtain ⟨hcustody, hprocesses, hquelled⟩ := h.stopAll s.processes.keys
  refine hcustody.forget .empty (fun p r hget => by cases hget) ?_
  intro i c hc hcarefree
  -- A child that is still carefree would be of a registered process, and those were all told.
  obtain ⟨r, hget, -⟩ := registered_eq_some_iff.1 (hcustody.carefree hc hcarefree)
  rw [hprocesses] at hget
  have hkey : c.process ∈ s.processes.keys :=
    List.mem_map_of_mem (OrderedMap.get?_eq_some_iff.1 hget)
  exact absurd hcarefree (hquelled c.process (Or.inl hkey) i c hc rfl)

/-! ## Running children that come and go -/

theorem runs_setRunning {running : Option Running} :
    (s.setRunning process r running).Runs p k i ↔
      process = p ∧ r.incarnation = k ∧ (∃ x, running = some x ∧ x.child = i) ∨
        process ≠ p ∧ s.Runs p k i := by
  unfold Runs setRunning
  simp only [OrderedMap.get?_insert]
  by_cases hp : process = p <;> simp [hp]

/-- A process whose running child is acknowledged has the same running child. -/
theorem runs_acknowledge {running : Running} (hget : s.processes.get? process = some r)
    (hrunning : r.running = some running) :
    (s.setRunning process r (some { running with booted := true })).Runs p k i ↔ s.Runs p k i := by
  rw [runs_setRunning]
  by_cases hp : process = p
  · subst hp
    simp [Runs, hget, hrunning]
  · simp [hp]

theorem Custody.acknowledge (h : Custody s adds) {running : Running}
    (hget : s.processes.get? process = some r) (hrunning : r.running = some running) :
    Custody (s.setRunning process r (some { running with booted := true })) adds where
  toAccounted := h.toAccounted.setRunning hget _
  owned hc hw hk := by
    rw [registered_setRunning hget] at hk
    exact (h.owned hc hw hk).imp_right (runs_acknowledge hget hrunning).2
  running hruns := h.running ((runs_acknowledge hget hrunning).1 hruns)

theorem getElem?_concat_cases {l : List Child} {d : Child} (h : (l ++ [d])[i]? = some c) :
    l[i]? = some c ∨ i = l.length ∧ c = d := by
  rcases Nat.lt_or_ge i l.length with hlt | hge
  · rw [List.getElem?_append_left hlt] at h
    exact Or.inl h
  · rw [List.getElem?_append_right hge, List.getElem?_singleton] at h
    split at h
    · exact Or.inr ⟨by omega, (Option.some.inj h).symm⟩
    · cases h

theorem getElem?_children_spawn {process : String} {r : Registration}
    (hc : (s.spawn process r).children[i]? = some c) : s.children[i]? = some c ∨
      i = s.children.length ∧ c = { process, incarnation := r.incarnation, launch := r.launch } :=
  getElem?_concat_cases hc

theorem registered_spawn {process : String} (hget : s.processes.get? process = some r) :
    (s.spawn process r).registered = s.registered :=
  registered_setRunning (s := { s with children := _ }) hget _

theorem runs_spawn {process : String} {r : Registration} : (s.spawn process r).Runs p k i ↔
    process = p ∧ r.incarnation = k ∧ s.children.length = i ∨ process ≠ p ∧ s.Runs p k i := by
  unfold ChildSupervisor.spawn
  rw [runs_setRunning]
  simp [Runs]

/-- No watched child has the incarnation of a process that does not run. -/
theorem Custody.incarnation_ne (h : Custody s adds) (hget : s.processes.get? process = some r)
    (hnone : r.running = none) (hc : s.children[i]? = some c) (hw : c.Watched) :
    c.incarnation ≠ r.incarnation := by
  intro heq
  obtain ⟨-, r', running, hget', -, hrunning, -⟩ :=
    h.owned hc hw (registered_eq_some_iff.2 ⟨r, hget, heq.symm⟩)
  obtain rfl := Option.some.inj (hget.symm.trans hget')
  rw [hnone] at hrunning
  cases hrunning

theorem Custody.accounted_spawn (h : Custody s adds) (hget : s.processes.get? process = some r)
    (hnone : r.running = none) : Accounted (s.spawn process r) adds := by
  have hregistered := registered_spawn hget
  have hk : s.registered process = some r.incarnation := registered_eq_some_iff.2 ⟨r, hget, rfl⟩
  refine ⟨h.next, ?_, ?_, ?_, ?_, ?_⟩
  · rw [hregistered]
    exact h.given
  · rw [hregistered]
    exact h.distinct
  · intro i c hc
    rcases getElem?_children_spawn hc with hc | ⟨-, rfl⟩
    · exact h.issued hc
    · exact h.given hk
  · intro i j c d hc hd hwc hwd heq
    rcases getElem?_children_spawn hc with hc | ⟨rfl, rfl⟩ <;>
      rcases getElem?_children_spawn hd with hd | ⟨rfl, rfl⟩
    · exact h.single hc hd hwc hwd heq
    · exact absurd heq (h.incarnation_ne hget hnone hc hwc)
    · exact absurd heq.symm (h.incarnation_ne hget hnone hd hwd)
    · rfl
  · intro i c hc hcarefree
    rw [hregistered]
    rcases getElem?_children_spawn hc with hc | ⟨-, rfl⟩
    · exact h.carefree hc hcarefree
    · exact hk

theorem Custody.spawn (h : Custody s adds) (hget : s.processes.get? process = some r)
    (hnone : r.running = none) : Custody (s.spawn process r) adds := by
  have hk : s.registered process = some r.incarnation := registered_eq_some_iff.2 ⟨r, hget, rfl⟩
  refine ⟨h.accounted_spawn hget hnone, ?_, ?_⟩
  · intro i c p hc hw hp
    rw [registered_spawn hget] at hp
    rw [runs_spawn]
    rcases getElem?_children_spawn hc with hc | ⟨rfl, rfl⟩
    · obtain ⟨rfl, hruns⟩ := h.owned hc hw hp
      refine ⟨rfl, Or.inr ⟨fun heq => ?_, hruns⟩⟩
      rw [← heq, hk] at hp
      exact h.incarnation_ne hget hnone hc hw (Option.some.inj hp).symm
    · obtain rfl := h.distinct hk hp
      exact ⟨rfl, Or.inl ⟨rfl, rfl, rfl⟩⟩
  · intro p k i hi
    rcases runs_spawn.1 hi with ⟨rfl, rfl, rfl⟩ | ⟨-, hi⟩
    · exact ⟨_, List.getElem?_concat_length, rfl, rfl, Or.inl rfl⟩
    · obtain ⟨c, hc, hrest⟩ := h.running hi
      have hlt := (List.getElem?_eq_some_iff.1 hc).1
      exact ⟨c, (List.getElem?_append_left hlt).trans hc, hrest⟩

/-! ## Watchers at work -/

/-- A watcher does nothing before its child has ended. Then it clears the child, and the process of
the child if that is registered under the incarnation of the child. -/
theorem clearProcess_outcome (s : ChildSupervisor) (i : Nat) :
    (∀ c, s.children[i]? = some c → c.stage ≠ .ended) ∧ s.clearProcess i = s ∨
      ∃ c cleared, s.children[i]? = some c ∧ c.stage = .ended ∧
        cleared = (s.updateChild i fun c => { c with stage := .cleared }) ∧
        (s.registered c.process ≠ some c.incarnation ∧ s.clearProcess i = cleared ∨
          ∃ r, s.processes.get? c.process = some r ∧ r.incarnation = c.incarnation ∧
            s.clearProcess i = cleared.setRunning c.process r none) := by
  unfold clearProcess
  cases hchild : s.children[i]? with
  | none => exact Or.inl ⟨fun c hc => (nomatch hc), rfl⟩
  | some c =>
    by_cases hended : c.stage = .ended
    · refine Or.inr ⟨c, _, rfl, hended, rfl, ?_⟩
      simp only [hended, if_true]
      cases hget : (s.updateChild i fun c => { c with stage := .cleared }).processes.get?
          c.process with
      | none =>
        refine Or.inl ⟨fun hregistered => ?_, rfl⟩
        obtain ⟨r, hr, -⟩ := registered_eq_some_iff.1 hregistered
        cases hget.symm.trans hr
      | some r =>
        by_cases hsame : r.incarnation = c.incarnation
        · exact Or.inr ⟨r, hget, hsame, if_pos hsame⟩
        · refine Or.inl ⟨fun hregistered => ?_, if_neg hsame⟩
          obtain ⟨r', hr', hsame'⟩ := registered_eq_some_iff.1 hregistered
          obtain rfl := Option.some.inj (hget.symm.trans hr')
          exact hsame hsame'
    · exact Or.inl ⟨fun c' hc' => Option.some.inj hc' ▸ hended, if_neg hended⟩

theorem reportExit_of_cleared (hchild : s.children[i]? = some c) (hcleared : c.stage = .cleared)
    (uptime : Duration) :
    s.reportExit i uptime = (s.updateChild i fun c => { c with stage := .reported },
      [.processStopped c.process c.incarnation uptime]) := by
  unfold reportExit
  rw [hchild]
  exact if_pos hcleared

theorem reportExit_of_not_cleared (h : ∀ c, s.children[i]? = some c → c.stage ≠ .cleared)
    (uptime : Duration) : s.reportExit i uptime = (s, []) := by
  unfold reportExit
  cases hchild : s.children[i]? with
  | none => rfl
  | some c => exact if_neg (h c hchild)


theorem Custody.reportExit (h : Custody s adds) (i : Nat) (uptime : Duration) :
    Custody (s.reportExit i uptime).1 adds := by
  by_cases hcleared : ∃ c, s.children[i]? = some c ∧ c.stage = .cleared
  · obtain ⟨c, hc, hstage⟩ := hcleared
    rw [reportExit_of_cleared hc hstage]
    refine h.updateChild i (fun c _ => Child.ages_unwatched (Or.inr rfl) c) fun c' hc' hw _ => ?_
    obtain rfl := Option.some.inj (hc.symm.trans hc')
    rcases hw with hw | hw <;> cases hstage.symm.trans hw
  · rw [reportExit_of_not_cleared fun c hc hstage => hcleared ⟨c, hc, hstage⟩]
    exact h

/-- The watcher of a child whose process is still registered under its incarnation leaves the
process without a running child. -/
theorem Custody.vacate (h : Custody s adds) (hc : s.children[i]? = some c) (hw : c.Watched)
    (hget : s.processes.get? c.process = some r) (hsame : r.incarnation = c.incarnation) :
    Custody ((s.updateChild i fun c => { c with stage := .cleared }).setRunning c.process r none)
      adds := by
  let cleared := s.updateChild i fun c => { c with stage := .cleared }
  have hregistered : (cleared.setRunning c.process r none).registered = s.registered :=
    registered_setRunning (s := cleared) hget none
  have hruns : ∀ {p k j}, (cleared.setRunning c.process r none).Runs p k j ↔
      c.process ≠ p ∧ s.Runs p k j := by
    intro p k j
    rw [runs_setRunning]
    simp [Runs, cleared, ChildSupervisor.updateChild]
  have hunwatched : ∀ {d}, cleared.children[i]? = some d → ¬ d.Watched := by
    intro d hd hw
    simp only [cleared] at hd
    rw [getElem?_updateChild, hc, Option.map_some, if_pos rfl] at hd
    cases hd
    rcases hw with hw | hw <;> cases hw
  have haged : ∀ d, s.children[i]? = some d → d.Ages { d with stage := .cleared } :=
    fun d _ => Child.ages_unwatched (Or.inl rfl) d
  refine ⟨(h.toAccounted.updateChild haged).setRunning hget none, ?_, ?_⟩
  · intro j d p hd hwd hp
    obtain ⟨d', hd', hage⟩ := exists_ages haged hd
    rw [hregistered, hage.incarnation] at hp
    rw [hruns, hage.process, hage.incarnation]
    obtain ⟨hprocess, hrun⟩ := h.owned hd' (hage.watched hwd) hp
    refine ⟨hprocess, fun heq => ?_, hrun⟩
    -- Of the children of this incarnation only number `i` was watched, and it is not any more.
    have hk : s.registered c.process = some c.incarnation := registered_eq_some_iff.2 ⟨r, hget, hsame⟩
    rw [heq, hp] at hk
    obtain rfl := h.single hd' hc (hage.watched hwd) hw (Option.some.inj hk)
    exact hunwatched hd hwd
  · intro p k j hj
    obtain ⟨hp, hj⟩ := hruns.1 hj
    obtain ⟨d, hd, rfl, hrest⟩ := h.running hj
    have hij : i ≠ j := by
      rintro rfl
      rw [hc] at hd
      exact hp (congrArg Child.process (Option.some.inj hd))
    refine ⟨d, ?_, rfl, hrest⟩
    exact (getElem?_updateChild ..).trans (by rw [hd, Option.map_some, if_neg hij])

theorem Custody.clearProcess (h : Custody s adds) (i : Nat) : Custody (s.clearProcess i) adds := by
  rcases s.clearProcess_outcome i with ⟨-, hsame⟩ | ⟨c, cleared, hc, hstage, rfl,
    ⟨hreplaced, hkept⟩ | ⟨r, hget, hr, hcleared⟩⟩
  · rw [hsame]
    exact h
  · rw [hkept]
    refine h.updateChild i (fun c _ => Child.ages_unwatched (Or.inl rfl) c) fun c' hc' _ hruns => ?_
    obtain rfl := Option.some.inj (hc.symm.trans hc')
    exact absurd hruns.registered hreplaced
  · rw [hcleared]
    exact h.vacate hc (Or.inr hstage) hget hr

end ChildSupervisor

end HostSteward
