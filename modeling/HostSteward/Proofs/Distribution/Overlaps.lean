import HostSteward.Proofs.Distribution.Traffic

/-!
# Overlapping calls

At most one call is with the executor for each record of a server. A record that is replaced while
a call for it is under way does not hold up the batches of its successor, so two calls for one server
overlap exactly then. Whatever is replaced meanwhile, every batch is delivered as it should be.
-/

namespace HostSteward

namespace Interleaving

variable {P : Steward → Prop} {origin : Steward} {s : Interleaving}

structure Safe (P : Steward → Prop) (s : Interleaving) : Prop where
  now : P s.host
  errands : ∀ e ∈ s.errands, ∀ host a, (e.resume host a).Meets
    (.between fun before after => P before → P after) (fun _ host before => P before → P host) host

theorem Safe.proceed (h : Safe P s) {p : Program Unit}
    (hp : p.Meets (.between fun before after => P before → P after)
      (fun _ host before => P before → P host) s.host) : Safe P (s.proceed p) := by
  cases p with
  | done host value => exact ⟨hp h.now, h.errands⟩
  | ask host r resume =>
    refine ⟨hp.1 h.now, fun e he => ?_⟩
    rcases List.mem_append.1 he with he | he
    · exact h.errands e he
    · obtain rfl := List.mem_singleton.1 he
      exact fun host' a => hp.2 host' host' a rfl

/-- What no leg hurts holds all the time. -/
theorem Reaches.holds (h : Reaches { host := origin } s)
    (hlegs : ∀ o, Occasion.Legs o fun before after => P before → P after) (horigin : P origin) :
    P s.host := by
  suffices hsafe : Safe P s from hsafe.now
  induction h with
  | refl => exact ⟨horigin, nofun⟩
  | @tail s s' _ hstep ih =>
    cases hstep with
    | begins o => exact ih.proceed (hlegs o s.host)
    | answers k a hasked hfresh =>
      refine ⟨ih.now, fun e he => ?_⟩
      rcases List.mem_or_eq_of_mem_set he with he | rfl
      · exact ih.errands e he
      · exact fun host a => ih.errands _ (List.mem_of_getElem? hasked) host a
    | @resumes k r a resume hanswered =>
      have hrest : Safe P { s with errands := s.errands.eraseIdx k } :=
        ⟨ih.now, fun e he => ih.errands e (List.mem_of_mem_eraseIdx he)⟩
      exact hrest.proceed (ih.errands _ (List.mem_of_getElem? hanswered) s.host a)

end Interleaving

namespace Traffic

def beginning (settings : Settings) (model : Option HostModel) (inDomain : Bool) : Traffic where
  steward := .beginning settings model inDomain

section Runs

variable {settings : Settings} {model : Option HostModel} {inDomain : Bool} {t t' : Traffic}
  {deeds : List Deed} {p q : Place} {s s' : Server}

theorem exclusive_beginning : (beginning settings model inDomain).Exclusive := by
  rintro p q s s' ⟨b, hb, -⟩
  cases hb

theorem Run.fate_of_beginning (h : Run (beginning settings model inDomain) deeds t) (p : Place) :
    t.Fate p (deeds.filterMap (Deed.found? p)) (deeds.filterMap (Deed.call? p)) :=
  have hnothing : (beginning settings model inDomain).Fate p [] [] := ⟨rfl, rfl⟩
  h.fate hnothing

theorem Run.sound (h : Run (beginning settings model inDomain) deeds t) :
    t.roster.Sound t.steward.host.nextNumber :=
  (Interleaving.apart_beginning.reaches h.reaches).sound

theorem Run.configured (h : Run (beginning settings none inDomain) deeds t) :
    t.steward.host.Configured settings :=
  h.reaches.holds (fun o => Occasion.legs_of_keeps (fun _ h => h) (mastered_configured.operation o))
    (configured_make settings inDomain)

/-- The steward may go on for itself. -/
theorem Run.mind (h : Run (beginning settings model inDomain) deeds t) {after : Interleaving}
    (hreach : Interleaving.Reaches t.steward after) : ∃ more,
      Run (beginning settings model inDomain) (deeds ++ more) { t with steward := after } := by
  induction hreach with
  | refl => exact ⟨[], by rwa [List.append_nil]⟩
  | tail _ hstep ih =>
    obtain ⟨more, hrun⟩ := ih
    exact ⟨more ++ [.minded], by rw [← List.append_assoc]; exact hrun.snoc (.minded hstep)⟩

/-- A record that the executor is busy with was tracked when its batch began. -/
theorem Run.exists_tracked (h : Run (beginning settings model inDomain) deeds t) (hp : t.Flies p s) :
    ∃ earlier t', Run (beginning settings model inDomain) earlier t' ∧
      t'.roster.get? s.process = some s := by
  obtain ⟨b, hb, hf⟩ := hp
  have hfate := (h.fate_of_beginning p).of_batch? hb
  unfold Batch.Fate at hfate
  rw [hf] at hfate
  obtain ⟨-, hfound, -⟩ := hfate
  obtain ⟨earlier, t', process, hrun, hget⟩ := h.exists_found (p := p) (s := s) (by simp [hfound])
  exact ⟨earlier, t', hrun, hrun.sound.keyed hget ▸ hget⟩

/-- All records of a process have the identity of the same configured server. -/
theorem Run.identity_eq (h : Run (beginning settings none inDomain) deeds t)
    (hvalid : settings.problem? = none) (hp : t.Flies p s)
    (hget : t.roster.get? s.process = some s') : s'.identity = s.identity := by
  obtain ⟨earlier, t', hrun, hget'⟩ := h.exists_tracked hp
  obtain ⟨spec, hspec, hprocess, -⟩ := hrun.configured.known hget'
  rw [hprocess] at hget hget'
  rw [h.configured.identity_eq hvalid hspec hget, hrun.configured.identity_eq hvalid hspec hget']

/-- The executor can be rid of what it does for a record, and of nothing else. -/
theorem exists_rid (t : Traffic) (hexclusive : t.Exclusive) (number : Nat) :
    ∃ more t', Run t more t' ∧ (∀ deed ∈ more, ∃ q, deed = .answered q) ∧
      t'.steward = t.steward ∧ (∀ p s, t'.Flies p s → s.number ≠ number) ∧
      ∀ p s, t.Flies p s → s.number ≠ number → t'.Flies p s := by
  by_cases hbusy : ∃ p s, t.Flies p s ∧ s.number = number
  · obtain ⟨p, s, ⟨b, hb, hf⟩, hnumber⟩ := hbusy
    refine ⟨[.answered p], _, Run.nil.snoc (.answered (.ok []) hb hf), ?_, rfl, ?_, ?_⟩
    · intro deed hdeed
      exact ⟨p, List.mem_singleton.1 hdeed⟩
    · intro q u hq
      rw [flies_setBatch hb] at hq
      by_cases hpq : p = q
      · rw [if_pos hpq] at hq
        exact absurd hq (answer_ne_inFlight b s u (.ok []))
      · rw [if_neg hpq] at hq
        exact fun hu => hpq (hexclusive _ _ _ _ ⟨b, hb, hf⟩ hq (hnumber.trans hu.symm))
    · intro q u hq hu
      rw [flies_setBatch hb]
      by_cases hpq : p = q
      · subst hpq
        obtain ⟨b', hb', hf'⟩ := hq
        obtain rfl : b = b' := Option.some.inj (hb.symm.trans hb')
        obtain rfl := Progress.inFlight.inj (hf.symm.trans hf')
        exact absurd hnumber hu
      · rwa [if_neg hpq]
  · exact ⟨[], t, .nil, by simp, rfl, fun p s hp hs => hbusy ⟨p, s, hp, hs⟩, fun p s hp _ => hp⟩

/-- A batch that comes for a tracked record that the executor is not busy with is delivered at
once. -/
theorem exists_flight (t : Traffic) (hget : t.roster.get? s.process = some s)
    (hfree : ∀ p u, t.Flies p u → u.number ≠ s.number) {changes : List ServerChange}
    (hsome : changes.isEmpty = false) (rollback : Bool) :
    ∃ t' q, Run t [.submitted (.single (.identity s.identity) changes rollback),
        .began q (some s), .delivered q ⟨s.identity, changes, rollback⟩] t' ∧
      t'.steward = t.steward ∧ t'.Flies q s ∧ (∀ u, ¬ t.Flies q u) ∧
      ∀ p u, t.Flies p u → t'.Flies p u := by
  let d := Dispatch.single (.identity s.identity) changes rollback
  let q : Place := (t.dispatches.length, 0)
  let b : Batch := { address := .identity s.identity, changes, rollback }
  let t₁ : Traffic := { t with dispatches := t.dispatches ++ [d] }
  have hidle : ∀ b ∈ d.batches, b.progress = .idle := by simp [d, Dispatch.single]
  have hb₁ : t₁.batch? q = some b := by
    rw [batch?_submit, if_pos rfl]
    rfl
  have hturn : t₁.hasTurn q := by simp [hasTurn, t₁, q, d, Dispatch.mayBegin, Dispatch.single]
  have hbegun := Step.began hb₁ rfl hturn
  have hfound : t₁.roster.get? b.address.process = some s := hget
  rw [hfound] at hbegun
  let b₂ := { b with progress := .queued s }
  have hqueued : b.begin (some s) = b₂ := by simp [Batch.begin, b, hsome, b₂]
  rw [hqueued] at hbegun
  have hb₂ : (t₁.setBatch q b₂).batch? q = some b₂ := by rw [batch?_setBatch hb₁, if_pos rfl]
  have hflies₂ {p u} : (t₁.setBatch q b₂).Flies p u ↔ p ≠ q ∧ t.Flies p u := by
    rw [flies_setBatch hb₁, flies_submit hidle]
    by_cases hp : q = p
    · have hqueued : b₂.progress ≠ .inFlight u := by simp [b₂]
      rw [if_pos hp]
      exact iff_of_false hqueued fun h => h.1 hp.symm
    · rw [if_neg hp]
      exact (and_iff_right fun h => hp h.symm).symm
  have hdelivered := Step.delivered (s := s) hb₂ rfl (free_of_not_flies fun p u hp =>
    hfree p u (hflies₂.1 hp).2)
  have hnew (u : Server) : ¬ t.Flies q u := by
    rintro ⟨b, hb, -⟩
    cases (t.batch?_length 0).symm.trans hb
  refine ⟨_, q, ((Run.nil.snoc (.submitted hidle)).snoc hbegun).snoc hdelivered, rfl, ?_, hnew, ?_⟩
  · rw [flies_setBatch hb₂, if_pos rfl]
  · intro p u hp
    have hne : p ≠ q := fun heq => hnew u (heq ▸ hp)
    rw [flies_setBatch hb₂, if_neg hne.symm]
    exact hflies₂.2 ⟨hne, hp⟩

/-- While the executor is busy with a record that has been replaced, it can be given another batch
of the same server, without anything being done about servers. -/
theorem Run.overtakes (h : Run (beginning settings model inDomain) deeds t) (hp : t.Flies p s)
    (hget : t.roster.get? s.process = some s') (hnumber : s'.number ≠ s.number)
    {changes : List ServerChange} (hsome : changes.isEmpty = false) (rollback : Bool) :
    ∃ more t' q, Run (beginning settings model inDomain) (deeds ++ more) t' ∧
      (∀ deed ∈ more, deed ≠ .minded) ∧ .delivered q ⟨s'.identity, changes, rollback⟩ ∈ more ∧
      p ≠ q ∧ t'.Flies p s ∧ t'.Flies q s' := by
  obtain ⟨rid, t₁, hrid, hanswers, hsteward, hfree, hkept⟩ :=
    exists_rid t (h.exclusive exclusive_beginning) s'.number
  have hp₁ : t₁.Flies p s := hkept p s hp hnumber.symm
  have hprocess : s'.process = s.process := h.sound.keyed hget
  have hget₁ : t₁.roster.get? s'.process = some s' := by
    unfold roster
    rw [hsteward, hprocess]
    exact hget
  obtain ⟨t₂, q, hflight, -, hq, hnew, hkept⟩ := exists_flight t₁ hget₁ hfree hsome rollback
  refine ⟨_, t₂, q, h.append (hrid.append hflight), ?_, ?_, ?_, hkept p s hp₁, hq⟩
  · intro deed hdeed
    rcases List.mem_append.1 hdeed with hdeed | hdeed
    · obtain ⟨r, rfl⟩ := hanswers deed hdeed
      exact nofun
    · rintro rfl
      simp at hdeed
  · simp
  · rintro rfl
    exact hnew s hp₁

/-- In whatever order the steward and any number of dispatches go on: -/
theorem calls_exclude_by_record (h : Run (beginning settings model inDomain) deeds t) :
    -- Two calls that are under way are for different records, of which one has been replaced if they
    -- are for one server.
    (∀ p q s s', t.Flies p s → t.Flies q s' → p ≠ q → s.number ≠ s'.number ∧
      (s.identity = s'.identity → ¬ (t.roster.tracks s.process s.number ∧
        t.roster.tracks s'.process s'.number))) ∧
    -- A record that is replaced while a call for it is under way is no obstacle to another call.
    (∀ p s s', t.Flies p s → t.roster.get? s.process = some s' → s'.number ≠ s.number →
      (model = none → settings.problem? = none → s'.identity = s.identity) ∧
      ∀ changes rollback, changes ≠ [] → ∃ more t' q,
        Run (beginning settings model inDomain) (deeds ++ more) t' ∧
        (∀ deed ∈ more, deed ≠ .minded) ∧ .delivered q ⟨s'.identity, changes, rollback⟩ ∈ more ∧
        p ≠ q ∧ t'.Flies p s ∧ t'.Flies q s') ∧
    -- Every batch has its fate.
    t.dispatches.map Dispatch.fresh = deeds.filterMap Deed.dispatch? ∧
    (∀ p b, t.batch? p = some b →
      b.Fate (deeds.filterMap (Deed.found? p)) (deeds.filterMap (Deed.call? p))) ∧
    -- All that batches do brings them nearer to their ends, and they can all come there.
    (∀ deed t', Step t deed t' → deed.isProgress → t'.work < t.work) ∧
    ∃ more t', Run (beginning settings model inDomain) (deeds ++ more) t' ∧
      t'.steward = t.steward ∧ ∀ d ∈ t'.dispatches, d.isSettled := by
  refine ⟨fun p q s s' hp hq hne => ?_, fun p s s' hp hget hnumber => ?_, h.fresh,
    fun p b hb => (h.fate_of_beginning p).of_batch? hb, fun deed t' => Step.work_lt, ?_⟩
  · have hnumber : s.number ≠ s'.number :=
      fun heq => hne (h.exclusive exclusive_beginning _ _ _ _ hp hq heq)
    refine ⟨hnumber, fun hidentity ⟨htracked, htracked'⟩ => hnumber ?_⟩
    have hprocess : s.process = s'.process := congrArg Identity.processName hidentity
    unfold Roster.tracks at htracked htracked'
    rw [hprocess] at htracked
    cases hget : t.roster.get? s'.process with
    | none => simp [hget] at htracked
    | some u =>
      simp only [hget, decide_eq_true_eq] at htracked htracked'
      exact htracked.symm.trans htracked'
  · refine ⟨?_, fun changes rollback hsome => ?_⟩
    · rintro rfl hvalid
      exact h.identity_eq hvalid hp hget
    · exact h.overtakes hp hget hnumber (List.isEmpty_eq_false_iff.2 hsome) rollback
  · obtain ⟨more, t', hmore, hsame, hdone⟩ := exists_settled t
    exact ⟨more, t', h.append hmore, hsame, hdone⟩

/-- A server is started, stopped and started again. -/
theorem exists_replaced :
    ∃ s₁ s₂ : Interleaving, ∃ first second : Server,
      Interleaving.Reaches (.beginning {} (some (.single "a" ["true"])) false) s₁ ∧
        Interleaving.Reaches s₁ s₂ ∧ s₁.host.roster.get? first.process = some first ∧
        s₂.host.roster.get? first.process = some second ∧ second.number ≠ first.number ∧
        second.identity = first.identity := by
  have hstart : Interleaving.Reaches (.beginning {} (some (.single "a" ["true"])) false) _ :=
    .single (.begins (.startServer "a"))
  have hadded := (hstart.tail (.answers 0 (r := .command (.add "Server:a" ⟨["true"], none, .empty⟩))
    (.ok 1) rfl fun _ _ => List.not_mem_nil)).tail (.resumes 0 rfl)
  have honward {s s' : Interleaving} (_ : s.Reaches s') : s'.Reaches s' := .refl
  have hstop := (honward hadded).tail (.begins (.stopServer "a" (-1)))
  have hstopped := (hstop.tail (.answers 1 (r := .command (.stop "Server:a")) (.ok ()) rfl
    (by simp [Request.given]))).tail (.resumes 1 rfl)
  have hremoved := (hstopped.tail (.answers 1 (r := .command (.remove "Server:a")) (.ok ()) rfl
    (by simp [Request.given]))).tail (.resumes 1 rfl)
  have hagain := hremoved.tail (.begins (.startServer "a"))
  let spec : ServerSpec := { name := "a", group := "g", command := ["true"] }
  exact ⟨_, _, { Server.ofSpec 0 "h" spec .booting with incarnation := some 1 },
    .ofSpec 1 "h" spec .booting, hadded, hagain, rfl, rfl, by decide, rfl⟩

/-- A server is stopped and started while a call for it is under way, and then there is a second
one. -/
theorem calls_overlap_after_restart :
    ∃ deeds t p q s s', Run (beginning {} (some (.single "a" ["true"])) false) deeds t ∧
      p ≠ q ∧ t.Flies p s ∧ t.Flies q s' ∧ s.identity = s'.identity := by
  let changes : List ServerChange := [⟨"set", .null⟩]
  have hsome : changes.isEmpty = false := rfl
  obtain ⟨s₁, s₂, first, second, h₁, h₂, hfirst, hsecond, hnumber, hidentity⟩ := exists_replaced
  obtain ⟨_, hlaunched⟩ := Run.mind .nil h₁
  have hquiet (p : Place) (s : Server) : ¬ Flies { steward := s₁ } p s := by
    rintro ⟨b, hb, -⟩
    cases hb
  obtain ⟨t, p, hflight, hsame, hp, -⟩ := exists_flight { steward := s₁ } hfirst
    (fun p s h => absurd h (hquiet p s)) hsome true
  have h₂ : Interleaving.Reaches t.steward s₂ := by
    rw [hsame]
    exact h₂
  obtain ⟨_, hagain⟩ := (hlaunched.append hflight).mind h₂
  obtain ⟨-, hreplaced, -⟩ := calls_exclude_by_record hagain
  obtain ⟨more, t', q, hrun, -, -, hne, hp', hq⟩ :=
    (hreplaced p first second hp hsecond hnumber).2 changes true (by decide)
  exact ⟨_, t', p, q, first, second, hrun, hne, hp', hq, hidentity.symm⟩

end Runs

end Traffic

end HostSteward
