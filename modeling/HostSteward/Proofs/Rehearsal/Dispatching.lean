import HostSteward.Proofs.Rehearsal.Turns

/-!
# Dispatching on a stage

A stage goes over the batches of a dispatch in rounds and lets time pass in between. What it does
is a complete run of the dispatch: every batch takes its steps in their order, finds the servers
that are tracked at that moment, and is settled when the rounds are over.
-/

namespace HostSteward

namespace Rehearsal.Stage

open Dispatch

variable {S : List Delivery → Stage → Prop} {d₀ : Dispatch} {calls : List Delivery} {s : Stage}
  {t : Traffic} {i : Nat} {b : Batch} {server : Server}

/-- Batches begin in their order, those of one server are taken in their order, and an answer is
awaited for exactly those in flight. -/
structure Orderly (S : List Delivery → Stage → Prop) (d₀ : Dispatch) (calls : List Delivery)
    (t : Traffic) : Prop where
  reached : Reaches (Seen S) (Heard S) d₀ calls t.dispatch
  begun : ∀ j k, j < k → At t.dispatch j Idle → ∀ b, t.dispatch.batches[k]? = some b → Idle b
  taken : ∀ j k number, j < k → At t.dispatch k (InFlight number) →
    ¬ At t.dispatch j (Queued number)
  answers : ∀ i b, t.dispatch.batches[i]? = some b →
    ((∃ server, b.progress = .inFlight server) ↔ ∃ m, (i, m) ∈ t.answersAt)
  bound : ∀ i m, (i, m) ∈ t.answersAt → i < t.dispatch.batches.length

/-- The batches up to a position have had their turns: one that is queued waits for an earlier one
in flight, one that is idle for an earlier one that is not settled. -/
structure Passed (t : Traffic) (i : Nat) : Prop where
  queued : ∀ j < i, ∀ number, At t.dispatch j (Queued number) →
    ∃ k < j, At t.dispatch k (InFlight number)
  idle : ∀ j < i, At t.dispatch j Idle →
    t.dispatch.concurrent = false ∧ ∃ k < j, At t.dispatch k Open

theorem mayBegin_eq_false {d : Dispatch} (h : d.mayBegin i = false) :
    d.concurrent = false ∧ ∃ k < i, At d k Open := by
  rw [mayBegin, Bool.or_eq_false_iff, List.all_eq_false] at h
  obtain ⟨hmode, b, hb, hopen⟩ := h
  obtain ⟨k, hk, rfl⟩ := List.mem_take_iff_getElem.1 hb
  exact ⟨hmode, k, by omega, d.batches[k], List.getElem?_eq_getElem _, hopen⟩

theorem not_at_open {d : Dispatch} (h : d.mayBegin i) (hmode : d.concurrent = false) {k : Nat}
    (hk : k < i) : ¬ At d k Open := by
  rintro ⟨b, hb, hopen⟩
  rw [mayBegin, hmode, Bool.false_or, List.all_eq_true] at h
  obtain ⟨hlt, rfl⟩ := List.getElem?_eq_some_iff.1 hb
  exact hopen (h _ (List.mem_take_iff_getElem.2 ⟨k, by omega, rfl⟩))

variable {b' : Batch} {calls' : List Delivery} {p : Stage × Traffic}

theorem Fate.idle_of_idle (h : Fate s t i b b') (hidle : Idle b') :
    Idle b ∧ t.dispatch.mayBegin i = false := by
  cases h with
  | settled h hb =>
    obtain ⟨outcomes, ho⟩ := Batch.isSettled_iff.1 h
    cases hidle.symm.trans ho
  | held h server hf hdue =>
    subst h
    cases hidle.symm.trans hf
  | taken server hf hfree hb => cases hidle.symm.trans hf
  | queued server hq j hne hbusy hb => cases hidle.symm.trans hq
  | idle h hidle hturn =>
    subst h
    exact ⟨hidle, hturn⟩

theorem Fate.mayBegin_of_idle (h : Fate s t i b b') (hidle : Idle b) (hne : ¬ Idle b') :
    t.dispatch.mayBegin i := by
  cases h with
  | settled h hb => exact hb hidle
  | held h server hf hdue => cases hidle.symm.trans hf
  | taken server hf hfree hb =>
    rcases hb with hq | ⟨-, hturn⟩
    · cases hidle.symm.trans hq
    · exact hturn
  | queued server hq j hne hbusy hb =>
    rcases hb with hq | ⟨-, hturn⟩
    · cases hidle.symm.trans hq
    · exact hturn
  | idle h hidle hturn => exact absurd (h ▸ hidle) hne

theorem Fate.inFlight (h : Fate s t i b b') {number : Nat} (hf : InFlight number b') :
    InFlight number b ∨ ∀ j, ¬ At t.dispatch j (InFlight number) := by
  obtain ⟨server, hf, rfl⟩ := hf
  cases h with
  | settled h hb =>
    obtain ⟨outcomes, ho⟩ := Batch.isSettled_iff.1 h
    cases hf.symm.trans ho
  | held h server' hf' hdue =>
    subst h
    exact Or.inl ⟨server, hf, rfl⟩
  | taken server' hf' hfree hb =>
    cases hf.symm.trans hf'
    exact Or.inr hfree
  | queued server' hq j hne hbusy hb => cases hf.symm.trans hq
  | idle h hidle hturn =>
    subst h
    cases hf.symm.trans hidle

theorem Fate.waits (h : Fate s t i b b') {number : Nat} (hq : Queued number b') :
    (Queued number b ∨ Idle b) ∧ ∃ j, j ≠ i ∧ At t.dispatch j (InFlight number) := by
  obtain ⟨server, hq, rfl⟩ := hq
  cases h with
  | settled h hb =>
    obtain ⟨outcomes, ho⟩ := Batch.isSettled_iff.1 h
    cases hq.symm.trans ho
  | held h server' hf hdue =>
    subst h
    cases hq.symm.trans hf
  | taken server' hf hfree hb => cases hq.symm.trans hf
  | queued server' hq' j hne hbusy hb =>
    cases hq.symm.trans hq'
    exact ⟨hb.imp (fun h => ⟨_, h, rfl⟩) (·.1), j, hne, hbusy⟩
  | idle h hidle hturn =>
    subst h
    cases hq.symm.trans hidle

/-- Batches still begin in their order: one that begins at its turn has none before it that is
idle. -/
theorem Orderly.begun_turn (h : Orderly S d₀ calls t) (hpassed : Passed t i)
    (hb : t.dispatch.batches[i]? = some b) (hfate : Fate s t i b b') {j k : Nat} (hjk : j < k)
    (hidle : At (t.dispatch.setBatch i b') j Idle) {c : Batch}
    (hc : (t.dispatch.setBatch i b').batches[k]? = some c) : Idle c := by
  by_cases hk : i = k
  · subst hk
    rw [getElem?_setBatch hb, if_pos rfl] at hc
    obtain rfl : b' = c := Option.some.inj hc
    rw [at_setBatch_ne hb (by omega)] at hidle
    by_contra hne
    have hmay := hfate.mayBegin_of_idle (h.begun j i hjk hidle b hb) hne
    obtain ⟨hmode, -⟩ := hpassed.idle j hjk hidle
    obtain ⟨a, ha, hidle⟩ := hidle
    exact not_at_open hmay hmode hjk ⟨a, ha, open_of_progress hidle (by simp)⟩
  · rw [getElem?_setBatch hb, if_neg hk] at hc
    refine h.begun j k hjk ?_ c hc
    by_cases hj : j = i
    · subst hj
      rw [at_setBatch hb] at hidle
      exact ⟨b, hb, (hfate.idle_of_idle hidle).1⟩
    · rwa [at_setBatch_ne hb hj] at hidle

theorem Orderly.taken_turn (h : Orderly S d₀ calls t) (hpassed : Passed t i)
    (hb : t.dispatch.batches[i]? = some b) (hfate : Fate s t i b b') {j k number : Nat}
    (hjk : j < k) (hf : At (t.dispatch.setBatch i b') k (InFlight number)) :
    ¬ At (t.dispatch.setBatch i b') j (Queued number) := by
  intro hq
  by_cases hk : k = i
  · subst hk
    rw [at_setBatch hb] at hf
    rw [at_setBatch_ne hb (by omega)] at hq
    rcases hfate.inFlight hf with hf | hfree
    · exact h.taken j k number hjk ⟨b, hb, hf⟩ hq
    · obtain ⟨m, -, hm⟩ := hpassed.queued j hjk number hq
      exact hfree m hm
  · rw [at_setBatch_ne hb hk] at hf
    by_cases hj : j = i
    · subst hj
      rw [at_setBatch hb] at hq
      rcases (hfate.waits hq).1 with hq | hidle
      · exact h.taken j k number hjk hf ⟨b, hb, hq⟩
      · obtain ⟨c, hc, server, hf, -⟩ := hf
        cases (h.begun j k hjk ⟨b, hb, hidle⟩ c hc).symm.trans hf
    · rw [at_setBatch_ne hb hj] at hq
      exact h.taken j k number hjk hf hq

theorem Orderly.turn (h : Orderly S d₀ calls t) (hpassed : Passed t i)
    (hb : t.dispatch.batches[i]? = some b) (hturn : Turn S d₀ s t i b' calls' p)
    (hfate : Fate s t i b b') : Orderly S d₀ calls' p.2 where
  reached := hturn.reached
  begun j k hjk hidle c hc := by
    rw [hturn.dispatch] at hidle hc
    exact h.begun_turn hpassed hb hfate hjk hidle hc
  taken j k number hjk hf := by
    rw [hturn.dispatch] at hf ⊢
    exact h.taken_turn hpassed hb hfate hjk hf
  answers j c hc := by
    rw [hturn.dispatch, getElem?_setBatch hb] at hc
    by_cases hj : i = j
    · subst hj
      rw [if_pos rfl] at hc
      obtain rfl : b' = c := Option.some.inj hc
      exact hturn.answer
    · rw [if_neg hj] at hc
      simp only [hturn.answers j (Ne.symm hj)]
      exact h.answers j c hc
  bound j m hm := by
    rw [hturn.dispatch, Dispatch.setBatch, List.length_set]
    by_cases hj : j = i
    · subst hj
      exact (List.getElem?_eq_some_iff.1 hb).1
    · exact h.bound j m ((hturn.answers j hj m).1 hm)

theorem Passed.turn (h : Orderly S d₀ calls t) (hpassed : Passed t i)
    (hb : t.dispatch.batches[i]? = some b) (hturn : Turn S d₀ s t i b' calls' p)
    (hfate : Fate s t i b b') : Passed p.2 (i + 1) where
  queued j hj number hq := by
    rw [hturn.dispatch] at hq ⊢
    by_cases hji : j = i
    · subst hji
      rw [at_setBatch hb] at hq
      obtain ⟨hwas, k, hne, hk⟩ := hfate.waits hq
      have hlt : k < j := by
        by_contra hge
        have hjk : j < k := by omega
        rcases hwas with hq | hidle
        · exact h.taken j k number hjk hk ⟨b, hb, hq⟩
        · obtain ⟨c, hc, server, hf, -⟩ := hk
          cases (h.begun j k hjk ⟨b, hb, hidle⟩ c hc).symm.trans hf
      exact ⟨k, hlt, (at_setBatch_ne hb hne).2 hk⟩
    · rw [at_setBatch_ne hb hji] at hq
      obtain ⟨k, hk, hf⟩ := hpassed.queued j (by omega) number hq
      exact ⟨k, hk, (at_setBatch_ne hb (by omega)).2 hf⟩
  idle j hj hidle := by
    rw [hturn.dispatch] at hidle ⊢
    by_cases hji : j = i
    · subst hji
      rw [at_setBatch hb] at hidle
      obtain ⟨hmode, k, hk, hopen⟩ := mayBegin_eq_false (hfate.idle_of_idle hidle).2
      exact ⟨hmode, k, hk, (at_setBatch_ne hb (by omega)).2 hopen⟩
    · rw [at_setBatch_ne hb hji] at hidle
      obtain ⟨hmode, k, hk, hopen⟩ := hpassed.idle j (by omega) hidle
      exact ⟨hmode, k, hk, (at_setBatch_ne hb (by omega)).2 hopen⟩

def unsettled (d : Dispatch) : Nat := d.batches.countP fun b => !b.isSettled

theorem unsettled_setBatch {d : Dispatch} (hb : d.batches[i]? = some b) :
    unsettled (d.setBatch i b') + (if b.isSettled then 0 else 1) =
      unsettled d + (if b'.isSettled then 0 else 1) := by
  obtain ⟨hi, rfl⟩ := List.getElem?_eq_some_iff.1 hb
  have hcount := List.countP_set (p := fun b : Batch => !b.isSettled) (a := b') hi
  have hpos : d.batches[i].isSettled = false → 0 < unsettled d := fun h =>
    List.countP_pos_iff.2 ⟨_, List.getElem_mem hi, by simpa using h⟩
  change unsettled (d.setBatch i b') = unsettled d - _ + _ at hcount
  grind

theorem Fate.settled_of_settled (h : Fate s t i b b') (hset : b.isSettled) : b'.isSettled := by
  obtain ⟨outcomes, ho⟩ := Batch.isSettled_iff.1 hset
  cases h with
  | settled h hb => exact h
  | held h server hf hdue => exact h ▸ hset
  | taken server hf hfree hb =>
    rcases hb with hq | ⟨hidle, -⟩
    · cases ho.symm.trans hq
    · cases ho.symm.trans hidle
  | queued server hq j hne hbusy hb =>
    rcases hb with hq | ⟨hidle, -⟩
    · cases ho.symm.trans hq
    · cases ho.symm.trans hidle
  | idle h hidle hturn => exact h ▸ hset

theorem Fate.settled_of_due (h : Fate s t i b b') (hf : b.progress = .inFlight server) {m : Nat}
    (hm : (i, m) ∈ t.answersAt) (hdue : m ≤ s.backstage.now) : b'.isSettled := by
  cases h with
  | settled h hb => exact h
  | held h server hf hlate => exact absurd hdue (Nat.not_le.2 (hlate m hm))
  | taken server' hf' hfree hb =>
    rcases hb with hq | ⟨hidle, -⟩
    · cases hf.symm.trans hq
    · cases hf.symm.trans hidle
  | queued server' hq j hne hbusy hb =>
    rcases hb with hq | ⟨hidle, -⟩
    · cases hf.symm.trans hq
    · cases hf.symm.trans hidle
  | idle h hidle hturn => cases hf.symm.trans hidle

structure Round (S : List Delivery → Stage → Prop) (d₀ : Dispatch) (s : Stage) (t : Traffic)
    (i : Nat) (calls : List Delivery) (p : Stage × Traffic) : Prop where
  lasting : S calls p.1
  now : p.1.backstage.now = s.backstage.now
  orderly : Orderly S d₀ calls p.2
  passed : Passed p.2 i
  length : p.2.dispatch.batches.length = t.dispatch.batches.length
  ahead : ∀ j, i ≤ j → p.2.dispatch.batches[j]? = t.dispatch.batches[j]? ∧
    ∀ m, (j, m) ∈ p.2.answersAt ↔ (j, m) ∈ t.answersAt
  unsettled : unsettled p.2.dispatch ≤ unsettled t.dispatch
  due : (∃ j < i, ∃ m ≤ s.backstage.now, (j, m) ∈ t.answersAt) →
    Stage.unsettled p.2.dispatch < Stage.unsettled t.dispatch

theorem round_turns (hS : Lasting S) (hs : S calls s) (hd : Fresh d₀)
    (h : Orderly S d₀ calls t) {i : Nat} (hi : i ≤ t.dispatch.batches.length) :
    ∃ calls', Round S d₀ s t i calls' ((List.range i).foldl turnBatch (s, t)) := by
  induction i with
  | zero =>
    exact ⟨calls, hs, rfl, h, ⟨by simp, by simp⟩, rfl, fun _ _ => ⟨rfl, fun _ => Iff.rfl⟩,
      Nat.le_refl _, by simp⟩
  | succ i ih =>
    obtain ⟨calls₁, hround⟩ := ih (by omega)
    rw [List.range_succ, List.foldl_append, List.foldl_cons, List.foldl_nil]
    generalize (List.range i).foldl turnBatch (s, t) = q at hround
    obtain ⟨s₁, t₁⟩ := q
    have hlt : i < t₁.dispatch.batches.length := by
      have := hround.length
      simp only at this
      omega
    have hb := List.getElem?_eq_getElem hlt
    obtain ⟨b', calls₂, hturn, hfate⟩ := turn_turnBatch hS hround.lasting hd hround.orderly.reached hb
      (hround.orderly.answers i _ hb)
    have hcount := @unsettled_setBatch i _ b' _ hb
    rw [← hturn.dispatch] at hcount
    have hkeep := hfate.settled_of_settled
    have hle := hround.unsettled
    refine ⟨calls₂, hturn.lasting, hturn.now.trans hround.now,
      hround.orderly.turn hround.passed hb hturn hfate,
      Passed.turn hround.orderly hround.passed hb hturn hfate, ?_, fun j hj => ⟨?_, fun m => ?_⟩,
      ?_, ?_⟩
    · rw [hturn.dispatch, Dispatch.setBatch, List.length_set]
      exact hround.length
    · rw [hturn.dispatch, getElem?_setBatch hb, if_neg (by omega)]
      exact (hround.ahead j (by omega)).1
    · rw [hturn.answers j (by omega)]
      exact (hround.ahead j (by omega)).2 m
    · grind
    · rintro ⟨j, hj, m, hm, hmem⟩
      by_cases hji : j = i
      · subst hji
        have hmem := ((hround.ahead j (Nat.le_refl _)).2 m).2 hmem
        obtain ⟨server, hf⟩ := (hround.orderly.answers j _ hb).2 ⟨m, hmem⟩
        have hset := hfate.settled_of_due hf hmem (by rw [hround.now]; exact hm)
        have hopen : ¬ t₁.dispatch.batches[j].isSettled := open_of_progress hf (by simp)
        simp only [if_pos hset, if_neg hopen] at hcount
        simp only at hle
        omega
      · have hlt := hround.due ⟨j, by omega, m, hm, hmem⟩
        grind

/-- When a round is over and no answer is awaited, every batch is settled. -/
theorem isSettled_of_no_answers (h : Orderly S d₀ calls t)
    (hpassed : Passed t t.dispatch.batches.length) (hnone : t.answersAt = []) :
    t.dispatch.isSettled := by
  have hflight : ∀ i number, ¬ At t.dispatch i (InFlight number) := by
    rintro i number ⟨b, hb, server, hf, -⟩
    obtain ⟨m, hm⟩ := (h.answers i b hb).1 ⟨server, hf⟩
    rw [hnone] at hm
    cases hm
  have hbound {i : Nat} {kind : Batch → Prop} (hat : At t.dispatch i kind) :
      i < t.dispatch.batches.length := by
    obtain ⟨b, hb, -⟩ := hat
    exact (List.getElem?_eq_some_iff.1 hb).1
  have hopen : ∀ i, ¬ At t.dispatch i Open := by
    intro i
    induction i using Nat.strongRecOn with
    | ind i ih =>
      rintro ⟨b, hb, hopen⟩
      cases hp : b.progress with
      | idle =>
        have hat : At t.dispatch i Idle := ⟨b, hb, hp⟩
        obtain ⟨-, k, hk, hat⟩ := hpassed.idle i (hbound hat) hat
        exact ih k hk hat
      | queued server =>
        have hat : At t.dispatch i (Queued server.number) := ⟨b, hb, server, hp, rfl⟩
        obtain ⟨k, -, hat⟩ := hpassed.queued i (hbound hat) _ hat
        exact hflight k _ hat
      | inFlight server => exact hflight i server.number ⟨b, hb, server, hp, rfl⟩
      | settled outcomes => exact hopen (Batch.isSettled_iff.2 ⟨_, hp⟩)
  apply List.all_eq_true.2
  intro b hb
  obtain ⟨i, hi⟩ := List.mem_iff_getElem?.1 hb
  by_contra hset
  exact hopen i ⟨b, hi, hset⟩

theorem le_now_advance (s : Stage) (moment : Nat) :
    moment ≤ (s.advance moment).backstage.now := by
  unfold advance
  split
  · assumption
  · exact Nat.le_max_right ..

/-- Every round in which an answer is due settles a batch, so as many rounds as there are batches
not settled are enough. -/
theorem runTraffic_settled (hS : Lasting S) (hs : S calls s) (hd : Fresh d₀)
    (h : Orderly S d₀ calls t) {fuel : Nat}
    (hfuel : unsettled t.dispatch < fuel ∨ unsettled t.dispatch ≤ fuel ∧
      ∃ i m, m ≤ s.backstage.now ∧ (i, m) ∈ t.answersAt) :
    ∃ calls', S calls' (runTraffic fuel s t).1 ∧
      Reaches (Seen S) (Heard S) d₀ calls' (runTraffic fuel s t).2 ∧
      (runTraffic fuel s t).2.isSettled := by
  induction fuel generalizing s t calls with
  | zero =>
    obtain ⟨hle, i, m, hm, hmem⟩ := hfuel.resolve_left (Nat.not_lt_zero _)
    have hb := List.getElem?_eq_getElem (h.bound i m hmem)
    obtain ⟨server, hf⟩ := (h.answers i _ hb).2 ⟨m, hmem⟩
    have hpos : 0 < unsettled t.dispatch := List.countP_pos_iff.2
      ⟨_, List.mem_of_getElem? hb, by simpa [Open] using open_of_progress hf (by simp)⟩
    omega
  | succ fuel ih =>
    obtain ⟨calls₁, hround⟩ := round_turns hS hs hd h (Nat.le_refl _)
    unfold runTraffic
    generalize (List.range t.dispatch.batches.length).foldl turnBatch (s, t) = q at hround
    obtain ⟨s₁, t₁⟩ := q
    have hle : unsettled t₁.dispatch ≤ fuel := by
      rcases hfuel with hlt | ⟨hle, i, m, hm, hmem⟩
      · have := hround.unsettled
        simp only at this
        omega
      · have := hround.due ⟨i, h.bound i m hmem, m, hm, hmem⟩
        simp only at this
        omega
    simp only
    cases hmin : (t₁.answersAt.map (·.2)).min? with
    | none =>
      have hnone : t₁.answersAt = [] := List.map_eq_nil_iff.1 (List.min?_eq_none_iff.1 hmin)
      exact ⟨calls₁, hround.lasting, hround.orderly.reached,
        isSettled_of_no_answers hround.orderly (hround.length ▸ hround.passed) hnone⟩
    | some moment =>
      obtain ⟨⟨i, m⟩, hmem, rfl⟩ := List.mem_map.1 (List.min?_mem hmin)
      exact ih (hS.advance _ hround.lasting) hround.orderly
        (Or.inr ⟨hle, i, m, le_now_advance .., hmem⟩)

theorem dispatch_run (hS : Lasting S) (hs : S [] s) (hd : Fresh d₀) :
    ∃ calls, S calls (s.dispatch d₀).1 ∧ Reaches (Seen S) (Heard S) d₀ calls (s.dispatch d₀).2 ∧
      (s.dispatch d₀).2.isSettled := by
  have hnot {i : Nat} {kind : Batch → Prop} (hkind : ∀ b, Idle b → ¬ kind b) :
      ¬ At d₀ i kind := by
    rintro ⟨b, hb, hk⟩
    exact hkind b (hd.idle b (List.mem_of_getElem? hb)) hk
  refine runTraffic_settled hS hs hd ⟨.refl ⟨[], s, hs, rfl⟩ hd, ?_, ?_, ?_, ?_⟩ (Or.inl ?_)
  · exact fun j k _ _ b hb => hd.idle b (List.mem_of_getElem? hb)
  · intro j k number _ hf
    refine absurd hf (hnot fun b hb => ?_)
    rintro ⟨server, hf, -⟩
    cases hb.symm.trans hf
  · intro i b hb
    simp [hd.idle b (List.mem_of_getElem? hb)]
  · simp
  · exact Nat.lt_succ_of_le List.countP_le_length

end Rehearsal.Stage

end HostSteward
