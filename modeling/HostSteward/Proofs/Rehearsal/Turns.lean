import HostSteward.Proofs.Distribution.Sightings
import HostSteward.Rehearsal.Stage
import Mathlib.Tactic.ByContra

/-!
# Turns of batches

In a round of a dispatch every batch has its turn, in which it takes as many steps as it can without
waiting. A turn is part of a run, and what it comes to depends on what holds the batch up.
-/

namespace HostSteward

namespace Rehearsal.Stage

open Dispatch

/-- A property of stages that lasts while batches are dispatched. It may speak of the calls that the
executor has had so far. -/
structure Lasting (S : List Delivery → Stage → Prop) : Prop where
  tell : ∀ {calls : List Delivery} {s : Stage} (e : Entry), S calls s → S calls (s.tell e)
  accept : ∀ {calls : List Delivery} {s : Stage} (call : Delivery), S calls s →
    S (calls ++ [call])
      { s with backstage := { s.backstage with executor := s.backstage.executor.accept call } }
  answer : ∀ {calls : List Delivery} {s : Stage} (call : Delivery), S calls s → S calls
    { s with backstage := { s.backstage with executor := (s.backstage.executor.answer call).1 } }
  advance : ∀ {calls : List Delivery} {s : Stage} (moment : Nat), S calls s →
    S calls (s.advance moment)

def Seen (S : List Delivery → Stage → Prop) (roster : Roster) : Prop :=
  ∃ calls s, S calls s ∧ s.steward.roster = roster

/-- Calls are answered by the executors of such stages. -/
def Heard (S : List Delivery → Stage → Prop) (call : Delivery)
    (reply : Except Failure (List Outcome)) : Prop :=
  ∃ calls s, S calls s ∧ (s.backstage.executor.answer call).2 = reply

structure Turn (S : List Delivery → Stage → Prop) (d₀ : Dispatch) (s : Stage) (t : Traffic)
    (i : Nat) (b' : Batch) (calls : List Delivery) (p : Stage × Traffic) : Prop where
  lasting : S calls p.1
  now : p.1.backstage.now = s.backstage.now
  dispatch : p.2.dispatch = t.dispatch.setBatch i b'
  reached : Reaches (Seen S) (Heard S) d₀ calls p.2.dispatch
  answers : ∀ j, j ≠ i → ∀ m, (j, m) ∈ p.2.answersAt ↔ (j, m) ∈ t.answersAt
  answer : (∃ server, b'.progress = .inFlight server) ↔ ∃ m, (i, m) ∈ p.2.answersAt

variable {S : List Delivery → Stage → Prop} {d₀ : Dispatch} {calls : List Delivery} {s : Stage}
  {t : Traffic} {i : Nat} {b : Batch} {server : Server}

theorem setBatch_self {d : Dispatch} (hb : d.batches[i]? = some b) : d.setBatch i b = d := by
  obtain ⟨hi, rfl⟩ := List.getElem?_eq_some_iff.1 hb
  simp [Dispatch.setBatch]

theorem setBatch_setBatch (d : Dispatch) (i : Nat) (b b' : Batch) :
    (d.setBatch i b).setBatch i b' = d.setBatch i b' := by
  simp [Dispatch.setBatch]

theorem Turn.rest (hs : S calls s) (h : Reaches (Seen S) (Heard S) d₀ calls t.dispatch)
    (hb : t.dispatch.batches[i]? = some b)
    (hanswer : (∃ server, b.progress = .inFlight server) ↔ ∃ m, (i, m) ∈ t.answersAt) :
    Turn S d₀ s t i b calls (s, t) :=
  ⟨hs, rfl, (setBatch_self hb).symm, h, fun _ _ _ => Iff.rfl, hanswer⟩

theorem lasting_answerBatch (hS : Lasting S) (hs : S calls s) :
    S calls (s.answerBatch t i b server).1 := by
  unfold answerBatch
  simp only
  split
  · exact hS.answer _ hs
  · exact hS.tell _ (hS.answer _ hs)

theorem now_answerBatch : (s.answerBatch t i b server).1.backstage.now = s.backstage.now := by
  unfold answerBatch
  simp only
  split <;> rfl

theorem turn_answerBatch (hS : Lasting S) (hs : S calls s) (hd : Fresh d₀)
    (h : Reaches (Seen S) (Heard S) d₀ calls t.dispatch) (hb : t.dispatch.batches[i]? = some b)
    (hf : b.progress = .inFlight server) :
    ∃ b', b'.isSettled ∧ Turn S d₀ s t i b' calls (s.answerBatch t i b server) := by
  let reply := (s.backstage.executor.answer (b.delivery server)).2
  have hset : (b.answer server reply).isSettled := b.isSettled_answer server reply
  have htraffic : (s.answerBatch t i b server).2.answersAt = t.answersAt.filter (·.1 ≠ i) := rfl
  refine ⟨b.answer server reply, hset, lasting_answerBatch hS hs, now_answerBatch, rfl,
    h.answer hd hb hf ⟨calls, s, hs, rfl⟩, fun j hj m => ?_, ?_⟩
  · simp [htraffic, hj]
  · obtain ⟨outcomes, ho⟩ := Batch.isSettled_iff.1 hset
    simp [htraffic, ho]

/-- A queued batch waits on, or its server is free and takes it. -/
theorem turn_deliverBatch (hS : Lasting S) (hs : S calls s) (hd : Fresh d₀)
    (h : Reaches (Seen S) (Heard S) d₀ calls t.dispatch) (hb : t.dispatch.batches[i]? = some b)
    (hq : b.progress = .queued server) (hnone : ∀ m, (i, m) ∉ t.answersAt) :
    ∃ b' calls', Turn S d₀ s t i b' calls' (s.deliverBatch t i b server) ∧
      (b' = b ∧ t.dispatch.isFree server.number = false ∨
        t.dispatch.isFree server.number ∧
          (b'.isSettled ∨ b'.progress = .inFlight server)) := by
  unfold deliverBatch
  cases hfree : t.dispatch.isFree server.number with
  | false =>
    refine ⟨b, calls, ?_, Or.inl ⟨rfl, rfl⟩⟩
    simp only [Bool.false_eq_true, if_false]
    refine Turn.rest hs h hb ⟨?_, ?_⟩
    · simp [hq]
    · rintro ⟨m, hm⟩
      exact absurd hm (hnone m)
  | true =>
    simp only [if_true]
    let b₁ : Batch := { b with progress := .inFlight server }
    let s₁ : Stage := { s with backstage := { s.backstage with
      executor := s.backstage.executor.accept (b.delivery server) } }
    have hs₁ : S (calls ++ [b.delivery server]) s₁ := hS.accept _ hs
    have h₁ : Reaches (Seen S) (Heard S) d₀ (calls ++ [b.delivery server])
        (t.setBatch i b₁).dispatch := h.deliver hb hq hfree
    have hb₁ : (t.setBatch i b₁).dispatch.batches[i]? = some b₁ :=
      (getElem?_setBatch hb).trans (if_pos rfl)
    split
    · obtain ⟨b', hset, hturn⟩ := turn_answerBatch hS hs₁ hd h₁ hb₁ rfl
      refine ⟨b', _, ⟨hturn.lasting, hturn.now, ?_, hturn.reached, hturn.answers, hturn.answer⟩,
        Or.inr ⟨trivial, Or.inl hset⟩⟩
      exact hturn.dispatch.trans (setBatch_setBatch ..)
    · refine ⟨b₁, _, ⟨hs₁, rfl, rfl, h₁, fun j hj m => ?_, ?_⟩, Or.inr ⟨trivial, Or.inr rfl⟩⟩
      · simp [hj, Traffic.setBatch]
      · simp [b₁, Traffic.setBatch]

def At (d : Dispatch) (i : Nat) (kind : Batch → Prop) : Prop :=
  ∃ b, d.batches[i]? = some b ∧ kind b

theorem at_iff {d : Dispatch} (hb : d.batches[i]? = some b) {kind : Batch → Prop} :
    At d i kind ↔ kind b := by
  constructor
  · rintro ⟨c, hc, h⟩
    obtain rfl : b = c := Option.some.inj (hb.symm.trans hc)
    exact h
  · exact fun h => ⟨b, hb, h⟩

theorem at_setBatch {d : Dispatch} (hb : d.batches[i]? = some b) {b' : Batch}
    {kind : Batch → Prop} : At (d.setBatch i b') i kind ↔ kind b' :=
  at_iff ((getElem?_setBatch hb).trans (if_pos rfl))

theorem at_setBatch_ne {d : Dispatch} (hb : d.batches[i]? = some b) {b' : Batch} {j : Nat}
    (hij : j ≠ i) {kind : Batch → Prop} : At (d.setBatch i b') j kind ↔ At d j kind := by
  simp only [At, (getElem?_setBatch hb).trans (if_neg (Ne.symm hij))]

def InFlight (number : Nat) (b : Batch) : Prop :=
  ∃ server, b.progress = .inFlight server ∧ server.number = number

def Queued (number : Nat) (b : Batch) : Prop :=
  ∃ server, b.progress = .queued server ∧ server.number = number

def Idle (b : Batch) : Prop := b.progress = .idle

def Open (b : Batch) : Prop := ¬ b.isSettled

theorem open_of_progress {progress : Progress} (hp : b.progress = progress)
    (h : ∀ outcomes, progress ≠ .settled outcomes) : Open b := by
  intro hset
  obtain ⟨outcomes, ho⟩ := Batch.isSettled_iff.1 hset
  exact h outcomes (hp.symm.trans ho)

theorem isFree_iff {d : Dispatch} {number : Nat} :
    d.isFree number ↔ ∀ i, ¬ At d i (InFlight number) := by
  rw [isFree, Bool.not_eq_true', List.any_eq_false]
  constructor
  · rintro h i ⟨b, hb, server, hf, hn⟩
    exact h b (List.mem_of_getElem? hb) (by simp [Batch.isFor, hf, hn])
  · intro h b hb hfor
    obtain ⟨i, hi⟩ := List.mem_iff_getElem?.1 hb
    unfold Batch.isFor at hfor
    split at hfor
    next server hf => exact h i ⟨b, hi, server, hf, by simpa using hfor⟩
    · cases hfor

theorem exists_inFlight {d : Dispatch} {number : Nat} (h : d.isFree number = false) :
    ∃ i, At d i (InFlight number) := by
  by_contra hno
  rw [isFree_iff.2 fun i hi => hno ⟨i, hi⟩] at h
  cases h

inductive Fate (s : Stage) (t : Traffic) (i : Nat) (b b' : Batch) : Prop
  | settled (h : b'.isSettled) (hb : b.progress = .idle → t.dispatch.mayBegin i)
  | held (h : b' = b) (server : Server) (hf : b.progress = .inFlight server)
      (hdue : ∀ m, (i, m) ∈ t.answersAt → s.backstage.now < m)
  | taken (server : Server) (hf : b'.progress = .inFlight server)
      (hfree : ∀ j, ¬ At t.dispatch j (InFlight server.number))
      (hb : b.progress = .queued server ∨ b.progress = .idle ∧ t.dispatch.mayBegin i)
  | queued (server : Server) (hq : b'.progress = .queued server) (j : Nat) (hne : j ≠ i)
      (hbusy : At t.dispatch j (InFlight server.number))
      (hb : b.progress = .queued server ∨ b.progress = .idle ∧ t.dispatch.mayBegin i)
  | idle (h : b' = b) (hidle : b.progress = .idle) (hturn : t.dispatch.mayBegin i = false)

/-- Whoever waits for an answer to a batch, the batch is in flight. -/
theorem not_awaited (hanswer : (∃ server, b.progress = .inFlight server) ↔ ∃ m, (i, m) ∈ t.answersAt)
    (hp : ∀ server, b.progress ≠ .inFlight server) (m : Nat) : (i, m) ∉ t.answersAt := by
  intro hm
  obtain ⟨server, hf⟩ := hanswer.2 ⟨m, hm⟩
  exact hp server hf

theorem not_at_inFlight {d : Dispatch} (hb : d.batches[i]? = some b)
    (hp : ∀ server, b.progress ≠ .inFlight server) {number : Nat} : ¬ At d i (InFlight number) := by
  rw [at_iff hb]
  rintro ⟨server, hf, -⟩
  exact hp server hf

/-- A batch that is queued as soon as it begins waits on, or is taken at once. -/
theorem turn_begun (hS : Lasting S) (hs : S calls s) (hd : Fresh d₀) {b₁ : Batch}
    (h : Reaches (Seen S) (Heard S) d₀ calls (t.setBatch i b₁).dispatch)
    (hb : t.dispatch.batches[i]? = some b) (hp : b.progress = .idle)
    (hturn : t.dispatch.mayBegin i) (hq : b₁.progress = .queued server)
    (hnone : ∀ m, (i, m) ∉ t.answersAt) :
    ∃ b' calls', Turn S d₀ s t i b' calls' (s.deliverBatch (t.setBatch i b₁) i b₁ server) ∧
      Fate s t i b b' := by
  have hb₁ : (t.setBatch i b₁).dispatch.batches[i]? = some b₁ :=
    (getElem?_setBatch hb).trans (if_pos rfl)
  obtain ⟨b', calls', hturn', hout⟩ := turn_deliverBatch hS hs hd h hb₁ hq hnone
  have hTurn : Turn S d₀ s t i b' calls' (s.deliverBatch (t.setBatch i b₁) i b₁ server) :=
    ⟨hturn'.lasting, hturn'.now, hturn'.dispatch.trans (setBatch_setBatch ..),
      hturn'.reached, hturn'.answers, hturn'.answer⟩
  -- The batch itself is not in flight, neither before nor after it began.
  have hhere {number : Nat} : ¬ At t.dispatch i (InFlight number) :=
    not_at_inFlight hb (by simp [hp])
  have hsame {j number : Nat} :
      At (t.setBatch i b₁).dispatch j (InFlight number) ↔ At t.dispatch j (InFlight number) := by
    by_cases hij : j = i
    · subst hij
      exact iff_of_false (not_at_inFlight hb₁ (by simp [hq])) hhere
    · exact at_setBatch_ne hb hij
  rcases hout with ⟨rfl, hbusy⟩ | ⟨hfree, hset | hf⟩
  · obtain ⟨j, hj⟩ := exists_inFlight hbusy
    have hj := hsame.1 hj
    have hne : j ≠ i := fun he => hhere (he ▸ hj)
    exact ⟨b', calls', hTurn, .queued server hq j hne hj (Or.inr ⟨hp, hturn⟩)⟩
  · exact ⟨b', calls', hTurn, .settled hset fun _ => hturn⟩
  · refine ⟨b', calls', hTurn, .taken server hf (fun j hj => ?_) (Or.inr ⟨hp, hturn⟩)⟩
    exact isFree_iff.1 hfree j (hsame.2 hj)

theorem turn_turnBatch (hS : Lasting S) (hs : S calls s) (hd : Fresh d₀)
    (h : Reaches (Seen S) (Heard S) d₀ calls t.dispatch) (hb : t.dispatch.batches[i]? = some b)
    (hanswer : (∃ server, b.progress = .inFlight server) ↔ ∃ m, (i, m) ∈ t.answersAt) :
    ∃ b' calls', Turn S d₀ s t i b' calls' (turnBatch (s, t) i) ∧ Fate s t i b b' := by
  simp only [turnBatch, hb]
  cases hp : b.progress with
  | settled outcomes =>
    exact ⟨b, calls, Turn.rest hs h hb hanswer,
      .settled (Batch.isSettled_iff.2 ⟨_, hp⟩) (by simp [hp])⟩
  | inFlight server =>
    simp only
    split
    next hdue =>
      obtain ⟨b', hset, hturn⟩ := turn_answerBatch hS hs hd h hb hp
      exact ⟨b', calls, hturn, .settled hset (by simp [hp])⟩
    next hdue =>
      refine ⟨b, calls, Turn.rest hs h hb hanswer, .held rfl server hp fun m hm => ?_⟩
      by_contra hle
      exact hdue (List.any_eq_true.2 ⟨(i, m), hm, by simpa using hle⟩)
  | queued server =>
    have hnone := not_awaited hanswer (by simp [hp])
    obtain ⟨b', calls', hturn, ⟨rfl, hbusy⟩ | ⟨hfree, hset | hf⟩⟩ :=
      turn_deliverBatch hS hs hd h hb hp hnone
    · obtain ⟨j, hj⟩ := exists_inFlight hbusy
      have hne : j ≠ i := fun he => not_at_inFlight hb (by simp [hp]) (he ▸ hj)
      exact ⟨b', calls', hturn, .queued server hp j hne hj (Or.inl hp)⟩
    · exact ⟨b', calls', hturn, .settled hset (by simp [hp])⟩
    · exact ⟨b', calls', hturn, .taken server hf (isFree_iff.1 hfree) (Or.inl hp)⟩
  | idle =>
    have hnone := not_awaited hanswer (by simp [hp])
    cases hturn : t.dispatch.mayBegin i with
    | false => exact ⟨b, calls, Turn.rest hs h hb hanswer, .idle rfl hp hturn⟩
    | true =>
      simp only [if_true]
      let found := s.steward.roster.get? b.address.process
      let b₁ := b.begin found
      have h₁ : Reaches (Seen S) (Heard S) d₀ calls (t.setBatch i b₁).dispatch :=
        h.begin hd ⟨calls, s, hs, rfl⟩ hb hp hturn
      cases hq : b₁.progress with
      | idle => exact (b.begin_ne_idle found hq).elim
      | inFlight server => exact (b.begin_ne_inFlight found server hq).elim
      | queued server => exact turn_begun hS hs hd h₁ hb hp hturn hq hnone
      | settled outcomes =>
        refine ⟨b₁, calls, ⟨hs, rfl, rfl, h₁, fun _ _ _ => Iff.rfl, ?_⟩,
          .settled (Batch.isSettled_iff.2 ⟨_, hq⟩) fun _ => hturn⟩
        simp [hq, Traffic.setBatch, hnone]

end Rehearsal.Stage

end HostSteward
