import HostSteward.Distribution.Dispatch
import Mathlib.Algebra.GroupWithZero.Nat
import Mathlib.Logic.Relation

/-!
# Runs of a dispatch

A dispatch goes on in steps: a batch begins when it is its turn, is delivered when its server is
free, and is settled by the executor's answer. Batches that are dispatched together may take
their steps in any order. Every run comes to an end, it ends only when every batch is settled,
and how a batch is settled depends on nothing but the server that was tracked when it began and
the answer of the executor.
-/

namespace HostSteward

/-- What a dispatch meets on its way: the servers that are tracked when the batch of an address
begins, and the executor's answer to that batch. -/
structure Conditions where
  roster : Address → Roster
  reply : Address → Except Failure (List Outcome)

namespace Batch

def server? (w : Conditions) (b : Batch) : Option Server :=
  (w.roster b.address).get? b.address.process

def outcomesIn (w : Conditions) (b : Batch) : List Outcome :=
  match b.server? w with
  | none => b.changes.map fun _ => .failed b.address.fault
  | some server =>
    if b.changes.isEmpty then []
    else match w.reply b.address with
      | .ok outcomes => fit server b.changes.length outcomes
      | .error e => b.changes.map fun _ => .failed ⟨e.message⟩

def delivery? (w : Conditions) (b : Batch) : Option Delivery :=
  if b.changes.isEmpty then none else (b.server? w).map b.delivery

def delivered? (w : Conditions) (b : Batch) : Option Delivery :=
  match b.progress with
  | .idle | .queued _ => none
  | .inFlight _ | .settled _ => b.delivery? w

theorem isSettled_iff {b : Batch} : b.isSettled ↔ ∃ outcomes, b.progress = .settled outcomes := by
  obtain ⟨address, changes, rollback, progress⟩ := b
  cases progress <;> simp [isSettled, outcomes?]

@[simp] theorem address_begin (b : Batch) (server : Option Server) :
    (b.begin server).address = b.address := by
  unfold Batch.begin
  cases server with
  | none => rfl
  | some server => by_cases he : b.changes.isEmpty <;> simp [he, settle]

theorem begin_ne_idle (b : Batch) (server : Option Server) :
    (b.begin server).progress ≠ .idle := by
  unfold Batch.begin
  cases server with
  | none => simp [failAll, settle]
  | some server => by_cases he : b.changes.isEmpty <;> simp [he, settle]

theorem begin_ne_inFlight (b : Batch) (server : Option Server) (s : Server) :
    (b.begin server).progress ≠ .inFlight s := by
  unfold Batch.begin
  cases server with
  | none => simp [failAll, settle]
  | some server => by_cases he : b.changes.isEmpty <;> simp [he, settle]

@[simp] theorem address_answer (b : Batch) (server : Server)
    (reply : Except Failure (List Outcome)) : (b.answer server reply).address = b.address := by
  cases reply <;> rfl

theorem delivered?_begin (w : Conditions) (b : Batch) :
    (b.begin (b.server? w)).delivered? w = none := by
  unfold Batch.begin
  cases hs : b.server? w with
  | none =>
    have hnone : (b.failAll b.address.fault).server? w = none := hs
    show delivery? w (b.failAll b.address.fault) = none
    rw [delivery?, hnone]
    exact ite_self none
  | some server =>
    by_cases he : b.changes.isEmpty
    · simp only [if_pos he]
      exact if_pos he
    · simp only [if_neg he]
      rfl

theorem delivered?_answer {w : Conditions} {b : Batch} {server : Server}
    (hf : b.progress = .inFlight server) (reply : Except Failure (List Outcome)) :
    (b.answer server reply).delivered? w = b.delivered? w := by
  rw [delivered?.eq_def w b, hf]
  cases reply <;> rfl

theorem delivered?_of_settled {w : Conditions} {b : Batch} (h : b.isSettled) :
    b.delivered? w = b.delivery? w := by
  obtain ⟨outcomes, ho⟩ := isSettled_iff.1 h
  rw [delivered?, ho]

theorem isSettled_answer (b : Batch) (server : Server) (reply : Except Failure (List Outcome)) :
    (b.answer server reply).isSettled := by
  cases reply <;> rfl

def work (b : Batch) : Nat :=
  match b.progress with
  | .idle => 3
  | .queued _ => 2
  | .inFlight _ => 1
  | .settled _ => 0

structure Follows (w : Conditions) (b b' : Batch) : Prop where
  address : b'.address = b.address
  changes : b'.changes = b.changes
  rollback : b'.rollback = b.rollback
  found : ∀ server, b'.progress = .queued server ∨ b'.progress = .inFlight server →
    b.server? w = some server ∧ b.changes.isEmpty = false
  settled : ∀ outcomes, b'.progress = .settled outcomes → outcomes = b.outcomesIn w

theorem Follows.of_idle {w : Conditions} {b : Batch} (h : b.progress = .idle) : Follows w b b where
  address := rfl
  changes := rfl
  rollback := rfl
  found server hs := by rw [h] at hs; simp at hs
  settled outcomes hs := by rw [h] at hs; cases hs

theorem Follows.begin {w : Conditions} {b b' : Batch} (h : Follows w b b') :
    Follows w b (b'.begin (b'.server? w)) := by
  have hserver : b'.server? w = b.server? w := by simp only [server?, h.address]
  rw [hserver]
  unfold Batch.begin
  cases hs : b.server? w with
  | none =>
    refine ⟨h.address, h.changes, h.rollback, by simp [failAll, settle], ?_⟩
    intro outcomes ho
    simp only [failAll, settle, Progress.settled.injEq] at ho
    rw [← ho, outcomesIn, hs, h.changes, h.address]
  | some server =>
    by_cases he : b'.changes.isEmpty
    · simp only [if_pos he]
      refine ⟨h.address, h.changes, h.rollback, by simp [settle], ?_⟩
      intro outcomes ho
      simp only [settle, Progress.settled.injEq] at ho
      rw [← ho, outcomesIn, hs]
      simp [h.changes ▸ he]
    · simp only [if_neg he]
      refine ⟨h.address, h.changes, h.rollback, ?_, by simp⟩
      intro server' hs'
      simp only [Progress.queued.injEq, reduceCtorEq, or_false] at hs'
      subst hs'
      exact ⟨hs, by simpa [h.changes] using he⟩

theorem Follows.deliver {w : Conditions} {b b' : Batch} {server : Server} (h : Follows w b b')
    (hq : b'.progress = .queued server) :
    Follows w b { b' with progress := .inFlight server } where
  address := h.address
  changes := h.changes
  rollback := h.rollback
  found server' hs := by
    simp only [reduceCtorEq, Progress.inFlight.injEq, false_or] at hs
    exact hs ▸ h.found server (Or.inl hq)
  settled outcomes hs := by cases hs

theorem Follows.answer {w : Conditions} {b b' : Batch} {server : Server} (h : Follows w b b')
    (hf : b'.progress = .inFlight server) :
    Follows w b (b'.answer server (w.reply b'.address)) := by
  obtain ⟨hserver, hne⟩ := h.found server (Or.inr hf)
  rw [h.address]
  cases hr : w.reply b.address with
  | ok outcomes =>
    refine ⟨h.address, h.changes, h.rollback, by simp [Batch.answer, settle], ?_⟩
    intro outcomes' ho
    simp only [Batch.answer, settle, Progress.settled.injEq] at ho
    rw [← ho, outcomesIn, hserver, hr, h.changes]
    simp [hne]
  | error e =>
    refine ⟨h.address, h.changes, h.rollback, by simp [Batch.answer, failAll, settle], ?_⟩
    intro outcomes' ho
    simp only [Batch.answer, failAll, settle, Progress.settled.injEq] at ho
    rw [← ho, outcomesIn, hserver, hr, h.changes]
    simp [hne]

end Batch

namespace Dispatch

def isSettled (d : Dispatch) : Bool := d.batches.all (·.isSettled)

def setBatch (d : Dispatch) (i : Nat) (b : Batch) : Dispatch :=
  { d with batches := d.batches.set i b }

inductive Step (w : Conditions) (d : Dispatch) : List Delivery → Dispatch → Prop
  | begin {i : Nat} {b : Batch} (hb : d.batches[i]? = some b) (hidle : b.progress = .idle)
      (hturn : d.mayBegin i) : Step w d [] (d.setBatch i (b.begin (b.server? w)))
  | deliver {i : Nat} {b : Batch} {server : Server} (hb : d.batches[i]? = some b)
      (hq : b.progress = .queued server) (hfree : d.isFree server.number) :
      Step w d [b.delivery server] (d.setBatch i { b with progress := .inFlight server })
  | answer {i : Nat} {b : Batch} {server : Server} (hb : d.batches[i]? = some b)
      (hf : b.progress = .inFlight server) :
      Step w d [] (d.setBatch i (b.answer server (w.reply b.address)))

inductive Run (w : Conditions) (d : Dispatch) : List Delivery → Dispatch → Prop
  | nil : Run w d [] d
  | snoc {calls more : List Delivery} {d' d'' : Dispatch} (h : Run w d calls d')
      (hs : Step w d' more d'') : Run w d (calls ++ more) d''

variable {w : Conditions} {d d' d'' : Dispatch}

theorem getElem?_setBatch {i j : Nat} {b b' : Batch} (hb : d.batches[i]? = some b) :
    (d.setBatch i b').batches[j]? = if i = j then some b' else d.batches[j]? := by
  obtain ⟨hi, -⟩ := List.getElem?_eq_some_iff.1 hb
  simp only [setBatch, List.getElem?_set, hi]
  by_cases h : i = j
  · subst h
    simp
  · simp [h]

theorem exists_batches_setBatch {i : Nat} {b : Batch} (hb : d.batches[i]? = some b) (b' : Batch) :
    ∃ before after, d.batches = before ++ b :: after ∧
      (d.setBatch i b').batches = before ++ b' :: after := by
  obtain ⟨hi, rfl⟩ := List.getElem?_eq_some_iff.1 hb
  refine ⟨d.batches.take i, d.batches.drop (i + 1), ?_, ?_⟩
  · rw [← List.drop_eq_getElem_cons hi, List.take_append_drop]
  · rw [setBatch, List.set_eq_take_append_cons_drop, if_pos hi]

theorem Step.changes {more : List Delivery} (h : Step w d more d') :
    ∃ i b b', d.batches[i]? = some b ∧ d' = d.setBatch i b' ∧ b'.work < b.work ∧
      ∀ b₀, Batch.Follows w b₀ b → Batch.Follows w b₀ b' := by
  cases h with
  | @begin i b hb hidle hturn =>
    refine ⟨i, b, _, hb, rfl, ?_, fun _ h => h.begin⟩
    unfold Batch.begin Batch.work
    rw [hidle]
    cases b.server? w with
    | none => simp [Batch.failAll, Batch.settle]
    | some server => by_cases he : b.changes.isEmpty <;> simp [he, Batch.settle]
  | @deliver i b server hb hq hfree =>
    exact ⟨i, b, _, hb, rfl, by simp [Batch.work, hq], fun _ h => h.deliver hq⟩
  | @answer i b server hb hf =>
    refine ⟨i, b, _, hb, rfl, ?_, fun _ h => h.answer hf⟩
    cases w.reply b.address <;>
      simp [Batch.work, hf, Batch.answer, Batch.failAll, Batch.settle]

theorem Run.follows {calls : List Delivery} (h : Run w d calls d')
    (hidle : ∀ b ∈ d.batches, b.progress = .idle) :
    d'.concurrent = d.concurrent ∧ d'.batches.length = d.batches.length ∧
      ∀ (i : Nat) (b : Batch), d.batches[i]? = some b →
        ∃ b' : Batch, d'.batches[i]? = some b' ∧ Batch.Follows w b b' := by
  induction h with
  | nil => exact ⟨rfl, rfl, fun i b hb => ⟨b, hb, .of_idle (hidle b (List.mem_of_getElem? hb))⟩⟩
  | snoc h hs ih =>
    obtain ⟨hmode, hlen, hfollow⟩ := ih
    obtain ⟨j, c, c', hc, rfl, -, hkeep⟩ := hs.changes
    refine ⟨hmode, by simpa [setBatch] using hlen, fun i b hb => ?_⟩
    obtain ⟨b', hb', hf⟩ := hfollow i b hb
    rw [getElem?_setBatch hc]
    by_cases hij : j = i
    · subst hij
      obtain rfl : c = b' := Option.some.inj (hc.symm.trans hb')
      exact ⟨c', if_pos rfl, hkeep b hf⟩
    · exact ⟨b', (if_neg hij).trans hb', hf⟩

/-- Once every batch is settled, each is so as its server and the executor's answer to it say. -/
theorem Run.settled {calls : List Delivery} (h : Run w d calls d')
    (hidle : ∀ b ∈ d.batches, b.progress = .idle) (hdone : d'.isSettled) :
    d'.batches = d.batches.map fun b => b.settle (b.outcomesIn w) := by
  obtain ⟨-, hlen, hfollow⟩ := h.follows hidle
  apply List.ext_getElem?
  intro i
  rw [List.getElem?_map]
  cases hb : d.batches[i]? with
  | none =>
    rw [List.getElem?_eq_none_iff] at hb
    exact List.getElem?_eq_none (by omega)
  | some b =>
    obtain ⟨b', hb', hf⟩ := hfollow i b hb
    have hset := List.all_eq_true.1 hdone b' (List.mem_of_getElem? hb')
    rw [hb', Option.map_some]
    congr 1
    cases hp : b'.progress with
    | settled outcomes =>
      obtain ⟨address, changes, rollback, progress⟩ := b'
      have := hf.settled outcomes hp
      have := hf.address
      have := hf.changes
      have := hf.rollback
      simp_all [Batch.settle]
    | _ => simp [Batch.isSettled, Batch.outcomes?, hp] at hset

/-- What the executor gets of a batch that waits for its server or is with it. -/
theorem Run.delivery? {calls : List Delivery} (h : Run w d calls d')
    (hidle : ∀ b ∈ d.batches, b.progress = .idle) {i : Nat} {b : Batch} {server : Server}
    (hb : d'.batches[i]? = some b)
    (hp : b.progress = .queued server ∨ b.progress = .inFlight server) :
    b.delivery? w = some (b.delivery server) := by
  obtain ⟨-, hlen, hfollow⟩ := h.follows hidle
  obtain ⟨hi, -⟩ := List.getElem?_eq_some_iff.1 hb
  obtain ⟨b', hb', hf⟩ := hfollow i _ (List.getElem?_eq_getElem (hlen ▸ hi))
  obtain rfl : b = b' := Option.some.inj (hb.symm.trans hb')
  obtain ⟨hserver, hne⟩ := hf.found server hp
  rw [← hf.changes] at hne
  rw [Batch.server?, ← hf.address] at hserver
  simp only [Batch.delivery?, hne, Batch.server?, hserver]
  rfl

theorem filterMap_setBatch {f : Batch → Option Delivery} {i : Nat} {b b' : Batch}
    {more : List Delivery} (hb : d.batches[i]? = some b)
    (hf : (f b').toList = (f b).toList ++ more) :
    ((d.setBatch i b').batches.filterMap f).Perm (d.batches.filterMap f ++ more) := by
  obtain ⟨before, after, hsplit, hset⟩ := exists_batches_setBatch hb b'
  have hcons : ∀ c l, List.filterMap f (c :: l) = (f c).toList ++ List.filterMap f l := by
    intro c l
    rw [List.filterMap_cons]
    cases f c <;> rfl
  rw [hset, congrArg (List.filterMap f) hsplit]
  simp only [List.filterMap_append, hcons, hf, List.append_assoc]
  exact (List.perm_append_comm.append_left _).append_left _

/-- An executor got the batches that were delivered, each of them once. -/
theorem Run.calls_perm {calls : List Delivery} (h : Run w d calls d')
    (hidle : ∀ b ∈ d.batches, b.progress = .idle) :
    calls.Perm (d'.batches.filterMap (Batch.delivered? w)) := by
  induction h with
  | nil =>
    rw [List.filterMap_eq_nil_iff.2 fun b hb => by rw [Batch.delivered?, hidle b hb]]
  | @snoc calls more d' d'' h hs ih =>
    refine (ih.append_right more).trans (List.Perm.symm ?_)
    cases hs with
    | @begin i b hb hprogress hturn =>
      refine filterMap_setBatch hb ?_
      rw [Batch.delivered?_begin, Batch.delivered?, hprogress]
      rfl
    | @deliver i b server hb hq hfree =>
      refine filterMap_setBatch hb ?_
      have hfound : b.delivery? w = some (b.delivery server) := h.delivery? hidle hb (Or.inl hq)
      have hqueued : b.delivered? w = none := by rw [Batch.delivered?, hq]
      show (b.delivery? w).toList = _
      rw [hfound, hqueued]
      rfl
    | @answer i b server hb hf =>
      refine filterMap_setBatch hb ?_
      rw [Batch.delivered?_answer hf, List.append_nil]

theorem exists_step (w : Conditions) (hopen : ¬ d.isSettled) :
    ∃ more d', Step w d more d' := by
  by_cases hflight : ∃ b ∈ d.batches, ∃ server, b.progress = .inFlight server
  · obtain ⟨b, hb, server, hf⟩ := hflight
    obtain ⟨i, hi⟩ := List.mem_iff_getElem?.1 hb
    exact ⟨_, _, .answer hi hf⟩
  by_cases hqueue : ∃ b ∈ d.batches, ∃ server, b.progress = .queued server
  · obtain ⟨b, hb, server, hq⟩ := hqueue
    obtain ⟨i, hi⟩ := List.mem_iff_getElem?.1 hb
    refine ⟨_, _, .deliver hi hq ?_⟩
    rw [isFree, Bool.not_eq_true', List.any_eq_false]
    intro b' hb' hfor
    cases hp : b'.progress with
    | inFlight server' => exact hflight ⟨b', hb', server', hp⟩
    | _ => simp [Batch.isFor, hp] at hfor
  -- What is not settled is idle, and the first idle batch has its turn.
  have hidle : ∀ b ∈ d.batches, ¬ b.isSettled → b.progress = .idle := by
    intro b hb hset
    cases hp : b.progress with
    | idle => rfl
    | queued server => exact absurd ⟨b, hb, server, hp⟩ hqueue
    | inFlight server => exact absurd ⟨b, hb, server, hp⟩ hflight
    | settled outcomes => simp [Batch.isSettled, Batch.outcomes?, hp] at hset
  obtain ⟨i, hi⟩ : ∃ i, d.batches.findIdx? (fun b => !b.isSettled) = some i := by
    rw [← Option.isSome_iff_exists, List.findIdx?_isSome]
    simpa [isSettled] using hopen
  obtain ⟨hlt, hset, hbefore⟩ := List.findIdx?_eq_some_iff_getElem.1 hi
  have hget : d.batches[i]? = some d.batches[i] := List.getElem?_eq_getElem hlt
  refine ⟨_, _, .begin hget (hidle _ (List.getElem_mem hlt) (by simpa using hset)) ?_⟩
  rw [mayBegin, Bool.or_eq_true]
  refine Or.inr (List.all_eq_true.2 fun b hb => ?_)
  obtain ⟨j, hj, rfl⟩ := List.mem_take_iff_getElem.1 hb
  simpa using hbefore j (by omega)

def work (d : Dispatch) : Nat := (d.batches.map Batch.work).sum

theorem Step.work_lt {more : List Delivery} (h : Step w d more d') : d'.work < d.work := by
  obtain ⟨i, b, b', hb, rfl, hlt, -⟩ := h.changes
  obtain ⟨before, after, hsplit, hset⟩ := exists_batches_setBatch hb b'
  have hsum := congrArg (fun l => (l.map Batch.work).sum) hsplit
  unfold work
  rw [hset]
  simp only [List.map_append, List.map_cons, List.sum_append, List.sum_cons] at hsum ⊢
  omega

theorem wellFounded_step (w : Conditions) :
    WellFounded fun d' d : Dispatch => ∃ more, Step w d more d' :=
  Subrelation.wf (fun ⟨_, h⟩ => h.work_lt) (measure work).wf

/-- A run can be completed wherever it has come to. -/
theorem Run.exists_settled {d₀ : Dispatch} {calls : List Delivery} (h : Run w d₀ calls d) :
    ∃ more d', Run w d₀ (calls ++ more) d' ∧ d'.isSettled := by
  induction d using (wellFounded_step w).induction generalizing calls with
  | _ d ih =>
    by_cases hdone : d.isSettled
    · exact ⟨[], d, by rwa [List.append_nil], hdone⟩
    · obtain ⟨more, d', hstep⟩ := exists_step w hdone
      obtain ⟨rest, d'', hrun, hdone⟩ := ih d' ⟨more, hstep⟩ (h.snoc hstep)
      exact ⟨more ++ rest, d'', by rwa [← List.append_assoc], hdone⟩

end Dispatch

end HostSteward
