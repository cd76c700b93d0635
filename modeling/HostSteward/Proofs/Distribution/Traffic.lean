import HostSteward.Proofs.Distribution.Runs
import HostSteward.Proofs.Steward.Chronicle
import HostSteward.Proofs.Steward.Configured

/-!
# Traffic

Any number of dispatches are handed in while the steward goes on with whatever it does. A batch
waits for the record that it found when it began, and as long as it is with the executor no other
batch of that record is. A server that is stopped and started in the meantime has another record, and
batches that find this one wait for nobody else.
-/

namespace HostSteward

open Operation

structure Traffic where
  steward : Interleaving
  dispatches : List Dispatch := []

namespace Traffic

/-- The number of a dispatch and that of a batch of it. -/
abbrev Place := Nat × Nat

def roster (t : Traffic) : Roster := t.steward.host.roster

def batch? (t : Traffic) (p : Place) : Option Batch :=
  t.dispatches[p.1]?.bind fun d => d.batches[p.2]?

def setBatch (t : Traffic) (p : Place) (b : Batch) : Traffic :=
  { t with dispatches := t.dispatches.modify p.1 fun d => d.setBatch p.2 b }

def hasTurn (t : Traffic) (p : Place) : Bool := t.dispatches[p.1]?.any fun d => d.mayBegin p.2

inductive Deed where
  | minded
  | submitted (d : Dispatch)
  | began (p : Place) (found : Option Server)
  | delivered (p : Place) (call : Delivery)
  | answered (p : Place)

inductive Step (t : Traffic) : Deed → Traffic → Prop
  | minded {s : Interleaving} (h : Interleaving.Step t.steward s) :
      Step t .minded { t with steward := s }
  | submitted {d : Dispatch} (hidle : ∀ b ∈ d.batches, b.progress = .idle) :
      Step t (.submitted d) { t with dispatches := t.dispatches ++ [d] }
  | began {p : Place} {b : Batch} (hb : t.batch? p = some b) (hidle : b.progress = .idle)
      (hturn : t.hasTurn p) :
      Step t (.began p (t.roster.get? b.address.process))
        (t.setBatch p (b.begin (t.roster.get? b.address.process)))
  | delivered {p : Place} {b : Batch} {s : Server} (hb : t.batch? p = some b)
      (hq : b.progress = .queued s) (hfree : ∀ d ∈ t.dispatches, d.isFree s.number) :
      Step t (.delivered p (b.delivery s)) (t.setBatch p { b with progress := .inFlight s })
  | answered {p : Place} {b : Batch} {s : Server} (reply : Except Failure (List Outcome))
      (hb : t.batch? p = some b) (hf : b.progress = .inFlight s) :
      Step t (.answered p) (t.setBatch p (b.answer s reply))

inductive Run (t : Traffic) : List Deed → Traffic → Prop
  | nil : Run t [] t
  | snoc {deeds : List Deed} {deed : Deed} {t' t'' : Traffic} (h : Run t deeds t')
      (hstep : Step t' deed t'') : Run t (deeds ++ [deed]) t''

/-- The executor is busy with the batch of a place, for a record. -/
def Flies (t : Traffic) (p : Place) (s : Server) : Prop :=
  ∃ b, t.batch? p = some b ∧ b.progress = .inFlight s

namespace Deed

def dispatch? : Deed → Option Dispatch
  | .submitted d => some d
  | _ => none

def found? (p : Place) : Deed → Option (Option Server)
  | .began q found => if q = p then some found else none
  | _ => none

def call? (p : Place) : Deed → Option Delivery
  | .delivered q call => if q = p then some call else none
  | _ => none

def isProgress : Deed → Bool
  | .began .. | .delivered .. | .answered _ => true
  | .minded | .submitted _ => false

end Deed

end Traffic

def Batch.fresh (b : Batch) : Batch := { b with progress := .idle }

def Dispatch.fresh (d : Dispatch) : Dispatch := { d with batches := d.batches.map Batch.fresh }

theorem Dispatch.fresh_of_idle {d : Dispatch} (h : ∀ b ∈ d.batches, b.progress = .idle) :
    d.fresh = d := by
  have hsame : d.batches.map Batch.fresh = d.batches := by
    refine (List.map_congr_left fun b hb => ?_).trans (List.map_id _)
    unfold Batch.fresh
    rw [← h b hb]
    rfl
  unfold fresh
  rw [hsame]

/-- How often a batch looked for its server and was delivered. It looks for it once. Unless it is
empty it is delivered as a whole to the record that it found, and once. -/
def Batch.Fate (b : Batch) (found : List (Option Server)) (calls : List Delivery) : Prop :=
  match b.progress with
  | .idle => found = [] ∧ calls = []
  | .queued s => b.changes.isEmpty = false ∧ found = [some s] ∧ calls = []
  | .inFlight s => b.changes.isEmpty = false ∧ found = [some s] ∧ calls = [b.delivery s]
  | .settled _ => ∃ server?, found = [server?] ∧
      calls = if b.changes.isEmpty then [] else (server?.map b.delivery).toList

theorem Batch.fate_of_idle {b : Batch} (h : b.progress = .idle) : b.Fate [] [] := by
  unfold Fate
  rw [h]
  exact ⟨rfl, rfl⟩

theorem Batch.Fate.begin {b : Batch} {found : List (Option Server)} {calls : List Delivery}
    (h : b.Fate found calls) (hidle : b.progress = .idle) (server? : Option Server) :
    (b.begin server?).Fate (found ++ [server?]) calls := by
  unfold Fate at h
  rw [hidle] at h
  obtain ⟨rfl, rfl⟩ := h
  cases server? with
  | none => exact ⟨none, rfl, (ite_self _).symm⟩
  | some s =>
    unfold Batch.begin
    by_cases hempty : b.changes.isEmpty
    · simp only [if_pos hempty]
      exact ⟨some s, rfl, (if_pos hempty).symm⟩
    · simp only [if_neg hempty]
      exact ⟨Bool.eq_false_iff.2 hempty, rfl, rfl⟩

theorem Batch.Fate.deliver {b : Batch} {found : List (Option Server)} {calls : List Delivery}
    {s : Server} (h : b.Fate found calls) (hq : b.progress = .queued s) :
    Fate { b with progress := .inFlight s } found (calls ++ [b.delivery s]) := by
  unfold Fate at h
  rw [hq] at h
  obtain ⟨hsome, rfl, rfl⟩ := h
  exact ⟨hsome, rfl, rfl⟩

theorem Batch.Fate.answer {b : Batch} {found : List (Option Server)} {calls : List Delivery}
    {s : Server} (h : b.Fate found calls) (hf : b.progress = .inFlight s)
    (reply : Except Failure (List Outcome)) : (b.answer s reply).Fate found calls := by
  unfold Fate at h
  rw [hf] at h
  obtain ⟨hsome, rfl, rfl⟩ := h
  have hcalls : [b.delivery s] =
      if b.changes.isEmpty then [] else ((some s).map b.delivery).toList := by
    rw [hsome]
    rfl
  cases reply with
  | ok outcomes => exact ⟨some s, rfl, hcalls⟩
  | error e => exact ⟨some s, rfl, hcalls⟩

namespace Traffic

/-! ## Places -/

section Places

variable {t : Traffic} {p q : Place} {b b' : Batch} {s s' : Server}

theorem batch?_setBatch (hb : t.batch? p = some b) (b' : Batch) (q : Place) :
    (t.setBatch p b').batch? q = if p = q then some b' else t.batch? q := by
  obtain ⟨k, i⟩ := p
  obtain ⟨l, j⟩ := q
  obtain ⟨d, hd, hi⟩ := Option.bind_eq_some_iff.1 hb
  unfold batch? setBatch
  simp only [List.getElem?_modify]
  by_cases hk : k = l
  · subst hk
    rw [show t.dispatches[k]? = some d from hd]
    simp [Dispatch.getElem?_setBatch hi]
  · cases t.dispatches[l]? <;> simp [hk]

theorem batch?_submit (t : Traffic) (d : Dispatch) (p : Place) :
    batch? { t with dispatches := t.dispatches ++ [d] } p =
      if p.1 = t.dispatches.length then d.batches[p.2]? else t.batch? p := by
  unfold batch?
  by_cases hk : p.1 = t.dispatches.length
  · simp [hk]
  · rw [if_neg hk]
    rcases Nat.lt_or_gt_of_ne hk with hlt | hgt
    · simp only [List.getElem?_append_left hlt]
    · have hold : t.dispatches[p.1]? = none := List.getElem?_eq_none (Nat.le_of_lt hgt)
      have hnew : (t.dispatches ++ [d])[p.1]? = none := by
        apply List.getElem?_eq_none
        rw [List.length_append]
        exact hgt
      simp only [hold, hnew]

theorem exists_dispatches_setBatch (hb : t.batch? p = some b) (b' : Batch) :
    ∃ before d after, t.dispatches = before ++ d :: after ∧ d.batches[p.2]? = some b ∧
      (t.setBatch p b').dispatches = before ++ d.setBatch p.2 b' :: after := by
  obtain ⟨d, hd, hi⟩ := Option.bind_eq_some_iff.1 hb
  obtain ⟨hlt, rfl⟩ := List.getElem?_eq_some_iff.1 hd
  refine ⟨_, _, _, ?_, hi, List.modify_eq_take_cons_drop hlt⟩
  rw [← List.drop_eq_getElem_cons hlt, List.take_append_drop]

theorem batch?_length (t : Traffic) (i : Nat) : t.batch? (t.dispatches.length, i) = none := by
  unfold batch?
  simp

theorem flies_submit {d : Dispatch} (hidle : ∀ b ∈ d.batches, b.progress = .idle) :
    Flies { t with dispatches := t.dispatches ++ [d] } p s ↔ t.Flies p s := by
  refine exists_congr fun b => and_congr_left fun hf => ?_
  rw [batch?_submit]
  by_cases hp : p.1 = t.dispatches.length
  · have hnone : t.batch? p = none := by
      have hlast := t.batch?_length p.2
      rwa [← hp] at hlast
    rw [if_pos hp, hnone]
    refine iff_of_false (fun hb => ?_) nofun
    cases (hidle b (List.mem_of_getElem? hb)).symm.trans hf
  · rw [if_neg hp]

theorem flies_setBatch (hb : t.batch? p = some b) :
    (t.setBatch p b').Flies q s ↔ if p = q then b'.progress = .inFlight s else t.Flies q s := by
  unfold Flies
  rw [batch?_setBatch hb]
  by_cases hp : p = q
  · simp [hp]
  · simp [hp]

theorem Flies.of_setBatch (hb : t.batch? p = some b) (h : (t.setBatch p b').Flies q s)
    (hb' : ∀ s, b'.progress ≠ .inFlight s) : t.Flies q s := by
  rw [flies_setBatch hb] at h
  by_cases hp : p = q
  · rw [if_pos hp] at h
    exact absurd h (hb' s)
  · rwa [if_neg hp] at h

theorem Flies.not_free (h : t.Flies p s) {number : Nat}
    (hfree : ∀ d ∈ t.dispatches, d.isFree number) : s.number ≠ number := by
  rintro rfl
  obtain ⟨b, hb, hf⟩ := h
  obtain ⟨d, hd, hi⟩ := Option.bind_eq_some_iff.1 hb
  have hall := hfree d (List.mem_of_getElem? hd)
  rw [Dispatch.isFree, Bool.not_eq_true', List.any_eq_false] at hall
  apply hall b (List.mem_of_getElem? hi)
  simp [Batch.isFor, hf]

theorem free_of_not_flies {number : Nat} (h : ∀ p s, t.Flies p s → s.number ≠ number) :
    ∀ d ∈ t.dispatches, d.isFree number := by
  intro d hd
  rw [Dispatch.isFree, Bool.not_eq_true', List.any_eq_false]
  intro b hb hfor
  obtain ⟨k, hk⟩ := List.mem_iff_getElem?.1 hd
  obtain ⟨i, hi⟩ := List.mem_iff_getElem?.1 hb
  cases hp : b.progress with
  | inFlight s =>
    have hflies : t.Flies (k, i) s := ⟨b, Option.bind_eq_some_iff.2 ⟨d, hk, hi⟩, hp⟩
    simp only [Batch.isFor, hp, decide_eq_true_eq] at hfor
    exact h _ _ hflies hfor
  | idle | queued | settled => simp [Batch.isFor, hp] at hfor

end Places

/-! ## Steps and runs -/

section Runs

variable {t₀ t t' : Traffic} {deed : Deed} {deeds : List Deed} {p q : Place} {s s' : Server}

theorem answer_ne_inFlight (b : Batch) (s s' : Server) (reply : Except Failure (List Outcome)) :
    (b.answer s reply).progress ≠ .inFlight s' := by
  cases reply <;> exact nofun

def Exclusive (t : Traffic) : Prop :=
  ∀ p q s s', t.Flies p s → t.Flies q s' → s.number = s'.number → p = q

theorem Exclusive.step (h : t.Exclusive) (hstep : Step t deed t') : t'.Exclusive := by
  cases hstep with
  | minded => exact h
  | submitted hidle =>
    exact fun p q s s' hp hq => h p q s s' ((flies_submit hidle).1 hp) ((flies_submit hidle).1 hq)
  | @began p b hb hidle hturn =>
    have hnot := b.begin_ne_inFlight (t.roster.get? b.address.process)
    exact fun q r u v hu hv => h q r u v (hu.of_setBatch hb hnot) (hv.of_setBatch hb hnot)
  | @delivered p b s hb hq hfree =>
    intro q r u v hu hv huv
    rw [flies_setBatch hb] at hu hv
    by_cases hpq : p = q
    · by_cases hpr : p = r
      · exact hpq.symm.trans hpr
      · rw [if_pos hpq] at hu
        rw [if_neg hpr] at hv
        obtain rfl := Progress.inFlight.inj hu
        exact absurd huv.symm (hv.not_free hfree)
    · rw [if_neg hpq] at hu
      by_cases hpr : p = r
      · rw [if_pos hpr] at hv
        obtain rfl := Progress.inFlight.inj hv
        exact absurd huv (hu.not_free hfree)
      · rw [if_neg hpr] at hv
        exact h q r u v hu hv huv
  | @answered p b s reply hb hf =>
    have hnot := fun s' => answer_ne_inFlight b s s' reply
    exact fun q r u v hu hv => h q r u v (hu.of_setBatch hb hnot) (hv.of_setBatch hb hnot)

def Fate (t : Traffic) (p : Place) (found : List (Option Server)) (calls : List Delivery) : Prop :=
  match t.batch? p with
  | none => found = [] ∧ calls = []
  | some b => b.Fate found calls

theorem Fate.of_batch? {found : List (Option Server)} {calls : List Delivery} {b : Batch}
    (h : t.Fate p found calls) (hb : t.batch? p = some b) : b.Fate found calls := by
  unfold Fate at h
  rwa [hb] at h

theorem Fate.setBatch {found : List (Option Server)} {calls : List Delivery} {b b' : Batch}
    (h : t.Fate q found calls) (hb : t.batch? p = some b) {found' : List (Option Server)}
    {calls' : List Delivery} (hhere : p = q → b.Fate found calls → b'.Fate found' calls')
    (helse : p ≠ q → found' = found ∧ calls' = calls) : (t.setBatch p b').Fate q found' calls' := by
  unfold Fate
  rw [batch?_setBatch hb]
  by_cases hp : p = q
  · subst hp
    rw [if_pos rfl]
    exact hhere rfl (h.of_batch? hb)
  · obtain ⟨rfl, rfl⟩ := helse hp
    rw [if_neg hp]
    exact h

theorem Fate.step {found : List (Option Server)} {calls : List Delivery} (h : t.Fate q found calls)
    (hstep : Step t deed t') :
    t'.Fate q (found ++ (deed.found? q).toList) (calls ++ (deed.call? q).toList) := by
  cases hstep with
  | minded =>
    simp only [Deed.found?, Deed.call?, Option.toList_none, List.append_nil]
    exact h
  | @submitted d hidle =>
    simp only [Deed.found?, Deed.call?, Option.toList_none, List.append_nil]
    unfold Fate at h ⊢
    rw [batch?_submit]
    by_cases hq : q.1 = t.dispatches.length
    · have hnone : t.batch? q = none := by
        have hlast := t.batch?_length q.2
        rwa [← hq] at hlast
      rw [hnone] at h
      obtain ⟨rfl, rfl⟩ := h
      rw [if_pos hq]
      cases hb : d.batches[q.2]? with
      | none => exact ⟨rfl, rfl⟩
      | some b =>
        exact Batch.fate_of_idle (hidle b (List.mem_of_getElem? hb))
    · rw [if_neg hq]
      exact h
  | @began p b hb hidle hturn =>
    refine h.setBatch hb (fun hp hfate => ?_) fun hp => ?_
    · simp only [Deed.found?, Deed.call?, if_pos hp, Option.toList_none, List.append_nil]
      exact hfate.begin hidle _
    · simp [Deed.found?, Deed.call?, hp]
  | @delivered p b s hb hq hfree =>
    refine h.setBatch hb (fun hp hfate => ?_) fun hp => ?_
    · simp only [Deed.found?, Deed.call?, if_pos hp, Option.toList_none, List.append_nil]
      exact hfate.deliver hq
    · simp [Deed.found?, Deed.call?, hp]
  | @answered p b s reply hb hf =>
    simp only [Deed.found?, Deed.call?, Option.toList_none, List.append_nil]
    exact h.setBatch hb (fun _ hfate => hfate.answer hf reply) fun _ => ⟨rfl, rfl⟩

theorem Run.exclusive (h : Run t₀ deeds t) (hexclusive : t₀.Exclusive) : t.Exclusive := by
  induction h with
  | nil => exact hexclusive
  | snoc _ hstep ih => exact ih.step hstep

theorem Run.fate (h : Run t₀ deeds t) {found : List (Option Server)} {calls : List Delivery}
    (hfate : t₀.Fate p found calls) : t.Fate p (found ++ deeds.filterMap (Deed.found? p))
      (calls ++ deeds.filterMap (Deed.call? p)) := by
  induction h with
  | nil => simpa using hfate
  | snoc _ hstep ih =>
    rw [List.filterMap_append_singleton, List.filterMap_append_singleton, ← List.append_assoc,
      ← List.append_assoc]
    exact ih.step hstep

theorem Step.fresh (hstep : Step t deed t') :
    t'.dispatches.map Dispatch.fresh = t.dispatches.map Dispatch.fresh ++ deed.dispatch?.toList := by
  have hset {p : Place} {b b' : Batch} (hb : t.batch? p = some b)
      (hsame : b'.fresh = b.fresh) :
      (t.setBatch p b').dispatches.map Dispatch.fresh = t.dispatches.map Dispatch.fresh := by
    obtain ⟨before, d, after, hd, hi, hset⟩ := exists_dispatches_setBatch hb b'
    have hfresh : (d.setBatch p.2 b').fresh = d.fresh := by
      unfold Dispatch.fresh Dispatch.setBatch
      simp only [List.map_set_of_getElem? hi hsame]
    rw [hset, hd, List.map_append, List.map_append, List.map_cons, List.map_cons, hfresh]
  cases hstep with
  | minded => exact (List.append_nil _).symm
  | @submitted d hidle =>
    rw [List.map_append]
    exact congrArg _ (congrArg (fun d => [d]) (Dispatch.fresh_of_idle hidle))
  | @began p b hb hidle hturn =>
    refine (hset hb ?_).trans (List.append_nil _).symm
    unfold Batch.begin
    cases t.roster.get? b.address.process with
    | none => rfl
    | some s => by_cases hempty : b.changes.isEmpty <;> simp [hempty, Batch.settle, Batch.fresh]
  | delivered hb hq hfree =>
    refine (hset hb ?_).trans (List.append_nil _).symm
    rfl
  | @answered p b s reply hb hf =>
    refine (hset hb ?_).trans (List.append_nil _).symm
    cases reply <;> rfl

/-- Nothing of a dispatch is altered but how far its batches have come. -/
theorem Run.fresh (h : Run t₀ deeds t) : t.dispatches.map Dispatch.fresh =
    t₀.dispatches.map Dispatch.fresh ++ deeds.filterMap Deed.dispatch? := by
  induction h with
  | nil => exact (List.append_nil _).symm
  | snoc _ hstep ih =>
    rw [hstep.fresh, ih, List.filterMap_append_singleton, List.append_assoc]

/-- What a batch found was tracked when it began. -/
theorem Run.exists_found (h : Run t₀ deeds t) (hfound : some s ∈ deeds.filterMap (Deed.found? p)) :
    ∃ earlier t' process, Run t₀ earlier t' ∧ t'.roster.get? process = some s := by
  induction h with
  | nil => cases hfound
  | @snoc deeds deed t' t'' h hstep ih =>
    rw [List.filterMap_append_singleton, List.mem_append, Option.mem_toList] at hfound
    rcases hfound with hfound | hfound
    · exact ih hfound
    · cases hstep with
      | @began q b hb hidle hturn =>
        simp only [Deed.found?] at hfound
        by_cases hp : q = p
        · rw [if_pos hp] at hfound
          exact ⟨deeds, t', b.address.process, h, Option.some.inj hfound⟩
        · rw [if_neg hp] at hfound
          cases hfound
      | minded | submitted | delivered | answered => cases hfound

theorem Run.reaches (h : Run t₀ deeds t) : Interleaving.Reaches t₀.steward t.steward := by
  induction h with
  | nil => exact .refl
  | snoc _ hstep ih =>
    cases hstep with
    | minded hs => exact ih.tail hs
    | submitted | began | delivered | answered => exact ih

theorem Run.append {more : List Deed} (h : Run t₀ deeds t) (hmore : Run t more t') :
    Run t₀ (deeds ++ more) t' := by
  induction hmore with
  | nil => rwa [List.append_nil]
  | snoc _ hstep ih =>
    rw [← List.append_assoc]
    exact ih.snoc hstep

/-! ## Progress -/

def work (t : Traffic) : Nat := (t.dispatches.map Dispatch.work).sum

theorem work_setBatch {b b' : Batch} (hb : t.batch? p = some b) (hlt : b'.work < b.work) :
    (t.setBatch p b').work < t.work := by
  obtain ⟨before, d, after, hd, hi, hset⟩ := exists_dispatches_setBatch hb b'
  obtain ⟨front, back, hbatches, hbatches'⟩ := Dispatch.exists_batches_setBatch hi b'
  have hdispatch : (d.setBatch p.2 b').work < d.work := by
    unfold Dispatch.work
    rw [hbatches', hbatches]
    simp only [List.map_append, List.map_cons, List.sum_append, List.sum_cons]
    omega
  unfold work
  rw [hset, hd]
  simp only [List.map_append, List.map_cons, List.sum_append, List.sum_cons]
  omega

theorem Step.work_lt (hstep : Step t deed t') (hdeed : deed.isProgress) : t'.work < t.work := by
  cases hstep with
  | minded | submitted => cases hdeed
  | @began p b hb hidle hturn =>
    apply work_setBatch hb
    have hnew := b.begin_ne_idle (t.roster.get? b.address.process)
    unfold Batch.work
    rw [hidle]
    cases hp : (b.begin (t.roster.get? b.address.process)).progress with
    | idle => exact absurd hp hnew
    | queued | inFlight | settled => simp
  | delivered hb hq hfree =>
    apply work_setBatch hb
    simp [Batch.work, hq]
  | @answered p b s reply hb hf =>
    apply work_setBatch hb
    cases reply <;> simp [Batch.work, hf, Batch.answer, Batch.failAll, Batch.settle]

/-- Unless all batches are settled, one of them can go on. -/
theorem exists_progress (hopen : ∃ d ∈ t.dispatches, ¬ d.isSettled) :
    ∃ deed t', Step t deed t' ∧ deed.isProgress ∧ t'.steward = t.steward := by
  by_cases hflies : ∃ p s, t.Flies p s
  · obtain ⟨p, s, b, hb, hf⟩ := hflies
    exact ⟨_, _, .answered (.ok []) hb hf, rfl, rfl⟩
  have hfree (number : Nat) : ∀ d ∈ t.dispatches, d.isFree number :=
    free_of_not_flies fun p s hp => absurd ⟨p, s, hp⟩ hflies
  obtain ⟨d, hd, hopen⟩ := hopen
  obtain ⟨k, hk⟩ := List.mem_iff_getElem?.1 hd
  have hplace {i b} (hi : d.batches[i]? = some b) : t.batch? (k, i) = some b :=
    Option.bind_eq_some_iff.2 ⟨d, hk, hi⟩
  -- A single dispatch meets no others when nothing is with the executor.
  obtain ⟨calls, d', hstep⟩ :=
    Dispatch.exists_step ⟨fun _ => t.roster, fun _ => .ok []⟩ hopen
  cases hstep with
  | begin hi hidle hturn =>
    refine ⟨_, _, .began (hplace hi) hidle ?_, rfl, rfl⟩
    unfold hasTurn
    rw [hk]
    exact hturn
  | deliver hi hq _ => exact ⟨_, _, .delivered (hplace hi) hq (hfree _), rfl, rfl⟩
  | answer hi hf => exact ⟨_, _, .answered (.ok []) (hplace hi) hf, rfl, rfl⟩

theorem exists_settled (t : Traffic) :
    ∃ more t', Run t more t' ∧ t'.steward = t.steward ∧ ∀ d ∈ t'.dispatches, d.isSettled := by
  induction hwork : t.work using Nat.strongRecOn generalizing t with
  | ind left ih =>
    by_cases hopen : ∃ d ∈ t.dispatches, ¬ d.isSettled
    · obtain ⟨deed, t₁, hstep, hdeed, hsame⟩ := exists_progress hopen
      obtain ⟨more, t₂, hrun, hsame', hdone⟩ := ih _ (hwork ▸ hstep.work_lt hdeed) t₁ rfl
      exact ⟨[deed] ++ more, t₂, (Run.nil.snoc hstep).append hrun, hsame'.trans hsame, hdone⟩
    · exact ⟨[], t, .nil, rfl, fun d hd => by_contra fun hnot => hopen ⟨d, hd, hnot⟩⟩

end Runs

end Traffic

end HostSteward
