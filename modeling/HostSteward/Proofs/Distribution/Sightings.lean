import HostSteward.Proofs.Distribution.Runs

/-!
# Runs that go by what is seen

While a dispatch is under way the rosters and executors may change. A batch looks at them once, when
it begins and when it is answered, so a dispatch whose batches have different addresses is always
at some point of a run under conditions that were really met.
-/

namespace HostSteward

namespace Dispatch

variable {w w' : Conditions} {d d₀ d' : Dispatch} {calls : List Delivery}

/-- A run needs to know the conditions of those batches only that it took through them. -/
theorem Run.congr (h : Run w d₀ calls d)
    (hused : ∀ b ∈ d.batches, (b.progress ≠ .idle → w'.roster b.address = w.roster b.address) ∧
      (b.isSettled → w'.reply b.address = w.reply b.address)) : Run w' d₀ calls d := by
  induction h with
  | nil => exact .nil
  | @snoc calls more d d' h hs ih =>
    have hother : ∀ {i : Nat} {b b' : Batch}, d.batches[i]? = some b → d' = d.setBatch i b' →
        b'.address = b.address → (b.progress ≠ .idle → b'.progress ≠ .idle) →
        (b.isSettled → b'.isSettled) → Run w' d₀ calls d := by
      rintro i b b' hb rfl haddress hidle hset
      apply ih
      intro c hc
      obtain ⟨j, hj⟩ := List.mem_iff_getElem?.1 hc
      by_cases hij : i = j
      · subst hij
        obtain rfl : b = c := Option.some.inj (hb.symm.trans hj)
        have hb' : (d.setBatch i b').batches[i]? = some b' := by
          rw [getElem?_setBatch hb, if_pos rfl]
        obtain ⟨hroster, hreply⟩ := hused b' (List.mem_of_getElem? hb')
        rw [haddress] at hroster hreply
        exact ⟨fun h => hroster (hidle h), fun h => hreply (hset h)⟩
      · have hj' : (d.setBatch i b').batches[j]? = some c := by
          rw [getElem?_setBatch hb, if_neg hij, hj]
        exact hused c (List.mem_of_getElem? hj')
    have hhere {i : Nat} {b b' : Batch} (hb : d.batches[i]? = some b) :
        b' ∈ (d.setBatch i b').batches :=
      List.mem_of_getElem? (i := i) (by rw [getElem?_setBatch hb, if_pos rfl])
    cases hs with
    | @begin i b hb hidle hturn =>
      have hroster := (hused _ (hhere hb)).1 (b.begin_ne_idle _)
      rw [Batch.address_begin] at hroster
      have hserver : b.server? w = b.server? w' := by simp only [Batch.server?, hroster]
      have hset : ¬ b.isSettled := by simp [Batch.isSettled_iff, hidle]
      have hrun := hother hb rfl (Batch.address_begin ..) (absurd hidle) (absurd · hset)
      rw [hserver]
      exact hrun.snoc (.begin hb hidle hturn)
    | @deliver i b server hb hq hfree =>
      have hset : ¬ b.isSettled := by simp [Batch.isSettled_iff, hq]
      exact (hother hb rfl rfl (by simp) (absurd · hset)).snoc (.deliver hb hq hfree)
    | @answer i b server hb hf =>
      have hset := b.isSettled_answer server (w.reply b.address)
      have hreply := (hused _ (hhere hb)).2 hset
      rw [Batch.address_answer] at hreply
      have hidle : (b.answer server (w.reply b.address)).progress ≠ .idle := by
        obtain ⟨outcomes, ho⟩ := Batch.isSettled_iff.1 hset
        simp [ho]
      have hrun := hother hb rfl (Batch.address_answer ..) (fun _ => hidle) (fun _ => hset)
      rw [← hreply]
      exact hrun.snoc (.answer hb hf)

structure Fresh (d : Dispatch) : Prop where
  idle : ∀ b ∈ d.batches, b.progress = .idle
  nodup : (d.batches.map (·.address)).Nodup

def Answered (Q : Delivery → Except Failure (List Outcome) → Prop) (w : Conditions)
    (d : Dispatch) : Prop :=
  ∀ b ∈ d.batches, b.isSettled → ∀ call, b.delivery? w = some call → Q call (w.reply b.address)

/-- What a dispatch may come to by certain calls when the rosters that its batches find satisfy
`P` and every call with its answer satisfies `Q`. -/
def Reaches (P : Roster → Prop) (Q : Delivery → Except Failure (List Outcome) → Prop)
    (d₀ : Dispatch) (calls : List Delivery) (d : Dispatch) : Prop :=
  ∃ w, (∀ a, P (w.roster a)) ∧ Answered Q w d ∧ Run w d₀ calls d

variable {P : Roster → Prop} {Q : Delivery → Except Failure (List Outcome) → Prop}

theorem Answered.setBatch {i : Nat} {b b' : Batch} (h : Answered Q w d)
    (hb : d.batches[i]? = some b)
    (hother : ∀ (j : Nat) (c : Batch), d.batches[j]? = some c → i ≠ j →
      w'.roster c.address = w.roster c.address ∧ w'.reply c.address = w.reply c.address)
    (hb' : b'.isSettled → ∀ call, b'.delivery? w' = some call → Q call (w'.reply b'.address)) :
    Answered Q w' (d.setBatch i b') := by
  intro c hc
  obtain ⟨j, hj⟩ := List.mem_iff_getElem?.1 hc
  rw [getElem?_setBatch hb] at hj
  by_cases hij : i = j
  · rw [if_pos hij] at hj
    obtain rfl : b' = c := Option.some.inj hj
    exact hb'
  · rw [if_neg hij] at hj
    obtain ⟨hroster, hreply⟩ := hother j c hj hij
    have hsame : c.delivery? w' = c.delivery? w := by
      simp only [Batch.delivery?, Batch.server?, hroster]
    rw [hsame, hreply]
    exact h c (List.mem_of_getElem? hj)

theorem Reaches.refl {roster : Roster} (h : P roster) (hd : Fresh d₀) : Reaches P Q d₀ [] d₀ := by
  refine ⟨⟨fun _ => roster, fun _ => .ok []⟩, fun _ => h, fun b hb hset => ?_, .nil⟩
  obtain ⟨outcomes, ho⟩ := Batch.isSettled_iff.1 hset
  cases (hd.idle b hb).symm.trans ho

theorem Reaches.addresses (h : Reaches P Q d₀ calls d) :
    d.batches.map (·.address) = d₀.batches.map (·.address) := by
  obtain ⟨w, -, -, hrun⟩ := h
  induction hrun with
  | nil => rfl
  | @snoc calls more d d' _ hs ih =>
    rw [← ih]
    have hset {i : Nat} {b b' : Batch} (hb : d.batches[i]? = some b)
        (haddress : b'.address = b.address) :
        (d.setBatch i b').batches.map (·.address) = d.batches.map (·.address) := by
      obtain ⟨before, after, hsplit, hset⟩ := exists_batches_setBatch hb b'
      rw [hset, hsplit]
      simp [haddress]
    cases hs with
    | begin hb hidle hturn => exact hset hb (Batch.address_begin ..)
    | deliver hb hq hfree => exact hset hb rfl
    | answer hb hf => exact hset hb (Batch.address_answer ..)

theorem Reaches.ne_address (h : Reaches P Q d₀ calls d) (hd : Fresh d₀) {i j : Nat} {b c : Batch}
    (hb : d.batches[i]? = some b) (hc : d.batches[j]? = some c) (hij : i ≠ j) :
    c.address ≠ b.address := by
  have hnd := hd.nodup
  rw [← h.addresses] at hnd
  intro he
  obtain ⟨hi, rfl⟩ := List.getElem?_eq_some_iff.1 hb
  obtain ⟨hj, rfl⟩ := List.getElem?_eq_some_iff.1 hc
  have hi' : i < (d.batches.map Batch.address).length := by simpa using hi
  have hj' : j < (d.batches.map Batch.address).length := by simpa using hj
  have hsame : (d.batches.map Batch.address)[i] = (d.batches.map Batch.address)[j] := by
    simpa using he.symm
  exact hij ((List.getElem_inj hnd).1 hsame)

theorem Reaches.begin (h : Reaches P Q d₀ calls d) (hd : Fresh d₀) {roster : Roster}
    (hroster : P roster) {i : Nat} {b : Batch} (hb : d.batches[i]? = some b)
    (hidle : b.progress = .idle) (hturn : d.mayBegin i) :
    Reaches P Q d₀ calls (d.setBatch i (b.begin (roster.get? b.address.process))) := by
  have hne := fun j c => h.ne_address hd hb (j := j) (c := c)
  obtain ⟨w, hP, hQ, hrun⟩ := h
  let w' : Conditions := { w with
    roster := fun a => if a = b.address then roster else w.roster a }
  have hrun' : Run w' d₀ calls d := by
    refine hrun.congr fun c hc => ⟨fun hp => ?_, fun _ => rfl⟩
    obtain ⟨j, hj⟩ := List.mem_iff_getElem?.1 hc
    have hij : i ≠ j := by
      rintro rfl
      obtain rfl : b = c := Option.some.inj (hb.symm.trans hj)
      exact hp hidle
    exact if_neg (hne j c hj hij)
  have hserver : b.server? w' = roster.get? b.address.process := by simp [Batch.server?, w']
  have hstep := hrun'.snoc (.begin hb hidle hturn)
  rw [List.append_nil] at hstep
  rw [← hserver]
  refine ⟨w', fun a => ?_, ?_, hstep⟩
  · by_cases ha : a = b.address
    · simpa [w', ha] using hroster
    · simpa [w', ha] using hP a
  · refine hQ.setBatch hb (fun j c hj hij => ⟨if_neg (hne j c hj hij), rfl⟩) fun hset call hcall => ?_
    rw [← Batch.delivered?_of_settled hset, Batch.delivered?_begin] at hcall
    cases hcall

theorem Reaches.deliver (h : Reaches P Q d₀ calls d) {i : Nat} {b : Batch} {server : Server}
    (hb : d.batches[i]? = some b) (hq : b.progress = .queued server)
    (hfree : d.isFree server.number) :
    Reaches P Q d₀ (calls ++ [b.delivery server])
      (d.setBatch i { b with progress := .inFlight server }) := by
  obtain ⟨w, hP, hQ, hrun⟩ := h
  refine ⟨w, hP, ?_, hrun.snoc (.deliver hb hq hfree)⟩
  apply hQ.setBatch hb (fun _ _ _ _ => ⟨rfl, rfl⟩)
  intro hset
  obtain ⟨outcomes, ho⟩ := Batch.isSettled_iff.1 hset
  cases ho

theorem Reaches.answer (h : Reaches P Q d₀ calls d) (hd : Fresh d₀) {i : Nat} {b : Batch}
    {server : Server} (hb : d.batches[i]? = some b) (hf : b.progress = .inFlight server)
    {reply : Except Failure (List Outcome)} (hreply : Q (b.delivery server) reply) :
    Reaches P Q d₀ calls (d.setBatch i (b.answer server reply)) := by
  have hne := fun j c => h.ne_address hd hb (j := j) (c := c)
  obtain ⟨w, hP, hQ, hrun⟩ := h
  let w' : Conditions := { w with
    reply := fun a => if a = b.address then reply else w.reply a }
  have hrun' : Run w' d₀ calls d := by
    refine hrun.congr fun c hc => ⟨fun _ => rfl, fun hset => ?_⟩
    obtain ⟨j, hj⟩ := List.mem_iff_getElem?.1 hc
    have hij : i ≠ j := by
      rintro rfl
      obtain rfl : b = c := Option.some.inj (hb.symm.trans hj)
      simp [Batch.isSettled_iff, hf] at hset
    exact if_neg (hne j c hj hij)
  have hhere : w'.reply b.address = reply := if_pos rfl
  have hstep := hrun'.snoc (.answer hb hf)
  rw [hhere, List.append_nil] at hstep
  refine ⟨w', hP, ?_, hstep⟩
  refine hQ.setBatch hb (fun j c hj hij => ⟨rfl, if_neg (hne j c hj hij)⟩) fun hset call hcall => ?_
  rw [← Batch.delivered?_of_settled hset, Batch.delivered?_answer hf, Batch.delivered?, hf] at hcall
  obtain rfl : b.delivery server = call :=
    Option.some.inj ((hrun'.delivery? hd.idle hb (Or.inr hf)).symm.trans hcall)
  rw [Batch.address_answer, hhere]
  exact hreply

end Dispatch

end HostSteward
