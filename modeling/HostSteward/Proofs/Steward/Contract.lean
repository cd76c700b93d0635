import HostSteward.Steward.Program

/-!
# Contracts of programs

A program of the steward goes on with whatever answer it gets and whatever the state is by then.
A contract says in which states it may hand out a request and how it may find things afterwards;
what a program guarantees is computed along its text. Around the steward there is a state of a
type `σ`, which the contract chooses: a supervisor, or what is remembered of the past.
-/

namespace HostSteward

structure Contract (σ : Type) where
  /-- What has to hold when a request is handed out. -/
  owes : Request → Steward → σ → Prop
  /-- How things may be when the program goes on with an answer. -/
  answers : (r : Request) → Steward → σ → Steward → σ → r.Answer → Prop

abbrev Outlook (σ α : Type) := α → Steward → σ → Prop

variable {σ α β : Type} (C : Contract σ)

namespace Program

/-- However its requests are answered, a program owes nothing and ends as it is expected to. -/
def Meets (post : Outlook σ α) : Program α → σ → Prop
  | .done host value, s => post value host s
  | .ask host r resume, s =>
    C.owes r host s ∧ ∀ host' s' a, C.answers r host s host' s' a → (resume host' a).Meets post s'

variable {C}

theorem meets_andThen (p : Program α) (next : α → Steward → Program β) (post : Outlook σ β)
    (s : σ) : (p.andThen next).Meets C post s ↔
      p.Meets C (fun value host s => (next value host).Meets C post s) s := by
  induction p generalizing s with
  | done host value => exact Iff.rfl
  | ask host r resume ih =>
    apply and_congr_right
    intro _
    refine forall_congr' fun host' => forall_congr' fun s' => forall_congr' fun a => ?_
    exact imp_congr_right fun _ => ih host' a s'

theorem Meets.mono {p : Program α} {post post' : Outlook σ α} {s : σ} (h : p.Meets C post s)
    (hpost : ∀ value host s, post value host s → post' value host s) : p.Meets C post' s := by
  induction p generalizing s with
  | done host value => exact hpost _ _ _ h
  | ask host r resume ih =>
    exact ⟨h.1, fun host' s' a ha => ih host' a (h.2 host' s' a ha)⟩

end Program

namespace Operation

def Meets (o : Operation α) (post : Outlook σ α) (host : Steward) (s : σ) : Prop :=
  (o host).Meets C post s

variable {C} {host : Steward} {s : σ}

theorem Meets.mono {o : Operation α} {post post' : Outlook σ α} (h : o.Meets C post host s)
    (hpost : ∀ value host s, post value host s → post' value host s) : o.Meets C post' host s :=
  Program.Meets.mono h hpost

@[simp] theorem meets_pure (value : α) (post : Outlook σ α) :
    (pure value : Operation α).Meets C post host s ↔ post value host s := Iff.rfl

@[simp] theorem meets_bind (o : Operation α) (next : α → Operation β) (post : Outlook σ β) :
    (o >>= next).Meets C post host s ↔
      o.Meets C (fun value host s => (next value).Meets C post host s) host s :=
  Program.meets_andThen _ _ _ _

@[simp] theorem meets_map (o : Operation α) (f : α → β) (post : Outlook σ β) :
    (f <$> o).Meets C post host s ↔ o.Meets C (fun value => post (f value)) host s :=
  meets_bind o (fun value => pure (f value)) post

@[simp] theorem meets_current (post : Outlook σ Steward) :
    current.Meets C post host s ↔ post host host s := Iff.rfl

@[simp] theorem meets_modify (f : Steward → Steward) (post : Outlook σ Unit) :
    (modify f).Meets C post host s ↔ post () (f host) s := Iff.rfl

@[simp] theorem meets_tell (e : Entry) (post : Outlook σ Unit) :
    (tell e).Meets C post host s ↔ post () { host with journal := host.journal ++ [e] } s := Iff.rfl

@[simp] theorem meets_ask (r : Request) (post : Outlook σ r.Answer) :
    (ask r).Meets C post host s ↔
      C.owes r host s ∧ ∀ host' s' a, C.answers r host s host' s' a → post a host' s' := Iff.rfl

@[simp] theorem meets_command (c : Command) (post : Outlook σ c.Answer) :
    (command c).Meets C post host s ↔ C.owes (.command c) host s ∧
      ∀ host' s' a, C.answers (.command c) host s host' s' a → post a host' s' := Iff.rfl

@[simp] theorem meets_updateServer (number : Nat) (f : Server → Server) (post : Outlook σ Unit) :
    (updateServer number f).Meets C post host s ↔
      post () { host with roster := host.roster.update number f } s := Iff.rfl

@[simp] theorem meets_setPhase (server : Server) (phase : Phase) (post : Outlook σ Unit) :
    (setPhase server phase).Meets C post host s ↔
      post () { host with roster := host.roster.update server.number (·.withPhase phase) } s :=
  Iff.rfl

/-- An operation whose first part asks for nothing goes on at once. -/
theorem bind_of_done {o : Operation α} {next : α → Operation β} {host' : Steward} {value : α}
    (h : o host = .done host' value) : (o >>= next) host = next value host' := by
  show Program.andThen _ (o host) = _
  rw [h]
  rfl

/-- An operation leads from states with one property to states with another. -/
def Leads (C : Contract σ) (I J : Steward → σ → Prop) (o : Operation α) : Prop :=
  ∀ host s, I host s → o.Meets C (fun _ => J) host s

def Keeps (C : Contract σ) (I : Steward → σ → Prop) (o : Operation α) : Prop :=
  ∀ host s, I host s → o.Meets C (fun _ => I) host s

variable {I : Steward → σ → Prop}

theorem keeps_pure (value : α) : Keeps C I (pure value) := fun _ _ h => h

theorem Keeps.bind {o : Operation α} {next : α → Operation β} (ho : Keeps C I o)
    (hnext : ∀ value, Keeps C I (next value)) : Keeps C I (o >>= next) := by
  intro host s h
  rw [meets_bind]
  exact (ho host s h).mono fun value host s h => hnext value host s h

/-- An operation may look at the state before it decides what to do. -/
theorem keeps_current {next : Steward → Operation β}
    (h : ∀ host s, I host s → (next host).Meets C (fun _ => I) host s) :
    Keeps C I (current >>= next) := fun host s hI => h host s hI

theorem keeps_ite {c : Prop} [Decidable c] {o o' : Operation α} (ho : c → Keeps C I o)
    (ho' : ¬ c → Keeps C I o') : Keeps C I (if c then o else o') := by
  by_cases h : c
  · rw [if_pos h]
    exact ho h
  · rw [if_neg h]
    exact ho' h

theorem keeps_answer {ε : Type} {next : Except ε Unit → Operation α}
    (hok : Keeps C I (next (.ok ()))) (herror : ∀ e, Keeps C I (next (.error e)))
    (answer : Except ε Unit) : Keeps C I (next answer) := by
  cases answer with
  | ok _ => exact hok
  | error e => exact herror e

end Operation

namespace Attempt

abbrev Keeps (C : Contract σ) (I : Steward → σ → Prop) (x : Attempt α) : Prop :=
  Operation.Keeps C I x.run

def Meets (x : Attempt α) (post : Outlook σ α) (failed : Outlook σ Failure) (host : Steward)
    (s : σ) : Prop :=
  Operation.Meets C x.run (fun r => match r with
    | .ok value => post value
    | .error e => failed e) host s

variable {C} {host : Steward} {s : σ} {failed : Outlook σ Failure}

theorem meets_run (x : Attempt α) (post : Outlook σ (Except Failure α)) :
    Operation.Meets C x.run post host s ↔
      Meets C x (fun value => post (.ok value)) (fun e => post (.error e)) host s := by
  constructor
  · refine fun h => Operation.Meets.mono h fun r host s hr => ?_
    cases r <;> exact hr
  · refine fun h => Operation.Meets.mono h fun r host s hr => ?_
    cases r <;> exact hr

theorem Meets.mono {x : Attempt α} {post post' : Outlook σ α} {failed failed' : Outlook σ Failure}
    (h : Meets C x post failed host s)
    (hpost : ∀ value host s, post value host s → post' value host s)
    (hfailed : ∀ e host s, failed e host s → failed' e host s) :
    Meets C x post' failed' host s := by
  apply Operation.Meets.mono h
  intro r host s hr
  cases r with
  | ok value => exact hpost value host s hr
  | error e => exact hfailed e host s hr

@[simp] theorem meets_pure (value : α) (post : Outlook σ α) :
    Meets C (pure value) post failed host s ↔ post value host s := Iff.rfl

@[simp] theorem meets_throw (e : Failure) (post : Outlook σ α) :
    Meets C (throw e) post failed host s ↔ failed e host s := Iff.rfl

@[simp] theorem meets_bind (x : Attempt α) (next : α → Attempt β) (post : Outlook σ β) :
    Meets C (x >>= next) post failed host s ↔
      Meets C x (fun value host s => Meets C (next value) post failed host s) failed host s := by
  unfold Meets
  rw [ExceptT.run_bind, Operation.meets_bind]
  constructor
  · refine fun h => h.mono fun r host s hr => ?_
    cases r <;> exact hr
  · refine fun h => h.mono fun r host s hr => ?_
    cases r <;> exact hr

@[simp] theorem meets_lift (o : Operation α) (post : Outlook σ α) :
    Meets C (ExceptT.lift o) post failed host s ↔ o.Meets C post host s := by
  unfold Meets
  rw [ExceptT.run_lift, Operation.meets_map]

@[simp] theorem meets_mk (o : Operation (Except Failure α)) (post : Outlook σ α) :
    Meets C (ExceptT.mk o) post failed host s ↔
      o.Meets C (fun r => match r with
        | .ok value => post value
        | .error e => failed e) host s := Iff.rfl

@[simp] theorem meets_tryCatch (x : Attempt α) (handler : Failure → Attempt α)
    (post : Outlook σ α) :
    Meets C (tryCatch x handler) post failed host s ↔
      Meets C x post (fun e host s => Meets C (handler e) post failed host s) host s := by
  change Operation.Meets C (x.run >>= _) _ host s ↔ _
  rw [Operation.meets_bind]
  constructor
  · refine fun h => Operation.Meets.mono h fun r host s hr => ?_
    cases r <;> exact hr
  · refine fun h => Operation.Meets.mono h fun r host s hr => ?_
    cases r <;> exact hr

variable {I : Steward → σ → Prop}

theorem bind_of_done {x : Attempt α} {next : α → Attempt β} {host' : Steward} {value : α}
    (h : x.run host = .done host' (.ok value)) :
    (x >>= next).run host = (next value).run host' := by
  show Program.andThen _ (x.run host) = _
  rw [h]
  rfl

theorem run_current (host : Steward) :
    (ExceptT.lift Operation.current : Attempt Steward).run host = .done host (.ok host) := rfl

theorem keeps_iff {x : Attempt α} :
    Keeps C I x ↔ ∀ host s, I host s → Meets C x (fun _ => I) (fun _ => I) host s :=
  forall_congr' fun _ => forall_congr' fun _ => imp_congr_right fun _ => meets_run x fun _ => I

theorem keeps_pure (value : α) : Keeps C I (pure value : Attempt α) := fun _ _ h => h

theorem keeps_throw (e : Failure) : Keeps C I (throw e : Attempt α) := fun _ _ h => h

theorem keeps_lift {o : Operation α} (ho : Operation.Keeps C I o) :
    Keeps C I (ExceptT.lift o : Attempt α) :=
  keeps_iff.2 fun host s h => (meets_lift o _).2 (ho host s h)

theorem Keeps.bind {x : Attempt α} {next : α → Attempt β} (hx : Keeps C I x)
    (hnext : ∀ value, Keeps C I (next value)) : Keeps C I (x >>= next) := by
  apply keeps_iff.2
  intro host s h
  rw [meets_bind]
  exact (keeps_iff.1 hx host s h).mono (fun value host s h => keeps_iff.1 (hnext value) host s h)
    fun _ _ _ h => h

end Attempt

end HostSteward
