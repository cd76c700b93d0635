import HostSteward.Proofs.Steward.Contract
import HostSteward.Steward.Reactions
import HostSteward.Steward.Requests
import Mathlib.Logic.Relation

/-!
# The steward at work

A steward with what surrounds it carries out one operation after another. An operation that
waits for time to pass is put off, and others may be carried out meanwhile; all its other requests
are answered before anything else is begun. Surroundings are given by what they may do.
-/

namespace HostSteward

def HostModel.single (name : String) (command : List String) : HostModel where
  host := "h"
  servers := [{ name, group := "g", command }]

inductive Occasion where
  | start
  | startServers
  | startServer (name : String)
  | stopServer (name : String) (gracefulTimeout : Int)
  | restartServer (name : String) (gracefulTimeout : Int)
  | notice (n : Notice)
  | restart (r : PendingRestart)
  | stop

namespace Occasion

def operation : Occasion → Operation Unit
  | .start => do
    let _ ← Steward.start.run
    return
  | .startServers => Steward.startServers
  | .startServer name => do
    let _ ← Steward.startServer name
    return
  | .stopServer name gracefulTimeout => do
    let _ ← Steward.stopServer name gracefulTimeout
    return
  | .restartServer name gracefulTimeout => do
    let _ ← Steward.restartServer name gracefulTimeout
    return
  | .notice n => Steward.handle n
  | .restart r => Steward.fire r
  | .stop => do
    let _ ← Steward.stop
    return

def launches : Occasion → Bool
  | .start | .startServers | .startServer _ | .restartServer _ _ => true
  | _ => false

def relaunches : Occasion → Bool
  | .restart _ | .notice (.serverDown _) | .notice (.processStopped _ _ _) => true
  | _ => false

def stops : Occasion → Bool
  | .stop | .notice .shutdownRequested => true
  | _ => false

/-- All other occasions but the notices of servers that have started. -/
def plain : Occasion → Bool
  | .notice (.serverStarted _) => false
  | o => !o.launches && !o.relaunches && !o.stops

theorem classes (o : Occasion) :
    o.plain ∨ o.launches ∨ o.relaunches ∨ o.stops ∨ ∃ p, o = .notice (.serverStarted p) := by
  cases o with
  | notice n => cases n <;> simp [plain, launches, relaunches, stops]
  | _ => simp [plain, launches, relaunches, stops]

theorem not_launches_of_plain {o : Occasion} (h : o.plain) : ¬ o.launches ∧ ¬ o.relaunches := by
  cases o with
  | notice n => cases n <;> simp_all [plain, launches, relaunches]
  | _ => simp_all [plain, launches, relaunches]

theorem not_launches_of_stops {o : Occasion} (h : o.stops) : ¬ o.launches ∧ ¬ o.relaunches := by
  cases o with
  | notice n => cases n <;> simp_all [stops, launches, relaunches]
  | _ => simp_all [stops, launches, relaunches]

theorem not_launches_of_relaunches {o : Occasion} (h : o.relaunches) : ¬ o.launches := by
  cases o <;> simp_all [launches, relaunches]

theorem cases_of_relaunches {o : Occasion} (h : o.relaunches) :
    (∃ r, o = .restart r) ∨ (∃ p, o = .notice (.serverDown p)) ∨
      ∃ p i uptime, o = .notice (.processStopped p i uptime) := by
  cases o with
  | restart r => exact Or.inl ⟨r, rfl⟩
  | notice n => cases n <;> simp_all [relaunches]
  | _ => cases h

/-- A call to stop is one, wherever it comes from. -/
theorem operation_of_stops {o : Occasion} (ho : o.stops) :
    o.operation = Steward.stop >>= fun _ => pure () := by
  cases o with
  | stop => rfl
  | notice n =>
    cases n with
    | shutdownRequested => rfl
    | _ => cases ho
  | _ => cases ho

end Occasion

structure Surroundings (σ : Type) where
  /-- How a command may be carried out and answered. -/
  obeys : σ → (c : Command) → σ → c.Answer → Prop
  /-- What may happen of itself. -/
  moves : σ → σ → Prop
  /-- When the steward may be made to act. -/
  calls : Steward → σ → Occasion → σ → Prop

structure System (σ : Type) where
  host : Steward
  around : σ
  /-- What is being carried out. -/
  active : Option (Occasion × Program Unit) := none
  /-- What waits for time to pass. -/
  sleepers : List (Occasion × (Steward → Program Unit)) := []

variable {σ τ : Type}

namespace System

inductive Step (S : Surroundings σ) : System σ → System σ → Prop
  | move {h s s' p l} (hmove : S.moves s s') : Step S ⟨h, s, p, l⟩ ⟨h, s', p, l⟩
  | call {h s s' o l} (hcall : S.calls h s o s') :
      Step S ⟨h, s, none, l⟩ ⟨h, s', some (o, o.operation h), l⟩
  | wake {h s before o f after} :
      Step S ⟨h, s, none, before ++ (o, f) :: after⟩ ⟨h, s, some (o, f h), before ++ after⟩
  | command {h h' s s' o c resume a l} (hobeys : S.obeys s c s' a) :
      Step S ⟨h, s, some (o, .ask h' (.command c) resume), l⟩ ⟨h', s', some (o, resume h' a), l⟩
  | register {h h' s o name resume l} (answer : Except Failure Unit) :
      Step S ⟨h, s, some (o, .ask h' (.register name) resume), l⟩
        ⟨h', s, some (o, resume h' answer), l⟩
  | unregister {h h' s o resume l} (answer : Except Failure Unit) :
      Step S ⟨h, s, some (o, .ask h' .unregister resume), l⟩ ⟨h', s, some (o, resume h' answer), l⟩
  | sleep {h h' s o d resume l} :
      Step S ⟨h, s, some (o, .ask h' (.wait d) resume), l⟩ ⟨h', s, none, l ++ [(o, (resume · ()))]⟩
  | finish {h h' s o l} : Step S ⟨h, s, some (o, .done h' ()), l⟩ ⟨h', s, none, l⟩

abbrev Reaches (S : Surroundings σ) : System σ → System σ → Prop := Relation.ReflTransGen (Step S)

end System

/-- The contract of programs whose requests are answered at once, except that waits let other
programs go on, which keep `I`. -/
def Surroundings.contract (S : Surroundings σ) (owes : Command → Steward → σ → Prop)
    (I : Steward → σ → Prop) : Contract σ where
  owes r host s :=
    match r with
    | .command c => owes c host s
    | .wait _ => I host s
    | _ => True
  answers r host s host' s' a :=
    match r, a with
    | .command c, a => host' = host ∧ ∃ s₁, Relation.ReflTransGen S.moves s s₁ ∧ S.obeys s₁ c s' a
    | .wait _, _ => I host' s'
    | .register _, _ => host' = host ∧ s' = s
    | .unregister, _ => host' = host ∧ s' = s

/-- Where nothing happens of itself, a command finds the surroundings as it was handed out. -/
theorem Surroundings.answers_command_iff {S : Surroundings σ} (hstill : ∀ s s', ¬ S.moves s s')
    {owes : Command → Steward → σ → Prop} {I : Steward → σ → Prop} {c : Command}
    {host host' : Steward} {s s' : σ} {a : c.Answer} :
    (S.contract owes I).answers (.command c) host s host' s' a ↔
      host' = host ∧ S.obeys s c s' a := by
  constructor
  · rintro ⟨rfl, s₁, hmoves, hobeys⟩
    cases hmoves with
    | refl => exact ⟨rfl, hobeys⟩
    | tail _ hmove => exact absurd hmove (hstill _ _)
  · rintro ⟨rfl, hobeys⟩
    exact ⟨rfl, s, .refl, hobeys⟩

section Answers

variable (S : Surroundings σ) (owes : Command → Steward → σ → Prop) (I : Steward → σ → Prop)

theorem Surroundings.keeps_wait (d : Duration) :
    Operation.Keeps (S.contract owes I) I (Operation.ask (.wait d)) :=
  fun _ _ h => ⟨h, fun _ _ _ h => h⟩

variable {I} {J : Steward → σ → Prop}

/-- What the domain answers is noted by nobody. -/
theorem Surroundings.keeps_register (name : String) :
    Operation.Keeps (S.contract owes I) J (Operation.ask (.register name)) :=
  fun _ _ h => ⟨trivial, fun _ _ _ ⟨hh, hs⟩ => hh ▸ hs ▸ h⟩

theorem Surroundings.keeps_unregister :
    Operation.Keeps (S.contract owes I) J (Operation.ask .unregister) :=
  fun _ _ h => ⟨trivial, fun _ _ _ ⟨hh, hs⟩ => hh ▸ hs ▸ h⟩

end Answers

/-- The surroundings `S`, seen in a certain way, do nothing that `T` may not do. -/
structure Surroundings.SeenAs (S : Surroundings σ) (T : Surroundings τ) (view : σ → τ) : Prop where
  obeys : ∀ {s c s' a}, S.obeys s c s' a → T.obeys (view s) c (view s') a
  moves : ∀ {s s'}, S.moves s s' → Relation.ReflTransGen T.moves (view s) (view s')

namespace System

variable {S : Surroundings σ} {T : Surroundings τ} {owes : Occasion → Command → Steward → τ → Prop}
  {I : Steward → τ → Prop} {view : σ → τ}

/-- Between operations the property holds, and an operation under way restores it. What an operation
owes may depend on what it is. -/
def Underway (T : Surroundings τ) (owes : Occasion → Command → Steward → τ → Prop)
    (I : Steward → τ → Prop) (host : Steward) : Option (Occasion × Program Unit) → τ → Prop
  | none => I host
  | some (o, p) => p.Meets (T.contract (owes o) I) (fun _ => I)

/-- The property holds between operations, and operations that wait keep it. -/
structure InOrder (T : Surroundings τ) (owes : Occasion → Command → Steward → τ → Prop)
    (I : Steward → τ → Prop) (view : σ → τ) (s : System σ) : Prop where
  active : Underway T owes I s.host s.active (view s.around)
  sleepers : ∀ o f, (o, f) ∈ s.sleepers → ∀ host t, I host t →
    (f host).Meets (T.contract (owes o) I) (fun _ => I) t

/-- What holds at every moment is kept by what happens of itself. -/
structure Steady (T : Surroundings τ) (owes : Occasion → Command → Steward → τ → Prop)
    (I : Steward → τ → Prop) : Prop where
  holds : ∀ {host t t'}, T.moves t t' → I host t → I host t'
  owes : ∀ {o c host t t'}, T.moves t t' → owes o c host t → owes o c host t'

theorem Steady.meets (hT : Steady T owes I) {o : Occasion} {p : Program Unit} {t t' : τ}
    (hmove : T.moves t t') (h : p.Meets (T.contract (owes o) I) (fun _ => I) t) :
    p.Meets (T.contract (owes o) I) (fun _ => I) t' := by
  induction p with
  | done host value => exact hT.holds hmove h
  | ask host r resume ih =>
    obtain ⟨howes, hnext⟩ := h
    cases r with
    | command c =>
      refine ⟨hT.owes hmove howes, ?_⟩
      rintro host' t₂ a ⟨rfl, t₁, hmoves, hobeys⟩
      exact hnext host' t₂ a ⟨rfl, t₁, .head hmove hmoves, hobeys⟩
    | wait d => exact ⟨hT.holds hmove howes, hnext⟩
    | register name =>
      refine ⟨trivial, ?_⟩
      rintro host' t₂ a ⟨rfl, rfl⟩
      exact ih host' a (hnext host' t a ⟨rfl, rfl⟩)
    | unregister =>
      refine ⟨trivial, ?_⟩
      rintro host' t₂ a ⟨rfl, rfl⟩
      exact ih host' a (hnext host' t a ⟨rfl, rfl⟩)

theorem Steady.underway (hT : Steady T owes I) {h : Steward} {p : Option (Occasion × Program Unit)}
    {t t' : τ} (hmoves : Relation.ReflTransGen T.moves t t') (hp : Underway T owes I h p t) :
    Underway T owes I h p t' := by
  induction hmoves with
  | refl => exact hp
  | tail _ hmove ih =>
    cases p with
    | none => exact hT.holds hmove ih
    | some p => exact hT.meets hmove ih

/-- If every operation that is begun keeps the property, every step does. -/
theorem InOrder.step (hS : S.SeenAs T view) (hT : Steady T owes I)
    (hcalls : ∀ {host s o s'}, S.calls host s o s' → I host (view s) →
      o.operation.Meets (T.contract (owes o) I) (fun _ => I) host (view s')) {s s' : System σ}
    (ho : InOrder T owes I view s) (hstep : Step S s s') : InOrder T owes I view s' := by
  cases hstep with
  | move hmove => exact ⟨hT.underway (hS.moves hmove) ho.active, ho.sleepers⟩
  | call hcall => exact ⟨hcalls hcall ho.active, ho.sleepers⟩
  | @wake h s before o f after =>
    refine ⟨ho.sleepers o f (by simp) h _ ho.active, fun o g hg => ho.sleepers o g ?_⟩
    rw [List.mem_append] at hg
    rw [List.mem_append, List.mem_cons]
    exact hg.imp_right Or.inr
  | command hobeys =>
    exact ⟨ho.active.2 _ _ _ ⟨rfl, _, .refl, hS.obeys hobeys⟩, ho.sleepers⟩
  | register answer => exact ⟨ho.active.2 _ _ answer ⟨rfl, rfl⟩, ho.sleepers⟩
  | unregister answer => exact ⟨ho.active.2 _ _ answer ⟨rfl, rfl⟩, ho.sleepers⟩
  | @sleep h h' s o d resume l =>
    obtain ⟨hI, hnext⟩ := ho.active
    refine ⟨hI, fun o' f hf host t ht => ?_⟩
    rcases List.mem_append.1 hf with hf | hf
    · exact ho.sleepers o' f hf host t ht
    · obtain ⟨rfl, rfl⟩ := Prod.mk.inj (List.mem_singleton.1 hf)
      exact hnext host t () ht
  | finish => exact ⟨ho.active, ho.sleepers⟩

theorem InOrder.reaches (hS : S.SeenAs T view) (hT : Steady T owes I)
    (hcalls : ∀ {host s o s'}, S.calls host s o s' → I host (view s) →
      o.operation.Meets (T.contract (owes o) I) (fun _ => I) host (view s')) {s s' : System σ}
    (ho : InOrder T owes I view s) (hreach : Reaches S s s') : InOrder T owes I view s' := by
  induction hreach with
  | refl => exact ho
  | tail _ hstep ih => exact ih.step hS hT hcalls hstep

theorem InOrder.handsOut {h h' : Steward} {s : σ} {o : Occasion} {c : Command}
    {resume : Steward → c.Answer → Program Unit} {l : List (Occasion × (Steward → Program Unit))}
    (ho : InOrder T owes I view ⟨h, s, some (o, .ask h' (.command c) resume), l⟩) :
    owes o c h' (view s) := ho.active.1

end System

end HostSteward
