import HostSteward.HostModel
import HostSteward.Proofs.Steward.Conduct

/-!
# Legs of the system

The steward's state is seen by others only where an operation hands out a request, goes to sleep or
ends. A leg leads from one such state to the next. What is shown of the legs of every operation holds
of every step of a system, whatever surrounds it, and nothing but a batch of changes that the host
judges alters the state in between.
-/

namespace HostSteward

open Operation Steward

/-- The contract of programs every leg of which is in a relation to the state it was begun in. -/
def Contract.between (R : Steward → Steward → Prop) : Contract Steward where
  owes _ host before := R before host
  answers _ _ _ host' before' _ := before' = host'

variable {R R' : Steward → Steward → Prop} {α : Type}

theorem keeps_ask_between (hrefl : ∀ host, R host host) (r : Request) :
    Keeps (.between R) (fun host before => R before host) (ask r) := by
  refine fun host before h => ⟨h, ?_⟩
  rintro host' before' a rfl
  exact hrefl before'

theorem Program.Meets.imp_between {p : Program α} {before : Steward}
    (h : p.Meets (.between R) (fun _ host before => R before host) before)
    (himp : ∀ before host, R before host → R' before host) :
    p.Meets (.between R') (fun _ host before => R' before host) before := by
  induction p generalizing before with
  | done host value => exact himp before host h
  | ask host r resume ih =>
    refine ⟨himp before host h.1, fun host' before' a ha => ?_⟩
    exact ih host' a (h.2 host' before' a ha)

/-- A relation in which everything is says nothing about programs. -/
theorem Program.meets_between_of_forall (p : Program α) (hR : ∀ before host, R before host)
    (before : Steward) : p.Meets (.between R) (fun _ host before => R before host) before := by
  induction p generalizing before with
  | done host value => exact hR before host
  | ask host r resume ih => exact ⟨hR before host, fun host' before' a _ => ih host' a before'⟩

/-- All legs of the operations of an occasion are in the relation. -/
def Occasion.Legs (o : Occasion) (R : Steward → Steward → Prop) : Prop :=
  ∀ host, o.operation.Meets (.between R) (fun _ host before => R before host) host host

theorem Occasion.legs_of_keeps {o : Occasion} (hrefl : ∀ host, R host host)
    (h : Keeps (.between R) (fun host before => R before host) o.operation) : o.Legs R :=
  fun host => h host host (hrefl host)

namespace System

variable {σ : Type}

/-- A step, or a batch of changes that the host judges between operations. What is noted about it
meanwhile is in the journal. -/
inductive Turn (S : Surroundings σ) : System σ → System σ → Prop
  | step {s s' : System σ} (h : Step S s s') : Turn S s s'
  | changes {h s l} (batch : List HostChange) (journal : List Entry) :
      Turn S ⟨h, s, none, l⟩ ⟨{ h with model := (h.model.apply batch).2, journal }, s, none, l⟩

abbrev Runs (S : Surroundings σ) : System σ → System σ → Prop := Relation.ReflTransGen (Turn S)

variable {S : Surroundings σ} {s s' : System σ} {L : Occasion → Steward → Steward → Prop}

structure Bound (L : Occasion → Steward → Steward → Prop) (s : System σ) : Prop where
  active : ∀ o p, s.active = some (o, p) →
    p.Meets (.between (L o)) (fun _ host before => L o before host) s.host
  sleepers : ∀ o f, (o, f) ∈ s.sleepers → ∀ host,
    (f host).Meets (.between (L o)) (fun _ host before => L o before host) host

theorem bound_idle (L : Occasion → Steward → Steward → Prop) (host : Steward) (around : σ) :
    Bound L (⟨host, around, none, []⟩ : System σ) := ⟨by simp, by simp⟩

/-- An answer to what is under way begins the next leg. -/
theorem Bound.goOn {h h' : Steward} {t t' : σ} {o : Occasion} {r : Request}
    {resume : Steward → r.Answer → Program Unit} {l : List (Occasion × (Steward → Program Unit))}
    (hb : Bound L ⟨h, t, some (o, .ask h' r resume), l⟩) (a : r.Answer) :
    Bound L ⟨h', t', some (o, resume h' a), l⟩ := by
  refine ⟨fun o' p hp => ?_, hb.sleepers⟩
  cases hp
  exact (hb.active _ _ rfl).2 h' h' a rfl

theorem Bound.step (hL : ∀ o, Occasion.Legs o (L o)) (h : Bound L s) (hstep : Step S s s') :
    Bound L s' := by
  cases hstep with
  | move hmove => exact ⟨h.active, h.sleepers⟩
  | @call host t t' o l hcall =>
    refine ⟨fun o' p hp => ?_, h.sleepers⟩
    cases hp
    exact hL o host
  | @wake host t before o f after =>
    refine ⟨fun o' p hp => ?_, fun o' g hg => h.sleepers o' g ?_⟩
    · cases hp
      exact h.sleepers o f (by simp) host
    · rw [List.mem_append] at hg
      rw [List.mem_append, List.mem_cons]
      exact hg.imp_right Or.inr
  | command hobeys => exact h.goOn _
  | register answer => exact h.goOn answer
  | unregister answer => exact h.goOn answer
  | @sleep host host' t o d resume l =>
    refine ⟨by simp, fun o' f hf host => ?_⟩
    rcases List.mem_append.1 hf with hf | hf
    · exact h.sleepers o' f hf host
    · obtain ⟨rfl, rfl⟩ := Prod.mk.inj (List.mem_singleton.1 hf)
      exact (h.active _ _ rfl).2 host host () rfl
  | finish => exact ⟨by simp, h.sleepers⟩

theorem Bound.turn (hL : ∀ o, Occasion.Legs o (L o)) (h : Bound L s) (hturn : Turn S s s') :
    Bound L s' := by
  cases hturn with
  | step hstep => exact h.step hL hstep
  | changes batch journal => exact ⟨by simp, h.sleepers⟩

theorem Bound.runs (hL : ∀ o, Occasion.Legs o (L o)) (h : Bound L s) (hruns : Runs S s s') :
    Bound L s' := by
  induction hruns with
  | refl => exact h
  | tail _ hturn ih => exact ih.turn hL hturn

/-- A step takes what is under way through a leg, or leaves the state as it is. -/
theorem Bound.leg (h : Bound L s) (hstep : Step S s s') :
    s'.host = s.host ∨ ∃ o p, s.active = some (o, p) ∧ L o s.host s'.host := by
  cases hstep with
  | move | call | wake => exact Or.inl rfl
  | command hobeys => exact Or.inr ⟨_, _, rfl, (h.active _ _ rfl).1⟩
  | register answer => exact Or.inr ⟨_, _, rfl, (h.active _ _ rfl).1⟩
  | unregister answer => exact Or.inr ⟨_, _, rfl, (h.active _ _ rfl).1⟩
  | sleep => exact Or.inr ⟨_, _, rfl, (h.active _ _ rfl).1⟩
  | finish => exact Or.inr ⟨_, _, rfl, h.active _ _ rfl⟩

/-- What no leg hurts, and no batch of changes, holds all the time. -/
theorem Runs.holds {I : Steward → Prop}
    (hlegs : ∀ o, Occasion.Legs o fun before after => I before → I after)
    (hchanges : ∀ {host} batch journal, I host →
      I { host with model := (host.model.apply batch).2, journal }) {host : Steward} {around : σ}
    (h : Runs S ⟨host, around, none, []⟩ s) (hhost : I host) : I s.host := by
  induction h with
  | refl => exact hhost
  | @tail s s' hruns hturn ih =>
    cases hturn with
    | changes batch journal => exact hchanges batch journal ih
    | step hstep =>
      rcases ((bound_idle _ host around).runs hlegs hruns).leg hstep with heq | ⟨o, p, -, hleg⟩
      · rw [heq]
        exact ih
      · exact hleg ih

end System

end HostSteward
