import HostSteward.Proofs.Steward.Contract

/-!
# Worlds as contracts

A world gives one answer to every request. What a program guarantees under the contract of a world
is what comes of carrying the program through against it.
-/

namespace HostSteward

variable {σ α : Type}

def Program.World.contract (w : Program.World σ) : Contract σ where
  owes _ _ _ := True
  answers r host s host' s' a := w s host r = (s', host', a)

theorem Program.meets_world {w : Program.World σ} {p : Program α} {post : Outlook σ α} {s : σ} :
    p.Meets w.contract post s ↔ post (p.run w s).2.2 (p.run w s).2.1 (p.run w s).1 := by
  induction p generalizing s with
  | done host value => exact Iff.rfl
  | ask host r resume ih =>
    constructor
    · exact fun h => (ih _ _).1 (h.2 _ _ _ rfl)
    · refine fun h => ⟨trivial, fun host' s' a ha => ?_⟩
      rw [run, ha] at h
      exact (ih host' a).2 h

/-- A request is answered at once. -/
theorem Operation.meets_ask_world {w : Program.World σ} {r : Request} {post : Outlook σ r.Answer}
    {host : Steward} {s : σ} :
    (ask r).Meets w.contract post host s ↔ post (w s host r).2.2 (w s host r).2.1 (w s host r).1 :=
  Program.meets_world

end HostSteward
