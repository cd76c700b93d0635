import HostSteward.Proofs.Steward.Chronicle

/-!
# Concise records

No server keeps more diagnostics than there may be, whatever the steward has been through.
-/

namespace HostSteward

open Operation Steward

/-- A property that no leg of any operation hurts holds all the time. -/
theorem Chronicle.holds {P : Steward → Prop} {origin : Steward} {log : List Stretch}
    {s : Interleaving} (hlegs : Legwise fun _ before _ after => P before → P after)
    (h : Chronicle origin log s) (horigin : P origin) : P s.host := by
  induction log generalizing s with
  | nil => exact h.host_eq ▸ horigin
  | cons l log ih =>
    obtain ⟨s', h', hbefore, hafter, -⟩ := h.exists_of_cons
    rw [hafter]
    exact h.legs hlegs l List.mem_cons_self (hbefore ▸ ih h')

def Steward.Concise (host : Steward) : Prop :=
  ∀ p s, host.roster.get? p = some s → s.Concise

abbrev Shortened (_ : Cause) (before : Steward) (_ : Option Request) (after : Steward) : Prop :=
  before.Concise → after.Concise

abbrev Short (host : Steward) (l : Cause × Steward) : Prop := l.2.Concise → host.Concise

section Records

variable {host : Steward} {s : Server} {roster : Roster} {f : Server → Server}

theorem Steward.Concise.update (h : host.Concise) (hf : ∀ s, s.Concise → (f s).Concise)
    (number : Nat) :
    Steward.Concise { host with roster := host.roster.update number f } := by
  intro p s hget
  obtain ⟨t, ht, rfl⟩ := Roster.exists_of_get?_update hget
  split
  · exact hf t (h p t ht)
  · exact h p t ht

theorem Steward.Concise.track (h : host.Concise) (hs : s.Concise)
    (hinsert : host.roster.insert s = .ok roster) (nextNumber : Nat) :
    Steward.Concise { host with roster, nextNumber } := by
  intro p t hget
  rw [Roster.get?_of_insert hinsert] at hget
  split at hget
  · cases hget
    exact hs
  · exact h p t hget

theorem Steward.Concise.untrack (h : host.Concise) (process : String) (number : Nat) :
    Steward.Concise { host with roster := host.roster.removeSame process number } := by
  intro p s hget
  rw [Roster.get?_removeSame] at hget
  split at hget
  · cases hget
  · exact h p s hget

theorem Server.concise_ofSpec (number : Nat) (host : String) (spec : ServerSpec) (phase : Phase) :
    (Server.ofSpec number host spec phase).Concise := Nat.zero_le _

end Records

theorem keeps_ask_short (r : Request) : Keeps (legwise Shortened) Short (ask r) := by
  refine fun host l h => ⟨h, ?_⟩
  rintro host' l' a rfl
  exact id

theorem upheld_short : Upheld (legwise Shortened) Short where
  journal _ h := h
  launched h := h
  stopping h := h
  cancelled h := h
  budget _ h := h
  server number hf h hbefore := (h hbefore).update hf.concise number
  register name := keeps_ask_short (.register name)
  unregister := keeps_ask_short .unregister
  inventory := keeps_ask_short (.command .requestInventory)
  shutdown := keeps_ask_short (.command .shutdown)
  stop p := keeps_ask_short (.command (.stop p))
  remove p := keeps_ask_short (.command (.remove p))
  wait d := keeps_ask_short (.wait d)

theorem keeps_untrack_short (s : Server) : Keeps (legwise Shortened) Short (untrack s) :=
  fun _ _ h hbefore => (h hbefore).untrack s.process s.number

theorem keeps_register_short (s : Server) :
    Attempt.Keeps (legwise Shortened) Short (Attempt.register s) := by
  refine (Attempt.keeps_lift (upheld_short.setPhase s .booting)).bind fun _ =>
    Attempt.Keeps.bind (keeps_ask_short (.command (.add s.process s.spec.launch))) fun i =>
      Attempt.keeps_lift ?_
  exact fun _ _ h hbefore => (h hbefore).update (f := (·.registered i)) (fun _ h => h) s.number

theorem keeps_start_short (s : Server) :
    Attempt.Keeps (legwise Shortened) Short (Attempt.start s) :=
  keeps_ask_short (.command (.start s.process))

theorem keeps_launch_short (name : String) :
    Attempt.Keeps (legwise Shortened) Short (Steward.launch name) := by
  apply Attempt.keeps_iff.2
  intro host l h
  refine meets_launch (fun _ => h) fun spec roster server _ hserver hinsert => ?_
  have htracked : Short { host with
      roster, nextNumber := host.nextNumber + 1
      journal := host.journal ++ [.info ("Launching server " ++ server.identity.text)] } l :=
    fun hbefore => (h hbefore).track (hserver ▸ Server.concise_ofSpec ..) hinsert
      (host.nextNumber + 1)
  refine (Attempt.keeps_iff.1 (keeps_register_short server) _ l htracked).mono
    (fun _ host l h => ?_)
    fun _ host l h hbefore => (h hbefore).untrack server.process server.number
  exact Attempt.keeps_iff.1 (keeps_start_short server) host l h

theorem keeps_relaunch_short (s : Server) :
    Attempt.Keeps (legwise Shortened) Short (Steward.relaunch s) :=
  Attempt.Keeps.bind (keeps_ask_short (.command (.remove s.process))) fun _ =>
    (keeps_register_short s).bind fun _ => keeps_start_short s

theorem mastered_short : Mastered (legwise Shortened) Short where
  toUpheld := upheld_short
  restarts _ _ h := h
  start p := keeps_ask_short (.command (.start p))
  launch := keeps_launch_short
  tryStartServer := upheld_short.tryStartServer keeps_untrack_short keeps_launch_short
  recognize := upheld_short.toQuiet.recognize fun {host _ _ _ _} h hinsert hbefore =>
    ((h hbefore).track (Server.concise_ofSpec ..) hinsert (host.nextNumber + 1)).update
      (fun s _ => s.concise_diagnose "recognized after reconnect") host.nextNumber
  relaunch h _ := keeps_relaunch_short _ _ _ h
  stopNow h _ := upheld_short.stopNow keeps_untrack_short _ _ _ h

theorem Chronicle.concise {settings : Settings} {model : Option HostModel} {inDomain : Bool}
    {log : List Stretch} {s : Interleaving}
    (h : Chronicle (.make settings model inDomain) log s) : s.host.Concise := by
  refine h.holds (fun o host => mastered_short.operation o host _ id) fun p s hget => ?_
  cases hget

end HostSteward
