import HostSteward.Proofs.Steward.Registrations

/-!
# A steward that does several things at a time

Everything that the steward does is cut into legs by its requests: a leg is carried out at once,
but between a request and its answer, and between the answer and the next leg, anything else may be
begun or go on. The supervisor is a party of its own, which answers requests when it likes. It never
gives out an incarnation twice.

What a leg may do to the roster is the same for all legs. This is enough to see that a record never
gets an incarnation that was given out before the record was made.
-/

namespace HostSteward

open Operation

def Request.given : (r : Request) → r.Answer → Option Incarnation
  | .command (.add ..), .ok incarnation => some incarnation
  | _, _ => none

def Registrations.heard (registered : Registrations) : (r : Request) → r.Answer → Registrations
  | .command c, a => registered.after c a
  | _, _ => registered

structure Errand where
  request : Request
  answer : Option request.Answer := none
  resume : Steward → request.Answer → Program Unit

structure Interleaving where
  host : Steward
  registered : Registrations := fun _ => none
  /-- The incarnations that have been given out. -/
  issued : List Incarnation := []
  errands : List Errand := []

namespace Interleaving

/-- A leg ends with nothing left to do, or with a request. -/
def proceed (s : Interleaving) : Program Unit → Interleaving
  | .done host () => { s with host }
  | .ask host request resume => { s with host, errands := s.errands ++ [⟨request, none, resume⟩] }

inductive Step (s : Interleaving) : Interleaving → Prop
  | begins (o : Occasion) : Step s (s.proceed (o.operation s.host))
  | answers (k : Nat) {r resume} (a : r.Answer) (hasked : s.errands[k]? = some ⟨r, none, resume⟩)
      (hfresh : ∀ i, r.given a = some i → i ∉ s.issued) :
      Step s { s with
        registered := s.registered.heard r a
        issued := s.issued ++ (r.given a).toList
        errands := s.errands.set k ⟨r, some a, resume⟩ }
  | resumes (k : Nat) {r a resume} (hanswered : s.errands[k]? = some ⟨r, some a, resume⟩) :
      Step s (proceed { s with errands := s.errands.eraseIdx k } (resume s.host a))

abbrev Reaches : Interleaving → Interleaving → Prop := Relation.ReflTransGen Step

/-- An incarnation that was given out and is not registered any more. -/
def Removed (s : Interleaving) (i : Incarnation) : Prop :=
  i ∈ s.issued ∧ ∀ p, s.registered p ≠ some i

end Interleaving

/-- What is remembered of a leg: the state it started from, and the incarnation that was answered to
it, if any, with the number of the next record when the registration was asked for. -/
structure Leg where
  start : Steward
  heard : Option (Incarnation × Nat) := none

namespace Leg

inductive Origin (l : Leg) (s : Server) : Prop
  | kept {p t} (hget : l.start.roster.get? p = some t) (hnumber : s.number = t.number)
      (hincarnation : s.incarnation = t.incarnation)
  | made (hnumber : l.start.nextNumber ≤ s.number) (hincarnation : s.incarnation = none)
  | registered {i next} (hheard : l.heard = some (i, next)) (hnumber : s.number < next)
      (hincarnation : s.incarnation = some i)

/-- How the steward may have come to be in the course of a leg. -/
structure LeadsTo (host : Steward) (l : Leg) : Prop where
  sound : host.roster.Sound host.nextNumber
  next : l.start.nextNumber ≤ host.nextNumber
  origin : ∀ {p s}, host.roster.get? p = some s → l.Origin s

/-- The contract of a leg: it ends in a state that it may lead to, and the next leg starts from a
state in order, in which no number is free that was taken. -/
def contract : Contract Leg where
  owes _ host l := LeadsTo host l
  answers r host _ host' l' a := host'.roster.Sound host'.nextNumber ∧
    host.nextNumber ≤ host'.nextNumber ∧
    l' = ⟨host', (r.given a).map fun i => (i, host.nextNumber)⟩

variable {host host' : Steward} {l : Leg} {s : Server} {f : Server → Server}

namespace LeadsTo

theorem refl (h : host.roster.Sound host.nextNumber) (heard : Option (Incarnation × Nat)) :
    LeadsTo host ⟨host, heard⟩ :=
  ⟨h, Nat.le_refl _, fun hget => .kept hget rfl rfl⟩

theorem of_eq (h : LeadsTo host l) (hroster : host'.roster = host.roster)
    (hnext : host'.nextNumber = host.nextNumber) : LeadsTo host' l where
  sound := hroster ▸ hnext ▸ h.sound
  next := hnext ▸ h.next
  origin := by rw [hroster]; exact h.origin

theorem update (h : LeadsTo host l) (hf : Server.Modest f) (number : Nat) :
    LeadsTo { host with roster := host.roster.update number f } l where
  sound := h.sound.update hf.toFaithful number
  next := h.next
  origin {p s} hget := by
    obtain ⟨t, ht, hnumber, hincarnation⟩ := Roster.exists_of_get?_modest hf hget
    cases h.origin ht with
    | kept hget hn hi => exact .kept hget (hnumber.trans hn) (hincarnation.trans hi)
    | made hn hi => exact .made (hnumber ▸ hn) (hincarnation.trans hi)
    | registered hheard hn hi => exact .registered hheard (hnumber ▸ hn) (hincarnation.trans hi)

theorem untrack (h : LeadsTo host l) (process : String) (number : Nat) :
    LeadsTo { host with roster := host.roster.removeSame process number } l where
  sound := h.sound.untrack process number
  next := h.next
  origin {p s} hget := by
    rw [Roster.get?_removeSame] at hget
    split at hget
    · cases hget
    · exact h.origin hget

theorem track (h : LeadsTo host l) {roster : Roster} (hnumber : s.number = host.nextNumber)
    (hincarnation : s.incarnation = none) (hinsert : host.roster.insert s = .ok roster) :
    LeadsTo { host with roster := roster, nextNumber := host.nextNumber + 1 } l where
  sound := h.sound.track hnumber hinsert
  next := Nat.le_succ_of_le h.next
  origin {p t} hget := by
    rw [Roster.get?_of_insert hinsert] at hget
    split at hget
    · obtain rfl := Option.some.inj hget
      exact .made (hnumber ▸ h.next) hincarnation
    · exact h.origin hget

theorem register (h : host.roster.Sound host.nextNumber) {i : Incarnation} {next number : Nat}
    (hnumber : number < next) :
    LeadsTo { host with roster := host.roster.update number (·.registered i) }
      ⟨host, some (i, next)⟩ where
  sound := h.update (Server.faithful_registered i) number
  next := Nat.le_refl _
  origin {p s} hget := by
    obtain ⟨t, ht, rfl⟩ := Roster.exists_of_get?_update hget
    by_cases hn : t.number = number
    · rw [if_pos hn]
      exact .registered rfl (hn ▸ hnumber) rfl
    · rw [if_neg hn]
      exact .kept ht rfl rfl

end LeadsTo

/-- Asking is allowed at any time, and what is answered starts another leg. -/
theorem keeps_ask (r : Request) : Keeps contract LeadsTo (ask r) := by
  refine fun host l h => ⟨h, ?_⟩
  rintro host' l' a ⟨hsound, -, rfl⟩
  exact .refl hsound _

theorem upheld : Upheld contract LeadsTo where
  journal _ h := h.of_eq rfl rfl
  budget _ h := h.of_eq rfl rfl
  stopping h := h.of_eq rfl rfl
  launched h := h.of_eq rfl rfl
  cancelled h := h.of_eq rfl rfl
  server number hf h := h.update hf number
  wait d := keeps_ask (.wait d)
  register name := keeps_ask (.register name)
  unregister := keeps_ask .unregister
  inventory := keeps_ask (.command .requestInventory)
  stop p := keeps_ask (.command (.stop p))
  remove p := keeps_ask (.command (.remove p))
  shutdown := keeps_ask (.command .shutdown)

/-- Registering gives the incarnation to a record that was made before. -/
theorem meets_register_leadsTo (h : LeadsTo host l) (hnumber : s.number < host.nextNumber) :
    Attempt.Meets contract (Attempt.register s) (fun _ => LeadsTo) (fun _ => LeadsTo) host l := by
  refine (meets_register ..).2 ⟨h.update (Server.modest_withPhase .booting) s.number, ?_⟩
  rintro host' l' a ⟨hsound, -, rfl⟩
  cases a with
  | ok i => exact .register hsound hnumber
  | error e => exact .refl hsound _

theorem keeps_launch (name : String) : Attempt.Keeps contract LeadsTo (Steward.launch name) := by
  apply Attempt.keeps_iff.2
  intro host l h
  apply meets_launch (fun _ => h)
  intro spec roster server _ hserver hinsert
  have htracked := h.track (hserver ▸ rfl) (hserver ▸ rfl) hinsert
  refine (meets_register_leadsTo (upheld.journal _ htracked) ?_).mono (fun _ host l h => ?_)
    fun e host l h => ?_
  · exact hserver ▸ Nat.lt_succ_self _
  · exact Attempt.keeps_iff.1 (keeps_ask (.command (.start server.process))) host l h
  · exact h.untrack server.process server.number

theorem meets_relaunch (h : LeadsTo host l) (hnumber : s.number < host.nextNumber) :
    Attempt.Meets contract (Steward.relaunch s) (fun _ => LeadsTo) (fun _ => LeadsTo) host l := by
  unfold Steward.relaunch
  rw [Attempt.meets_bind]
  refine ⟨h, ?_⟩
  rintro host' l' a ⟨hsound, hnext, rfl⟩
  have h' := LeadsTo.refl hsound ((Request.command (.remove s.process)).given a |>.map (·, host.nextNumber))
  cases a with
  | error e => exact h'
  | ok _ =>
    simp only [Attempt.meets_bind]
    refine (meets_register_leadsTo h' (Nat.lt_of_lt_of_le hnumber hnext)).mono
      (fun _ host l h => ?_) fun _ _ _ h => h
    exact Attempt.keeps_iff.1 (keeps_ask (.command (.start s.process))) host l h

theorem keeps_untrack (s : Server) : Keeps contract LeadsTo (Steward.untrack s) :=
  fun _ _ h => h.untrack s.process s.number

theorem keeps_recognize (process : String) (phase : Phase) :
    Keeps contract LeadsTo (Steward.recognize process phase) :=
  upheld.toQuiet.recognize (fun h hinsert => (h.track rfl rfl hinsert).update
    (Server.modest_diagnose "recognized after reconnect") _) process phase

theorem mastered : Mastered contract LeadsTo where
  toUpheld := upheld
  restarts _ _ h := h.of_eq rfl rfl
  start p := keeps_ask (.command (.start p))
  launch := keeps_launch
  tryStartServer := upheld.tryStartServer keeps_untrack keeps_launch
  recognize := keeps_recognize
  relaunch h hget := (Attempt.meets_run _ _).2 (meets_relaunch h (h.sound.below hget))
  stopNow h _ := upheld.stopNow keeps_untrack _ _ _ h

end Leg

/-- An errand that was handed out when `asked` was the next number goes on with a leg. -/
def Errand.Continues (e : Errand) (asked : Nat) : Prop :=
  ∀ host a, host.roster.Sound host.nextNumber → asked ≤ host.nextNumber →
    (e.resume host a).Meets Leg.contract (fun _ => Leg.LeadsTo)
      ⟨host, (e.request.given a).map (·, asked)⟩

namespace Interleaving

/-- No record from the number `next` on has one of the incarnations `issued`, and none will get it
from an answer that is there already. -/
structure Apart (next : Nat) (issued : List Incarnation) (s : Interleaving) : Prop where
  sound : s.host.roster.Sound s.host.nextNumber
  next_le : next ≤ s.host.nextNumber
  subset : ∀ i ∈ issued, i ∈ s.issued
  records : ∀ {p t}, s.host.roster.get? p = some t → next ≤ t.number →
    ∀ i ∈ issued, t.incarnation ≠ some i
  errands : ∀ e ∈ s.errands, ∃ asked ≤ s.host.nextNumber, e.Continues asked ∧
    ∀ a i, e.answer = some a → e.request.given a = some i → i ∈ issued → asked ≤ next

namespace Apart

variable {next : Nat} {issued : List Incarnation} {s s' : Interleaving} {host : Steward} {l : Leg}

/-- A leg gives no old incarnation to a new record. -/
theorem leadsTo (h : Apart next issued s) (hl : Leg.LeadsTo host l) (hstart : l.start = s.host)
    (hheard : ∀ i asked, l.heard = some (i, asked) → i ∈ issued → asked ≤ next) :
    Apart next issued { s with host } where
  sound := hl.sound
  next_le := Nat.le_trans h.next_le (hstart ▸ hl.next)
  subset := h.subset
  records {p t} hget hnumber i hi := by
    cases hl.origin hget with
    | @kept q u hget hn hincarnation =>
      rw [hincarnation]
      exact h.records (hstart ▸ hget) (hn ▸ hnumber) i hi
    | made hn hnone =>
      rw [hnone]
      exact nofun
    | @registered j asked hj hlt hincarnation =>
      rw [hincarnation]
      rintro ⟨⟩
      have := hheard i asked hj hi
      omega
  errands e he := by
    obtain ⟨asked, hasked, hrest⟩ := h.errands e he
    exact ⟨asked, Nat.le_trans hasked (hstart ▸ hl.next), hrest⟩

theorem proceed (h : Apart next issued s) {p : Program Unit}
    (hp : p.Meets Leg.contract (fun _ => Leg.LeadsTo) l) (hstart : l.start = s.host)
    (hheard : ∀ i asked, l.heard = some (i, asked) → i ∈ issued → asked ≤ next) :
    Apart next issued (s.proceed p) := by
  cases p with
  | done host value => exact h.leadsTo hp hstart hheard
  | ask host request resume =>
    have hleg := h.leadsTo hp.1 hstart hheard
    refine ⟨hleg.sound, hleg.next_le, hleg.subset, hleg.records, fun e he => ?_⟩
    rcases List.mem_append.1 he with he | he
    · exact hleg.errands e he
    · obtain rfl := List.mem_singleton.1 he
      refine ⟨host.nextNumber, Nat.le_refl _, fun host' a hsound hnext => ?_, fun _ _ hanswer => ?_⟩
      · exact hp.2 host' _ a ⟨hsound, hnext, rfl⟩
      · cases hanswer

theorem begins (h : Apart next issued s) (o : Occasion) :
    Apart next issued (s.proceed (o.operation s.host)) := by
  refine h.proceed (Leg.mastered.operation o s.host ⟨s.host, none⟩ (.refl h.sound none)) rfl ?_
  exact fun _ _ hheard => nomatch hheard

theorem answers (h : Apart next issued s) {k : Nat} {r resume} {a : r.Answer}
    (hasked : s.errands[k]? = some ⟨r, none, resume⟩)
    (hfresh : ∀ i, r.given a = some i → i ∉ issued) :
    Apart next issued { s with
      registered := s.registered.heard r a
      issued := s.issued ++ (r.given a).toList
      errands := s.errands.set k ⟨r, some a, resume⟩ } := by
  refine ⟨h.sound, h.next_le, fun i hi => List.mem_append_left _ (h.subset i hi), h.records,
    fun e he => ?_⟩
  rcases List.mem_or_eq_of_mem_set he with he | rfl
  · exact h.errands e he
  · obtain ⟨asked, hle, hcontinues, -⟩ := h.errands _ (List.mem_of_getElem? hasked)
    refine ⟨asked, hle, hcontinues, fun a' i ha hi hissued => ?_⟩
    obtain rfl := Option.some.inj ha
    exact absurd hissued (hfresh i hi)

theorem resumes (h : Apart next issued s) {k : Nat} {r a resume}
    (hanswered : s.errands[k]? = some ⟨r, some a, resume⟩) :
    Apart next issued
      (Interleaving.proceed { s with errands := s.errands.eraseIdx k } (resume s.host a)) := by
  obtain ⟨asked, hle, hcontinues, hold⟩ := h.errands _ (List.mem_of_getElem? hanswered)
  have hrest : Apart next issued { s with errands := s.errands.eraseIdx k } :=
    ⟨h.sound, h.next_le, h.subset, h.records, fun e he => h.errands e (List.mem_of_mem_eraseIdx he)⟩
  apply hrest.proceed (hcontinues s.host a h.sound hle) rfl
  intro i n hheard hissued
  obtain ⟨j, hj, he⟩ := Option.map_eq_some_iff.1 hheard
  obtain ⟨rfl, rfl⟩ := Prod.mk.inj he
  exact hold a j rfl hj hissued

theorem step (h : Apart next issued s) (hstep : Step s s') : Apart next issued s' := by
  cases hstep with
  | begins o => exact h.begins o
  | answers k a hasked hfresh =>
    exact h.answers hasked fun i hi hissued => hfresh i hi (h.subset i hissued)
  | resumes k hanswered => exact h.resumes hanswered

theorem reaches (h : Apart next issued s) (hreach : Reaches s s') : Apart next issued s' := by
  induction hreach with
  | refl => exact h
  | tail _ hstep ih => exact ih.step hstep

/-- What has been given out by now is kept apart from all records that are still to come. -/
theorem renew (h : Apart next issued s) : Apart s.host.nextNumber s.issued s where
  sound := h.sound
  next_le := Nat.le_refl _
  subset _ hi := hi
  records hget hnumber := absurd (h.sound.below hget) (Nat.not_lt.2 hnumber)
  errands e he := by
    obtain ⟨asked, hle, hcontinues, -⟩ := h.errands e he
    exact ⟨asked, hle, hcontinues, fun _ _ _ _ _ => hle⟩

end Apart

def beginning (settings : Settings) (model : Option HostModel) (inDomain : Bool) :
    Interleaving where
  host := .make settings model inDomain

variable {settings : Settings} {model : Option HostModel} {inDomain : Bool}
  {s₁ s₂ : Interleaving}

theorem apart_beginning : Apart 0 [] (beginning settings model inDomain) :=
  ⟨Roster.sound_empty _, Nat.zero_le _, by simp, fun _ _ => by simp, by simp [beginning]⟩

/-- At any time, what had been given out at an earlier time is kept apart from the records that were
made since. -/
theorem Reaches.apart (h₁ : Reaches (beginning settings model inDomain) s₁) (h₂ : Reaches s₁ s₂) :
    Apart s₁.host.nextNumber s₁.issued s₂ :=
  (apart_beginning.reaches h₁).renew.reaches h₂

end Interleaving

end HostSteward
