import HostSteward.Proofs.Lists
import HostSteward.Proofs.Steward.Interleaving
import Mathlib.Data.List.Perm.Basic

/-!
# Chronicles

A chronicle records the legs that a steward has been through, the latest one first: what set each of
them off, the state that it was begun in, the one it ended in and the request that it ended with. In
between anything may be begun and answered in any order, except that a pending restart is carried
out only while it is on the list. What is shown of a single leg then holds of all that are recorded.
-/

namespace HostSteward

open Operation

namespace Program

variable {α : Type}

def host : Program α → Steward
  | .done host _ => host
  | .ask host _ _ => host

def request? : Program α → Option Request
  | .done _ _ => none
  | .ask _ request _ => some request

end Program

inductive Cause where
  | begun (o : Occasion)
  | answered (r : Request)

def Cause.request? : Cause → Option Request
  | .begun _ => none
  | .answered r => some r

structure Stretch where
  cause : Cause
  before : Steward
  after : Steward
  sent : Option Request

namespace Stretch

def of (cause : Cause) (before : Steward) (p : Program Unit) : Stretch :=
  ⟨cause, before, p.host, p.request?⟩

end Stretch

/-- A restart is carried out only while it is pending. -/
def Occasion.Timely (o : Occasion) (host : Steward) : Prop :=
  ∀ r, o = .restart r → r ∈ host.restarts

/-- The legs of a run from a state on, the latest first, and how things stand then. -/
inductive Chronicle (origin : Steward) : List Stretch → Interleaving → Prop
  | nil : Chronicle origin [] { host := origin }
  | begins {log s} (h : Chronicle origin log s) (o : Occasion) (htimely : o.Timely s.host) :
      Chronicle origin (.of (.begun o) s.host (o.operation s.host) :: log)
        (s.proceed (o.operation s.host))
  | answers {log s} (h : Chronicle origin log s) (k : Nat) {r resume} (a : r.Answer)
      (hasked : s.errands[k]? = some ⟨r, none, resume⟩) :
      Chronicle origin log { s with
        registered := s.registered.heard r a
        issued := s.issued ++ (r.given a).toList
        errands := s.errands.set k ⟨r, some a, resume⟩ }
  | resumes {log s} (h : Chronicle origin log s) (k : Nat) {r a resume}
      (hanswered : s.errands[k]? = some ⟨r, some a, resume⟩) :
      Chronicle origin (.of (.answered r) s.host (resume s.host a) :: log)
        (Interleaving.proceed { s with errands := s.errands.eraseIdx k } (resume s.host a))

/-- The contract of programs every leg of which is in a relation to its cause and to the state that
it was begun in. -/
def legwise (R : Cause → Steward → Option Request → Steward → Prop) :
    Contract (Cause × Steward) where
  owes r host l := R l.1 l.2 (some r) host
  answers r _ _ host' l' _ := l' = (.answered r, host')

def Legwise (R : Cause → Steward → Option Request → Steward → Prop) : Prop :=
  ∀ (o : Occasion) (host : Steward),
    o.operation.Meets (legwise R) (fun _ host l => R l.1 l.2 none host) host (.begun o, host)

namespace Interleaving

theorem host_proceed (s : Interleaving) (p : Program Unit) : (s.proceed p).host = p.host := by
  cases p <;> rfl

end Interleaving

namespace Chronicle

variable {origin : Steward} {log : List Stretch} {l : Stretch} {s : Interleaving}
  {R : Cause → Steward → Option Request → Steward → Prop}

/-- The roster is in order all the time. -/
theorem apart (h : Chronicle origin log s) (horigin : origin.roster.Sound origin.nextNumber) :
    Interleaving.Apart 0 [] s := by
  induction h with
  | nil => exact ⟨horigin, Nat.zero_le _, by simp, fun _ _ => by simp, by simp⟩
  | begins _ o _ ih => exact ih.begins o
  | answers _ k a hasked ih => exact ih.answers hasked (by simp)
  | resumes _ k hanswered ih => exact ih.resumes hanswered

theorem host_eq (h : Chronicle origin [] s) : s.host = origin := by
  generalize hlog : ([] : List Stretch) = log at h
  induction h with
  | nil => rfl
  | begins | resumes => cases hlog
  | answers _ _ _ _ ih => exact ih hlog

/-- The latest leg was begun where an earlier part of the run had come to, and led to where things
stand now. What was begun with it was timely, and it is what comes of that. -/
theorem exists_of_cons (h : Chronicle origin (l :: log) s) :
    ∃ s', Chronicle origin log s' ∧ s'.host = l.before ∧ s.host = l.after ∧
      ∀ o, l.cause = .begun o → o.Timely l.before ∧
        l = .of (.begun o) l.before (o.operation l.before) := by
  generalize hlog : l :: log = entries at h
  induction h with
  | nil => cases hlog
  | @begins entries s h o htimely ih =>
    obtain ⟨rfl, rfl⟩ := List.cons.inj hlog
    refine ⟨s, h, rfl, s.host_proceed _, fun o' ho => ?_⟩
    cases ho
    exact ⟨htimely, rfl⟩
  | answers _ _ _ _ ih => exact ih hlog
  | @resumes entries s h k r a resume hanswered ih =>
    obtain ⟨rfl, rfl⟩ := List.cons.inj hlog
    exact ⟨s, h, rfl, Interleaving.host_proceed _ _, nofun⟩

/-- Every earlier part of a log is the log of an earlier part of the run. -/
theorem exists_of_suffix {earlier : List Stretch} (h : Chronicle origin log s)
    (hsuffix : earlier <:+ log) : ∃ s', Chronicle origin earlier s' := by
  induction log generalizing s with
  | nil =>
    rw [List.suffix_nil] at hsuffix
    exact ⟨s, hsuffix ▸ h⟩
  | cons l log ih =>
    rcases List.suffix_cons_iff.1 hsuffix with rfl | hsuffix
    · exact ⟨s, h⟩
    · obtain ⟨s', h', -⟩ := h.exists_of_cons
      exact ih h' hsuffix

/-- Every recorded leg was begun where an earlier part of the run had come to. -/
theorem exists_of_mem (h : Chronicle origin log s) (hl : l ∈ log) :
    ∃ earlier s', Chronicle origin earlier s' ∧ s'.host = l.before := by
  obtain ⟨later, earlier, rfl⟩ := List.append_of_mem hl
  obtain ⟨s₁, h₁⟩ := h.exists_of_suffix (List.suffix_append later (l :: earlier))
  obtain ⟨s₂, h₂, hbefore, -⟩ := h₁.exists_of_cons
  exact ⟨earlier, s₂, h₂, hbefore⟩

def Continues (R : Cause → Steward → Option Request → Steward → Prop) (e : Errand) : Prop :=
  ∀ host a, (e.resume host a).Meets (legwise R) (fun _ host l => R l.1 l.2 none host)
    (.answered e.request, host)

theorem leg_of_meets {cause : Cause} {before : Steward} {p : Program Unit}
    (hp : p.Meets (legwise R) (fun _ host l => R l.1 l.2 none host) (cause, before)) :
    R cause before p.request? p.host := by
  cases p with
  | done host value => exact hp
  | ask host r resume => exact hp.1

theorem continues_proceed {cause : Cause} {before : Steward} {p : Program Unit}
    (hp : p.Meets (legwise R) (fun _ host l => R l.1 l.2 none host) (cause, before))
    (hs : ∀ e ∈ s.errands, Continues R e) : ∀ e ∈ (s.proceed p).errands, Continues R e := by
  cases p with
  | done host value => exact hs
  | ask host r resume =>
    intro e he
    rcases List.mem_append.1 he with he | he
    · exact hs e he
    · obtain rfl := List.mem_singleton.1 he
      exact fun host' a => hp.2 host' _ a rfl

/-- If all legs of whatever is begun are in a relation, so are all that are recorded, and all that
are still to come of what is under way. -/
theorem legs_and_errands (hR : Legwise R) (h : Chronicle origin log s) :
    (∀ l ∈ log, R l.cause l.before l.sent l.after) ∧ ∀ e ∈ s.errands, Continues R e := by
  -- an errand holds the rest of a program, so that its next leg is known before it is taken
  induction h with
  | nil => exact ⟨by simp, by simp⟩
  | @begins log s _ o _ ih =>
    have hp := hR o s.host
    exact ⟨List.forall_mem_cons.2 ⟨leg_of_meets hp, ih.1⟩, continues_proceed hp ih.2⟩
  | answers _ k a hasked ih =>
    refine ⟨ih.1, fun e he => ?_⟩
    rcases List.mem_or_eq_of_mem_set he with he | rfl
    · exact ih.2 e he
    · exact fun host a => ih.2 _ (List.mem_of_getElem? hasked) host a
  | @resumes log s _ k r a resume hanswered ih =>
    have hp := ih.2 _ (List.mem_of_getElem? hanswered) s.host a
    refine ⟨List.forall_mem_cons.2 ⟨leg_of_meets hp, ih.1⟩, continues_proceed hp fun e he => ?_⟩
    exact ih.2 e (List.mem_of_mem_eraseIdx he)

theorem legs (hR : Legwise R) (h : Chronicle origin log s) :
    ∀ l ∈ log, R l.cause l.before l.sent l.after := (h.legs_and_errands hR).1

theorem map_request_proceed (s : Interleaving) (p : Program Unit) :
    (s.proceed p).errands.map (·.request) = s.errands.map (·.request) ++ p.request?.toList := by
  cases p with
  | done host value => exact (List.append_nil _).symm
  | ask host r resume => exact List.map_append

/-- Every request that was sent is under way, or it was answered and set off a leg, once. -/
theorem perm_sent (h : Chronicle origin log s) :
    (log.filterMap (·.sent)).Perm
      (log.filterMap (·.cause.request?) ++ s.errands.map (·.request)) := by
  induction h with
  | nil => exact .nil
  | begins _ o _ ih =>
    rw [List.filterMap_cons_eq_append, List.filterMap_cons_eq_append, map_request_proceed,
      ← List.append_assoc]
    exact List.perm_append_comm.trans (ih.append_right _)
  | @answers log s _ k r resume a hasked ih =>
    have hsame : (s.errands.set k ⟨r, some a, resume⟩).map (·.request) = _ :=
      List.map_set_of_getElem? hasked rfl
    exact hsame ▸ ih
  | @resumes log s _ k r a resume hanswered ih =>
    rw [List.filterMap_cons_eq_append, List.filterMap_cons_eq_append, map_request_proceed,
      ← List.append_assoc]
    obtain ⟨hk, heq⟩ := List.getElem?_eq_some_iff.1 hanswered
    -- the request leaves the errands and becomes the cause of the new leg
    have hrest : (r :: (s.errands.eraseIdx k).map (·.request)).Perm
        (s.errands.map (·.request)) := by
      have hperm := (List.getElem_cons_eraseIdx_perm hk).map (·.request)
      rwa [heq] at hperm
    refine List.perm_append_comm.trans (List.Perm.append_right _ ?_)
    exact ih.trans ((hrest.symm.append_left _).trans List.perm_middle)

end Chronicle

end HostSteward
