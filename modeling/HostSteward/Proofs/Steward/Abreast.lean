import HostSteward.Proofs.Steward.Moments
import Mathlib.Data.List.InsertIdx

/-!
# Stewards abreast

Two stewards do the same about a process, while each has other servers to look after as well. If
they are alike in what belongs to the process, and their supervisors treat the process alike, then
they stay so, and neither does anything to another server.
-/

namespace HostSteward

open Operation Steward

/-- Two supervisors that accept and refuse the same commands about a process. They may give it
different incarnations. -/
structure Pairing (process : String) where
  left : Replies
  right : Replies
  rename : Incarnation → Incarnation
  agree : ∀ k, (left.verdict (some process) k).isOk = (right.verdict (some process) k).isOk
  renames : ∀ k i, left.incarnation process k = i ↔ right.incarnation process k = rename i

/-- A supervisor treats every process like itself. -/
def Pairing.self (w : Replies) (process : String) : Pairing process :=
  ⟨w, w, id, fun _ => rfl, fun _ _ => Iff.rfl⟩

structure Server.Counterpart (rename : Incarnation → Incarnation) (s s' : Server) : Prop where
  identity : s.identity = s'.identity
  spec : s.spec = s'.spec
  phase : s.phase = s'.phase
  diagnostics : s.diagnostics = s'.diagnostics
  incarnation : s.incarnation.map rename = s'.incarnation

namespace Server.Counterpart

variable {rename : Incarnation → Incarnation} {s s' : Server}

theorem withPhase (h : Counterpart rename s s') (phase : Phase) :
    Counterpart rename (s.withPhase phase) (s'.withPhase phase) :=
  ⟨h.identity, h.spec, rfl, h.diagnostics, h.incarnation⟩

theorem diagnose (h : Counterpart rename s s') (message : String) :
    Counterpart rename (s.diagnose message) (s'.diagnose message) where
  identity := h.identity
  spec := h.spec
  phase := h.phase
  diagnostics := by
    unfold Server.diagnose
    rw [h.phase, h.diagnostics]
  incarnation := h.incarnation

theorem check (h : Counterpart rename s s') (expected : List Phase) (operation : String) :
    Counterpart rename (s.check expected operation) (s'.check expected operation) := by
  unfold Server.check mismatch
  rw [h.phase]
  split
  · exact h
  · exact h.diagnose _

theorem registered (h : Counterpart rename s s') (i : Incarnation) :
    Counterpart rename (s.registered i) (s'.registered (rename i)) :=
  ⟨h.identity, h.spec, h.phase, h.diagnostics, rfl⟩

theorem process (h : Counterpart rename s s') : s.process = s'.process :=
  congrArg Identity.processName h.identity

end Server.Counterpart

namespace Pairing

variable {q : String} {c : Pairing q} {m m' m₀ m₀' : Moment} {s s' : Server}

structure Alike (c : Pairing q) (m m' : Moment) : Prop extends
    Steward.Common m.host m'.host where
  record : Option.Rel (Server.Counterpart c.rename) (m.host.roster.get? q) (m'.host.roster.get? q)
  count : m.host.budget.count q = m'.host.budget.count q
  /-- The same restarts are pending, for the record that is tracked or for an earlier one. -/
  pending : (m.host.pending q).map (fun r => m.host.roster.tracks q r.number) =
    (m'.host.pending q).map fun r => m'.host.roster.tracks q r.number
  about : commandsAbout (some q) m.received = commandsAbout (some q) m'.received

/-- Two runs have come from one pair of moments to another, at which they are alike in what belongs
to the process. Neither has touched anything else. -/
structure Together (c : Pairing q) (m₀ m₀' m m' : Moment) : Prop extends c.Alike m m' where
  left : Moment.Within c.left q m₀ m
  right : Moment.Within c.right q m₀' m'

structure Holding (c : Pairing q) (m₀ m₀' : Moment) (s s' : Server) (m m' : Moment) : Prop extends
    c.Together m₀ m₀' m m' where
  process : s.process = q
  counterpart : Server.Counterpart c.rename s s'
  tracked : m.host.Tracks s
  tracked' : m'.host.Tracks s'

theorem Holding.process' (h : c.Holding m₀ m₀' s s' m m') : s'.process = q :=
  h.counterpart.process.symm.trans h.process

/-- A relation of moments that does not depend on what is noted in journals. -/
def Deaf (R : Moment → Moment → Prop) : Prop :=
  ∀ {m m'} journal journal', R m m' →
    R { m with host := { m.host with journal } }
      { m' with host := { m'.host with journal := journal' } }

theorem deaf_together : Deaf (c.Together m₀ m₀') := fun journal journal' h =>
  ⟨⟨⟨h.settings, h.model, h.stopping, h.launched, h.policy⟩, h.record, h.count, h.pending, h.about⟩,
    h.left.note journal, h.right.note journal'⟩

theorem deaf_holding : Deaf (c.Holding m₀ m₀' s s') := fun journal journal' h =>
  ⟨deaf_together journal journal' h.toTogether, h.process, h.counterpart, h.tracked, h.tracked'⟩

/-! ## Steps of both runs -/

namespace Holding

variable {f f' : Server → Server}

theorem update (h : c.Holding m₀ m₀' s s' m m') (hf : Server.Faithful f) (hf' : Server.Faithful f')
    (hcounterpart : ∀ {t t'}, t.Counterpart c.rename t' → (f t).Counterpart c.rename (f' t'))
    (hincarnation : ∀ t i, (f t).incarnation = some i →
      t.incarnation = some i ∨ ∃ k, i = c.left.incarnation q k)
    (hincarnation' : ∀ t i, (f' t).incarnation = some i →
      t.incarnation = some i ∨ ∃ k, i = c.right.incarnation q k) :
    c.Holding m₀ m₀' s s'
      { m with host := { m.host with roster := m.host.roster.update s.number f } }
      { m' with host := { m'.host with roster := m'.host.roster.update s'.number f' } } := by
  have hprocess := h.process
  have hprocess' := h.process'
  have hrecord := h.record
  obtain ⟨t, ht, hn⟩ := h.tracked
  obtain ⟨t', ht', hn'⟩ := h.tracked'
  rw [hprocess] at ht
  rw [hprocess'] at ht'
  rw [ht, ht'] at hrecord
  cases hrecord with
  | some hrecord =>
    refine ⟨⟨⟨⟨h.settings, h.model, h.stopping, h.launched, h.policy⟩, ?_, h.count, ?_, h.about⟩,
      ?_, ?_⟩, hprocess, h.counterpart, h.tracked.update hf _, h.tracked'.update hf' _⟩
    · rw [← hn, ← hn', Roster.get?_update_self ht, Roster.get?_update_self ht']
      exact .some (hcounterpart hrecord)
    · simp only [Roster.tracks_update _ _ hf, Roster.tracks_update _ _ hf']
      exact h.pending
    · subst hprocess
      exact h.left.update h.tracked hf hincarnation
    · subst hprocess'
      exact h.right.update h.tracked' hf' hincarnation'

/-- Both records are changed in the same way, which leaves their registrations alone. -/
theorem amend (h : c.Holding m₀ m₀' s s' m m') (hf : Server.Modest f)
    (hcounterpart : ∀ {t t'}, t.Counterpart c.rename t' → (f t).Counterpart c.rename (f t')) :
    c.Holding m₀ m₀' s s'
      { m with host := { m.host with roster := m.host.roster.update s.number f } }
      { m' with host := { m'.host with roster := m'.host.roster.update s'.number f } } :=
  h.update hf.toFaithful hf.toFaithful hcounterpart
    (fun t _ hi => .inl (hf.incarnation t ▸ hi)) fun t _ hi => .inl (hf.incarnation t ▸ hi)

/-- Both processes have been registered by the command that came next. -/
theorem register (h : c.Holding m₀ m₀' s s' m m') (k : Nat) :
    c.Holding m₀ m₀' s s'
      { m with host := { m.host with
        roster := m.host.roster.update s.number (·.registered (c.left.incarnation q k)) } }
      { m' with host := { m'.host with
        roster := m'.host.roster.update s'.number (·.registered (c.right.incarnation q k)) } } := by
  refine h.update (Server.faithful_registered _) (Server.faithful_registered _) (fun ht => ?_)
    (fun t i hi => .inr ⟨k, (Option.some.inj hi).symm⟩)
    fun t i hi => .inr ⟨k, (Option.some.inj hi).symm⟩
  rw [(c.renames k _).1 rfl]
  exact ht.registered _

theorem ask (h : c.Holding m₀ m₀' s s' m m') {command : Command} (hq : command.process? = some q) :
    c.Holding m₀ m₀' s s' { m with received := m.received ++ [command] }
      { m' with received := m'.received ++ [command] } := by
  refine ⟨⟨⟨⟨h.settings, h.model, h.stopping, h.launched, h.policy⟩, h.record, h.count, h.pending,
    ?_⟩, h.left.ask hq, h.right.ask hq⟩, h.process, h.counterpart, h.tracked, h.tracked'⟩
  have habout := h.about
  unfold commandsAbout at habout ⊢
  rw [List.filter_append, List.filter_append, habout]

theorem untrack (h : c.Holding m₀ m₀' s s' m m') : c.Together m₀ m₀'
    { m with host := { m.host with roster := m.host.roster.removeSame s.process s.number } }
    { m' with host := { m'.host with
      roster := m'.host.roster.removeSame s'.process s'.number } } := by
  have hnone := h.tracked.get?_removeSame
  have hnone' := h.tracked'.get?_removeSame
  rw [h.process] at hnone ⊢
  rw [h.process'] at hnone' ⊢
  have hall (l l' : List PendingRestart) (hl : l.length = l'.length) :
      l.map (fun r => (m.host.roster.removeSame q s.number).tracks q r.number) =
        l'.map fun r => (m'.host.roster.removeSame q s'.number).tracks q r.number := by
    simp only [Roster.tracks, hnone, hnone', List.map_const', hl]
  refine ⟨⟨⟨h.settings, h.model, h.stopping, h.launched, h.policy⟩, ?_, h.count, hall _ _ ?_,
    h.about⟩, h.left.untrack _, h.right.untrack _⟩
  · rw [hnone, hnone']
    exact .none
  · have hlength := congrArg List.length h.pending
    rwa [List.length_map, List.length_map] at hlength

theorem decision (h : c.Holding m₀ m₀' s s' m m') :
    m.host.budget.decision s.process = m'.host.budget.decision s'.process := by
  unfold RestartBudget.decision
  rw [h.process, h.process', h.policy, h.count]

theorem spend (h : c.Holding m₀ m₀' s s' m m') : c.Holding m₀ m₀' s s'
    { m with host := { m.host with budget := m.host.budget.spend s.process } }
    { m' with host := { m'.host with budget := m'.host.budget.spend s'.process } } := by
  rw [h.process, h.process']
  refine ⟨⟨⟨⟨h.settings, h.model, h.stopping, h.launched, ?_⟩, h.record, ?_, h.pending, h.about⟩,
    h.left.spend, h.right.spend⟩, h.process, h.counterpart, h.tracked, h.tracked'⟩
  · rw [RestartBudget.policy_spend, RestartBudget.policy_spend]
    exact h.policy
  · rw [RestartBudget.count_spend, RestartBudget.count_spend, h.count, h.policy]

theorem reset (h : c.Holding m₀ m₀' s s' m m') : c.Holding m₀ m₀' s s'
    { m with host := { m.host with budget := m.host.budget.reset q } }
    { m' with host := { m'.host with budget := m'.host.budget.reset q } } := by
  refine ⟨⟨⟨⟨h.settings, h.model, h.stopping, h.launched, h.policy⟩, h.record, ?_, h.pending,
    h.about⟩, h.left.reset, h.right.reset⟩, h.process, h.counterpart, h.tracked, h.tracked'⟩
  rw [RestartBudget.count_reset, RestartBudget.count_reset, if_pos rfl, if_pos rfl]

theorem postpone (h : c.Holding m₀ m₀' s s' m m') (delay : Duration) : c.Holding m₀ m₀' s s'
    { m with host := { m.host with
      nextTicket := m.host.nextTicket + 1
      restarts := m.host.restarts ++ [⟨m.host.nextTicket, s.number, s.process, delay⟩] } }
    { m' with host := { m'.host with
      nextTicket := m'.host.nextTicket + 1
      restarts := m'.host.restarts ++ [⟨m'.host.nextTicket, s'.number, s'.process, delay⟩] } } := by
  have hprocess := h.process
  have hprocess' := h.process'
  refine ⟨⟨⟨⟨h.settings, h.model, h.stopping, h.launched, h.policy⟩, h.record, h.count, ?_,
    h.about⟩, ?_, ?_⟩, h.process, h.counterpart, h.tracked, h.tracked'⟩
  · have htracks : m.host.roster.tracks q s.number := hprocess ▸ h.tracked.tracks
    have htracks' : m'.host.roster.tracks q s'.number := hprocess' ▸ h.tracked'.tracks
    have hpending := h.pending
    simp only [Steward.pending, List.filter_append, List.map_append] at hpending ⊢
    rw [hpending]
    simp [hprocess, hprocess', htracks, htracks']
  · subst hprocess
    exact h.left.postpone h.tracked delay
  · subst hprocess'
    exact h.right.postpone h.tracked' delay

end Holding

namespace Together

/-- The process is tracked in both runs or in neither. -/
theorem cases (h : c.Together m₀ m₀' m m') :
    m.host.roster.get? q = none ∧ m'.host.roster.get? q = none ∨
    ∃ s s', m.host.roster.get? q = some s ∧ m'.host.roster.get? q = some s' ∧
      c.Holding m₀ m₀' s s' m m' := by
  have hrecord := h.record
  cases hget : m.host.roster.get? q <;> cases hget' : m'.host.roster.get? q <;>
    rw [hget, hget'] at hrecord
  · exact .inl ⟨rfl, rfl⟩
  · cases hrecord
  · cases hrecord
  next s s' =>
    cases hrecord with
    | some hrecord =>
      have hprocess := h.left.orderly.sound.keyed hget
      have hprocess' := h.right.orderly.sound.keyed hget'
      exact .inr ⟨s, s', rfl, rfl, h, hprocess, hrecord, ⟨s, hprocess.symm ▸ hget, rfl⟩,
        ⟨s', hprocess'.symm ▸ hget', rfl⟩⟩

theorem followed (h : c.Together m₀ m₀' m m') :
    m.host.followed? q = none ∧ m'.host.followed? q = none ∨
    ∃ s s', m.host.followed? q = some s ∧ m'.host.followed? q = some s' ∧
      c.Holding m₀ m₀' s s' m m' := by
  unfold Steward.followed?
  rw [← h.stopping]
  split
  · exact .inl ⟨rfl, rfl⟩
  · exact h.cases

/-- New records of the process are tracked in both runs. -/
theorem track (h : c.Together m₀ m₀' m m') {roster roster' : Roster} (hprocess : s.process = q)
    (hcounterpart : Server.Counterpart c.rename s s') (hnone : s.incarnation = none)
    (hnumber : s.number = m.host.nextNumber) (hnumber' : s'.number = m'.host.nextNumber)
    (hinsert : m.host.roster.insert s = .ok roster)
    (hinsert' : m'.host.roster.insert s' = .ok roster') : c.Holding m₀ m₀' s s'
    { m with host := { m.host with roster, nextNumber := m.host.nextNumber + 1 } }
    { m' with host := { m'.host with
      roster := roster', nextNumber := m'.host.nextNumber + 1 } } := by
  have hprocess' : s'.process = q := hcounterpart.process.symm.trans hprocess
  have hnone' : s'.incarnation = none := by rw [← hcounterpart.incarnation, hnone]; rfl
  have hget : roster.get? q = some s := (Roster.get?_of_insert hinsert q).trans (if_pos hprocess)
  have hget' : roster'.get? q = some s' :=
    (Roster.get?_of_insert hinsert' q).trans (if_pos hprocess')
  refine ⟨⟨⟨⟨h.settings, h.model, h.stopping, h.launched, h.policy⟩, ?_, h.count, ?_, h.about⟩,
    ?_, ?_⟩, hprocess, hcounterpart, ⟨s, hprocess.symm ▸ hget, rfl⟩,
    ⟨s', hprocess'.symm ▸ hget', rfl⟩⟩
  · rw [hget, hget']
    exact .some hcounterpart
  · have hold := h.left.orderly.tracks_of_insert hnumber hinsert
    have hold' := h.right.orderly.tracks_of_insert hnumber' hinsert'
    rw [hprocess] at hold
    rw [hprocess'] at hold'
    exact hold.trans (h.pending.trans hold'.symm)
  · subst hprocess
    exact h.left.track hnumber hnone hinsert
  · subst hprocess'
    exact h.right.track hnumber' hnone' hinsert'

/-- The same pending restart is taken from both lists. -/
theorem take (h : c.Together m₀ m₀' m m') {k : Nat} {r r' : PendingRestart}
    (hr : (m.host.pending q)[k]? = some r) (hr' : (m'.host.pending q)[k]? = some r') :
    c.Together m₀ m₀'
      { m with host := { m.host with restarts := m.host.restarts.filter (·.ticket ≠ r.ticket) } }
      { m' with host := { m'.host with
        restarts := m'.host.restarts.filter (·.ticket ≠ r'.ticket) } } := by
  obtain ⟨hmem, hprocess⟩ := List.mem_filter.1 (List.mem_of_getElem? hr)
  obtain ⟨hmem', hprocess'⟩ := List.mem_filter.1 (List.mem_of_getElem? hr')
  refine ⟨⟨⟨h.settings, h.model, h.stopping, h.launched, h.policy⟩, h.record, h.count, ?_, h.about⟩,
    h.left.take hmem (of_decide_eq_true hprocess), h.right.take hmem' (of_decide_eq_true hprocess')⟩
  have hleft := h.left.orderly.pending_take hr
  have hright := h.right.orderly.pending_take hr'
  unfold Steward.pending at hleft hright ⊢
  rw [hleft, hright, ← List.eraseIdx_map, ← List.eraseIdx_map]
  exact congrArg (·.eraseIdx k) h.pending

end Together

/-! ## Programs of both runs -/

section Programs

variable {α β : Type} {R R' : Moment → Moment → Prop} {post : α → α → Moment → Moment → Prop}
  {post' : β → β → Moment → Moment → Prop}

/-- From moments that are related, two operations lead to values and moments that are. -/
def Abreast (c : Pairing q) (R : Moment → Moment → Prop) (post : α → α → Moment → Moment → Prop)
    (o o' : Operation α) : Prop :=
  ∀ m m', R m m' → post (o.outcome c.left m).1 (o'.outcome c.right m').1
    (o.outcome c.left m).2 (o'.outcome c.right m').2

def Both (post : α → α → Moment → Moment → Prop) (failed : Moment → Moment → Prop) :
    Except Failure α → Except Failure α → Moment → Moment → Prop
  | .ok value, .ok value' => post value value'
  | .error _, .error _ => failed
  | _, _ => fun _ _ => False

theorem Abreast.at {o o' : Operation α} {m m' : Moment} (ho : c.Abreast R (fun _ _ => R') o o')
    (h : R m m') : R' (o.outcome c.left m).2 (o'.outcome c.right m').2 := ho m m' h

theorem Abreast.bind {o o' : Operation α} {next next' : α → Operation β}
    (ho : c.Abreast R post o o')
    (hnext : ∀ value value', c.Abreast (post value value') post' (next value) (next' value')) :
    c.Abreast R post' (o >>= next) (o' >>= next') := by
  intro m m' h
  rw [outcome_bind, outcome_bind]
  exact hnext _ _ _ _ (ho m m' h)

theorem abreast_pure (value value' : α) : c.Abreast R (fun _ _ => R) (pure value) (pure value') :=
  fun _ _ h => h

theorem Abreast.mono {o o' : Operation α} {post' : α → α → Moment → Moment → Prop}
    (ho : c.Abreast R post o o') (hpost : ∀ {value value' m m'}, post value value' m m' →
      post' value value' m m') : c.Abreast R post' o o' := fun m m' h => hpost (ho m m' h)

theorem Abreast.of_imp {o o' : Operation α} (himp : ∀ {m m'}, R m m' → R' m m')
    (ho : c.Abreast R' post o o') : c.Abreast R post o o' := fun m m' h => ho m m' (himp h)

/-- What is only noted makes no difference, on whichever side it is. -/
theorem abreast_notes (hR : Deaf R) {o o' : Operation α} (ho : o.Notes) (ho' : o'.Notes) :
    c.Abreast R (fun _ _ => R) o o' := by
  intro m m' h
  obtain ⟨journal, hm⟩ := ho c.left m
  obtain ⟨journal', hm'⟩ := ho' c.right m'
  rw [hm, hm']
  exact hR journal journal' h

/-- Operations may look at the state before they decide what to do. -/
theorem abreast_current {next next' : Steward → Operation β}
    (h : ∀ m m', R m m' → post' ((next m.host).outcome c.left m).1
      ((next' m'.host).outcome c.right m').1 ((next m.host).outcome c.left m).2
      ((next' m'.host).outcome c.right m').2) :
    c.Abreast R post' (current >>= next) (current >>= next') := h

theorem Abreast.answer {o o' : Operation (Except Failure α)}
    {next next' : Except Failure α → Operation β} (ho : c.Abreast R (Both post R') o o')
    (hok : ∀ value value',
      c.Abreast (post value value') post' (next (.ok value)) (next' (.ok value')))
    (herror : ∀ e e', c.Abreast R' post' (next (.error e)) (next' (.error e'))) :
    c.Abreast R post' (o >>= next) (o' >>= next') := by
  refine ho.bind fun r r' => ?_
  cases r <;> cases r'
  · exact herror _ _
  · exact fun _ _ h => h.elim
  · exact fun _ _ h => h.elim
  · exact hok _ _

abbrev Tries (c : Pairing q) (R : Moment → Moment → Prop)
    (post : α → α → Moment → Moment → Prop) (failed : Moment → Moment → Prop) (x x' : Attempt α) :
    Prop := c.Abreast R (Both post failed) x.run x'.run

theorem Tries.bind {x x' : Attempt α} {next next' : α → Attempt β} {failed}
    (hx : c.Tries R post failed x x')
    (hnext : ∀ value value', c.Tries (post value value') post' failed (next value) (next' value')) :
    c.Tries R post' failed (x >>= next) (x' >>= next') := by
  unfold Tries
  rw [ExceptT.run_bind, ExceptT.run_bind]
  exact Abreast.answer hx hnext fun _ _ _ _ h => h

theorem Tries.tryCatch {x x' : Attempt α} {handler handler' : Failure → Attempt α} {failed failed'}
    (hx : c.Tries R post failed x x')
    (hhandler : ∀ e e', c.Tries failed post failed' (handler e) (handler' e')) :
    c.Tries R post failed' (tryCatch x handler) (tryCatch x' handler') :=
  Abreast.answer hx (fun _ _ _ _ h => h) hhandler

theorem Tries.mono {x x' : Attempt α} {post' : α → α → Moment → Moment → Prop}
    {failed failed' : Moment → Moment → Prop} (hx : c.Tries R post failed x x')
    (hpost : ∀ {value value' m m'}, post value value' m m' → post' value value' m m')
    (hfailed : ∀ {m m'}, failed m m' → failed' m m') : c.Tries R post' failed' x x' := by
  refine Abreast.mono hx fun {r r' m m'} h => ?_
  cases r <;> cases r'
  · exact hfailed h
  · exact h
  · exact h
  · exact hpost h

theorem tries_lift {o o' : Operation α} {failed} (ho : c.Abreast R post o o') :
    c.Tries R post failed (ExceptT.lift o) (ExceptT.lift o') :=
  Abreast.bind ho fun _ _ _ _ h => h

end Programs

end Pairing

end HostSteward
