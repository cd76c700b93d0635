import HostSteward.Proofs.Steward.Abreast

/-!
# Operations in step

Everything that a steward does about a process keeps two stewards abreast that do it at the same
time. Each operation reads and changes what belongs to its process and nothing else.
-/

namespace HostSteward

open Operation Steward

namespace Pairing

variable {q : String} {c : Pairing q} {m₀ m₀' : Moment} {s s' : Server} {α : Type}
  {post : α → α → Moment → Moment → Prop} {R : Moment → Moment → Prop}

/-- What is done with a record may depend on what it tells. -/
theorem Abreast.of_holding {o o' : Operation α}
    (h : s.process = q → s'.process = q → s.Counterpart c.rename s' →
      c.Abreast (c.Holding m₀ m₀' s s') post o o') :
    c.Abreast (c.Holding m₀ m₀' s s') post o o' :=
  fun m m' hm => h hm.process hm.process' hm.counterpart m m' hm

/-- The relation is kept by an operation in both runs. -/
abbrev Keeps (c : Pairing q) (R : Moment → Moment → Prop) (o o' : Operation α) : Prop :=
  c.Abreast R (fun _ _ => R) o o'

/-! ## Simple steps -/

theorem keeps_updateServer {f : Server → Server} (hf : Server.Modest f)
    (hcounterpart : ∀ {t t'}, t.Counterpart c.rename t' → (f t).Counterpart c.rename (f t')) :
    c.Keeps (c.Holding m₀ m₀' s s') (updateServer s.number f) (updateServer s'.number f) :=
  fun _ _ h => h.amend hf hcounterpart

theorem keeps_setPhase (phase : Phase) :
    c.Keeps (c.Holding m₀ m₀' s s') (setPhase s phase) (setPhase s' phase) :=
  keeps_updateServer (Server.modest_withPhase phase) fun h => h.withPhase phase

theorem keeps_checkPhase (expected : List Phase) (operation : String) :
    c.Keeps (c.Holding m₀ m₀' s s') (checkPhase s expected operation)
      (checkPhase s' expected operation) := by
  intro m m' h
  obtain ⟨journal, hm⟩ := exists_outcome_checkPhase s expected operation c.left m
  obtain ⟨journal', hm'⟩ := exists_outcome_checkPhase s' expected operation c.right m'
  rw [hm, hm']
  exact (deaf_holding journal journal' h).amend (Server.modest_check expected operation)
    fun ht => ht.check expected operation

theorem keeps_tell (e e' : Entry) : c.Keeps (c.Holding m₀ m₀' s s') (tell e) (tell e') :=
  abreast_notes deaf_holding (notes_tell e) (notes_tell e')

theorem keeps_noteFailure (process operation : String) (e e' : Failure) :
    c.Keeps (c.Holding m₀ m₀' s s') (noteFailure process operation e)
      (noteFailure process operation e') :=
  abreast_notes deaf_holding (notes_noteFailure process operation e)
    (notes_noteFailure process operation e')

/-- The next verdict on the process is the same for both. -/
theorem Alike.isOk_next {m m' : Moment} (h : c.Alike m m') :
    (c.left.next m.received (some q)).isOk = (c.right.next m'.received (some q)).isOk := by
  unfold Replies.next
  rw [h.about]
  exact c.agree _

/-- Both supervisors answer a command about the process in the same way. -/
theorem abreast_ask {o : Operation (Except Failure Unit)} {command : Command}
    (ho : ∀ w m, o.outcome w m =
      (w.next m.received (some q), { m with received := m.received ++ [command] }))
    (hcommand : command.process? = some q) :
    c.Abreast (c.Holding m₀ m₀' s s')
      (Both (fun _ _ => c.Holding m₀ m₀' s s') (c.Holding m₀ m₀' s s')) o o := by
  intro m m' h
  have hnext := h.isOk_next
  have hafter := h.ask hcommand
  rw [ho, ho]
  cases hleft : c.left.next m.received (some q) <;>
    cases hright : c.right.next m'.received (some q) <;> rw [hleft, hright] at hnext
  · exact hafter
  · cases hnext
  · cases hnext
  · exact hafter

/-- An attempt succeeds in both runs or in neither, and keeps the relation. -/
abbrev Tried (c : Pairing q) (R : Moment → Moment → Prop) (x x' : Attempt α) : Prop :=
  c.Tries R (fun _ _ => R) R x x'

theorem Tried.keeps {x x' : Attempt α} (hx : c.Tried R x x') : c.Keeps R x.run x'.run := by
  refine Abreast.mono hx fun {r r' m m'} h => ?_
  cases r <;> cases r'
  · exact h
  · exact False.elim h
  · exact False.elim h
  · exact h

theorem tried_start : c.Tried (c.Holding m₀ m₀' s s') (Attempt.start s) (Attempt.start s') :=
  .of_holding fun hs hs' _ => by
    unfold Attempt.start
    rw [hs, hs']
    exact abreast_ask (fun _ _ => rfl) rfl

theorem tried_remove : c.Tried (c.Holding m₀ m₀' s s') (Attempt.remove s) (Attempt.remove s') :=
  .of_holding fun hs hs' _ => by
    unfold Attempt.remove
    rw [hs, hs']
    exact abreast_ask (fun _ _ => rfl) rfl

theorem tried_stop : c.Tried (c.Holding m₀ m₀' s s') (Attempt.stop s) (Attempt.stop s') :=
  .of_holding fun hs hs' _ => by
    unfold Attempt.stop
    rw [hs, hs']
    exact (tries_lift (keeps_setPhase .stopping)).bind fun _ _ => abreast_ask (fun _ _ => rfl) rfl

/-- Both are answered with the incarnation that their supervisor gives out next, or neither is. -/
theorem tries_add (launch : Launch) :
    c.Tries (c.Holding m₀ m₀' s s')
      (fun i i' m m' => c.Holding m₀ m₀' s s' m m' ∧
        ∃ k, i = c.left.incarnation q k ∧ i' = c.right.incarnation q k) (c.Holding m₀ m₀' s s')
      (ExceptT.mk (command (.add q launch))) (ExceptT.mk (command (.add q launch))) := by
  intro m m' h
  have hnext := h.isOk_next
  have hafter := h.ask (show (Command.add q launch).process? = some q from rfl)
  rw [ExceptT.run_mk, outcome_command, outcome_command]
  simp only [Replies.answer, h.about]
  cases hleft : c.left.next m.received (some q) <;>
    cases hright : c.right.next m'.received (some q) <;> rw [hleft, hright] at hnext
  · exact hafter
  · cases hnext
  · cases hnext
  · exact ⟨hafter, _, rfl, rfl⟩

theorem tried_register :
    c.Tried (c.Holding m₀ m₀' s s') (Attempt.register s) (Attempt.register s') :=
  .of_holding fun hs hs' hc => by
    unfold Attempt.register
    rw [hs, hs', hc.spec]
    refine (tries_lift (keeps_setPhase .booting)).bind fun _ _ => (tries_add _).bind fun i i' => ?_
    refine tries_lift fun m m' h => ?_
    obtain ⟨h, k, rfl, rfl⟩ := h
    exact h.register k

theorem tried_relaunch : c.Tried (c.Holding m₀ m₀' s s') (relaunch s) (relaunch s') :=
  tried_remove.bind fun _ _ => tried_register.bind fun _ _ => tried_start

/-! ## Notices -/

/-- Unless the stewards are stopping, the server that a notice is about is tracked in both runs or
in neither. -/
theorem keeps_follow {notice : String} {next next' : Option Server → Operation Unit}
    (hnone : c.Keeps (c.Together m₀ m₀') (next none) (next' none))
    (hsome : ∀ s s', c.Keeps (c.Holding m₀ m₀' s s') (next (some s)) (next' (some s'))) :
    c.Keeps (c.Together m₀ m₀') (subject? q notice >>= next) (subject? q notice >>= next') := by
  intro m m' h
  rw [outcome_bind, outcome_bind]
  obtain ⟨journal, hm⟩ := exists_outcome_subject? q notice c.left m
  obtain ⟨journal', hm'⟩ := exists_outcome_subject? q notice c.right m'
  rw [hm, hm']
  rcases h.followed with ⟨hget, hget'⟩ | ⟨s, s', hget, hget', hholding⟩ <;> rw [hget, hget']
  · exact hnone _ _ (deaf_together journal journal' h)
  · exact (hsome s s' _ _ (deaf_holding journal journal' hholding)).toTogether

theorem keeps_serverAvailable :
    c.Keeps (c.Together m₀ m₀') (serverAvailable q) (serverAvailable q) :=
  keeps_follow (abreast_pure () ()) fun _ _ =>
    (keeps_checkPhase _ _).bind fun _ _ => (keeps_setPhase _).bind fun _ _ =>
      (keeps_tell _ _).bind fun _ _ => (abreast_ask (fun _ _ => rfl) rfl).answer
        (fun _ _ => keeps_setPhase _) fun _ _ => keeps_noteFailure _ _ _ _

theorem keeps_serverStarted :
    c.Keeps (c.Together m₀ m₀') (serverStarted q) (serverStarted q) := by
  refine keeps_follow (abreast_pure () ()) fun _ _ =>
    (keeps_checkPhase _ _).bind fun _ _ => (keeps_setPhase _).bind fun _ _ => ?_
  refine abreast_current fun m m' h => ?_
  refine Abreast.at ?_ h
  refine Abreast.bind (abreast_notes deaf_holding (notes_tellAny _) (notes_tellAny _)) fun _ _ =>
    Abreast.bind (fun m m' h => ?_) fun _ _ => keeps_tell _ _
  exact h.reset

theorem keeps_serverStartFailed :
    c.Keeps (c.Together m₀ m₀') (serverStartFailed q) (serverStartFailed q) :=
  keeps_follow (abreast_pure () ()) fun _ _ =>
    (keeps_checkPhase _ _).bind fun _ _ => (keeps_setPhase _).bind fun _ _ => keeps_tell _ _

theorem keeps_serverStopped :
    c.Keeps (c.Together m₀ m₀') (serverStopped q) (serverStopped q) := by
  refine keeps_follow (abreast_pure () ()) fun _ _ =>
    (keeps_checkPhase _ _).bind fun _ _ => (keeps_setPhase _).bind fun _ _ =>
      (abreast_ask (fun _ _ => rfl) rfl).answer (fun _ _ => ?_) fun _ _ => ?_
  · exact (abreast_ask (fun _ _ => rfl) rfl).answer (fun _ _ => abreast_pure () ())
      fun _ _ => keeps_noteFailure _ _ _ _
  · exact (keeps_noteFailure _ _ _ _).bind fun _ _ => (abreast_ask (fun _ _ => rfl) rfl).answer
      (fun _ _ => abreast_pure () ()) fun _ _ => keeps_noteFailure _ _ _ _

theorem keeps_serverDisconnected :
    c.Keeps (c.Together m₀ m₀') (serverDisconnected q) (serverDisconnected q) :=
  keeps_follow (abreast_pure () ()) fun _ _ => keeps_checkPhase _ _

theorem keeps_scheduleRestart :
    c.Keeps (c.Holding m₀ m₀' s s') (scheduleRestart s) (scheduleRestart s') := by
  refine abreast_current fun m m' h => ?_
  simp only [outcome_bind, outcome_tell, outcome_modify]
  have hspent := (deaf_holding (m.host.journal ++ [m.host.budget.announcement s.process])
    (m'.host.journal ++ [m'.host.budget.announcement s'.process]) h).spend
  rw [h.decision]
  cases m'.host.budget.decision s'.process with
  | giveUp =>
    refine Abreast.at ?_ hspent
    exact (keeps_setPhase .maxFailed).bind fun _ _ =>
      keeps_updateServer (Server.modest_diagnose _) fun ht => ht.diagnose _
  | retryAfter delay => exact hspent.postpone delay

theorem keeps_serverDown : c.Keeps (c.Together m₀ m₀') (serverDown q) (serverDown q) := by
  refine keeps_follow (abreast_pure () ()) fun s s' => ?_
  refine .of_holding fun _ _ hc => abreast_current fun m m' h => ?_
  have hlost : lostItsHost m.host s = lostItsHost m'.host s' := by
    unfold lostItsHost
    rw [h.settings, hc.phase]
  rw [hlost, h.settings]
  refine Abreast.at ?_ h
  split
  · exact (keeps_tell _ _).bind fun _ _ => tried_relaunch.answer (fun _ _ => abreast_pure () ())
      fun _ _ => keeps_tell _ _
  · refine (keeps_setPhase .failed).bind fun _ _ => (keeps_tell _ _).bind fun _ _ => ?_
    split
    · exact keeps_scheduleRestart
    · exact abreast_pure () ()

/-- A record that is tracked in both runs owns the exits of the same registrations. -/
theorem Holding.owns {m m' : Moment} (h : c.Holding m₀ m₀' s s' m m')
    (hget : m.host.roster.get? q = some s) (i : Incarnation) : s.owns i = s'.owns (c.rename i) := by
  unfold Server.owns
  rw [← h.counterpart.incarnation]
  cases hown : s.incarnation with
  | none => rfl
  | some own =>
    obtain ⟨k, rfl⟩ := h.left.orderly.registered hget hown
    simp only [Option.map_some]
    rw [decide_eq_decide, ← (c.renames k _).1 rfl]
    exact c.renames k i

theorem keeps_processStopped (i : Incarnation) (uptime : Duration) :
    c.Keeps (c.Together m₀ m₀') (processStopped q i uptime)
      (processStopped q (c.rename i) uptime) := by
  refine abreast_current fun m m' h => ?_
  rcases h.cases with ⟨hget, hget'⟩ | ⟨s, s', hget, hget', hholding⟩ <;> rw [hget, hget']
  · exact h
  · simp only [hholding.owns hget i, hholding.counterpart.phase]
    refine Abreast.at ?_ h
    split
    · exact (abreast_notes deaf_together (notes_tell _) (notes_tell _)).bind fun _ _ =>
        keeps_serverDown
    · exact abreast_pure () ()

/-! ## New records -/

theorem tries_current {failed : Moment → Moment → Prop} :
    c.Tries R (fun host host' m m' => R m m' ∧ host = m.host ∧ host' = m'.host) failed
      (ExceptT.lift current) (ExceptT.lift current) := tries_lift fun _ _ h => ⟨h, rfl, rfl⟩

def Untracked (c : Pairing q) (m₀ m₀' m m' : Moment) : Prop :=
  c.Together m₀ m₀' m m' ∧ m.host.roster.get? q = none ∧ m'.host.roster.get? q = none

variable {spec : ServerSpec} {name : String}

theorem tries_track_untracked (hspec : spec.processName = q) (phase : Phase) :
    c.Tries (c.Untracked m₀ m₀') (c.Holding m₀ m₀') (fun _ _ => False) (track spec phase)
      (track spec phase) := by
  rintro m m' ⟨h, hnone, hnone'⟩
  have hhost : m.host.hostName = m'.host.hostName := congrArg HostModel.host h.model
  rw [outcome_track, outcome_track, ← hhost]
  let s := Server.ofSpec m.host.nextNumber m.host.hostName spec phase
  let s' := Server.ofSpec m'.host.nextNumber m.host.hostName spec phase
  have hs : s.process = q := hspec
  have hs' : s'.process = q := hspec
  obtain ⟨roster, hinsert⟩ : ∃ roster, m.host.roster.insert s = .ok roster :=
    ⟨_, Roster.insert_eq_ok_iff.2 ⟨hs.symm ▸ hnone, rfl⟩⟩
  obtain ⟨roster', hinsert'⟩ : ∃ roster, m'.host.roster.insert s' = .ok roster :=
    ⟨_, Roster.insert_eq_ok_iff.2 ⟨hs'.symm ▸ hnone', rfl⟩⟩
  rw [hinsert, hinsert']
  exact h.track hspec ⟨rfl, rfl, rfl, rfl, rfl⟩ rfl rfl rfl hinsert hinsert'

/-- New records are tracked in both runs, unless the process is tracked already. -/
theorem tries_track (hspec : spec.processName = q) (phase : Phase) :
    c.Tries (c.Together m₀ m₀') (c.Holding m₀ m₀') (c.Together m₀ m₀') (track spec phase)
      (track spec phase) := by
  intro m m' h
  rcases h.cases with ⟨hnone, hnone'⟩ | ⟨s, s', hget, hget', -⟩
  · exact (tries_track_untracked hspec phase).mono (fun h => h) (fun h => h.elim) m m'
      ⟨h, hnone, hnone'⟩
  · have hrefused {m : Moment} {s : Server} (hget : m.host.roster.get? q = some s) (n : Nat) :
        ∃ e, m.host.roster.insert (.ofSpec n m.host.hostName spec phase) = .error e := by
      cases hinsert : m.host.roster.insert (.ofSpec n m.host.hostName spec phase) with
      | ok roster =>
        have hnone : m.host.roster.get? q = none := hspec ▸ (Roster.insert_eq_ok_iff.1 hinsert).1
        cases hnone.symm.trans hget
      | error e => exact ⟨e, rfl⟩
    obtain ⟨e, he⟩ := hrefused hget m.host.nextNumber
    obtain ⟨e', he'⟩ := hrefused hget' m'.host.nextNumber
    rw [outcome_track, outcome_track, he, he']
    exact h

/-- Launching in both runs keeps the relation, whether it succeeds or fails. -/
theorem tried_launch (hname : processName name = q) :
    c.Tried (c.Together m₀ m₀') (launch name) (launch name) := by
  refine Tries.bind tries_current fun host host' => ?_
  rintro m m' ⟨h, rfl, rfl⟩
  rw [h.model]
  cases hspec : m'.host.model.server? name with
  | none => exact h
  | some spec =>
    have hprocess : spec.processName = q := (HostModel.processName_of_server? hspec).trans hname
    have hregister {s s' : Server} :
        c.Tries (c.Holding m₀ m₀' s s') (fun _ _ => c.Holding m₀ m₀' s s') (c.Together m₀ m₀')
          (tryCatch (Attempt.register s) fun failure => do
            ExceptT.lift (untrack s)
            throw failure)
          (tryCatch (Attempt.register s') fun failure => do
            ExceptT.lift (untrack s')
            throw failure) := by
      refine tried_register.tryCatch fun e e' => ?_
      exact (tries_lift fun m m' h => h.untrack).bind fun _ _ _ _ h => h
    refine Tries.bind (tries_track hprocess .booting) (fun s s' => ?_) m m' h
    exact (tries_lift (keeps_tell _ _)).bind fun _ _ => hregister.bind fun _ _ =>
      tried_start.mono Holding.toTogether Holding.toTogether

def Found (c : Pairing q) (m₀ m₀' : Moment) :
    Option Server → Option Server → Moment → Moment → Prop
  | none, none => c.Together m₀ m₀'
  | some s, some s' => c.Holding m₀ m₀' s s'
  | _, _ => fun _ _ => False

theorem abreast_recognize (phase : Phase) :
    c.Abreast (c.Untracked m₀ m₀') (c.Found m₀ m₀') (recognize q phase) (recognize q phase) := by
  refine abreast_current fun m m' h => ?_
  rw [h.1.model]
  cases hspec : (serverOfProcess? q).bind m'.host.model.server? with
  | none => exact h.1
  | some spec =>
    obtain ⟨name, hname, hspec⟩ := Option.bind_eq_some_iff.1 hspec
    have hprocess : spec.processName = q :=
      (HostModel.processName_of_server? hspec).trans (processName_of_serverOfProcess? hname)
    refine ((tries_track_untracked hprocess phase).answer (fun s s' => ?_) fun _ _ _ _ h => h.elim)
      m m' h
    refine Abreast.bind (keeps_updateServer (Server.modest_diagnose _) fun ht => ht.diagnose _)
      fun _ _ => (keeps_tell _ _).bind fun _ _ _ _ h => h

theorem keeps_serverReconnected (phase : Phase) :
    c.Keeps (c.Together m₀ m₀') (serverReconnected q phase) (serverReconnected q phase) := by
  refine abreast_current fun m m' h => ?_
  rw [h.stopping]
  split
  · exact h
  · extract_lets follow
    have hfollow (found found' : Option Server) :
        c.Abreast (c.Found m₀ m₀' found found') (fun _ _ => c.Together m₀ m₀') (follow found)
          (follow found') := by
      cases found <;> cases found'
      · exact abreast_notes deaf_together (notes_tell _) (notes_tell _)
      · exact fun _ _ h => h.elim
      · exact fun _ _ h => h.elim
      next s s' =>
        refine Abreast.mono (?_ : c.Keeps (c.Holding m₀ m₀' s s') _ _) Holding.toTogether
        refine (keeps_setPhase phase).bind fun _ _ => ?_
        split
        · exact (keeps_tell _ _).bind fun _ _ => (abreast_ask (fun _ _ => rfl) rfl).answer
            (fun _ _ => abreast_pure () ()) fun _ _ => keeps_noteFailure _ _ _ _
        · exact abreast_pure () ()
    rcases h.cases with ⟨hget, hget'⟩ | ⟨s, s', hget, hget', hholding⟩ <;> rw [hget, hget']
    · refine Abreast.at (R := c.Untracked m₀ m₀') ?_ ⟨h, hget, hget'⟩
      exact (abreast_recognize phase).bind hfollow
    · refine Abreast.at ?_ hholding
      exact (keeps_checkPhase _ _).bind fun _ _ => hfollow (some s) (some s')

/-! ## Requests of operators -/

theorem tries_stopNow :
    c.Tries (c.Holding m₀ m₀' s s') (fun _ _ => c.Together m₀ m₀') (c.Holding m₀ m₀' s s')
      (stopNow s) (stopNow s') :=
  (tries_lift (keeps_checkPhase _ _)).bind fun _ _ => tried_stop.bind fun _ _ =>
    tried_remove.bind fun _ _ => (tries_lift (keeps_setPhase _)).bind fun _ _ =>
      (tries_lift fun _ _ h => h.untrack).bind fun _ _ =>
        tries_lift (abreast_notes deaf_together (notes_tell _) (notes_tell _))

theorem notes_status (name : String) : Notes (do return (← current).status name) :=
  notes_current.bind fun _ => notes_pure _

theorem keeps_stopServer (hname : processName name = q) (gracefulTimeout : Int) :
    c.Keeps (c.Together m₀ m₀') (stopServer name gracefulTimeout)
      (stopServer name gracefulTimeout) := by
  subst hname
  refine abreast_current fun m m' h => ?_
  rcases h.cases with ⟨hget, hget'⟩ | ⟨s, s', hget, hget', hholding⟩
  · rw [show m.host.server? name = none from hget, show m'.host.server? name = none from hget']
    exact (abreast_notes deaf_together (notes_status name) (notes_status name)).at h
  · rw [show m.host.server? name = some s from hget, show m'.host.server? name = some s' from hget']
    have hrest {next : Except Failure Unit → Operation Status} (hnext : ∀ r, (next r).Notes) :
        c.Abreast (c.Holding m₀ m₀' s s') (fun _ _ => c.Together m₀ m₀')
          ((stopNow s).run >>= next) ((stopNow s').run >>= next) :=
      tries_stopNow.answer (fun _ _ => abreast_notes deaf_together (hnext _) (hnext _)) fun _ _ =>
        (abreast_notes deaf_together (hnext _) (hnext _)).of_imp Holding.toTogether
    refine Abreast.at ?_ hholding
    simp only
    by_cases hgraceful : -1 < gracefulTimeout
    · rw [if_pos hgraceful, if_pos hgraceful]
      refine (keeps_tell _ _).bind fun _ _ => hrest fun r => ?_
      cases r
      · exact (notes_tell _).bind fun _ => notes_status name
      · exact notes_status name
    · rw [if_neg hgraceful, if_neg hgraceful]
      refine hrest fun r => ?_
      cases r
      · exact (notes_tell _).bind fun _ => notes_status name
      · exact notes_status name

theorem tried_tryStartServer (hname : processName name = q) :
    c.Tried (c.Together m₀ m₀') (tryStartServer name) (tryStartServer name) := by
  have hlaunch : c.Tried (c.Together m₀ m₀') (launch name) (launch name) := tried_launch hname
  subst hname
  refine Tries.bind tries_current fun host host' => ?_
  rintro m m' ⟨h, rfl, rfl⟩
  rcases h.cases with ⟨hget, hget'⟩ | ⟨s, s', hget, hget', hholding⟩
  · rw [show m.host.server? name = none from hget, show m'.host.server? name = none from hget']
    exact hlaunch m m' h
  · rw [show m.host.server? name = some s from hget, show m'.host.server? name = some s' from hget']
    simp only [hholding.counterpart.phase]
    by_cases hstopped : s'.phase = .stopped
    · rw [if_pos hstopped, if_pos hstopped]
      refine Tries.bind (tried_remove.mono (fun h => h) Holding.toTogether) (fun _ _ => ?_)
        m m' hholding
      exact (tries_lift fun _ _ h => h.untrack).bind fun _ _ => hlaunch
    · rw [if_neg hstopped, if_neg hstopped]
      exact (abreast_notes deaf_together ((notes_tell _).bind fun _ => notes_pure _)
        ((notes_tell _).bind fun _ => notes_pure _)) m m' h

theorem keeps_startServer (hname : processName name = q) :
    c.Keeps (c.Together m₀ m₀') (startServer name) (startServer name) := by
  have hpoll : Notes (do
      let host ← current
      pollWhileStarting name host.settings.lifecycle.pollInterval
        host.settings.lifecycle.startPollAttempts.toNat (host.status name)) :=
    notes_current.bind fun _ => notes_pollWhileStarting _ _ _ _
  refine (tried_tryStartServer hname).answer (fun _ _ => ?_) fun _ _ => ?_
  · exact abreast_notes deaf_together hpoll hpoll
  · exact abreast_notes deaf_together ((notes_tell _).bind fun _ => hpoll)
      ((notes_tell _).bind fun _ => hpoll)

theorem keeps_restartServer (hname : processName name = q) (gracefulTimeout : Int) :
    c.Keeps (c.Together m₀ m₀') (restartServer name gracefulTimeout)
      (restartServer name gracefulTimeout) :=
  (keeps_stopServer hname gracefulTimeout).bind fun _ _ => keeps_startServer hname

/-! ## Restarts -/

/-- The same pending restart is carried out or given up in both runs. -/
theorem together_fire {m m' : Moment} {k : Nat} {r r' : PendingRestart}
    (h : c.Together m₀ m₀' m m') (hr : (m.host.pending q)[k]? = some r)
    (hr' : (m'.host.pending q)[k]? = some r') :
    c.Together m₀ m₀' ((fire r).outcome c.left m).2 ((fire r').outcome c.right m').2 := by
  have hprocess : r.process = q :=
    of_decide_eq_true (List.mem_filter.1 (List.mem_of_getElem? hr)).2
  have hprocess' : r'.process = q :=
    of_decide_eq_true (List.mem_filter.1 (List.mem_of_getElem? hr')).2
  have htracks : m.host.roster.tracks q r.number = m'.host.roster.tracks q r'.number := by
    have hpending := congrArg (·[k]?) h.pending
    simpa [hr, hr'] using hpending
  have htaken := h.take hr hr'
  unfold fire
  rw [hprocess, hprocess']
  simp only [outcome_bind, outcome_modify, outcome_current]
  rcases htaken.cases with ⟨hget, hget'⟩ | ⟨s, s', hget, hget', hholding⟩
  · simp only [hget, hget', ite_self]
    exact htaken
  · have hwants : wants { m.host with restarts := m.host.restarts.filter (·.ticket ≠ r.ticket) } r =
        wants { m'.host with restarts := m'.host.restarts.filter (·.ticket ≠ r'.ticket) } r' := by
      unfold wants
      rw [hprocess, hprocess', hget, hget', Option.map_some, Option.map_some,
        hholding.counterpart.phase, hholding.stopping]
      simp only [htracks]
    simp only [hwants, hget, hget']
    suffices hheld : c.Holding m₀ m₀' s s' _ _ from hheld.toTogether
    refine Abreast.at ?_ hholding
    split
    · exact (keeps_tell _ _).bind fun _ _ => tried_relaunch.answer (fun _ _ => abreast_pure () ())
        fun _ _ => keeps_noteFailure _ _ _ _
    · exact abreast_pure () ()

end Pairing

end HostSteward
