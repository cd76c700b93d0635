import HostSteward.Proofs.Steward.Chronicle

/-!
# Stopping once

Of all calls that stop a steward, directly or by a notice of the supervisor, the first one does it
and all others come to nothing: the domain and the supervisor are told once. From the first call on
the steward is frozen, so that no notice and no restart that was decided on earlier has any effect.
-/

namespace HostSteward

open Operation

def Cause.stops : Cause → Bool
  | .begun o => o.stops
  | .answered _ => false

def Stretch.halts (l : Stretch) : Bool := l.cause.stops && !l.before.stopping

/-! ## Frozen stewards -/

/-- No notice has any effect but on the journal, and a pending restart is given up. -/
structure Steward.Frozen (host : Steward) : Prop where
  handle : ∀ n, ∃ journal, Steward.handle n host = .done { host with journal } ()
  available : ∀ p, Steward.serverAvailable p host = .done host ()
  started : ∀ p, Steward.serverStarted p host = .done host ()
  startFailed : ∀ p, Steward.serverStartFailed p host = .done host ()
  stopped : ∀ p, Steward.serverStopped p host = .done host ()
  reconnected : ∀ p phase, Steward.serverReconnected p phase host = .done host ()
  down : ∀ p, Steward.serverDown p host = .done host ()
  disconnected : ∀ p, Steward.serverDisconnected p host = .done host ()
  fire : ∀ r, Steward.fire r host =
    .done { host with restarts := host.restarts.filter (·.ticket ≠ r.ticket) } ()
  stop : Steward.stop host = .done host false

section Freezing

variable {host : Steward}

/-- A notice about a server finds none while the steward is stopping. -/
theorem subject?_of_stopping (h : host.stopping = true) (process notice : String) :
    Steward.subject? process notice host = .done host none := by
  unfold Steward.subject?
  rw [bind_of_done (rfl : current host = .done host host), if_pos h]
  rfl

theorem follow_of_stopping (h : host.stopping = true) (process notice : String)
    (next : Option Server → Operation Unit) (hnone : next none = pure ()) :
    (Steward.subject? process notice >>= next) host = .done host () := by
  rw [bind_of_done (subject?_of_stopping h process notice), hnone]
  rfl

theorem serverDown_of_stopping (h : host.stopping = true) (process : String) :
    Steward.serverDown process host = .done host () := follow_of_stopping h process "down" _ rfl

theorem serverReconnected_of_stopping (h : host.stopping = true) (process : String)
    (phase : Phase) :
    Steward.serverReconnected process phase host = .done host () := by
  unfold Steward.serverReconnected
  rw [bind_of_done (rfl : current host = .done host host), if_pos h]
  rfl

theorem processStopped_of_stopping (h : host.stopping = true) (process : String)
    (incarnation : Incarnation) (uptime : Duration) :
    ∃ journal, Steward.processStopped process incarnation uptime host =
      .done { host with journal } () := by
  unfold Steward.processStopped
  rw [bind_of_done (rfl : current host = .done host host)]
  cases host.roster.get? process with
  | none => exact ⟨host.journal, rfl⟩
  | some server =>
    simp only
    split
    · let told : Steward := { host with journal := host.journal ++ [.info ("Process " ++ process ++
        " exited after " ++ Numeral.text uptime.milliseconds ++ " ms")] }
      have htold : told.stopping = true := h
      exact ⟨told.journal, serverDown_of_stopping htold process⟩
    · exact ⟨host.journal, rfl⟩

theorem exists_tellAll (entries : List Entry) (host : Steward) :
    ∃ journal, Steward.tellAll entries host = .done { host with journal } () := by
  induction entries generalizing host with
  | nil => exact ⟨host.journal, rfl⟩
  | cons e rest ih => exact ih { host with journal := host.journal ++ [e] }

theorem stop_of_stopping (h : host.stopping = true) : Steward.stop host = .done host false := by
  unfold Steward.stop
  rw [bind_of_done (rfl : current host = .done host host), if_pos h]
  rfl

theorem handle_of_stopping (h : host.stopping = true) (n : Notice) :
    ∃ journal, Steward.handle n host = .done { host with journal } () := by
  cases n with
  | serverAvailable p => exact ⟨host.journal, follow_of_stopping h p "available" _ rfl⟩
  | serverStarted p => exact ⟨host.journal, follow_of_stopping h p "started" _ rfl⟩
  | serverStartFailed p => exact ⟨host.journal, follow_of_stopping h p "start failed" _ rfl⟩
  | serverStopped p => exact ⟨host.journal, follow_of_stopping h p "stopped" _ rfl⟩
  | serverReconnected p phase => exact ⟨host.journal, serverReconnected_of_stopping h p phase⟩
  | serverDown p => exact ⟨host.journal, serverDown_of_stopping h p⟩
  | serverDisconnected p => exact ⟨host.journal, follow_of_stopping h p "connection closed" _ rfl⟩
  | processStopped p incarnation uptime => exact processStopped_of_stopping h p incarnation uptime
  | inventory processes => exact exists_tellAll _ host
  | shutdownRequested =>
    refine ⟨host.journal, ?_⟩
    show (Steward.stop >>= _) host = _
    rw [bind_of_done (stop_of_stopping h)]
    rfl
  | connectionFailed cause =>
    refine ⟨host.journal, ?_⟩
    show (if host.stopping then pure () else tell _ : Operation Unit) host = _
    rw [if_pos h]
    rfl
  | connectionFinished => exact ⟨_, rfl⟩
  | processAdded p | processStarted p | processRemoved p => exact ⟨host.journal, rfl⟩

theorem fire_of_not_wants {r : PendingRestart} (h : host.wants r = false) :
    Steward.fire r host =
      .done { host with restarts := host.restarts.filter (·.ticket ≠ r.ticket) } () := by
  have hwants : Steward.wants { host with
      restarts := host.restarts.filter (·.ticket ≠ r.ticket) } r = false := h
  unfold Steward.fire
  rw [bind_of_done (rfl : modify _ host = _), bind_of_done (rfl : current _ = _), hwants]
  rfl

theorem frozen_of_stopping (h : host.stopping = true) : host.Frozen where
  handle := handle_of_stopping h
  available p := follow_of_stopping h p "available" _ rfl
  started p := follow_of_stopping h p "started" _ rfl
  startFailed p := follow_of_stopping h p "start failed" _ rfl
  stopped p := follow_of_stopping h p "stopped" _ rfl
  reconnected p phase := serverReconnected_of_stopping h p phase
  down p := serverDown_of_stopping h p
  disconnected p := follow_of_stopping h p "connection closed" _ rfl
  fire r := fire_of_not_wants (by simp [Steward.wants, h])
  stop := stop_of_stopping h

end Freezing

/-! ## The first call -/

def Steward.close : Operation Bool := do
  match ← command .shutdown with
  | .ok () => pure ()
  | .error e => tell (.warning ("Error closing the supervisor channel: " ++ e.message))
  modify fun host => { host with cancelled := true }
  tell (.info "Host controller stopped")
  return true

section Calls

variable {σ : Type} {C : Contract σ} {post : Outlook σ Bool} {host : Steward} {s : σ}

theorem meets_close (howes : C.owes (.command .shutdown) host s)
    (hpost : ∀ host' s' a, C.answers (.command .shutdown) host s host' s' a →
      ∀ journal, post true { host' with cancelled := true, journal } s') :
    Steward.close.Meets C post host s := by
  unfold Steward.close
  rw [meets_bind]
  refine ⟨howes, fun host' s' a ha => ?_⟩
  cases a <;> exact hpost host' s' _ ha _

/-- The first call stops the steward, which then takes leave of its domain, if it has one, and of
the supervisor. -/
theorem meets_stop (h : host.stopping = false)
    (hdomain : host.inDomain = true → ∀ journal,
      C.owes .unregister { host with stopping := true, journal } s ∧
      ∀ host' s' a, C.answers .unregister { host with stopping := true, journal } s host' s' a →
        ∀ journal, Steward.close.Meets C post { host' with journal } s')
    (halone : host.inDomain = false → ∀ journal,
      Steward.close.Meets C post { host with stopping := true, journal } s) :
    Steward.stop.Meets C post host s := by
  unfold Steward.stop
  rw [meets_bind, meets_current, if_neg (by simp [h]), meets_bind, meets_modify, meets_bind,
    meets_tell]
  by_cases hjoined : host.inDomain
  · rw [if_pos hjoined, meets_bind]
    obtain ⟨howes, hnext⟩ := hdomain hjoined _
    refine ⟨howes, fun host' s' a ha => ?_⟩
    cases a <;> exact hnext host' s' _ ha _
  · rw [if_neg hjoined]
    exact halone (Bool.eq_false_iff.2 hjoined) _

end Calls

def requesting : Contract (List Request) where
  owes _ _ _ := True
  answers r _ sent _ sent' _ := sent' = sent ++ [r]

def Steward.farewells (host : Steward) : List Request :=
  if host.inDomain then [.unregister, .command .shutdown] else [.command .shutdown]

/-- However its requests are answered, a steward that is not stopping yet asks for just these and
stops. -/
theorem meets_stop_requesting {host : Steward} (h : host.stopping = false) :
    Steward.stop.Meets requesting (fun stopped _ sent => stopped = true ∧ sent = host.farewells)
      host [] := by
  refine meets_stop h (fun hdomain journal => ⟨trivial, ?_⟩) fun halone journal => ?_
  · rintro host' sent a rfl journal
    refine meets_close trivial ?_
    rintro host' sent a rfl journal
    exact ⟨rfl, by rw [Steward.farewells, if_pos hdomain]; rfl⟩
  · refine meets_close trivial ?_
    rintro host' sent a rfl journal
    exact ⟨rfl, by rw [Steward.farewells, if_neg (by simp [halone])]; rfl⟩

/-! ## Legs of a steward that may stop -/

structure Closing (cause : Cause) (before : Steward) (sent : Option Request) (after : Steward) :
    Prop where
  stopping : after.stopping = (before.stopping || cause.stops)
  inDomain : after.inDomain = before.inDomain
  unregister : sent = some .unregister →
    cause.stops ∧ before.stopping = false ∧ before.inDomain
  shutdown : sent = some (.command .shutdown) →
    cause.stops ∧ before.stopping = false ∧ before.inDomain = false ∨
      cause = .answered .unregister

def Continued (host : Steward) (l : Cause × Steward) : Prop :=
  host.stopping = (l.2.stopping || l.1.stops) ∧ host.inDomain = l.2.inDomain

theorem Continued.closing {host : Steward} {l : Cause × Steward} (h : Continued host l)
    {sent : Option Request} (hunregister : sent ≠ some .unregister)
    (hshutdown : sent ≠ some (.command .shutdown)) : Closing l.1 l.2 sent host :=
  ⟨h.1, h.2, fun hs => absurd hs hunregister, fun hs => absurd hs hshutdown⟩

theorem continued_answered (r : Request) (host : Steward) : Continued host (.answered r, host) :=
  ⟨(Bool.or_false _).symm, rfl⟩

theorem keeps_ask_closing {r : Request} (hunregister : r ≠ .unregister)
    (hshutdown : r ≠ .command .shutdown) : Keeps (legwise Closing) Continued (ask r) := by
  refine fun host l h => ⟨h.closing (by simpa using hunregister) (by simpa using hshutdown), ?_⟩
  rintro host' l' a rfl
  exact continued_answered r host'

theorem aloof_closing : Aloof (legwise Closing) Continued where
  journal _ h := h
  launched h := h
  roster _ _ h := h
  ask _ := keeps_ask_closing

/-- A leg that stops the steward ends where it ought to. -/
theorem continued_begun {o : Occasion} {host after : Steward} (ho : o.stops)
    (hstopping : after.stopping = true) (hdomain : after.inDomain = host.inDomain) :
    Continued after (.begun o, host) := by
  refine ⟨?_, hdomain⟩
  show _ = (host.stopping || o.stops)
  rw [hstopping, ho, Bool.or_true]

theorem meets_stop_closing {o : Occasion} (ho : o.stops) (host : Steward) :
    Steward.stop.Meets (legwise Closing) (fun _ => Continued) host (.begun o, host) := by
  have hclose {l : Cause × Steward} {after : Steward} (h : Continued after l)
      (hcause : l.1.stops ∧ l.2.stopping = false ∧ l.2.inDomain = false ∨
        l.1 = .answered .unregister) :
      Steward.close.Meets (legwise Closing) (fun _ => Continued) after l := by
    refine meets_close ⟨h.1, h.2, nofun, fun _ => hcause⟩ ?_
    rintro host' l' a rfl journal
    exact continued_answered _ _
  by_cases hworking : host.stopping
  · show (Steward.stop host).Meets _ _ _
    rw [stop_of_stopping hworking]
    exact continued_begun ho hworking rfl
  have hnow := Bool.eq_false_iff.2 hworking
  refine meets_stop hnow (fun hdomain journal => ?_) fun halone journal => ?_
  · have hstopped : Continued { host with stopping := true, journal } (.begun o, host) :=
      continued_begun ho rfl rfl
    refine ⟨⟨hstopped.1, hstopped.2, fun _ => ⟨ho, hnow, hdomain⟩, nofun⟩, ?_⟩
    rintro host' l' a rfl journal
    exact hclose (continued_answered .unregister host') (Or.inr rfl)
  · exact hclose (continued_begun ho rfl rfl) (Or.inl ⟨ho, hnow, halone⟩)

theorem legwise_closing : Legwise Closing := by
  intro o host
  have hclosing
      (h : o.operation.Meets (legwise Closing) (fun _ => Continued) host (.begun o, host)) :
      o.operation.Meets (legwise Closing) (fun _ host l => Closing l.1 l.2 none host) host
        (.begun o, host) := h.mono fun _ _ _ h => h.closing nofun nofun
  apply hclosing
  by_cases ho : o.stops
  · rw [Occasion.operation_of_stops ho, meets_bind]
    exact meets_stop_closing ho host
  · have hstart : Continued host (.begun o, host) := by
      refine ⟨?_, rfl⟩
      show host.stopping = (host.stopping || o.stops)
      rw [Bool.eq_false_iff.2 ho, Bool.or_false]
    have hI := aloof_closing
    rcases o.classes with h | h | h | h | ⟨p, rfl⟩
    · exact hI.served.plain h host _ hstart
    · exact hI.launching h host _ hstart
    · exact hI.calm.relaunching (fun _ h => h) (fun _ _ h => h) (fun h _ => hI.relaunch _ _ _ h) h
        host _ hstart
    · exact absurd h ho
    · exact hI.calm.serverStarted (fun _ h => h) p host _ hstart

namespace Chronicle

variable {origin : Steward} {log : List Stretch} {s : Interleaving}

/-- The steward is stopping if and only if it was called to stop. -/
theorem stopping_eq (h : Chronicle origin log s) :
    s.host.stopping = (origin.stopping || log.any (·.cause.stops)) := by
  induction log generalizing s with
  | nil => rw [h.host_eq, List.any_nil, Bool.or_false]
  | cons l log ih =>
    obtain ⟨s', h', hbefore, hafter, -⟩ := h.exists_of_cons
    have hleg := (h.legs legwise_closing l List.mem_cons_self).stopping
    rw [hafter, hleg, ← hbefore, ih h', List.any_cons, Bool.or_assoc, Bool.or_comm l.cause.stops]

theorem inDomain_eq (h : Chronicle origin log s) : s.host.inDomain = origin.inDomain := by
  induction log generalizing s with
  | nil => rw [h.host_eq]
  | cons l log ih =>
    obtain ⟨s', h', hbefore, hafter, -⟩ := h.exists_of_cons
    rw [hafter, (h.legs legwise_closing l List.mem_cons_self).inDomain, ← hbefore, ih h']

theorem countP_halts (h : Chronicle origin log s) :
    log.countP (·.halts) ≤ if s.host.stopping then 1 else 0 := by
  induction log generalizing s with
  | nil => exact Nat.zero_le _
  | cons l log ih =>
    obtain ⟨s', h', hbefore, hafter, -⟩ := h.exists_of_cons
    have hleg := (h.legs legwise_closing l List.mem_cons_self).stopping
    have hcount := ih h'
    rw [hbefore] at hcount
    rw [hafter, hleg, List.countP_cons, Stretch.halts]
    cases hcause : l.cause.stops <;> cases hworking : l.before.stopping <;> simp_all

theorem countP_halts_le_one (h : Chronicle origin log s) : log.countP (·.halts) ≤ 1 :=
  Nat.le_trans h.countP_halts (by split <;> omega)

theorem sent_unregister (h : Chronicle origin log s) {l : Stretch} (hl : l ∈ log)
    (hsent : l.sent = some .unregister) : l.halts ∧ origin.inDomain = true := by
  obtain ⟨hstops, hworking, hdomain⟩ := (h.legs legwise_closing l hl).unregister hsent
  obtain ⟨_, s', h', hbefore⟩ := h.exists_of_mem hl
  exact ⟨by simp [Stretch.halts, hstops, hworking], h'.inDomain_eq ▸ hbefore.symm ▸ hdomain⟩

theorem sent_shutdown (h : Chronicle origin log s) {l : Stretch} (hl : l ∈ log)
    (hsent : l.sent = some (.command .shutdown)) :
    l.halts ∧ origin.inDomain = false ∨ l.cause.request? = some .unregister := by
  rcases (h.legs legwise_closing l hl).shutdown hsent with ⟨hstops, hworking, hdomain⟩ | hcause
  · obtain ⟨_, s', h', hbefore⟩ := h.exists_of_mem hl
    exact Or.inl ⟨by simp [Stretch.halts, hstops, hworking],
      h'.inDomain_eq ▸ hbefore.symm ▸ hdomain⟩
  · exact Or.inr (by rw [hcause]; rfl)

/-- The domain is taken leave of once, if there is one. -/
theorem count_unregister_le (h : Chronicle origin log s) :
    (log.filterMap (·.sent)).count .unregister ≤ if origin.inDomain then 1 else 0 := by
  rw [List.count_filterMap]
  split
  · refine Nat.le_trans (List.countP_mono_left fun l hl hsent => ?_) h.countP_halts_le_one
    exact (h.sent_unregister hl (by simpa using hsent)).1
  next hdomain =>
    rw [Nat.le_zero, List.countP_eq_zero]
    exact fun l hl hsent => hdomain (h.sent_unregister hl (by simpa using hsent)).2

/-- So is the supervisor: either with the first call, or with the answer of the domain. -/
theorem count_shutdown_le (h : Chronicle origin log s) :
    (log.filterMap (·.sent)).count (.command .shutdown) ≤ 1 := by
  have hanswered : log.countP (fun l => l.cause.request? == some .unregister) ≤
      if origin.inDomain then 1 else 0 := by
    refine Nat.le_trans ?_ h.count_unregister_le
    rw [h.perm_sent.count_eq, List.count_append, ← List.count_filterMap]
    exact Nat.le_add_right _ _
  rw [List.count_filterMap]
  -- in a domain every shutdown follows the answer to an unregister, else a first call
  cases hdomain : origin.inDomain with
  | true =>
    rw [if_pos hdomain] at hanswered
    refine Nat.le_trans (List.countP_mono_left fun l hl hsent => ?_) hanswered
    rcases h.sent_shutdown hl (by simpa using hsent) with ⟨-, hnone⟩ | hcause
    · cases hdomain.symm.trans hnone
    · simpa using hcause
  | false =>
    rw [hdomain, if_neg (by simp), Nat.le_zero, List.countP_eq_zero] at hanswered
    refine Nat.le_trans (List.countP_mono_left fun l hl hsent => ?_) h.countP_halts_le_one
    rcases h.sent_shutdown hl (by simpa using hsent) with ⟨hhalts, -⟩ | hcause
    · exact hhalts
    · exact absurd (by simpa using hcause) (hanswered l hl)

/-- In every run the first call stops the steward, which takes leave of the domain and the
supervisor at most once and stays stopped; every other call answers that it is stopping already.
Once it was called, it is frozen. -/
theorem stops_once {settings : Settings} {model : Option HostModel} {inDomain : Bool}
    (h : Chronicle (.make settings model inDomain) log s) :
    s.host.stopping = log.any (·.cause.stops) ∧
    (log.filterMap (·.sent)).count .unregister ≤ (if inDomain then 1 else 0) ∧
    (log.filterMap (·.sent)).count (.command .shutdown) ≤ 1 ∧
    (∀ l earlier, l :: earlier <:+ log → l.cause.stops →
      if earlier.any (·.cause.stops) then Steward.stop l.before = .done l.before false
      else Steward.stop.Meets requesting
        (fun stopped _ sent => stopped = true ∧ sent = l.before.farewells) l.before []) ∧
    (log.any (·.cause.stops) → s.host.Frozen) := by
  refine ⟨h.stopping_eq, h.count_unregister_le, h.count_shutdown_le, fun l earlier hl _ => ?_,
    fun hcalled => frozen_of_stopping (h.stopping_eq.trans hcalled)⟩
  obtain ⟨s₁, h₁⟩ := h.exists_of_suffix hl
  obtain ⟨s₂, h₂, hbefore, -⟩ := h₁.exists_of_cons
  have hstopping : l.before.stopping = earlier.any (·.cause.stops) := hbefore ▸ h₂.stopping_eq
  split
  next hcalled => exact stop_of_stopping (hstopping.trans hcalled)
  next hcalled => exact meets_stop_requesting (hstopping.trans (Bool.eq_false_iff.2 hcalled))

/-- A steward is stopped, which the domain does not like to hear, and then the supervisor asks for
it as well. -/
theorem stops_once_twice :
    ∃ log s, Chronicle (.make {} (some (.single "a" ["true"])) true) log s ∧
      log.filterMap (·.sent) = [.command .shutdown, .unregister] ∧
      log.countP (·.cause.stops) = 2 ∧ s.host.cancelled ∧ s.host.Frozen := by
  have hbegun : Chronicle (.make {} (some (.single "a" ["true"])) true) _ _ :=
    Chronicle.nil.begins .stop nofun
  have htold := (hbegun.answers 0 (r := .unregister) (.error (.domainConnection "unknown host h"))
    rfl).resumes 0 rfl
  have hstopped := (htold.answers 0 (r := .command .shutdown) (.ok ()) rfl).resumes 0 rfl
  have htwice := hstopped.begins (.notice .shutdownRequested) nofun
  obtain ⟨-, -, -, -, hfrozen⟩ := stops_once htwice
  exact ⟨_, _, htwice, rfl, rfl, rfl, hfrozen rfl⟩

end Chronicle

end HostSteward
