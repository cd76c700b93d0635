import HostSteward.Proofs.Steward.Configured
import HostSteward.Proofs.Steward.Worlds

/-!
# The first launch

The configured servers are launched one after another, once. Each is tried by itself: what becomes
of it depends on the supervisor's answers to its own commands and on whether it was tracked before,
and on nothing that becomes of the others.
-/

namespace HostSteward

open Operation Steward

structure Exchange where
  request : Request
  answer : request.Answer

/-- Every request is written down with its answer, and nothing else goes on meanwhile. -/
def transcribed : Contract (List Exchange) where
  owes _ _ _ := True
  answers r host t host' t' a := host' = host ∧ t' = t ++ [⟨r, a⟩]

def transcribing (answer : (r : Request) → r.Answer) : Program.World (List Exchange) :=
  fun t host r => (t ++ [⟨r, answer r⟩], host, answer r)

variable {host : Steward} {t : List Exchange} {spec : ServerSpec}

theorem Program.Meets.transcribing {α : Type} {p : Program α} {post : Outlook (List Exchange) α}
    (h : p.Meets transcribed post t) (answer : (r : Request) → r.Answer) :
    post (p.run (transcribing answer) t).2.2 (p.run (transcribing answer) t).2.1
      (p.run (transcribing answer) t).1 := by
  induction p generalizing t with
  | done host value => exact h
  | ask host r resume ih => exact ih host (answer r) (h.2 host _ (answer r) ⟨rfl, rfl⟩)

/-- Nothing is refused but the registration of one process. -/
def refusing (process : String) : (r : Request) → r.Answer
  | .command (.add p _) => if p = process then .error (.noCommand p) else .ok 1
  | .command (.start _) | .command (.stop _) | .command (.remove _) | .command .requestInventory
  | .command .shutdown | .register _ | .unregister => .ok ()
  | .wait _ => ()

inductive Trial where
  | refused (cause : Failure)
  | registered (incarnation : Incarnation) (answer : Except Failure Unit)

namespace Trial

def exchanges (spec : ServerSpec) : Trial → List Exchange
  | .refused cause => [⟨.command (.add spec.processName spec.launch), .error cause⟩]
  | .registered i answer => [⟨.command (.add spec.processName spec.launch), .ok i⟩,
      ⟨.command (.start spec.processName), answer⟩]

/-- What is tracked afterwards: nothing, or a new record with its registration. -/
def Leaves (host : String) (spec : ServerSpec) (found : Option Server) : Trial → Prop
  | .refused _ => found = none
  | .registered i _ => ∃ number,
      found = some { Server.ofSpec number host spec .booting with incarnation := some i }

end Trial

namespace Steward

/-- The servers that are to be launched: those that start with the host and are not tracked yet. -/
def due (host : Steward) (specs : List ServerSpec) : List ServerSpec :=
  specs.filter fun spec => spec.autoStart && !host.roster.contains spec.processName

/-- The servers that are due have been tried in their order, and nothing else has happened. -/
structure Tried (specs : List ServerSpec) (host : Steward) (trials : List (ServerSpec × Trial))
    (host' : Steward) : Prop where
  due : trials.map (·.1) = host.due specs
  leaves : ∀ spec trial, (spec, trial) ∈ trials →
    trial.Leaves host.hostName spec (host'.roster.get? spec.processName)
  others : ∀ p, (∀ spec ∈ host.due specs, spec.processName ≠ p) →
    host'.roster.get? p = host.roster.get? p
  rest : host' = { host with
    roster := host'.roster, nextNumber := host'.nextNumber, journal := host'.journal }

end Steward

def transcript (trials : List (ServerSpec × Trial)) : List Exchange :=
  trials.flatMap fun (spec, trial) => trial.exchanges spec

theorem meets_ask_transcribed (r : Request) (post : Outlook (List Exchange) r.Answer) :
    (ask r).Meets transcribed post host t ↔ ∀ a : r.Answer, post a host (t ++ [⟨r, a⟩]) := by
  rw [meets_ask]
  constructor
  · exact fun h a => h.2 host _ a ⟨rfl, rfl⟩
  · refine fun h => ⟨trivial, fun host' t' a => ?_⟩
    rintro ⟨rfl, rfl⟩
    exact h a

/-- A server that is tracked already is not launched. -/
theorem meets_launch_of_tracked {σ : Type} {C : Contract σ} {s : σ} {server : Server}
    {post : Outlook σ Unit} {failed : Outlook σ Failure}
    (hspec : host.model.server? spec.name = some spec)
    (htracked : host.roster.get? spec.processName = some server)
    (h : ∀ e, failed e host s) : Attempt.Meets C (launch spec.name) post failed host s := by
  refine meets_launch h fun spec' roster new hspec' hnew hinsert => ?_
  obtain rfl : spec = spec' := Option.some.inj (hspec.symm.trans hspec')
  obtain ⟨hnone, -⟩ := Roster.insert_eq_ok_iff.1 hinsert
  subst hnew
  cases htracked.symm.trans hnone

structure Steward.TriedOne (spec : ServerSpec) (host : Steward) (trial : Trial) (host' : Steward) :
    Prop where
  leaves : trial.Leaves host.hostName spec (host'.roster.get? spec.processName)
  others : ∀ p, spec.processName ≠ p → host'.roster.get? p = host.roster.get? p
  rest : host' = { host with
    roster := host'.roster, nextNumber := host'.nextNumber, journal := host'.journal }
  sound : host'.roster.Sound host'.nextNumber

theorem Steward.TriedOne.model_eq {host' : Steward} {trial : Trial}
    (h : TriedOne spec host trial host') : host'.model = host.model := by
  rw [h.rest]

/-- A new record is in the phase that registering it sets. -/
theorem get?_booting {server : Server} {roster : Roster}
    (hsound : host.roster.Sound host.nextNumber)
    (hserver : server = .ofSpec host.nextNumber host.hostName spec .booting)
    (hinsert : host.roster.insert server = .ok roster) :
    (roster.update server.number (·.withPhase .booting)).Sound (host.nextNumber + 1) ∧
    ∀ p, (roster.update server.number (·.withPhase .booting)).get? p =
      if spec.processName = p then some server else host.roster.get? p := by
  have hnumber : server.number = host.nextNumber := congrArg Server.number hserver
  have hprocess : server.process = spec.processName := congrArg Server.process hserver
  have hbooting : server.withPhase .booting = server := by
    rw [hserver]
    rfl
  have htracked := hsound.track hnumber hinsert
  refine ⟨htracked.update (Server.faithful_withPhase .booting) server.number, fun p => ?_⟩
  have hget := Roster.get?_of_insert hinsert
  rw [hprocess] at hget
  rw [htracked.get?_update ((hget _).trans (if_pos rfl)), hbooting, hget]
  split <;> rfl

section Answers

variable {server : Server} {booting : Roster} {next : Nat}
  (hserver : server = .ofSpec host.nextNumber host.hostName spec .booting)
  (hsound : booting.Sound next)
  (hget : ∀ p, booting.get? p = if spec.processName = p then some server else host.roster.get? p)

include hserver hsound hget

/-- A record that is not registered is forgotten. -/
theorem triedOne_refused (cause : Failure) (journal : List Entry) :
    TriedOne spec host (.refused cause) { host with
      roster := booting.removeSame server.process server.number, nextNumber := next, journal } := by
  have hprocess : server.process = spec.processName := congrArg Server.process hserver
  have htracks : booting.tracks server.process server.number := by
    simp [Roster.tracks, hget, hprocess]
  have hleft (p : String) : (booting.removeSame server.process server.number).get? p =
      if spec.processName = p then none else host.roster.get? p := by
    rw [Roster.get?_removeSame, hget, hprocess]
    by_cases hp : spec.processName = p
    · rw [if_pos ⟨hp, hprocess ▸ htracks⟩, if_pos hp]
    · rw [if_neg fun h => hp h.1, if_neg hp, if_neg hp]
  exact ⟨(hleft _).trans (if_pos rfl), fun p hp => (hleft p).trans (if_neg hp), rfl,
    hsound.untrack server.process server.number⟩

theorem triedOne_registered (i : Incarnation) (answer : Except Failure Unit)
    (journal : List Entry) :
    TriedOne spec host (.registered i answer) { host with
      roster := booting.update server.number (·.registered i), nextNumber := next, journal } := by
  have hprocess : server.process = spec.processName := congrArg Server.process hserver
  have hnew : booting.get? server.process = some server := by rw [hget, if_pos hprocess.symm]
  have hleft (p : String) : (booting.update server.number (·.registered i)).get? p =
      if spec.processName = p then some (server.registered i) else host.roster.get? p := by
    rw [hsound.get?_update hnew, hget, hprocess]
    split <;> rfl
  exact ⟨⟨host.nextNumber, by rw [hleft, if_pos rfl, hserver]; rfl⟩,
    fun p hp => (hleft p).trans (if_neg hp), rfl,
    hsound.update (Server.faithful_registered i) server.number⟩

end Answers

theorem meets_launch_due (hsound : host.roster.Sound host.nextNumber)
    (hspec : host.model.server? spec.name = some spec)
    (hfree : host.roster.get? spec.processName = none)
    {post : Outlook (List Exchange) (Except Failure Unit)}
    (hpost : ∀ trial host' r, TriedOne spec host trial host' →
      post r host' (t ++ trial.exchanges spec)) :
    (launch spec.name).run.Meets transcribed post host t := by
  let server : Server := .ofSpec host.nextNumber host.hostName spec .booting
  obtain ⟨roster, hinsert⟩ : ∃ roster, host.roster.insert server = .ok roster :=
    ⟨_, Roster.insert_eq_ok_iff.2 ⟨hfree, rfl⟩⟩
  obtain ⟨hsound, hget⟩ := get?_booting hsound rfl hinsert
  rw [Attempt.meets_run]
  unfold launch
  rw [Attempt.meets_bind, Attempt.meets_lift, meets_current]
  simp only [hspec, Attempt.meets_bind, meets_track]
  rw [hinsert]
  simp only [Attempt.meets_lift, meets_tell]
  rw [Attempt.meets_tryCatch, meets_register]
  refine ⟨trivial, ?_⟩
  rintro host' t' a ⟨rfl, rfl⟩
  cases a with
  | error cause => exact hpost (.refused cause) _ _ (triedOne_refused rfl hsound hget cause _)
  | ok i =>
    refine (meets_ask_transcribed (.command (.start server.process)) _).2 fun answer => ?_
    have hdone (r : Except Failure Unit) :=
      hpost (.registered i answer) _ r (triedOne_registered rfl hsound hget i answer
        (host.journal ++ [.info ("Launching server " ++ server.identity.text)]))
    rw [List.append_assoc]
    cases answer <;> exact hdone _

namespace Steward.Tried

variable {host' host₁ : Steward} {specs rest : List ServerSpec} {trial : Trial}
  {trials : List (ServerSpec × Trial)}

theorem of_journal {journal : List Entry}
    (h : Tried specs { host with journal } trials host') : Tried specs host trials host' :=
  ⟨h.due, h.leaves, h.others, h.rest⟩

/-- A server that is not due is passed over. -/
theorem skip (hdue : host.due (spec :: specs) = host.due specs)
    (h : Tried specs host trials host') :
    Tried (spec :: specs) host trials host' :=
  ⟨hdue ▸ h.due, h.leaves, hdue ▸ h.others, h.rest⟩

/-- What becomes of one server is the same whatever becomes of those after it, and the other way
round. -/
theorem cons (hauto : spec.autoStart) (hfree : host.roster.get? spec.processName = none)
    (hnew : ∀ other ∈ specs, spec.processName ≠ other.processName)
    (hone : TriedOne spec host trial host₁) (h : Tried specs host₁ trials host') :
    Tried (spec :: specs) host ((spec, trial) :: trials) host' := by
  have hsame : host₁.due specs = host.due specs := by
    apply List.filter_congr
    intro other hother
    rw [Roster.contains_eq, Roster.contains_eq, hone.others _ (hnew other hother)]
  have hdue : host.due (spec :: specs) = spec :: host.due specs := by
    rw [Steward.due, List.filter_cons_of_pos (by simp [hauto, Roster.contains_eq, hfree])]
    rfl
  have hhost : host₁.hostName = host.hostName := congrArg HostModel.host hone.model_eq
  refine ⟨?_, fun other trial' hmem => ?_, fun p hp => ?_, ?_⟩
  · rw [hdue, List.map_cons, h.due, hsame]
  · rcases List.mem_cons.1 hmem with heq | hmem
    · obtain ⟨rfl, rfl⟩ := Prod.mk.inj heq
      rw [h.others _ fun other hother => (hnew other (List.mem_of_mem_filter hother)).symm]
      exact hone.leaves
    · exact hhost ▸ h.leaves other trial' hmem
  · rw [hdue] at hp
    rw [h.others p fun other hother => hp other (List.mem_cons_of_mem _ (hsame ▸ hother)),
      hone.others p (hp spec List.mem_cons_self)]
  · rw [h.rest, hone.rest]

end Steward.Tried

theorem meets_launchAll {specs : List ServerSpec} (hsound : host.roster.Sound host.nextNumber)
    (hspecs : ∀ spec ∈ specs, host.model.server? spec.name = some spec)
    (hnd : (specs.map (·.processName)).Nodup) :
    (launchAll specs).Meets transcribed
      (fun _ host' t' => ∃ trials, Tried specs host trials host' ∧ t' = t ++ transcript trials)
      host t := by
  induction specs generalizing host t with
  | nil => exact ⟨[], ⟨rfl, nofun, fun _ _ => rfl, rfl⟩, (List.append_nil t).symm⟩
  | cons spec specs ih =>
    rw [List.map_cons, List.nodup_cons] at hnd
    have hspec := hspecs spec List.mem_cons_self
    have hrest : ∀ spec ∈ specs, host.model.server? spec.name = some spec :=
      fun other hother => hspecs other (List.mem_cons_of_mem _ hother)
    have hskip (hdue : host.due (spec :: specs) = host.due specs) (journal : List Entry) :
        (launchAll specs).Meets transcribed (fun _ host' t' => ∃ trials,
          Tried (spec :: specs) host trials host' ∧ t' = t ++ transcript trials)
          { host with journal } t := by
      let told : Steward := { host with journal }
      have hsound : told.roster.Sound told.nextNumber := hsound
      refine (ih hsound hrest hnd.2).mono fun _ host' t' h => ?_
      obtain ⟨trials, h, ht⟩ := h
      exact ⟨trials, .skip hdue h.of_journal, ht⟩
    rw [launchAll]
    by_cases hauto : spec.autoStart
    · rw [if_pos hauto, meets_bind, meets_tell, meets_bind]
      let told : Steward := { host with
        journal := host.journal ++ [.info ("Starting server " ++ spec.name)] }
      have hspec : told.model.server? spec.name = some spec := hspec
      cases hget : told.roster.get? spec.processName with
      | some server =>
        refine (Attempt.meets_run _ _).2 (meets_launch_of_tracked hspec hget fun e => ?_)
        have htracked : host.roster.get? spec.processName = some server := hget
        exact hskip (by simp [due, Roster.contains_eq, htracked]) _
      | none =>
        have hsound : told.roster.Sound told.nextNumber := hsound
        refine meets_launch_due hsound hspec hget fun trial host₁ r hone => ?_
        have hnext (journal : List Entry) : (launchAll specs).Meets transcribed
            (fun _ host' t' => ∃ trials, Tried (spec :: specs) host trials host' ∧
              t' = t ++ transcript trials)
            { host₁ with journal } (t ++ trial.exchanges spec) := by
          let told₁ : Steward := { host₁ with journal }
          have hsound₁ : told₁.roster.Sound told₁.nextNumber := hone.sound
          have hmodel : told₁.model = host.model := hone.model_eq
          refine (ih hsound₁ (hmodel ▸ hrest) hnd.2).mono fun _ host' t' h => ?_
          obtain ⟨trials, h, rfl⟩ := h
          have hnew : ∀ other ∈ specs, spec.processName ≠ other.processName :=
            fun other hother heq => hnd.1 (List.mem_map.2 ⟨other, hother, heq.symm⟩)
          exact ⟨(spec, trial) :: trials,
            (Tried.cons hauto hget hnew hone h.of_journal).of_journal, List.append_assoc ..⟩
        cases r with
        | ok value => exact hnext host₁.journal
        | error e => exact hnext _
    · rw [if_neg hauto, meets_bind, meets_tell]
      exact hskip (by simp [due, hauto]) _

/-! ## The call to launch the servers, and the start of the host -/

/-- What a call to launch the servers comes to: only the first one has an effect, and after a
restart of the host nothing is asked for. -/
structure Steward.Launches (settings : Settings) (host : Steward) (t : List Exchange)
    (host' : Steward) (t' : List Exchange) : Prop where
  again : host.launched → host' = host ∧ t' = t
  restart : host.launched = false → settings.host.bootMode = .restart →
    (∃ journal, host' = { host with launched := true, journal }) ∧ t' = t
  first : host.launched = false → settings.host.bootMode = .fresh →
    ∃ trials, Tried settings.servers { host with launched := true } trials host' ∧
      t' = t ++ transcript trials

/-- A start that fails has asked for the inventory and perhaps for the domain, and has done nothing
else. -/
structure Steward.StartFails (host : Steward) (t : List Exchange) (e : Failure) (host' : Steward)
    (t' : List Exchange) : Prop where
  untouched : ∃ journal, host' = { host with journal }
  asked :
    (∃ cause, e = .supervisorUnavailable cause ∧
      t' = t ++ [⟨.command .requestInventory, .error cause⟩]) ∨
    ∃ cause, host.inDomain ∧ e = .registrationFailed cause ∧
      t' = t ++ [⟨.command .requestInventory, .ok ()⟩, ⟨.register host.hostName, .error cause⟩]

variable {settings : Settings}

theorem meets_startServers (hvalid : settings.problem? = none) (h : host.Configured settings) :
    startServers.Meets transcribed (fun _ => Launches settings host t) host t := by
  unfold startServers
  rw [meets_bind, meets_current]
  by_cases hlaunched : host.launched
  · rw [if_pos hlaunched]
    exact ⟨fun _ => ⟨rfl, rfl⟩, by simp [hlaunched], by simp [hlaunched]⟩
  · rw [if_neg hlaunched, meets_bind, meets_modify]
    by_cases hmode : host.settings.host.bootMode = .restart
    · rw [if_pos hmode]
      rw [h.given] at hmode
      exact ⟨fun h => absurd h hlaunched, fun _ _ => ⟨⟨_, rfl⟩, rfl⟩,
        fun _ hfresh => nomatch hfresh.symm.trans hmode⟩
    · rw [if_neg hmode, h.servers]
      let begun : Steward := { host with launched := true }
      have hsound : begun.roster.Sound begun.nextNumber := h.sound
      have hprocesses : (settings.servers.map (·.processName)).Nodup := by
        have hnames := (Settings.problem?_eq_none_iff.1 hvalid).nodup_names.map processName_injective
        rwa [List.map_map] at hnames
      refine (meets_launchAll hsound (fun spec => h.server?_eq hvalid) hprocesses).mono
        fun _ host' t' htried => ?_
      rw [h.given] at hmode
      exact ⟨fun h => absurd h hlaunched, fun _ hrestart => absurd hrestart hmode,
        fun _ _ => htried⟩

/-- A host joins its domain, if it has one, before its servers are launched. -/
theorem meets_joinDomain {post : Outlook (List Exchange) Unit}
    {failed : Outlook (List Exchange) Failure}
    (hjoined : ∀ journal, post () { host with journal }
      (t ++ if host.inDomain then [⟨.register host.hostName, .ok ()⟩] else []))
    (hfailed : ∀ cause journal, host.inDomain → failed (.registrationFailed cause)
      { host with journal } (t ++ [⟨.register host.hostName, .error cause⟩])) :
    Attempt.Meets transcribed joinDomain post failed host t := by
  unfold joinDomain
  rw [Attempt.meets_bind, Attempt.meets_lift, meets_current]
  by_cases hdomain : host.inDomain
  · rw [if_pos hdomain] at hjoined ⊢
    rw [Attempt.meets_bind, Attempt.meets_lift]
    refine (meets_ask_transcribed (.register host.hostName) _).2 fun a => ?_
    cases a with
    | ok _ => exact (Attempt.meets_lift (tell _) post).2 (hjoined _)
    | error cause =>
      simp only [Attempt.meets_bind, Attempt.meets_lift, meets_tell]
      exact hfailed cause _ hdomain
  · rw [if_neg hdomain] at hjoined ⊢
    rw [List.append_nil] at hjoined
    exact hjoined host.journal

theorem meets_start (hvalid : settings.problem? = none) (h : host.Configured settings) :
    Attempt.Meets transcribed start
      (fun _ host' t' => ∃ journal, Launches settings { host with journal }
        (t ++ ⟨.command .requestInventory, .ok ()⟩ ::
          if host.inDomain then [⟨.register host.hostName, .ok ()⟩] else []) host' t')
      (StartFails host t) host t := by
  unfold start
  rw [Attempt.meets_bind, Attempt.meets_lift, meets_current, Attempt.meets_bind, Attempt.meets_lift,
    meets_tell, Attempt.meets_bind, Attempt.meets_lift]
  refine (meets_ask_transcribed (.command .requestInventory) _).2 fun a => ?_
  cases a with
  | error cause =>
    simp only [Attempt.meets_bind, Attempt.meets_lift, meets_tell]
    exact ⟨⟨_, rfl⟩, .inl ⟨cause, rfl, rfl⟩⟩
  | ok _ =>
    rw [Attempt.meets_bind]
    refine meets_joinDomain (fun journal => ?_) fun cause journal hdomain => ?_
    · rw [Attempt.meets_lift, List.append_assoc]
      let joined : Steward := { host with journal }
      have h : joined.Configured settings := h.of_eq rfl ⟨rfl, rfl⟩ rfl rfl
      exact (meets_startServers hvalid h).mono fun _ _ _ hpost => ⟨journal, hpost⟩
    · exact ⟨⟨_, rfl⟩, .inr ⟨cause, hdomain, rfl, List.append_assoc ..⟩⟩

/-! ## Servers that have been launched once stay so -/

abbrev StaysLaunched (host before : Steward) : Prop := before.launched → host.launched

abbrev launchedOnce : Contract Steward := .between fun before after => StaysLaunched after before

theorem aloof_launched : Aloof launchedOnce StaysLaunched where
  journal _ h := h
  launched _ _ := rfl
  roster _ _ h := h
  ask r _ _ := keeps_ask_between (fun _ h => h) r

theorem upheld_launched : Upheld launchedOnce StaysLaunched where
  toCalm := aloof_launched.calm
  stopping h := h
  cancelled h := h
  budget _ h := h
  unregister := keeps_ask_between (fun _ h => h) .unregister
  shutdown := keeps_ask_between (fun _ h => h) (.command .shutdown)
  wait d := keeps_ask_between (fun _ h => h) (.wait d)

theorem mastered_launched : Mastered launchedOnce StaysLaunched where
  toUpheld := upheld_launched
  start := aloof_launched.served.start
  recognize := aloof_launched.served.recognize
  stopNow := aloof_launched.served.stopNow
  restarts _ _ h := h
  launch := aloof_launched.launch
  tryStartServer := upheld_launched.tryStartServer aloof_launched.untrack aloof_launched.launch
  relaunch h _ := aloof_launched.relaunch _ _ _ h

namespace System

variable {σ : Type} {S : Surroundings σ} {s s' : System σ} {around : σ}

theorem Runs.launched (h : Runs S ⟨host, around, none, []⟩ s) (h' : Runs S s s')
    (hlaunched : s.host.launched) : s'.host.launched := by
  have hlegs (o : Occasion) : o.Legs fun before after => StaysLaunched after before :=
    Occasion.legs_of_keeps (fun _ h => h) (mastered_launched.operation o)
  induction h' with
  | refl => exact hlaunched
  | @tail s₁ s₂ hruns hturn ih =>
    cases hturn with
    | changes batch journal => exact ih
    | step hstep =>
      rcases ((bound_idle _ host around).runs hlegs (h.trans hruns)).leg hstep with
        heq | ⟨o, p, -, hleg⟩
      · rw [heq]
        exact ih
      · exact hleg ih

end System

/-- Whatever a host with checked settings has been through: the first call to launch its servers
after a fresh boot tries those that start with the host and are not tracked yet, in their order and
each by itself; after a restart it asks for nothing; and once the servers have been launched, no
later call does anything. A start that fails asks for neither and leaves the first launch to a later
one. -/
theorem servers_launched_once {σ : Type} {S : Surroundings σ} {inDomain : Bool} {around : σ}
    {s : System σ} (hvalid : settings.problem? = none)
    (h : System.Runs S ⟨.make settings none inDomain, around, none, []⟩ s) :
    (∀ t, startServers.Meets transcribed (fun _ => Launches settings s.host t) s.host t) ∧
    (∀ t, Attempt.Meets transcribed start
      (fun _ host' t' => ∃ journal, Launches settings { s.host with journal }
        (t ++ ⟨.command .requestInventory, .ok ()⟩ ::
          if s.host.inDomain then [⟨.register s.host.hostName, .ok ()⟩] else []) host' t')
      (StartFails s.host t) s.host t) ∧
    ∀ s', s.host.launched → System.Runs S s s' →
      s'.host.launched ∧ startServers s'.host = .done s'.host () := by
  refine ⟨fun t => meets_startServers hvalid h.configured, fun t => meets_start hvalid h.configured,
    fun s' hlaunched h' => ?_⟩
  have hlaunched' : s'.host.launched := h.launched h' hlaunched
  refine ⟨hlaunched', ?_⟩
  unfold startServers
  rw [bind_of_done (rfl : current s'.host = _), if_pos hlaunched']
  rfl

/-- Of four servers one does not start with the host, and one is refused between two others. -/
theorem servers_launched_once_refused :
    let spec (name : String) (autoStart : Bool) : ServerSpec := { name, group := "g", autoStart }
    let settings : Settings :=
      { servers := [spec "a" true, spec "b" true, spec "c" false, spec "d" true] }
    let host := Steward.make settings none false
    let after := (startServers host).run (transcribing (refusing "Server:b")) []
    Launches settings host [] after.2.1 after.1 ∧
    after.1.filterMap (fun x => match x.request with | .command c => some c | _ => none) =
      [.add "Server:a" {}, .start "Server:a", .add "Server:b" {}, .add "Server:d" {},
        .start "Server:d"] ∧
    after.2.1.roster.all.map (fun s => (s.process, s.phase)) =
      [("Server:a", .booting), ("Server:d", .booting)] := by
  intro spec settings host after
  refine ⟨?_, by decide +kernel, by decide +kernel⟩
  have hvalid : settings.problem? = none := by decide
  -- From here on the settings need not be computed with.
  clear_value settings
  let idle : Surroundings Unit := ⟨fun _ _ _ _ => False, fun _ _ => False, fun _ _ _ _ => False⟩
  have hruns : System.Runs idle ⟨host, (), none, []⟩ ⟨host, (), none, []⟩ := .refl
  have hlaunch : (startServers host).Meets transcribed (fun _ => Launches settings host []) [] :=
    (servers_launched_once hvalid hruns).1 []
  exact hlaunch.transcribing (refusing "Server:b")

end HostSteward
