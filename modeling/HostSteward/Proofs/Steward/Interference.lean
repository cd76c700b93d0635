import HostSteward.Proofs.Steward.InStep

/-!
# Servers do not interfere

What becomes of a server does not depend on what happens to others. If a run is deprived of
everything that concerns other servers only, then the server ends as before, and the supervisor has
received the same commands about it.
-/

namespace HostSteward

open Operation Steward

/-- What happens to a steward from without. A timer goes off for one of the restarts that are
pending for a process, counted from the one that was decided on first. -/
inductive Act where
  | startServers
  | startServer (name : String)
  | stopServer (name : String) (gracefulTimeout : Int)
  | restartServer (name : String) (gracefulTimeout : Int)
  | notice (n : Notice)
  | timer (process : String) (index : Nat)
  | stop

namespace Act

def process? : Act → Option String
  | .startServer name | .stopServer name _ | .restartServer name _ => some (processName name)
  | .notice n => n.process?
  | .timer process _ => some process
  | .startServers | .stop => none

def concerns (process : String) (a : Act) : Bool := a.process?.all (· = process)

def renamed (rename : Incarnation → Incarnation) : Act → Act
  | .notice (.processStopped process i uptime) =>
    .notice (.processStopped process (rename i) uptime)
  | a => a

/-- A timer of no pending restart does nothing. -/
def occasion? (host : Steward) : Act → Option Occasion
  | .startServers => some .startServers
  | .startServer name => some (.startServer name)
  | .stopServer name gracefulTimeout => some (.stopServer name gracefulTimeout)
  | .restartServer name gracefulTimeout => some (.restartServer name gracefulTimeout)
  | .notice n => some (.notice n)
  | .timer process index => (host.pending process)[index]?.map .restart
  | .stop => some .stop

end Act

namespace Moment

def next (w : Replies) (m : Moment) (a : Act) : Moment :=
  match a.occasion? m.host with
  | none => m
  | some o => (o.operation.outcome w m).2

def run (w : Replies) (m : Moment) (acts : List Act) : Moment := acts.foldl (next w) m

end Moment

variable {w : Replies} {m m' m₁ m₀ m₀' : Moment} {p q : String} {c : Pairing q} {a : Act}

namespace Pairing

theorem Together.timer (h : c.Together m₀ m₀' m m') (index : Nat) :
    c.Together m₀ m₀' (m.next c.left (.timer q index)) (m'.next c.right (.timer q index)) := by
  have hlength := congrArg List.length h.pending
  rw [List.length_map, List.length_map] at hlength
  simp only [Moment.next, Act.occasion?]
  by_cases hindex : index < (m.host.pending q).length
  · have hindex' : index < (m'.host.pending q).length := hlength ▸ hindex
    rw [List.getElem?_eq_getElem hindex, List.getElem?_eq_getElem hindex']
    exact together_fire h (List.getElem?_eq_getElem hindex) (List.getElem?_eq_getElem hindex')
  · have hindex' : ¬ index < (m'.host.pending q).length := hlength ▸ hindex
    rw [List.getElem?_eq_none (Nat.not_lt.1 hindex), List.getElem?_eq_none (Nat.not_lt.1 hindex')]
    exact h

/-- An act about the process keeps both runs together. -/
theorem Together.next (h : c.Together m₀ m₀' m m') (ha : a.process? = some q) :
    c.Together m₀ m₀' (m.next c.left a) (m'.next c.right (a.renamed c.rename)) := by
  have hunit {α : Type} {o o' : Operation α} (ho : c.Keeps (c.Together m₀ m₀') o o') :
      c.Keeps (c.Together m₀ m₀') (o >>= fun _ => pure ()) (o' >>= fun _ => pure ()) :=
    ho.bind fun _ _ => abreast_pure () ()
  cases a with
  | startServers | stop => cases ha
  | startServer name => exact (hunit (keeps_startServer (Option.some.inj ha))).at h
  | stopServer name gracefulTimeout =>
    exact (hunit (keeps_stopServer (Option.some.inj ha) gracefulTimeout)).at h
  | restartServer name gracefulTimeout =>
    exact (hunit (keeps_restartServer (Option.some.inj ha) gracefulTimeout)).at h
  | timer process index =>
    obtain rfl : process = q := Option.some.inj ha
    exact h.timer index
  | notice n =>
    cases n with
    | inventory | shutdownRequested | connectionFailed | connectionFinished => cases ha
    | processAdded | processStarted | processRemoved => exact h
    | processStopped process i uptime =>
      obtain rfl : process = q := Option.some.inj ha
      exact (keeps_processStopped i uptime).at h
    | serverAvailable process =>
      obtain rfl : process = q := Option.some.inj ha
      exact keeps_serverAvailable.at h
    | serverStarted process =>
      obtain rfl : process = q := Option.some.inj ha
      exact keeps_serverStarted.at h
    | serverStartFailed process =>
      obtain rfl : process = q := Option.some.inj ha
      exact keeps_serverStartFailed.at h
    | serverStopped process =>
      obtain rfl : process = q := Option.some.inj ha
      exact keeps_serverStopped.at h
    | serverReconnected process phase =>
      obtain rfl : process = q := Option.some.inj ha
      exact (keeps_serverReconnected phase).at h
    | serverDown process =>
      obtain rfl : process = q := Option.some.inj ha
      exact keeps_serverDown.at h
    | serverDisconnected process =>
      obtain rfl : process = q := Option.some.inj ha
      exact keeps_serverDisconnected.at h

/-- Two runs are level as far as a process is concerned, whatever they have done to others. -/
structure Level (c : Pairing q) (m m' : Moment) : Prop extends c.Alike m m' where
  left : m.Orderly c.left
  right : m'.Orderly c.right

theorem Level.together (h : c.Level m m') : c.Together m m' m m' :=
  ⟨h.toAlike, .refl h.left q, .refl h.right q⟩

theorem Together.level (h : c.Together m₀ m₀' m m') : c.Level m m' :=
  ⟨h.toAlike, h.left.orderly, h.right.orderly⟩

theorem deaf_level : Deaf c.Level := fun journal journal' h =>
  (deaf_together journal journal' h.together).level

theorem alike_self (w : Replies) (q : String) (m : Moment) : (Pairing.self w q).Alike m m where
  settings := rfl
  model := rfl
  stopping := rfl
  launched := rfl
  policy := rfl
  record := by
    cases m.host.roster.get? q with
    | none => exact .none
    | some s => exact .some ⟨rfl, rfl, rfl, rfl, Option.map_id_apply⟩
  count := rfl
  pending := rfl
  about := rfl

/-- What one of the two does about another process leaves the runs level. -/
theorem Level.left_of_within (h : c.Level m m') (hp : p ≠ q)
    (hwithin : Moment.Within c.left p m m₁) : c.Level m₁ m' := by
  have hq := hwithin.others q hp
  refine ⟨⟨⟨hq.settings.symm.trans h.settings, hq.model.symm.trans h.model,
    hq.stopping.symm.trans h.stopping, hq.launched.symm.trans h.launched,
    hq.policy.symm.trans h.policy⟩, ?_, hq.count.trans h.count, ?_, hq.about.trans h.about⟩,
    hwithin.orderly, h.right⟩
  · rw [hq.record]
    exact h.record
  · simp only [hq.pending, Roster.tracks, hq.record]
    exact h.pending

theorem Level.right_of_within (h : c.Level m m') (hp : p ≠ q)
    (hwithin : Moment.Within c.right p m' m₁) : c.Level m m₁ := by
  have hq := hwithin.others q hp
  refine ⟨⟨⟨h.settings.trans hq.settings, h.model.trans hq.model, h.stopping.trans hq.stopping,
    h.launched.trans hq.launched, h.policy.trans hq.policy⟩, ?_, h.count.trans hq.count.symm, ?_,
    h.about.trans hq.about.symm⟩, h.left, hwithin.orderly⟩
  · rw [hq.record]
    exact h.record
  · simp only [hq.pending, Roster.tracks, hq.record]
    exact h.pending

/-- A steward is abreast of itself. -/
theorem together_self (h : m.Orderly w) (q : String) :
    (Pairing.self w q).Together m m m m := ⟨alike_self w q m, .refl h q, .refl h q⟩

/-- Whatever one steward does about a process, it is done within the bounds of the process. -/
theorem within_of_keeps (h : m.Orderly w) {α : Type} {o : Operation α}
    (ho : (Pairing.self w q).Keeps ((Pairing.self w q).Together m m) o o) :
    Moment.Within w q m (o.outcome w m).2 := (ho.at (together_self h q)).left

/-! ## What is done about all servers -/

/-- Launching a server leaves the runs level, be it the server of the process or another one. -/
theorem level_launch (name : String) : c.Keeps c.Level (launch name).run (launch name).run := by
  intro m m' h
  by_cases hname : processName name = q
  · exact ((tried_launch hname).keeps.at h.together).level
  · have hwithin {w : Replies} {m : Moment} (h : m.Orderly w) :=
      within_of_keeps h (tried_launch (rfl : processName name = _)).keeps
    exact (h.left_of_within hname (hwithin h.left)).right_of_within hname (hwithin h.right)

theorem level_launchAll (specs : List ServerSpec) :
    c.Keeps c.Level (launchAll specs) (launchAll specs) := by
  induction specs with
  | nil => exact abreast_pure () ()
  | cons spec rest ih =>
    have hrest {o o' : Operation Unit} (ho : o.Notes) (ho' : o'.Notes) :
        c.Keeps c.Level (o >>= fun _ => launchAll rest) (o' >>= fun _ => launchAll rest) :=
      (abreast_notes deaf_level ho ho').bind fun _ _ => ih
    unfold launchAll
    split
    · refine (abreast_notes deaf_level (notes_tell _) (notes_tell _)).bind fun _ _ =>
        (level_launch spec.name).bind fun r r' => ?_
      -- the launch may have failed in one run and not in the other
      cases r <;> cases r'
      · exact hrest (notes_tell _) (notes_tell _)
      · exact hrest (notes_tell _) (notes_pure ())
      · exact hrest (notes_pure ()) (notes_tell _)
      · exact ih
    · exact hrest (notes_tell _) (notes_tell _)

theorem level_startServers : c.Keeps c.Level startServers startServers := by
  refine abreast_current fun m m' h => ?_
  rw [h.launched, h.settings, h.model]
  refine Abreast.at ?_ h
  split
  · exact abreast_pure () ()
  · refine Abreast.bind (show c.Keeps c.Level _ _ from fun m m' h => ?_) fun _ _ => ?_
    · exact ⟨⟨⟨h.settings, h.model, h.stopping, rfl, h.policy⟩, h.record, h.count, h.pending,
        h.about⟩, h.left.of_eq rfl rfl rfl rfl, h.right.of_eq rfl rfl rfl rfl⟩
    · split
      · exact abreast_notes deaf_level (notes_tell _) (notes_tell _)
      · exact level_launchAll _

/-- A steward that has been at work stops, and its supervisor is told to shut down. -/
theorem exists_outcome_stop (w : Replies) (m : Moment) :
    ∃ journal, (Steward.stop.outcome w m).2 = if m.host.stopping then m else
      { host := { m.host with stopping := true, cancelled := true, journal }
        received := m.received ++ [.shutdown] } := by
  have hclose {next : Except Failure Unit → Operation Bool} (hnext : ∀ r m, ∃ journal,
      ((next r).outcome w m).2 = { m with host := { m.host with cancelled := true, journal } })
      (m : Moment) : ∃ journal, ((command .shutdown >>= next).outcome w m).2 =
        { host := { m.host with cancelled := true, journal }
          received := m.received ++ [.shutdown] } := by
    rw [outcome_bind, outcome_command]
    exact hnext _ _
  unfold Steward.stop
  rw [outcome_bind, outcome_current]
  by_cases hstopping : m.host.stopping
  · exact ⟨[], by simp only [if_pos hstopping]; rfl⟩
  · simp only [if_neg hstopping, outcome_bind, outcome_modify, outcome_tell]
    by_cases hdomain : m.host.inDomain
    · simp only [if_pos hdomain]
      rw [outcome_bind, outcome_unregister]
      cases w.domain with
      | ok _ => exact hclose (fun r _ => by cases r <;> exact ⟨_, rfl⟩) _
      | error e =>
        simp only [outcome_bind (tell _), outcome_tell]
        exact hclose (fun r _ => by cases r <;> exact ⟨_, rfl⟩) _
    · simp only [if_neg hdomain]
      exact hclose (fun r _ => by cases r <;> exact ⟨_, rfl⟩) _

theorem level_stop : c.Keeps c.Level Steward.stop Steward.stop := by
  intro m m' h
  obtain ⟨journal, hm⟩ := exists_outcome_stop c.left m
  obtain ⟨journal', hm'⟩ := exists_outcome_stop c.right m'
  rw [hm, hm', h.stopping]
  split
  · exact h
  · refine ⟨⟨⟨h.settings, h.model, rfl, h.launched, h.policy⟩, h.record, h.count, h.pending, ?_⟩,
      h.left.of_eq rfl rfl rfl rfl, h.right.of_eq rfl rfl rfl rfl⟩
    have habout := h.about
    simp only [commandsAbout, List.filter_append] at habout ⊢
    rw [habout]

/-- An act that is not about another process leaves the runs level if it happens in both. -/
theorem Level.next (h : c.Level m m') (ha : a.concerns q) :
    c.Level (m.next c.left a) (m'.next c.right (a.renamed c.rename)) := by
  cases hprocess : a.process? with
  | some p =>
    have hp : p = q := by simpa [Act.concerns, hprocess] using ha
    exact (h.together.next (hp ▸ hprocess)).level
  | none =>
    have hnotes {o : Operation Unit} (ho : o.Notes) :
        c.Level (o.outcome c.left m).2 (o.outcome c.right m').2 :=
      (abreast_notes deaf_level ho ho).at h
    cases a with
    | startServer | stopServer | restartServer | timer => cases hprocess
    | startServers => exact level_startServers.at h
    | stop => exact (level_stop.bind fun _ _ => abreast_pure () ()).at h
    | notice n =>
      cases n with
      | inventory processes => exact hnotes (notes_current.bind fun _ => notes_tellAll _)
      | shutdownRequested => exact (level_stop.bind fun _ _ => abreast_pure () ()).at h
      | connectionFailed cause =>
        exact hnotes (notes_current.bind fun _ => notes_ite (notes_pure ()) (notes_tell _))
      | connectionFinished => exact hnotes (notes_tell _)
      | _ => cases hprocess

/-- An act about another process leaves the runs level if it happens in one of them. -/
theorem Level.next_left (h : c.Level m m') (ha : ¬ a.concerns q) :
    c.Level (m.next c.left a) m' := by
  cases hprocess : a.process? with
  | none => exact absurd (by simp [Act.concerns, hprocess]) ha
  | some p =>
    have hp : p ≠ q := by simpa [Act.concerns, hprocess] using ha
    exact h.left_of_within hp ((together_self h.left p).next hprocess).left

theorem Level.run (h : c.Level m m') (acts : List Act) : c.Level (m.run c.left acts)
    (m'.run c.right ((acts.filter (·.concerns q)).map (·.renamed c.rename))) := by
  induction acts generalizing m m' with
  | nil => exact h
  | cons a rest ih =>
    by_cases ha : a.concerns q
    · rw [List.filter_cons_of_pos ha]
      exact ih (h.next ha)
    · rw [List.filter_cons_of_neg ha]
      exact ih (h.next_left ha)

end Pairing

theorem Moment.orderly_make (w : Replies) (settings : Settings) (model : Option HostModel)
    (inDomain : Bool) : Orderly w ⟨.make settings model inDomain, []⟩ where
  sound := Roster.sound_empty 0
  numbers := nofun
  tickets := nofun
  distinct := .nil
  registered := nofun

/-- What happens to one server does not depend on what happens to others. A run is deprived of all
acts that are about other processes, and supervisors accept and refuse the same commands about the
process in both runs. Then the server is tracked in both or in neither, in the same phase and with
the same diagnostics, as many restarts have been spent on it, and the same commands have been
received about it. Its registrations may have been given other incarnations, by which its exits are
told. Answers to commands that are never sent are of no consequence, and may be supposed to be
alike. -/
theorem servers_do_not_interfere {process : String} {w w' : Replies}
    {rename : Incarnation → Incarnation}
    (hverdict : ∀ k, (w.verdict (some process) k).isOk = (w'.verdict (some process) k).isOk)
    (hrename : ∀ k i, w.incarnation process k = i ↔ w'.incarnation process k = rename i)
    (settings : Settings) (model : Option HostModel) (inDomain : Bool) (acts : List Act) :
    let start : Moment := ⟨.make settings model inDomain, []⟩
    let m := start.run w acts
    let m' := start.run w' ((acts.filter (·.concerns process)).map (·.renamed rename))
    Option.Rel (Server.Counterpart rename) (m.host.roster.get? process)
      (m'.host.roster.get? process) ∧
    m.host.budget.count process = m'.host.budget.count process ∧
    commandsAbout (some process) m.received = commandsAbout (some process) m'.received := by
  let c : Pairing process := ⟨w, w', rename, hverdict, hrename⟩
  have hstart : c.Level ⟨.make settings model inDomain, []⟩ ⟨.make settings model inDomain, []⟩ :=
    ⟨⟨⟨rfl, rfl, rfl, rfl, rfl⟩, .none, rfl, rfl, rfl⟩, Moment.orderly_make ..,
      Moment.orderly_make ..⟩
  have h := hstart.run acts
  exact ⟨h.record, h.count, h.about⟩

def Replies.granting (incarnation : String → Incarnation) : Replies :=
  ⟨fun _ _ => .ok (), fun p _ => incarnation p, .ok ()⟩

def HostModel.ofTwo : HostModel where
  host := "h"
  servers := [{ name := "a", group := "g" }, { name := "b", group := "g" }]

def Act.downs : List Act := [.startServer "b", .startServer "a", .notice (.serverDown "Server:b"),
  .notice (.processStopped "Server:a" 2 (.ofSeconds 1))]

/-- What happens to server a, whose registration is the first one if nothing happens to b. -/
def Act.downsAlone : List Act :=
  [.startServer "a", .notice (.processStopped "Server:a" 1 (.ofSeconds 1))]

/-- Server a fails in both runs and is to be restarted. -/
theorem servers_do_not_interfere_downs :
    let start : Moment := ⟨.make { lifecycle := { autoRestart := true } } (some .ofTwo) false, []⟩
    let m := start.run (.granting fun p => if p = "Server:a" then 2 else 1) Act.downs
    let m' := start.run (.granting fun _ => 1) Act.downsAlone
    Option.Rel (Server.Counterpart fun i => if i = 2 then 1 else 0)
      (m.host.roster.get? "Server:a") (m'.host.roster.get? "Server:a") ∧
    m.host.budget.count "Server:a" = 1 ∧
    commandsAbout (some "Server:a") m.received = [.add "Server:a" {}, .start "Server:a"] := by
  have hrename (i : Incarnation) : 2 = i ↔ (1 : Incarnation) = if i = 2 then 1 else 0 := by
    by_cases hi : i = 2
    · simp [hi]
    · simp [hi, Ne.symm hi]
  obtain ⟨hrecord, hcount, habout⟩ := @servers_do_not_interfere "Server:a"
    (.granting fun p => if p = "Server:a" then 2 else 1) (.granting fun _ => 1)
    (fun i => if i = 2 then 1 else 0) (fun _ => rfl) (fun _ => hrename)
    { lifecycle := { autoRestart := true } } (some .ofTwo) false Act.downs
  exact ⟨hrecord, hcount.trans (by decide), habout.trans (by decide)⟩

end HostSteward
