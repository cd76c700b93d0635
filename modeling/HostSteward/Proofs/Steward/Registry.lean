import HostSteward.Proofs.Distribution.Aggregation
import HostSteward.Proofs.Steward.Configured

/-!
# The registry

The roster agrees with the configuration in every state that can be reached, and so does what is told
of the servers. Which processes are tracked changes on few occasions: launches and an operator's
stop apart, nothing is forgotten, and nothing is tracked but a server that reconnects.
-/

namespace HostSteward

open Operation Steward

namespace Roster

variable {r r' : Roster} {s : Server} {p : String}

theorem contains_update (r : Roster) (number : Nat) (f : Server → Server) (p : String) :
    (r.update number f).contains p = r.contains p := by
  rw [contains_eq, contains_eq, get?_update, Option.isSome_map]

theorem contains_of_removeSame {number : Nat} {process : String}
    (h : (r.removeSame process number).contains p) : r.contains p := by
  rw [contains_eq, get?_removeSame] at h
  split at h
  · cases h
  · exact h

theorem contains_of_insert (h : r.insert s = .ok r') (p : String) :
    r'.contains p = (decide (s.process = p) || r.contains p) := by
  rw [contains_eq, contains_eq, get?_of_insert h]
  by_cases hp : s.process = p
  · simp [hp]
  · simp [hp]

end Roster

/-! ## Occasions on which servers are tracked or forgotten -/

/-- A relation between states that looks at nothing but which processes are tracked and whether the
steward is stopping. -/
structure Tracking (R : Steward → Steward → Prop) : Prop where
  refl : ∀ host, R host host
  congr : ∀ {before host host' : Steward}, R before host → host'.stopping = host.stopping →
    (∀ p, host'.roster.contains p = host.roster.contains p) → R before host'

namespace Tracking

variable {R : Steward → Steward → Prop} (hR : Tracking R)

include hR

theorem calm : Calm (.between R) fun host before => R before host where
  journal _ h := hR.congr h rfl fun _ => rfl
  launched h := hR.congr h rfl fun _ => rfl
  register name := keeps_ask_between hR.refl (.register name)
  inventory := keeps_ask_between hR.refl (.command .requestInventory)
  server _ _ h := hR.congr h rfl fun _ => Roster.contains_update ..
  stop p := keeps_ask_between hR.refl (.command (.stop p))
  remove p := keeps_ask_between hR.refl (.command (.remove p))

theorem start (p : String) :
    Keeps (.between R) (fun host before => R before host) (command (.start p)) :=
  keeps_ask_between hR.refl (.command (.start p))

/-- What is registered anew was tracked before. -/
theorem relaunch (s : Server) :
    Attempt.Keeps (.between R) (fun host before => R before host) (relaunch s) := by
  have hregister : Attempt.Keeps (.between R) (fun host before => R before host)
      (Attempt.register s) := by
    refine (Attempt.keeps_lift (hR.calm.setPhase s .booting)).bind fun _ =>
      Attempt.Keeps.bind (keeps_ask_between hR.refl (.command (.add s.process s.spec.launch)))
        fun i => Attempt.keeps_lift ?_
    exact fun _ _ h => hR.congr h rfl fun _ => Roster.contains_update ..
  exact Attempt.Keeps.bind (hR.calm.remove s.process) fun _ =>
    hregister.bind fun _ => hR.start s.process

end Tracking

def Steward.TracksSame (before after : Steward) : Prop :=
  ∀ p, after.roster.contains p = before.roster.contains p

def Steward.TracksNoMore (before after : Steward) : Prop :=
  ∀ p, after.roster.contains p → before.roster.contains p

/-- None is forgotten, and one process at most is new, if the steward is not stopping. -/
structure Steward.MayRecognize (process : String) (before after : Steward) : Prop where
  stopping : after.stopping = before.stopping
  kept : ∀ p, before.roster.contains p → after.roster.contains p
  gained : ∀ p, after.roster.contains p →
    before.roster.contains p ∨ p = process ∧ before.stopping = false

theorem tracking_same : Tracking TracksSame :=
  ⟨fun _ _ => rfl, fun h _ hsame p => (hsame p).trans (h p)⟩

theorem tracking_noMore : Tracking TracksNoMore :=
  ⟨fun _ _ h => h, fun h _ hsame p hp => h p (hsame p ▸ hp)⟩

theorem tracking_mayRecognize (process : String) : Tracking (MayRecognize process) where
  refl _ := ⟨rfl, fun _ h => h, fun _ h => .inl h⟩
  congr h hstopping hsame :=
    ⟨hstopping.trans h.stopping, fun p hp => (hsame p).symm ▸ h.kept p hp,
      fun p hp => h.gained p (hsame p ▸ hp)⟩

theorem ending_same : Ending (.between TracksSame) fun host before => TracksSame before host where
  toQuiet := tracking_same.calm.toQuiet
  stopping h := h
  cancelled h := h
  unregister := keeps_ask_between tracking_same.refl .unregister
  shutdown := keeps_ask_between tracking_same.refl (.command .shutdown)

theorem legs_notice {n : Notice} (hn : ∀ p phase, n ≠ .serverReconnected p phase) :
    (Occasion.notice n).Legs TracksSame := by
  apply Occasion.legs_of_keeps tracking_same.refl
  rcases (Occasion.notice n).classes with ho | ho | ho | ho | ⟨p, hp⟩
  · exact tracking_same.calm.notice tracking_same.start (fun p phase h => absurd h (hn p phase)) ho
  · cases ho
  · exact tracking_same.calm.relaunching (fun _ h => h) (fun _ _ h => h)
      (fun h _ => tracking_same.relaunch _ _ _ h) ho
  · exact ending_same.stops ho
  · obtain rfl := Occasion.notice.inj hp
    exact tracking_same.calm.serverStarted (fun _ h => h) p

theorem legs_restart (r : PendingRestart) : (Occasion.restart r).Legs TracksSame := by
  apply Occasion.legs_of_keeps tracking_same.refl
  exact tracking_same.calm.relaunching (fun _ h => h) (fun _ _ h => h)
    (fun h _ => tracking_same.relaunch _ _ _ h) rfl

theorem legs_stop : Occasion.stop.Legs TracksSame :=
  Occasion.legs_of_keeps tracking_same.refl (ending_same.stops rfl)

theorem legs_stopServer (name : String) (gracefulTimeout : Int) :
    (Occasion.stopServer name gracefulTimeout).Legs TracksNoMore := by
  have huntrack (s : Server) : Keeps (.between TracksNoMore)
      (fun host before => TracksNoMore before host) (untrack s) :=
    fun _ _ h p hp => h p (Roster.contains_of_removeSame hp)
  apply Occasion.legs_of_keeps tracking_noMore.refl
  exact (tracking_noMore.calm.stopServer
    (fun h _ => tracking_noMore.calm.stopNow huntrack _ _ _ h) name gracefulTimeout).bind
      fun _ => keeps_pure ()

theorem legs_reconnected (process : String) (phase : Phase) :
    (Occasion.notice (.serverReconnected process phase)).Legs (MayRecognize process) := by
  have hT := tracking_mayRecognize process
  apply Occasion.legs_of_keeps hT.refl
  apply hT.calm.serverReconnected (hT.start process)
  intro host before h hstopping _
  refine hT.calm.toQuiet.meets_recognize h fun {spec roster} hspec hprocess hinsert => ?_
  have hadded (p : String) : (roster.update host.nextNumber
      (·.diagnose "recognized after reconnect")).contains p =
        (decide (process = p) || host.roster.contains p) := by
    rw [Roster.contains_update, Roster.contains_of_insert hinsert, ← hprocess]
    rfl
  refine ⟨h.stopping, fun p hp => ?_, fun p hp => ?_⟩
  · rw [hadded, h.kept p hp, Bool.or_true]
  · rw [hadded, Bool.or_eq_true, decide_eq_true_eq] at hp
    rcases hp with rfl | hp
    · exact .inr ⟨rfl, h.stopping ▸ hstopping⟩
    · exact h.gained p hp

structure Occasion.MayTrack (o : Occasion) (before after : Steward) : Prop where
  forgotten : ∀ p, before.roster.contains p → after.roster.contains p = false →
    o.launches ∨ ∃ name gracefulTimeout, o = .stopServer name gracefulTimeout
  tracked : ∀ p, before.roster.contains p = false → after.roster.contains p →
    o.launches ∨ before.stopping = false ∧ ∃ phase, o = .notice (.serverReconnected p phase)

theorem Occasion.MayTrack.of_same {o : Occasion} {before after : Steward}
    (h : TracksSame before after) : o.MayTrack before after := by
  refine ⟨fun p hp hnot => ?_, fun p hnot hp => ?_⟩
  · cases (hp.symm.trans (h p).symm).trans hnot
  · cases (hp.symm.trans (h p)).trans hnot

theorem Occasion.legs_mayTrack (o : Occasion) : o.Legs o.MayTrack := by
  have himp {R : Steward → Steward → Prop} (h : o.Legs R)
      (hR : ∀ before after, R before after → o.MayTrack before after) : o.Legs o.MayTrack :=
    fun host => Program.Meets.imp_between (h host) hR
  cases o with
  | start | startServers | startServer | restartServer =>
    exact fun host => Program.meets_between_of_forall _
      (fun _ _ => ⟨fun _ _ _ => .inl rfl, fun _ _ _ => .inl rfl⟩) _
  | stopServer name gracefulTimeout =>
    refine himp (legs_stopServer name gracefulTimeout) fun before after h => ?_
    refine ⟨fun _ _ _ => .inr ⟨_, _, rfl⟩, fun p hnot hp => ?_⟩
    cases (h p hp).symm.trans hnot
  | restart r => exact himp (legs_restart r) fun _ _ => .of_same
  | stop => exact himp legs_stop fun _ _ => .of_same
  | notice n =>
    by_cases hn : ∃ p phase, n = .serverReconnected p phase
    · obtain ⟨process, phase, rfl⟩ := hn
      refine himp (legs_reconnected process phase) fun before after h => ?_
      refine ⟨fun p hp hnot => ?_, fun p hnot hp => ?_⟩
      · cases (h.kept p hp).symm.trans hnot
      · rcases h.gained p hp with hp | ⟨rfl, hstopping⟩
        · cases hp.symm.trans hnot
        · exact .inr ⟨hstopping, phase, rfl⟩
    · exact himp (legs_notice fun p phase h => hn ⟨p, phase, h⟩) fun _ _ => .of_same

/-! ## What is told of the servers -/

structure Steward.Consistent (settings : Settings) (host : Steward) : Prop where
  known : ∀ {p server}, host.roster.get? p = some server → server.process = p ∧
    ∃ spec ∈ settings.servers, p = processName spec.name ∧ server.spec = spec ∧
      server.identity = spec.identity settings.host.name
  listed : ∀ {server}, server ∈ host.roster.all ↔ ∃ p, host.roster.get? p = some server
  ascending : (host.roster.all.map (·.process)).Pairwise (· < ·)
  told : host.statuses.keys.Perm (settings.servers.map (·.identity settings.host.name))
  status : ∀ spec ∈ settings.servers, host.status spec.name =
    match host.roster.get? spec.processName with
    | some server => server.phase.status
    | none => if spec.autoStart then .stopped else .disabled
  agreed : ∀ spec ∈ settings.servers,
    host.statuses.get? (spec.identity settings.host.name) = some (host.status spec.name)

theorem Roster.Sound.map_process {r : Roster} {next : Nat} (h : r.Sound next) :
    r.all.map (·.process) = r.servers.keys := by
  unfold all OrderedMap.values OrderedMap.keys
  rw [List.map_map]
  apply List.map_congr_left
  intro e he
  exact h.keyed (OrderedMap.get?_eq_some_iff.2 he)

variable {settings : Settings} {host : Steward} {spec : ServerSpec}

namespace Steward.Configured

/-- The statuses are told once for each configured server. -/
theorem get?_statuses (h : host.Configured settings) (hvalid : settings.problem? = none)
    (id : Identity) : host.statuses.get? id = OrderedMap.lookup id
      (settings.servers.map fun s => (s.identity settings.host.name, host.statusOf s)) := by
  have hpairs : (host.model.servers.map fun s => (host.model.identity s, host.statusOf s)) =
      settings.servers.map fun s => (s.identity settings.host.name, host.statusOf s) := by
    simp only [h.servers, HostModel.identity, h.hostName]
  unfold statuses
  rw [hpairs]
  apply OrderedMap.get?_ofList
  rw [List.map_map]
  exact Settings.nodup_identities hvalid settings.host.name

theorem get?_statuses_of_mem (h : host.Configured settings) (hvalid : settings.problem? = none)
    (hspec : spec ∈ settings.servers) :
    host.statuses.get? (spec.identity settings.host.name) = some (host.statusOf spec) := by
  rw [h.get?_statuses hvalid]
  apply OrderedMap.lookup_of_mem
  · rw [List.map_map]
    exact Settings.nodup_identities hvalid settings.host.name
  · exact List.mem_map.2 ⟨spec, hspec, rfl⟩

theorem keys_statuses (h : host.Configured settings) (hvalid : settings.problem? = none) :
    host.statuses.keys.Perm (settings.servers.map (·.identity settings.host.name)) := by
  apply (List.perm_ext_iff_of_nodup (OrderedMap.nodup_keys _)
    (Settings.nodup_identities hvalid settings.host.name)).2
  intro id
  rw [OrderedMap.mem_keys_iff]
  constructor
  · rintro ⟨status, hstatus⟩
    by_contra hnot
    rw [h.get?_statuses hvalid, OrderedMap.lookup_eq_none] at hstatus
    · cases hstatus
    · rw [List.map_map]
      exact hnot
  · intro hid
    obtain ⟨spec, hspec, rfl⟩ := List.mem_map.1 hid
    exact ⟨_, h.get?_statuses_of_mem hvalid hspec⟩

theorem consistent (h : host.Configured settings) (hvalid : settings.problem? = none) :
    host.Consistent settings where
  known hget := ⟨h.sound.keyed hget, h.known hget⟩
  listed := OrderedMap.mem_values_iff
  ascending := by
    rw [h.sound.map_process]
    exact List.pairwise_map.2 host.roster.servers.ascending
  told := h.keys_statuses hvalid
  status spec hspec := h.status_eq hvalid hspec
  agreed spec hspec := by
    rw [h.status_eq hvalid hspec]
    exact h.get?_statuses_of_mem hvalid hspec

end Steward.Configured

end HostSteward
