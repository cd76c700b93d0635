import HostSteward.Proofs.Settings.Checks
import HostSteward.Proofs.Steward.Legs
import Mathlib.Data.List.Nodup

/-!
# Servers as they are configured

A steward that takes the servers of its settings for its model tracks none but these, each under its
own process name and with its own configuration. Records are made of configured servers only, when
they are launched or recognized, and nothing that happens to a record changes what it was made of.
-/

namespace HostSteward

open Operation

theorem String.append_right_injective (mark : String) : Function.Injective (mark ++ ·) := by
  intro a b h
  have hlists : mark.toList ++ a.toList = mark.toList ++ b.toList := by
    rw [← String.toList_append, ← String.toList_append]
    exact congrArg String.toList h
  exact String.toList_inj.1 (List.append_cancel_left hlists)

theorem processName_injective : Function.Injective processName :=
  String.append_right_injective processMark

namespace HostModel

variable {m : HostModel} {spec : ServerSpec}

theorem mem_of_server? {name : String} (h : m.server? name = some spec) : spec ∈ m.servers :=
  List.mem_of_find?_eq_some h

/-- Among servers with different names, each is found by its own. -/
theorem server?_of_mem (hnd : (m.servers.map (·.name)).Nodup) (h : spec ∈ m.servers) :
    m.server? spec.name = some spec := by
  unfold server?
  cases hfind : m.servers.find? (·.name = spec.name) with
  | none => simpa using List.find?_eq_none.1 hfind spec h
  | some found =>
    have hname : found.name = spec.name := by simpa using List.find?_some hfind
    rw [List.inj_on_of_nodup_map hnd (List.mem_of_find?_eq_some hfind) h hname]

end HostModel

namespace Settings

variable {settings : Settings}

theorem nodup_identities (hvalid : settings.problem? = none) (hostName : String) :
    (settings.servers.map (·.identity hostName)).Nodup := by
  apply List.Nodup.of_map Identity.server
  rw [List.map_map]
  exact (problem?_eq_none_iff.1 hvalid).nodup_names

/-- Configured servers are told apart by their names. -/
theorem eq_of_name (hvalid : settings.problem? = none) {spec spec' : ServerSpec}
    (hspec : spec ∈ settings.servers) (hspec' : spec' ∈ settings.servers)
    (hname : spec.name = spec'.name) : spec = spec' :=
  List.inj_on_of_nodup_map (problem?_eq_none_iff.1 hvalid).nodup_names hspec hspec' hname

end Settings

structure Steward.Configured (settings : Settings) (host : Steward) : Prop where
  given : host.settings = settings
  hostName : host.model.host = settings.host.name
  servers : host.model.servers = settings.servers
  sound : host.roster.Sound host.nextNumber
  known : ∀ {p s}, host.roster.get? p = some s → ∃ spec ∈ settings.servers,
    p = spec.processName ∧ s.spec = spec ∧ s.identity = spec.identity settings.host.name

variable {settings : Settings} {host host' : Steward} {s : Server} {f : Server → Server}
  {roster : Roster}

namespace Steward.Configured

theorem of_eq (h : host.Configured settings) (hsettings : host'.settings = host.settings)
    (hmodel : host'.model.host = host.model.host ∧ host'.model.servers = host.model.servers)
    (hroster : host'.roster = host.roster) (hnext : host'.nextNumber = host.nextNumber) :
    host'.Configured settings where
  given := hsettings.trans h.given
  hostName := hmodel.1.trans h.hostName
  servers := hmodel.2.trans h.servers
  sound := hroster ▸ hnext ▸ h.sound
  known := by
    rw [hroster]
    exact h.known

theorem withRoster (h : host.Configured settings) {nextNumber : Nat}
    (hsound : roster.Sound nextNumber)
    (hknown : ∀ {p s}, roster.get? p = some s → ∃ spec ∈ settings.servers,
      p = spec.processName ∧ s.spec = spec ∧ s.identity = spec.identity settings.host.name) :
    Configured settings { host with roster, nextNumber } :=
  ⟨h.given, h.hostName, h.servers, hsound, hknown⟩

theorem update (h : host.Configured settings) (hf : Server.Faithful f) (number : Nat) :
    Configured settings { host with roster := host.roster.update number f } := by
  apply h.withRoster (h.sound.update hf number)
  intro p s hget
  obtain ⟨t, ht, rfl⟩ := Roster.exists_of_get?_update hget
  obtain ⟨spec, hmem, hp, hspec, hidentity⟩ := h.known ht
  refine ⟨spec, hmem, hp, ?_⟩
  split
  · exact ⟨(hf.spec t).trans hspec, (hf.identity t).trans hidentity⟩
  · exact ⟨hspec, hidentity⟩

theorem untrack (h : host.Configured settings) (process : String) (number : Nat) :
    Configured settings { host with roster := host.roster.removeSame process number } := by
  apply h.withRoster (h.sound.untrack process number)
  intro p s hget
  rw [Roster.get?_removeSame] at hget
  split at hget
  · cases hget
  · exact h.known hget

theorem track (h : host.Configured settings) {spec : ServerSpec} {phase : Phase}
    (hspec : spec ∈ host.model.servers)
    (hinsert : host.roster.insert (.ofSpec host.nextNumber host.hostName spec phase) = .ok roster) :
    Configured settings { host with roster, nextNumber := host.nextNumber + 1 } := by
  apply h.withRoster (h.sound.track rfl hinsert)
  intro p s hget
  rw [Roster.get?_of_insert hinsert] at hget
  split at hget
  next hp =>
    obtain rfl := Option.some.inj hget
    have hname : host.hostName = settings.host.name := h.hostName
    exact ⟨spec, h.servers ▸ hspec, hp.symm, rfl, congrArg spec.identity hname⟩
  · exact h.known hget

variable {spec : ServerSpec}

theorem server?_eq (h : host.Configured settings) (hvalid : settings.problem? = none)
    (hspec : spec ∈ settings.servers) : host.model.server? spec.name = some spec := by
  apply HostModel.server?_of_mem
  · rw [h.servers]
    exact (Settings.problem?_eq_none_iff.1 hvalid).nodup_names
  · rw [h.servers]
    exact hspec

theorem status_eq (h : host.Configured settings) (hvalid : settings.problem? = none)
    (hspec : spec ∈ settings.servers) : host.status spec.name = host.statusOf spec := by
  unfold status
  rw [h.server?_eq hvalid hspec]

/-- The process of a configured server is tracked with the identity of this server. -/
theorem identity_eq (h : host.Configured settings) (hvalid : settings.problem? = none)
    (hspec : spec ∈ settings.servers) (hget : host.roster.get? spec.processName = some s) :
    s.identity = spec.identity settings.host.name := by
  obtain ⟨spec', hspec', hprocess, -, hidentity⟩ := h.known hget
  rw [hidentity, Settings.eq_of_name hvalid hspec hspec' (processName_injective hprocess)]

end Steward.Configured

/-! ## No operation tracks a server that is not configured -/

/-- A leg leaves the servers as they are configured if it has found them so. -/
abbrev configured (settings : Settings) : Contract Steward :=
  .between fun before after => before.Configured settings → after.Configured settings

abbrev StaysConfigured (settings : Settings) (host before : Steward) : Prop :=
  before.Configured settings → host.Configured settings

theorem keeps_ask_configured (r : Request) :
    Keeps (configured settings) (StaysConfigured settings) (ask r) :=
  keeps_ask_between (fun _ h => h) r

theorem upheld_configured : Upheld (configured settings) (StaysConfigured settings) where
  journal _ h hb := (h hb).of_eq rfl ⟨rfl, rfl⟩ rfl rfl
  launched h hb := (h hb).of_eq rfl ⟨rfl, rfl⟩ rfl rfl
  stopping h hb := (h hb).of_eq rfl ⟨rfl, rfl⟩ rfl rfl
  cancelled h hb := (h hb).of_eq rfl ⟨rfl, rfl⟩ rfl rfl
  budget _ h hb := (h hb).of_eq rfl ⟨rfl, rfl⟩ rfl rfl
  server number hf h hb := (h hb).update hf.toFaithful number
  register name := keeps_ask_configured (.register name)
  unregister := keeps_ask_configured .unregister
  inventory := keeps_ask_configured (.command .requestInventory)
  shutdown := keeps_ask_configured (.command .shutdown)
  stop p := keeps_ask_configured (.command (.stop p))
  remove p := keeps_ask_configured (.command (.remove p))
  wait d := keeps_ask_configured (.wait d)

theorem keeps_untrack_configured (s : Server) :
    Keeps (configured settings) (StaysConfigured settings) (Steward.untrack s) :=
  fun _ _ h hb => (h hb).untrack s.process s.number

theorem keeps_start_configured (s : Server) :
    Attempt.Keeps (configured settings) (StaysConfigured settings) (Attempt.start s) :=
  keeps_ask_configured (.command (.start s.process))

theorem keeps_register_configured (s : Server) :
    Attempt.Keeps (configured settings) (StaysConfigured settings) (Attempt.register s) := by
  refine (Attempt.keeps_lift (upheld_configured.setPhase s .booting)).bind fun _ =>
    Attempt.Keeps.bind (keeps_ask_configured (.command (.add s.process s.spec.launch))) fun i =>
      Attempt.keeps_lift ?_
  exact fun _ _ h hb => (h hb).update (Server.faithful_registered i) s.number

theorem keeps_launch_configured (name : String) :
    Attempt.Keeps (configured settings) (StaysConfigured settings) (Steward.launch name) := by
  apply Attempt.keeps_iff.2
  intro host before h
  refine meets_launch (fun _ => h) fun spec roster server hspec hserver hinsert => ?_
  have htracked : StaysConfigured settings { host with
      roster, nextNumber := host.nextNumber + 1
      journal := host.journal ++ [.info ("Launching server " ++ server.identity.text)] } before := by
    intro hb
    have h := (h hb).track (HostModel.mem_of_server? hspec) (hserver ▸ hinsert)
    exact h.of_eq rfl ⟨rfl, rfl⟩ rfl rfl
  apply (Attempt.keeps_iff.1 (keeps_register_configured server) _ before htracked).mono
  · exact fun _ host before h => Attempt.keeps_iff.1 (keeps_start_configured server) host before h
  · exact fun _ host before h hb => (h hb).untrack server.process server.number

theorem keeps_relaunch_configured (s : Server) :
    Attempt.Keeps (configured settings) (StaysConfigured settings) (Steward.relaunch s) :=
  Attempt.Keeps.bind (keeps_ask_configured (.command (.remove s.process))) fun _ =>
    (keeps_register_configured s).bind fun _ => keeps_start_configured s

theorem keeps_recognize_configured (process : String) (phase : Phase) :
    Keeps (configured settings) (StaysConfigured settings) (Steward.recognize process phase) := by
  intro host before h
  refine upheld_configured.toQuiet.meets_recognize h fun hspec _ hinsert hb => ?_
  have htracked := (h hb).track (HostModel.mem_of_server? hspec) hinsert
  exact htracked.update (Server.faithful_diagnose "recognized after reconnect") host.nextNumber

theorem mastered_configured : Mastered (configured settings) (StaysConfigured settings) where
  toUpheld := upheld_configured
  restarts _ _ h hb := (h hb).of_eq rfl ⟨rfl, rfl⟩ rfl rfl
  start p := keeps_ask_configured (.command (.start p))
  launch := keeps_launch_configured
  tryStartServer := upheld_configured.tryStartServer keeps_untrack_configured keeps_launch_configured
  recognize := keeps_recognize_configured
  relaunch h _ := keeps_relaunch_configured _ _ _ h
  stopNow h _ := upheld_configured.stopNow keeps_untrack_configured _ _ _ h

theorem configured_make (settings : Settings) (inDomain : Bool) :
    (Steward.make settings none inDomain).Configured settings where
  given := rfl
  hostName := rfl
  servers := rfl
  sound := Roster.sound_empty _
  known hget := by cases hget

/-- Whatever the steward has been through, its servers are as they are configured. -/
theorem System.Runs.configured {σ : Type} {S : Surroundings σ} {inDomain : Bool} {around : σ}
    {s : System σ} (h : System.Runs S ⟨.make settings none inDomain, around, none, []⟩ s) :
    s.host.Configured settings := by
  refine h.holds (fun o => ?_) (fun batch journal h => ?_) (configured_make settings inDomain)
  · exact Occasion.legs_of_keeps (fun _ h => h) (mastered_configured.operation o)
  · exact h.of_eq rfl ⟨rfl, rfl⟩ rfl rfl

end HostSteward
