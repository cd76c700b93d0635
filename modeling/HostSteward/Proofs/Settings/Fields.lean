import HostSteward.Proofs.Settings.Loading
import Mathlib.Data.List.Sigma
import Mathlib.Logic.Function.Basic

/-!
# The fields of settings

The sections of settings are records of a few fields. Here the fields are named, so that one can
speak of all of them at once: the section a field stands in, its label there, and what its values
look like in a table. Settings are read from tables as soon as every field is found in its place.
-/

namespace HostSteward.Settings

inductive Section where
  | host
  | lifecycle
  | changes
  | system
deriving DecidableEq

def Section.label : Section → String
  | .host => "host"
  | .lifecycle => "lifecycle"
  | .changes => "updates"
  | .system => "system"

inductive Kind where
  | text
  | bootMode
  | uint16
  | uint32
  | uint64
  | flag

namespace Kind

def Value : Kind → Type
  | .text => String
  | .bootMode => BootMode
  | .uint16 => UInt16
  | .uint32 => UInt32
  | .uint64 => UInt64
  | .flag => Bool

def toJson : (k : Kind) → k.Value → Json
  | .text, s => .string s
  | .bootMode, b => BootMode.toJson b
  | .uint16, n => .nat (UInt16.toNat n)
  | .uint32, n => .nat (UInt32.toNat n)
  | .uint64, n => .nat (UInt64.toNat n)
  | .flag, b => .bool b

end Kind

inductive Field where
  | hostName
  | bootMode
  | controllerPort
  | startPollAttempts
  | startPollInterval
  | autoRestart
  | maxRestarts
  | restartBaseDelay
  | restartMaxDelay
  | allowOverallRollback
  | concurrentServers
  | busCapacity
deriving DecidableEq

namespace Field

def parent : Field → Section
  | .hostName | .bootMode | .controllerPort => .host
  | .startPollAttempts | .startPollInterval | .autoRestart => .lifecycle
  | .maxRestarts | .restartBaseDelay | .restartMaxDelay => .lifecycle
  | .allowOverallRollback | .concurrentServers => .changes
  | .busCapacity => .system

def label : Field → String
  | .hostName => "name"
  | .bootMode => "boot_mode"
  | .controllerPort => "controller_port"
  | .startPollAttempts => "start_poll_attempts"
  | .startPollInterval => "start_poll_interval_ms"
  | .autoRestart => "auto_restart"
  | .maxRestarts => "max_restarts"
  | .restartBaseDelay => "restart_base_delay_ms"
  | .restartMaxDelay => "restart_max_delay_ms"
  | .allowOverallRollback => "allow_overall_rollback"
  | .concurrentServers => "concurrent_servers"
  | .busCapacity => "event_bus_capacity"

def kind : Field → Kind
  | .hostName => .text
  | .bootMode => .bootMode
  | .controllerPort => .uint16
  | .startPollAttempts | .maxRestarts => .uint32
  | .startPollInterval | .restartBaseDelay | .restartMaxDelay | .busCapacity => .uint64
  | .autoRestart | .allowOverallRollback | .concurrentServers => .flag

abbrev Value (f : Field) : Type := f.kind.Value

def toJson (f : Field) (v : f.Value) : Json := f.kind.toJson v

theorem label_injOn {f g : Field} (hparent : f.parent = g.parent) (hlabel : f.label = g.label) :
    f = g := by
  revert hparent hlabel
  cases f <;> cases g <;> decide

end Field

def get (s : Settings) : (f : Field) → f.Value
  | .hostName => s.host.name
  | .bootMode => s.host.bootMode
  | .controllerPort => s.host.controllerPort
  | .startPollAttempts => s.lifecycle.startPollAttempts
  | .startPollInterval => s.lifecycle.startPollInterval
  | .autoRestart => s.lifecycle.autoRestart
  | .maxRestarts => s.lifecycle.maxRestarts
  | .restartBaseDelay => s.lifecycle.restartBaseDelay
  | .restartMaxDelay => s.lifecycle.restartMaxDelay
  | .allowOverallRollback => s.changes.allowOverallRollback
  | .concurrentServers => s.changes.concurrentServers
  | .busCapacity => s.system.busCapacity

def set (s : Settings) : (f : Field) → f.Value → Settings
  | .hostName, v => { s with host.name := v }
  | .bootMode, v => { s with host.bootMode := v }
  | .controllerPort, v => { s with host.controllerPort := v }
  | .startPollAttempts, v => { s with lifecycle.startPollAttempts := v }
  | .startPollInterval, v => { s with lifecycle.startPollInterval := v }
  | .autoRestart, v => { s with lifecycle.autoRestart := v }
  | .maxRestarts, v => { s with lifecycle.maxRestarts := v }
  | .restartBaseDelay, v => { s with lifecycle.restartBaseDelay := v }
  | .restartMaxDelay, v => { s with lifecycle.restartMaxDelay := v }
  | .allowOverallRollback, v => { s with changes.allowOverallRollback := v }
  | .concurrentServers, v => { s with changes.concurrentServers := v }
  | .busCapacity, v => { s with system.busCapacity := v }

theorem get_set (s : Settings) (f : Field) (v : f.Value) :
    (s.set f v).get = Function.update s.get f v := by
  funext g
  cases f <;> cases g <;> rfl

theorem set_servers (s : Settings) (f : Field) (v : f.Value) :
    (s.set f v).servers = s.servers := by
  cases f <;> rfl

/-- Settings are made of their fields and their servers. -/
theorem ext_fields {s t : Settings} (hfields : ∀ f, s.get f = t.get f)
    (hservers : s.servers = t.servers) : s = t := by
  obtain ⟨⟨_, _, _⟩, ⟨_, _, _, _, _, _⟩, ⟨_, _⟩, ⟨_⟩, _⟩ := s
  obtain ⟨⟨_, _, _⟩, ⟨_, _, _, _, _, _⟩, ⟨_, _⟩, ⟨_⟩, _⟩ := t
  simp only [Settings.mk.injEq, HostSettings.mk.injEq, LifecycleSettings.mk.injEq,
    ChangeSettings.mk.injEq, SystemSettings.mk.injEq]
  exact ⟨⟨hfields .hostName, hfields .bootMode, hfields .controllerPort⟩,
    ⟨hfields .startPollAttempts, hfields .startPollInterval, hfields .autoRestart,
      hfields .maxRestarts, hfields .restartBaseDelay, hfields .restartMaxDelay⟩,
    ⟨hfields .allowOverallRollback, hfields .concurrentServers⟩, hfields .busCapacity, hservers⟩

/-! ## Assignments -/

abbrev Assignment := Sigma Field.Value

def override (s : Settings) (given : List Assignment) : Settings :=
  given.foldl (fun s a => s.set a.1 a.2) s

variable {s : Settings} {given : List Assignment}

theorem get_override (s : Settings) (given : List Assignment) : (s.override given).get =
    given.foldl (fun values a => Function.update values a.1 a.2) s.get := by
  induction given generalizing s with
  | nil => rfl
  | cons a given ih => exact (ih (s.set a.1 a.2)).trans (by rw [get_set, List.foldl_cons])

theorem override_servers (s : Settings) (given : List Assignment) :
    (s.override given).servers = s.servers := by
  induction given generalizing s with
  | nil => rfl
  | cons a given ih => exact (ih _).trans (s.set_servers a.1 a.2)

theorem get_override_of_notMem {f : Field} (h : f ∉ given.keys) :
    (s.override given).get f = s.get f := by
  induction given generalizing s with
  | nil => rfl
  | cons a given ih =>
    rw [List.keys_cons, List.mem_cons, not_or] at h
    exact (ih h.2).trans (by rw [get_set, Function.update_of_ne h.1])

/-- The fields that are given a value have it, the others keep theirs. -/
theorem get_override_eq (h : given.NodupKeys) (s : Settings) (f : Field) :
    (s.override given).get f = (given.dlookup f).getD (s.get f) := by
  induction given generalizing s with
  | nil => rfl
  | cons a given ih =>
    obtain ⟨hnot, hrest⟩ := List.nodupKeys_cons.1 h
    obtain ⟨g, v⟩ := a
    by_cases hf : f = g
    · subst hf
      rw [List.dlookup_cons_eq, Option.getD_some]
      exact (get_override_of_notMem hnot).trans (by rw [get_set, Function.update_self])
    · rw [List.dlookup_cons_ne _ _ hf]
      exact (ih hrest _).trans (by rw [get_set, Function.update_of_ne hf])

/-! ## Tables of fields -/

variable {members : List (String × Json)}

/-- Each field of the section is found under its label. What else is there does not matter. -/
def Holds (s : Settings) (sec : Section) (members : List (String × Json)) : Prop :=
  ∀ f : Field, f.parent = sec → members.lookup f.label = some (f.toJson (s.get f))

namespace Holds

theorem hostSettings? (h : Holds s .host members) :
    Lenient.hostSettings? (.object members) = some s.host := by
  have hname : members.lookup "name" = some (.string s.host.name) := h .hostName rfl
  have hmode : members.lookup "boot_mode" = some s.host.bootMode.toJson := h .bootMode rfl
  have hport : members.lookup "controller_port" = some (.nat s.host.controllerPort.toNat) :=
    h .controllerPort rfl
  simp only [Lenient.hostSettings?, Lenient.record?, Option.bind_eq_bind, Option.bind_some,
    Json.Record.withDefault, hname, hmode, hport, Lenient.bootMode?_toJson, Lenient.uint16?_nat]
  rfl

theorem lifecycleSettings? (h : Holds s .lifecycle members) :
    Lenient.lifecycleSettings? (.object members) = some s.lifecycle := by
  have hattempts : members.lookup "start_poll_attempts" =
      some (.nat s.lifecycle.startPollAttempts.toNat) := h .startPollAttempts rfl
  have hinterval : members.lookup "start_poll_interval_ms" =
      some (.nat s.lifecycle.startPollInterval.toNat) := h .startPollInterval rfl
  have hrestart : members.lookup "auto_restart" = some (.bool s.lifecycle.autoRestart) :=
    h .autoRestart rfl
  have hrestarts : members.lookup "max_restarts" = some (.nat s.lifecycle.maxRestarts.toNat) :=
    h .maxRestarts rfl
  have hbase : members.lookup "restart_base_delay_ms" =
      some (.nat s.lifecycle.restartBaseDelay.toNat) := h .restartBaseDelay rfl
  have hmax : members.lookup "restart_max_delay_ms" =
      some (.nat s.lifecycle.restartMaxDelay.toNat) := h .restartMaxDelay rfl
  simp only [Lenient.lifecycleSettings?, Lenient.record?, Option.bind_eq_bind, Option.bind_some,
    Json.Record.withDefault, hattempts, hinterval, hrestart, hrestarts, hbase, hmax,
    Lenient.uint32?_nat, Lenient.uint64?_nat]
  rfl

theorem changeSettings? (h : Holds s .changes members) :
    Lenient.changeSettings? (.object members) = some s.changes := by
  have hrollback : members.lookup "allow_overall_rollback" =
      some (.bool s.changes.allowOverallRollback) := h .allowOverallRollback rfl
  have hconcurrent : members.lookup "concurrent_servers" =
      some (.bool s.changes.concurrentServers) := h .concurrentServers rfl
  simp only [Lenient.changeSettings?, Lenient.record?, Option.bind_eq_bind, Option.bind_some,
    Json.Record.withDefault, hrollback, hconcurrent]
  rfl

theorem systemSettings? (h : Holds s .system members) :
    Lenient.systemSettings? (.object members) = some s.system := by
  have hcapacity : members.lookup "event_bus_capacity" =
      some (.nat s.system.busCapacity.toNat) := h .busCapacity rfl
  simp only [Lenient.systemSettings?, Lenient.record?, Option.bind_eq_bind, Option.bind_some,
    Json.Record.withDefault, hcapacity, Lenient.uint64?_nat]
  rfl

end Holds

structure Complete (s : Settings) (members : List (String × Json)) : Prop where
  sections : ∀ sec : Section, ∃ fields,
    members.lookup sec.label = some (.object fields) ∧ Holds s sec fields
  servers : ∃ items,
    members.lookup "servers" = some (.array items) ∧ items.mapM Lenient.serverSpec? = some s.servers

namespace Complete

theorem settings? (h : Complete s members) : Lenient.settings? (.object members) = some s := by
  obtain ⟨host, hhost, hostHolds⟩ := h.sections .host
  obtain ⟨lifecycle, hlifecycle, lifecycleHolds⟩ := h.sections .lifecycle
  obtain ⟨changes, hchanges, changesHold⟩ := h.sections .changes
  obtain ⟨system, hsystem, systemHolds⟩ := h.sections .system
  obtain ⟨items, hitems, hservers⟩ := h.servers
  simp only [Section.label] at hhost hlifecycle hchanges hsystem
  simp only [Lenient.settings?, Lenient.record?, Json.Record.required, Json.Record.withDefault,
    hhost, hlifecycle, hchanges, hsystem, hitems, Option.bind_eq_bind, Option.bind_some,
    hostHolds.hostSettings?, lifecycleHolds.lifecycleSettings?, changesHold.changeSettings?,
    systemHolds.systemSettings?, Json.listOf?, Json.array?, hservers]
  rfl

end Complete

theorem complete_defaults :
    ∃ members, ({} : Settings).toJson = .object members ∧ Complete {} members := by
  refine ⟨_, rfl, fun sec => ?_, [], rfl, rfl⟩
  cases sec <;> refine ⟨_, rfl, fun f hf => ?_⟩ <;> cases f <;> first | rfl | cases hf

end HostSteward.Settings
