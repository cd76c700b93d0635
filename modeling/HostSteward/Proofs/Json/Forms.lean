import HostSteward.Change
import HostSteward.Notice
import HostSteward.Outcome
import HostSteward.Settings.Json
import Mathlib.Logic.Function.Basic

/-!
# JSON forms are lossless

What is written as JSON is read as the value that it was written for, so that different values
have different forms. A record is found field by field; a value that stands for one of several
kinds keeps them apart by its tag, whatever payload it carries.
-/

namespace HostSteward

namespace Json

structure Lossless {α : Type} (write : α → Json) (read : Json → Option α) : Prop where
  read_write : ∀ a, read (write a) = some a
  injective : Function.Injective write

variable {α : Type} {write : α → Json} {read : Json → Option α}

theorem lossless_of_read_write (h : ∀ a, read (write a) = some a) : Lossless write read where
  read_write := h
  injective a b hab := by
    have hread : some a = some b := by rw [← h a, hab, h b]
    exact Option.some.inj hread

theorem mapM_map (h : ∀ a, read (write a) = some a) (l : List α) :
    (l.map write).mapM read = some l := by
  induction l with
  | nil => rfl
  | cons a rest ih =>
    rw [List.map_cons, List.mapM_cons, h a, ih]
    rfl

/-- Members that are texts. -/
theorem mapM_members {read : Json → Option String} (h : ∀ s, read (.string s) = some s)
    (vars : List (String × String)) :
    ((vars.map fun (name, value) => (name, string value)).mapM
      fun (name, value) => (read value).map (name, ·)) = some vars := by
  induction vars with
  | nil => rfl
  | cons v rest ih =>
    simp only [List.map_cons, List.mapM_cons, ih, h v.2]
    rfl

theorem listOf?_array (h : ∀ a, read (write a) = some a) (l : List α) :
    listOf? read (.array (l.map write)) = some l :=
  mapM_map h l

theorem listOf?_strings (l : List String) : listOf? string? (strings l) = some l :=
  have hread (s : String) : string? (.string s) = some s := rfl
  listOf?_array hread l

/-- What is never written as null is told from absence. -/
theorem nullable?_option (h : ∀ a, read (write a) = some a) (hnull : ∀ a, write a ≠ .null)
    (o : Option α) : nullable? read (option write o) = some o := by
  cases o with
  | none => rfl
  | some a =>
    have hread : (read (write a)).map some = some (some a) := by rw [h a]; rfl
    unfold option nullable?
    split
    next hj => exact absurd hj (hnull a)
    next => exact hread

theorem natBelow?_nat {bound n : Nat} (h : n < bound) : natBelow? bound (nat n) = some n := by
  have hin : 0 ≤ (n : Int) ∧ (n : Int).toNat < bound := ⟨Int.natCast_nonneg n, h⟩
  change (if 0 ≤ (n : Int) ∧ (n : Int).toNat < bound then some (n : Int).toNat else none) = some n
  rw [if_pos hin, Int.toNat_natCast]

theorem uint16?_nat (n : UInt16) : uint16? (nat n.toNat) = some n := by
  rw [uint16?, natBelow?_nat n.toNat_lt, Option.map_some, UInt16.ofNat_toNat]

theorem uint32?_nat (n : UInt32) : uint32? (nat n.toNat) = some n := by
  rw [uint32?, natBelow?_nat n.toNat_lt, Option.map_some, UInt32.ofNat_toNat]

theorem uint64?_nat (n : UInt64) : uint64? (nat n.toNat) = some n := by
  rw [uint64?, natBelow?_nat n.toNat_lt, Option.map_some, UInt64.ofNat_toNat]

end Json

theorem Identity.ofJson?_toJson (id : Identity) : ofJson? id.toJson = some id := rfl

/-! ## Changes and what becomes of them -/

theorem Scope.ofJson?_toJson (s : Scope) : ofJson? s.toJson = some s := by
  cases s <;> rfl

theorem ServerChange.ofJson?_toJson (c : ServerChange) : ofJson? c.toJson = some c := rfl

theorem HostChange.ofJson?_toJson (c : HostChange) : ofJson? c.toJson = some c := by
  have hscope := c.scope.ofJson?_toJson
  have hpart := Json.nullable?_option ServerChange.ofJson?_toJson nofun c.serverChange
  change (do
    let scope ← Scope.ofJson? c.scope.toJson
    let serverChange ← Json.nullable? ServerChange.ofJson?
      (Json.option ServerChange.toJson c.serverChange)
    some (HostChange.mk c.operation scope c.payload serverChange)) = some c
  rw [hscope, hpart]
  rfl

theorem Fault.ofJson?_toJson (f : Fault) : ofJson? f.toJson = some f := rfl

theorem Outcome.ofJson?_toJson (o : Outcome) : ofJson? o.toJson = some o := by
  cases o <;> rfl

theorem Verdict.ofJson?_toJson (v : Verdict) : ofJson? v.toJson = some v := by
  have hservers := Json.listOf?_array Identity.ofJson?_toJson v.servers
  have hfault := Json.nullable?_option Fault.ofJson?_toJson nofun v.hostFault
  change (do
    let servers ← Json.listOf? Identity.ofJson? (.array (v.servers.map Identity.toJson))
    let hostFault ← Json.nullable? Fault.ofJson? (Json.option Fault.toJson v.hostFault)
    some (Verdict.mk servers hostFault)) = some v
  rw [hservers, hfault]
  rfl

/-! ## Notices -/

theorem ProcessInfo.ofJson?_toJson (p : ProcessInfo) : ofJson? p.toJson = some p := rfl

theorem Duration.ofJson?_object (seconds subsecond : Nat) :
    ofJson? (.object [("secs", .nat seconds), ("nanos", .nat subsecond)]) =
      (Json.natBelow? UInt64.size (.nat seconds)).bind fun seconds =>
        (Json.natBelow? UInt32.size (.nat subsecond)).bind (ofParts? seconds) := by
  unfold Duration.ofJson?
  -- The bounds are too large to be unfolded.
  generalize UInt64.size = m
  generalize UInt32.size = n
  rfl

theorem Duration.ofJson?_toJson (d : Duration) : ofJson? d.toJson = some d := by
  have hseconds : d.seconds < UInt64.size :=
    Nat.div_lt_of_lt_mul (by rw [Nat.mul_comm]; exact d.bounded)
  have hsubsecond : d.subsecond < UInt32.size := by
    have hmod : d.subsecond < 1000000000 := Nat.mod_lt d.nanoseconds (by decide)
    exact Nat.lt_trans hmod (by decide)
  calc ofJson? d.toJson
      = _ := ofJson?_object d.seconds d.subsecond
    _ = ofParts? d.seconds d.subsecond := by
        rw [Json.natBelow?_nat hseconds, Option.bind_some, Json.natBelow?_nat hsubsecond,
          Option.bind_some]
    _ = some d := d.ofParts?_seconds_subsecond

theorem Notice.ofJson?_toJson (n : Notice) : ofJson? n.toJson = some n := by
  cases n with
  | processStopped p incarnation uptime =>
    have hincarnation := Json.natBelow?_nat incarnation.toNat_lt
    change (do
      let incarnation ← Json.natBelow? UInt64.size (.nat incarnation.toNat)
      let uptime ← Duration.ofJson? uptime.toJson
      some (processStopped p (.ofNat incarnation) uptime)) = _
    rw [hincarnation, uptime.ofJson?_toJson]
    simp
  | inventory processes =>
    have hprocesses := Json.listOf?_array ProcessInfo.ofJson?_toJson processes
    change (do
      let processes ← Json.listOf? ProcessInfo.ofJson? (.array (processes.map ProcessInfo.toJson))
      some (inventory processes)) = _
    rw [hprocesses]
    rfl
  | serverReconnected p phase =>
    change (do
      let phase ← Phase.ofJson? phase.toJson
      some (serverReconnected p phase)) = _
    rw [phase.ofJson?_toJson]
    rfl
  | _ => rfl

/-! ## Settings -/

theorem BootMode.ofJson?_toJson (b : BootMode) : ofJson? b.toJson = some b := by
  cases b <;> rfl

theorem HostSettings.ofJson?_toJson (s : HostSettings) : ofJson? s.toJson = some s := by
  change (do
    let bootMode ← BootMode.ofJson? s.bootMode.toJson
    let controllerPort ← Json.uint16? (.nat s.controllerPort.toNat)
    some (HostSettings.mk s.name bootMode controllerPort)) = some s
  rw [BootMode.ofJson?_toJson, Json.uint16?_nat]
  rfl

theorem LifecycleSettings.ofJson?_toJson (s : LifecycleSettings) :
    ofJson? s.toJson = some s := by
  change (do
    let startPollAttempts ← Json.uint32? (.nat s.startPollAttempts.toNat)
    let startPollInterval ← Json.uint64? (.nat s.startPollInterval.toNat)
    let maxRestarts ← Json.uint32? (.nat s.maxRestarts.toNat)
    let restartBaseDelay ← Json.uint64? (.nat s.restartBaseDelay.toNat)
    let restartMaxDelay ← Json.uint64? (.nat s.restartMaxDelay.toNat)
    some (LifecycleSettings.mk startPollAttempts startPollInterval s.autoRestart maxRestarts
      restartBaseDelay restartMaxDelay)) = some s
  simp only [Json.uint32?_nat, Json.uint64?_nat]
  rfl

theorem ChangeSettings.ofJson?_toJson (s : ChangeSettings) : ofJson? s.toJson = some s := rfl

theorem SystemSettings.ofJson?_toJson (s : SystemSettings) : ofJson? s.toJson = some s := by
  change (do
    let busCapacity ← Json.uint64? (.nat s.busCapacity.toNat)
    some (SystemSettings.mk busCapacity)) = some s
  rw [Json.uint64?_nat]
  rfl

theorem ServerSpec.envOfJson?_envToJson (env : OrderedMap String String) :
    envOfJson? (envToJson env) = some env := by
  change (do
    let vars ← (env.entries.map fun (name, value) => (name, Json.string value)).mapM
      fun (name, value) => value.string?.map (name, ·)
    some (OrderedMap.ofList vars)) = some env
  have hread (value : String) : Json.string? (.string value) = some value := rfl
  rw [Json.mapM_members hread]
  exact congrArg some env.ofList_entries

theorem ServerSpec.ofJson?_toJson (s : ServerSpec) : ofJson? s.toJson = some s := by
  have hcommand := Json.listOf?_strings s.command
  have hdir : Json.nullable? Json.string? (Json.option .string s.workingDir) = some s.workingDir :=
    have hread (d : String) : Json.string? (.string d) = some d := rfl
    Json.nullable?_option hread (fun _ => Json.noConfusion) s.workingDir
  have henv := ServerSpec.envOfJson?_envToJson s.env
  change (do
    let command ← Json.listOf? Json.string? (.strings s.command)
    let workingDir ← Json.nullable? Json.string? (Json.option .string s.workingDir)
    let env ← envOfJson? (envToJson s.env)
    some (ServerSpec.mk s.name s.group s.autoStart command workingDir env)) = some s
  rw [hcommand, hdir, henv]
  rfl

theorem Settings.ofJson?_toJson (s : Settings) : ofJson? s.toJson = some s := by
  have hservers := Json.listOf?_array ServerSpec.ofJson?_toJson s.servers
  change (do
    let host ← HostSettings.ofJson? s.host.toJson
    let lifecycle ← LifecycleSettings.ofJson? s.lifecycle.toJson
    let changes ← ChangeSettings.ofJson? s.changes.toJson
    let system ← SystemSettings.ofJson? s.system.toJson
    let servers ← Json.listOf? ServerSpec.ofJson? (.array (s.servers.map ServerSpec.toJson))
    some (Settings.mk host lifecycle changes system servers)) = some s
  rw [s.host.ofJson?_toJson, s.lifecycle.ofJson?_toJson, s.changes.ofJson?_toJson,
    s.system.ofJson?_toJson, hservers]
  rfl

/-- Every value that has a JSON form is read back from it, and so no two values have the same
form. -/
theorem json_forms_lossless :
    Json.Lossless Identity.toJson Identity.ofJson? ∧
    Json.Lossless Scope.toJson Scope.ofJson? ∧
    Json.Lossless ServerChange.toJson ServerChange.ofJson? ∧
    Json.Lossless HostChange.toJson HostChange.ofJson? ∧
    Json.Lossless Fault.toJson Fault.ofJson? ∧
    Json.Lossless Outcome.toJson Outcome.ofJson? ∧
    Json.Lossless Verdict.toJson Verdict.ofJson? ∧
    Json.Lossless ProcessInfo.toJson ProcessInfo.ofJson? ∧
    Json.Lossless Notice.toJson Notice.ofJson? ∧
    Json.Lossless ServerSpec.toJson ServerSpec.ofJson? ∧
    Json.Lossless Settings.toJson Settings.ofJson? :=
  ⟨Json.lossless_of_read_write Identity.ofJson?_toJson,
    Json.lossless_of_read_write Scope.ofJson?_toJson,
    Json.lossless_of_read_write ServerChange.ofJson?_toJson,
    Json.lossless_of_read_write HostChange.ofJson?_toJson,
    Json.lossless_of_read_write Fault.ofJson?_toJson,
    Json.lossless_of_read_write Outcome.ofJson?_toJson,
    Json.lossless_of_read_write Verdict.ofJson?_toJson,
    Json.lossless_of_read_write ProcessInfo.ofJson?_toJson,
    Json.lossless_of_read_write Notice.ofJson?_toJson,
    Json.lossless_of_read_write ServerSpec.ofJson?_toJson,
    Json.lossless_of_read_write Settings.ofJson?_toJson⟩

end HostSteward
