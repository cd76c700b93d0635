import HostSteward.Proofs.Json.Forms
import HostSteward.Proofs.Settings.Presets
import HostSteward.Proofs.Settings.Rendering

/-!
# Settings are loaded from their TOML form

Laid over the defaults, the sections are again as they were written, whatever order their names
came in, and what is read leniently is found there just as strictly. So what a file is loaded as
depends on the servers alone: they are read back one by one, unless one of them is dated.
-/

namespace HostSteward

open Toml Settings

/-! ## Over the defaults -/

theorem HostSettings.merge_sorted (s : HostSettings) :
    merge ({} : HostSettings).toJson s.toJson.sorted = s.toJson := by
  have hsorted : s.toJson.sorted = .object [("boot_mode", s.bootMode.toJson),
      ("controller_port", .nat s.controllerPort.toNat), ("name", .string s.name)] := by
    simp +decide only [toJson, Json.sorted, Json.Reader.tidy_eq, List.foldl_cons, List.foldl_nil,
      OrderedMap.insertEntry, if_true, if_false]
  rw [hsorted]
  rfl

theorem LifecycleSettings.merge_sorted (s : LifecycleSettings) :
    merge ({} : LifecycleSettings).toJson s.toJson.sorted = s.toJson := by
  have hsorted : s.toJson.sorted = .object [("auto_restart", .bool s.autoRestart),
      ("max_restarts", .nat s.maxRestarts.toNat),
      ("restart_base_delay_ms", .nat s.restartBaseDelay.toNat),
      ("restart_max_delay_ms", .nat s.restartMaxDelay.toNat),
      ("start_poll_attempts", .nat s.startPollAttempts.toNat),
      ("start_poll_interval_ms", .nat s.startPollInterval.toNat)] := by
    simp +decide only [toJson, Json.sorted, Json.Reader.tidy_eq, List.foldl_cons, List.foldl_nil,
      OrderedMap.insertEntry, if_true, if_false]
  rw [hsorted]
  rfl

theorem ChangeSettings.merge_sorted (s : ChangeSettings) :
    merge ({} : ChangeSettings).toJson s.toJson.sorted = s.toJson := by
  have hsorted : s.toJson.sorted = s.toJson := by
    simp +decide only [toJson, Json.sorted, Json.Reader.tidy_eq, List.foldl_cons, List.foldl_nil,
      OrderedMap.insertEntry, if_true, if_false]
  rw [hsorted]
  rfl

theorem SystemSettings.merge_sorted (s : SystemSettings) :
    merge ({} : SystemSettings).toJson s.toJson.sorted = s.toJson := by
  have hsorted : s.toJson.sorted = s.toJson := rfl
  rw [hsorted]
  rfl

/-- Every section is laid over its defaults, the servers take the place of none. -/
theorem layOver?_sections (host lifecycle updates system : Json) (servers : List Json) :
    layOver? ({} : Settings).toJson [("host", host), ("lifecycle", lifecycle),
      ("servers", .array servers), ("system", system), ("updates", updates)] =
      some (.object [("host", merge ({} : HostSettings).toJson host),
        ("lifecycle", merge ({} : LifecycleSettings).toJson lifecycle),
        ("updates", merge ({} : ChangeSettings).toJson updates),
        ("system", merge ({} : SystemSettings).toJson system), ("servers", .array servers)]) := by
  have hhost : PathStep.ofName "host" = [.member "host"] := by decide
  have hlifecycle : PathStep.ofName "lifecycle" = [.member "lifecycle"] := by decide
  have hservers : PathStep.ofName "servers" = [.member "servers"] := by decide
  have hsystem : PathStep.ofName "system" = [.member "system"] := by decide
  have hupdates : PathStep.ofName "updates" = [.member "updates"] := by decide
  simp only [layOver?, List.foldlM_cons, List.foldlM_nil, hhost, hlifecycle, hservers, hsystem,
    hupdates]
  rfl

/-- Over the defaults the sections are as they were written. -/
theorem Settings.layOver?_document (s : Settings) (servers : List Json) :
    (s.document servers).object?.bind (layOver? ({} : Settings).toJson) =
      some (.object [("host", s.host.toJson), ("lifecycle", s.lifecycle.toJson),
        ("updates", s.changes.toJson), ("system", s.system.toJson), ("servers", .array servers)]) := by
  rw [document, Json.object?, Option.bind_some, layOver?_sections, HostSettings.merge_sorted,
    LifecycleSettings.merge_sorted, ChangeSettings.merge_sorted, SystemSettings.merge_sorted]

/-! ## What is read leniently -/

namespace Lenient

theorem numberBelow?_nat {bound n : Nat} (hfits : n < UInt64.size) (h : n < bound) :
    numberBelow? bound (.nat n) = some n := by
  have hnumber : number? (.nat n) = some n := if_pos ⟨Int.natCast_nonneg n, hfits⟩
  rw [numberBelow?, hnumber]
  exact if_pos h

theorem uint16?_nat (n : UInt16) : uint16? (.nat n.toNat) = some n := by
  have hn : n.toNat < UInt16.size := n.toNat_lt
  rw [uint16?, numberBelow?_nat (Nat.lt_trans hn (by decide)) hn, Option.map_some,
    UInt16.ofNat_toNat]

theorem uint32?_nat (n : UInt32) : uint32? (.nat n.toNat) = some n := by
  have hn : n.toNat < UInt32.size := n.toNat_lt
  rw [uint32?, numberBelow?_nat (Nat.lt_trans hn (by decide)) hn, Option.map_some,
    UInt32.ofNat_toNat]

theorem uint64?_nat (n : UInt64) : uint64? (.nat n.toNat) = some n := by
  rw [uint64?, numberBelow?_nat n.toNat_lt n.toNat_lt, Option.map_some, UInt64.ofNat_toNat]

theorem bootMode?_toJson (b : BootMode) : bootMode? b.toJson = some b := by
  cases b <;> decide

theorem hostSettings?_toJson (s : HostSettings) : hostSettings? s.toJson = some s := by
  change (do
    let bootMode ← bootMode? s.bootMode.toJson
    let controllerPort ← uint16? (.nat s.controllerPort.toNat)
    some (HostSettings.mk s.name bootMode controllerPort)) = some s
  rw [bootMode?_toJson, uint16?_nat]
  rfl

theorem lifecycleSettings?_toJson (s : LifecycleSettings) :
    lifecycleSettings? s.toJson = some s := by
  change (do
    let startPollAttempts ← uint32? (.nat s.startPollAttempts.toNat)
    let startPollInterval ← uint64? (.nat s.startPollInterval.toNat)
    let maxRestarts ← uint32? (.nat s.maxRestarts.toNat)
    let restartBaseDelay ← uint64? (.nat s.restartBaseDelay.toNat)
    let restartMaxDelay ← uint64? (.nat s.restartMaxDelay.toNat)
    some (LifecycleSettings.mk startPollAttempts startPollInterval s.autoRestart maxRestarts
      restartBaseDelay restartMaxDelay)) = some s
  simp only [uint32?_nat, uint64?_nat]
  rfl

theorem changeSettings?_toJson (s : ChangeSettings) : changeSettings? s.toJson = some s := rfl

theorem systemSettings?_toJson (s : SystemSettings) : systemSettings? s.toJson = some s := by
  change (do
    let busCapacity ← uint64? (.nat s.busCapacity.toNat)
    some (SystemSettings.mk busCapacity)) = some s
  rw [uint64?_nat]
  rfl

/-- The sections are read back; what is left to read are the servers. -/
theorem settings?_sections (s : Settings) (servers : List Json) :
    settings? (.object [("host", s.host.toJson), ("lifecycle", s.lifecycle.toJson),
      ("updates", s.changes.toJson), ("system", s.system.toJson), ("servers", .array servers)]) =
      (servers.mapM serverSpec?).map fun servers => { s with servers := servers } := by
  change (do
    let host ← hostSettings? s.host.toJson
    let lifecycle ← lifecycleSettings? s.lifecycle.toJson
    let changes ← changeSettings? s.changes.toJson
    let system ← systemSettings? s.system.toJson
    let servers ← servers.mapM serverSpec?
    some (Settings.mk host lifecycle changes system servers)) = _
  rw [hostSettings?_toJson, lifecycleSettings?_toJson, changeSettings?_toJson, systemSettings?_toJson]
  cases servers.mapM serverSpec? <;> rfl

end Lenient

/-! ## Servers -/

namespace ServerSpec

/-- Whether the environment has the name that makes a date of a table, before any other name. -/
def Dated (s : ServerSpec) : Prop := s.env.keys.head? = some dateTimeKey

instance (s : ServerSpec) : Decidable s.Dated := inferInstanceAs (Decidable (_ = _))

theorem toJson?_env {s : ServerSpec} (h : ¬ s.Dated) :
    Node.tableToJson? s.element.inside = some (envToJson s.env) := by
  have hhead : ∀ m ∈ s.element.inside.head?, m.1 ≠ dateTimeKey := by
    intro m hm hkey
    rw [element, List.head?_map, Option.mem_def, Option.map_eq_some_iff] at hm
    obtain ⟨v, hv, rfl⟩ := hm
    refine h ?_
    rw [Dated, OrderedMap.keys, List.head?_map, hv, ← hkey]
    rfl
  have hmembers (vars : List (String × String)) :
      Node.membersToJson? (vars.map fun v => (v.1, .text v.2)) =
        some (vars.map fun v => (v.1, .string v.2)) := by
    induction vars with
    | nil => rfl
    | cons v vars ih =>
      rw [List.map_cons, Node.membersToJson?, ih]
      rfl
  have htidy : Json.Reader.tidy (s.env.entries.map fun v => (v.1, .string v.2)) = envToJson s.env := by
    have hmap := (s.env.mapValues fun _ v => Json.string v).ofList_entries
    exact congrArg (fun m => Json.object m.entries) hmap
  have hread := toJson?_of_head hhead
  rw [element, hmembers, Option.map_some, htidy] at hread
  exact hread

theorem toJson?_env_of_dated {s : ServerSpec} (h : s.Dated) {j : Json}
    (hread : Node.tableToJson? s.element.inside = some j) : ∃ date, j = .string date := by
  rw [Dated, OrderedMap.keys] at h
  rw [element] at hread
  cases hentries : s.env.entries with
  | nil =>
    rw [hentries] at h
    cases h
  | cons v vars =>
    rw [hentries] at h hread
    have hkey : v.1 = dateTimeKey := Option.some.inj h
    rw [List.map_cons, Node.tableToJson?, if_pos hkey, Node.dateTime?] at hread
    obtain ⟨date, -, rfl⟩ := Option.map_eq_some_iff.1 hread
    exact ⟨_, rfl⟩

def table (s : ServerSpec) (env : Json) : Json :=
  Json.Reader.tidy ([("name", .string s.name), ("group", .string s.group),
    ("auto_start", .bool s.autoStart), ("command", .strings s.command)] ++
    s.workingDir.toList.map (fun dir => ("working_dir", .string dir)) ++ [("env", env)])

theorem toJson?_table (s : ServerSpec) : (s.element.table "env").toJson? =
    (Node.tableToJson? s.element.inside).map s.table := by
  have hhead : ∀ m ∈ (s.element.table "env").head?, m.1 ≠ dateTimeKey := by
    rintro m ⟨⟩
    exact (by decide : "name" ≠ dateTimeKey)
  have hmembers : Node.membersToJson? s.element.members = some ([("name", .string s.name),
      ("group", .string s.group), ("auto_start", .bool s.autoStart),
      ("command", .strings s.command)] ++
      s.workingDir.toList.map fun dir => ("working_dir", .string dir)) := by
    unfold element
    cases s.workingDir <;> rfl
  have henv : Node.membersToJson? [("env", .table .header s.element.inside)] =
      (Node.tableToJson? s.element.inside).map fun env => [("env", env)] := by
    rw [Node.membersToJson?, Node.toJson?]
    cases Node.tableToJson? s.element.inside <;> rfl
  rw [toJson?_of_head hhead, Element.table, membersToJson?_append, hmembers, henv]
  cases Node.tableToJson? s.element.inside <;> rfl

end ServerSpec

theorem Lenient.env?_object (vars : List (String × String)) :
    env? (.object (vars.map fun v => (v.1, .string v.2))) = some (.ofList vars) := by
  have hread (value : String) : text? (.string value) = some value := rfl
  rw [env?, Json.object?, Option.bind_eq_bind, Option.bind_some, Json.mapM_members hread]
  rfl

theorem Lenient.env?_envToJson (env : OrderedMap String String) :
    env? (ServerSpec.envToJson env) = some env :=
  (env?_object env.entries).trans (congrArg some env.ofList_entries)

theorem Lenient.serverSpec?_table (s : ServerSpec) (env : Json) :
    serverSpec? (s.table env) = (env? env).map fun env => { s with env := env } := by
  have hread (word : String) : text? (.string word) = some word := rfl
  have hcommand : Json.listOf? text? (.strings s.command) = some s.command :=
    Json.listOf?_array hread s.command
  have hsorted : s.table env = .object ([("auto_start", .bool s.autoStart),
      ("command", .strings s.command), ("env", env), ("group", .string s.group),
      ("name", .string s.name)] ++
      s.workingDir.toList.map fun dir => ("working_dir", .string dir)) := by
    unfold ServerSpec.table
    cases s.workingDir <;> simp +decide only [Option.toList_none, Option.toList_some, List.map_nil,
      List.map_cons, List.append_nil, List.cons_append, List.nil_append, Json.Reader.tidy_eq,
      List.foldl_cons, List.foldl_nil, OrderedMap.insertEntry, if_true, if_false]
  have hfields : serverSpec? (s.table env) = (do
      let command ← Json.listOf? text? (.strings s.command)
      let env ← env? env
      some (ServerSpec.mk s.name s.group s.autoStart command s.workingDir env)) := by
    rw [hsorted]
    cases s.workingDir <;> rfl
  rw [hfields, hcommand]
  cases env? env <;> rfl

/-- A server is read back, but none whose environment stands for a date. -/
theorem serverSpec?_toJson? (s : ServerSpec) :
    (¬ s.Dated → ∃ j, (s.element.table "env").toJson? = some j ∧ Lenient.serverSpec? j = some s) ∧
    (s.Dated → ∀ j, (s.element.table "env").toJson? = some j → Lenient.serverSpec? j = none) := by
  rw [s.toJson?_table]
  refine ⟨fun h => ?_, fun h j hj => ?_⟩
  · rw [ServerSpec.toJson?_env h]
    refine ⟨_, rfl, ?_⟩
    rw [Lenient.serverSpec?_table, Lenient.env?_envToJson]
    rfl
  · obtain ⟨env, henv, rfl⟩ := Option.map_eq_some_iff.1 hj
    obtain ⟨date, rfl⟩ := ServerSpec.toJson?_env_of_dated h henv
    rw [Lenient.serverSpec?_table]
    rfl

theorem mapM_serverSpec? {servers : List ServerSpec} (h : ∀ s ∈ servers, ¬ s.Dated) :
    ∃ js, serverTables? servers = some js ∧ js.mapM Lenient.serverSpec? = some servers := by
  induction servers with
  | nil => exact ⟨[], rfl, rfl⟩
  | cons s servers ih =>
    obtain ⟨hs, hservers⟩ := List.forall_mem_cons.1 h
    obtain ⟨j, hj, hread⟩ := (serverSpec?_toJson? s).1 hs
    obtain ⟨js, hjs, hrest⟩ := ih hservers
    refine ⟨j :: js, ?_, ?_⟩
    · rw [serverTables?] at hjs ⊢
      rw [List.map_cons, List.mapM_cons, hj, hjs]
      rfl
    · rw [List.mapM_cons, hread, hrest]
      rfl

theorem mapM_serverSpec?_of_dated {servers : List ServerSpec} (h : ∃ s ∈ servers, s.Dated)
    {js : List Json} (hjs : serverTables? servers = some js) :
    js.mapM Lenient.serverSpec? = none := by
  induction servers generalizing js with
  | nil => simp at h
  | cons s servers ih =>
    rw [serverTables?, List.map_cons, List.mapM_cons] at hjs
    obtain ⟨j, hj, hjs⟩ := Option.bind_eq_some_iff.1 hjs
    obtain ⟨rest, hrest, hjs⟩ := Option.bind_eq_some_iff.1 hjs
    obtain rfl := Option.some.inj hjs
    rw [List.mapM_cons]
    obtain ⟨dated, hmem, hdated⟩ := h
    rcases List.mem_cons.1 hmem with rfl | hmem
    · rw [(serverSpec?_toJson? dated).2 hdated j hj]
      rfl
    · rw [ih ⟨dated, hmem, hdated⟩ hrest]
      cases Lenient.serverSpec? j <;> rfl

/-! ## From a file -/

namespace Settings

variable {t : FileTree} {environment : List (String × String)} {path text : String}

theorem variableLayer_eq_nil (h : ∀ v ∈ environment, variableName? v.1 = none) :
    variableLayer environment = [] := by
  rw [variableLayer, List.filterMap_eq_nil_iff]
  intro v hv
  simp only [h v hv, Option.map_none]

/-- A file with members in it, and no variables. -/
theorem load_members (hfile : locate? t path = some (text, .toml))
    (hvariables : ∀ v ∈ environment, variableName? v.1 = none) {members : List (String × Json)}
    (hmembers : readFile? text .toml = some members) {merged : Json}
    (hlayers : layOver? ({} : Settings).toJson members = some merged) :
    load t environment path = conclude (some merged) := by
  rw [load_eq_settle (fileLayer_of_read hfile hmembers), variableLayer_eq_nil hvariables, List.append_nil, settle_eq_conclude, hlayers]

theorem load_document (s : Settings) (hfile : locate? t path = some (text, .toml))
    (hvariables : ∀ v ∈ environment, variableName? v.1 = none) {servers : List Json}
    (hread : Toml.read? text = some (s.document servers)) :
    load t environment path = match servers.mapM Lenient.serverSpec? with
      | some servers => .ok { s with servers := servers }
      | none => .error .invalid := by
  have hmembers : readFile? text .toml = (s.document servers).object? := by
    rw [readFile?, hread]
    rfl
  have hlayers := s.layOver?_document servers
  obtain ⟨members, hobject⟩ : ∃ members, (s.document servers).object? = some members := ⟨_, rfl⟩
  rw [hobject] at hmembers hlayers
  rw [Option.bind_some] at hlayers
  rw [load_members hfile hvariables hmembers hlayers, conclude, Lenient.settings?_sections]
  cases servers.mapM Lenient.serverSpec? <;> rfl

theorem load_malformed (hfile : locate? t path = some (text, .toml)) (hread : Toml.read? text = none) :
    load t environment path = .error .malformed := by
  have hmembers : readFile? text .toml = none := by
    rw [readFile?, hread]
    rfl
  exact load_eq_error (fileLayer_of_unread hfile hmembers) environment

/-- Settings have a TOML form if their integers fit and no string overruns the writer, and a file
with this text gives them back, unless an environment in it is taken for a date: then the file is
refused. -/
theorem toml_form_lossless (s : Settings) :
    ((∃ n ∈ s.integers, Numeral.fitsInt64 n = false) → s.toToml = .error .integerTooLarge) ∧
    ((∀ n ∈ s.integers, Numeral.fitsInt64 n = true) →
      ((∃ x ∈ s.texts, overruns x.toList = true) → s.toToml = .error .overrun) ∧
      ((∀ x ∈ s.texts, overruns x.toList = false) → ∃ text, s.toToml = .ok text ∧
        ∀ t environment path, locate? t path = some (text, .toml) →
          (∀ v ∈ environment, variableName? v.1 = none) →
          ((∀ server ∈ s.servers, ¬ server.Dated) → load t environment path = .ok s) ∧
          ((∃ server ∈ s.servers, server.Dated) →
            ∃ fault, load t environment path = .error fault))) := by
  refine ⟨fun ⟨n, hn, hlarge⟩ => ?_, fun hfits => ?_⟩
  · refine toToml_of_not_fits fun hfits => ?_
    rw [hfits n hn] at hlarge
    cases hlarge
  · obtain ⟨hover, hwrite⟩ := toToml_of_fits hfits
    refine ⟨hover, fun hshort => ?_⟩
    obtain ⟨text, hwrite, hread⟩ := hwrite hshort
    refine ⟨text, hwrite, fun t environment path hfile hvariables =>
      ⟨fun hplain => ?_, fun hdated => ?_⟩⟩
    · obtain ⟨js, hjs, hservers⟩ := mapM_serverSpec? hplain
      rw [hjs] at hread
      rw [load_document s hfile hvariables hread, hservers]
    -- An environment that is not even a date spoils the document, one that is spoils the server.
    · cases hjs : serverTables? s.servers with
      | none =>
        rw [hjs] at hread
        exact ⟨_, load_malformed hfile hread⟩
      | some js =>
        rw [hjs] at hread
        rw [load_document s hfile hvariables hread, mapM_serverSpec?_of_dated hdated hjs]
        exact ⟨_, rfl⟩

theorem locate?_at_root (text : String) :
    locate? { nodes := [(["host.toml"], .file text)] } "/host.toml" = some (text, .toml) := by
  have hname : nameOf? "/host.toml" = some "host.toml".toList := by decide
  have hparts : FileTree.parts "/host.toml" = ["", "host.toml"] := by decide
  have hfind : FileTree.find { nodes := [(["host.toml"], .file text)] } "/host.toml" =
      .ok ["host.toml"] := by
    unfold FileTree.find
    rw [if_neg (by decide), if_neg (by decide), hparts]
    rfl
  have htext : FileTree.text? { nodes := [(["host.toml"], .file text)] } "/host.toml" = some text := by
    unfold FileTree.text?
    rw [hfind]
    rfl
  have hfull : FileTree.fullPath { nodes := [(["host.toml"], .file text)] } "/host.toml" =
      "/host.toml" := rfl
  unfold locate?
  dsimp only
  rw [hfull, hname, htext]
  rfl

theorem toml_form_lossless_quoted :
    let server : ServerSpec := {
      name := "a\"b\nc", group := "é", command := ["''", "\\"],
      env := .ofList [("", "\""), ("a b", "\t'''")] }
    let s : Settings := { host := { name := "" }, servers := [server] }
    ∃ text, s.toToml = .ok text ∧
      load { nodes := [(["host.toml"], .file text)] } [("PATH", "/bin")] "/host.toml" = .ok s := by
  intro server s
  obtain ⟨text, hwrite, hload⟩ := ((toml_form_lossless s).2 (by decide)).2 (by decide)
  exact ⟨text, hwrite, (hload _ _ _ (locate?_at_root text) (by decide)).1 (by decide)⟩

end Settings

end HostSteward
