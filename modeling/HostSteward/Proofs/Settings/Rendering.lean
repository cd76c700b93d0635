import HostSteward.Proofs.Toml.Documents
import HostSteward.Proofs.Toml.Statements
import Mathlib.Tactic.SplitIfs

/-!
# What the TOML form of settings says

A section is a header and a line for each of its settings. A server is a table in a list, and its
environment a table in that one. What is read back of a section is its JSON form with the names in
order; a server is read back the same way, but its environment may be taken for a date.
-/

namespace HostSteward

open Toml

theorem Numeral.fitsInt64_of_lt {n : Nat} (h : n < 0x8000000000000000) : fitsInt64 n = true := by
  unfold fitsInt64
  rw [Bool.and_eq_true, decide_eq_true_eq, decide_eq_true_eq]
  omega

theorem Numeral.fitsInt64_uint16 (n : UInt16) : fitsInt64 n.toNat = true :=
  fitsInt64_of_lt (Nat.lt_trans n.toNat_lt (by decide))

theorem Numeral.fitsInt64_uint32 (n : UInt32) : fitsInt64 n.toNat = true :=
  fitsInt64_of_lt (Nat.lt_trans n.toNat_lt (by decide))

theorem Json.Reader.tidy_eq (members : List (String × Json)) :
    tidy members =
      .object (members.foldl (fun entries m => OrderedMap.insertEntry m.1 m.2 entries) []) := by
  have hentries (ms : List (String × Json)) (start : OrderedMap String Json) :
      (ms.foldl (fun map m => map.insert m.1 m.2) start).entries =
        ms.foldl (fun entries m => OrderedMap.insertEntry m.1 m.2 entries) start.entries := by
    induction ms generalizing start with
    | nil => rfl
    | cons m ms ih => exact ih (start.insert m.1 m.2)
  rw [tidy, OrderedMap.ofList, hentries members .empty]
  rfl

def Json.sorted : Json → Json
  | .object members => Json.Reader.tidy members
  | j => j

namespace HostSettings

def members (s : HostSettings) : Members :=
  [("name", .text s.name), ("boot_mode", .text s.bootMode.label),
    ("controller_port", .value (.int s.controllerPort.toNat))]

theorem says_toToml (s : HostSettings) :
    Says s.toToml (.table ["host"] :: assignments s.members) :=
  (((says_header (by decide) fun _ => rfl).append
    (says_line "name" (spells_string s.name))).append
    (says_line "boot_mode" (spells_string s.bootMode.label))).append
    (says_line "controller_port" (spells_integer (Numeral.fitsInt64_uint16 s.controllerPort)))

theorem toJson?_members (s : HostSettings) :
    Node.tableToJson? s.members = some s.toJson.sorted := rfl

end HostSettings

namespace LifecycleSettings

def integers (s : LifecycleSettings) : List Nat :=
  [s.startPollAttempts.toNat, s.startPollInterval.toNat, s.maxRestarts.toNat,
    s.restartBaseDelay.toNat, s.restartMaxDelay.toNat]

def members (s : LifecycleSettings) : Members :=
  [("start_poll_attempts", .value (.int s.startPollAttempts.toNat)),
    ("start_poll_interval_ms", .value (.int s.startPollInterval.toNat)),
    ("auto_restart", .value (.bool s.autoRestart)),
    ("max_restarts", .value (.int s.maxRestarts.toNat)),
    ("restart_base_delay_ms", .value (.int s.restartBaseDelay.toNat)),
    ("restart_max_delay_ms", .value (.int s.restartMaxDelay.toNat))]

theorem toToml_of_fits {s : LifecycleSettings} (h : ∀ n ∈ s.integers, Numeral.fitsInt64 n = true) :
    ∃ text, s.toToml = .ok text ∧ Says text (.table ["lifecycle"] :: assignments s.members) := by
  have hinterval := h s.startPollInterval.toNat (by simp [integers])
  have hbase := h s.restartBaseDelay.toNat (by simp [integers])
  have hmax := h s.restartMaxDelay.toNat (by simp [integers])
  have hheader : Says (header "lifecycle") [.table ["lifecycle"]] :=
    says_header (by decide) fun _ => rfl
  have htext := (((((hheader.append
    (says_line "start_poll_attempts"
      (spells_integer (Numeral.fitsInt64_uint32 s.startPollAttempts)))).append
    (says_line "start_poll_interval_ms" (spells_integer hinterval))).append
    (says_line "auto_restart" (spells_flag s.autoRestart))).append
    (says_line "max_restarts" (spells_integer (Numeral.fitsInt64_uint32 s.maxRestarts)))).append
    (says_line "restart_base_delay_ms" (spells_integer hbase))).append
    (says_line "restart_max_delay_ms" (spells_integer hmax))
  refine ⟨_, ?_, htext⟩
  rw [toToml, writeInteger, writeInteger, writeInteger, if_pos hinterval, if_pos hbase, if_pos hmax]
  rfl

theorem toToml_of_not_fits {s : LifecycleSettings}
    (h : ¬ ∀ n ∈ s.integers, Numeral.fitsInt64 n = true) : s.toToml = .error .integerTooLarge := by
  have hattempts := Numeral.fitsInt64_uint32 s.startPollAttempts
  have hrestarts := Numeral.fitsInt64_uint32 s.maxRestarts
  simp only [integers, List.forall_mem_cons, hattempts, hrestarts, true_and] at h
  unfold toToml writeInteger
  split_ifs with hinterval hbase hmax
  · exact absurd ⟨hinterval, hbase, hmax, fun _ hn => nomatch hn⟩ h
  all_goals rfl

theorem toJson?_members (s : LifecycleSettings) :
    Node.tableToJson? s.members = some s.toJson.sorted := rfl

end LifecycleSettings

namespace ChangeSettings

def members (s : ChangeSettings) : Members :=
  [("allow_overall_rollback", .value (.bool s.allowOverallRollback)),
    ("concurrent_servers", .value (.bool s.concurrentServers))]

theorem says_toToml (s : ChangeSettings) :
    Says s.toToml (.table ["updates"] :: assignments s.members) :=
  ((says_header (by decide) fun _ => rfl).append
    (says_line "allow_overall_rollback" (spells_flag s.allowOverallRollback))).append
    (says_line "concurrent_servers" (spells_flag s.concurrentServers))

theorem toJson?_members (s : ChangeSettings) :
    Node.tableToJson? s.members = some s.toJson.sorted := rfl

end ChangeSettings

namespace SystemSettings

def members (s : SystemSettings) : Members :=
  [("event_bus_capacity", .value (.int s.busCapacity.toNat))]

theorem toToml_of_fits {s : SystemSettings} (h : Numeral.fitsInt64 s.busCapacity.toNat = true) :
    ∃ text, s.toToml = .ok text ∧ Says text (.table ["system"] :: assignments s.members) := by
  have hheader : Says (header "system") [.table ["system"]] :=
    says_header (by decide) fun _ => rfl
  have htext := hheader.append (says_line "event_bus_capacity" (spells_integer h))
  refine ⟨_, ?_, htext⟩
  rw [toToml, writeInteger, if_pos h]
  rfl

theorem toToml_of_not_fits {s : SystemSettings} (h : ¬ Numeral.fitsInt64 s.busCapacity.toNat = true) :
    s.toToml = .error .integerTooLarge := by
  rw [toToml, writeInteger, if_neg h]
  rfl

theorem toJson?_members (s : SystemSettings) :
    Node.tableToJson? s.members = some s.toJson.sorted := rfl

end SystemSettings

namespace ServerSpec

def element (s : ServerSpec) : Element where
  members := [("name", .text s.name), ("group", .text s.group),
    ("auto_start", .value (.bool s.autoStart)), ("command", .value (.strings s.command))] ++
    s.workingDir.toList.map fun dir => ("working_dir", .text dir)
  inside := s.env.entries.map fun v => (v.1, .text v.2)

theorem says_envToToml (env : OrderedMap String String) :
    Says (envToToml env) (.table ["servers", "env"] ::
      assignments (env.entries.map fun v => (v.1, .text v.2))) := by
  have hlines (vars : List (String × String)) :
      Says (vars.flatMap fun v => line v.1 (stringValue v.2))
        (assignments (vars.map fun v => (v.1, .text v.2))) := by
    induction vars with
    | nil => exact says_nil
    | cons v vars ih => exact (says_line v.1 (spells_string v.2)).append ih
  exact (says_header (by decide) fun _ => rfl).append (hlines env.entries)

theorem says_toToml (s : ServerSpec) : Says s.toToml (s.element.statements "servers" "env") := by
  have hheader : Says (arrayHeader "servers") [.element ["servers"]] :=
    says_arrayHeader fun _ => rfl
  have htext := (((hheader.append (says_line "name" (spells_string s.name))).append
    (says_line "group" (spells_string s.group))).append
    (says_line "auto_start" (spells_flag s.autoStart))).append
    (says_line "command" (spells_strings s.command))
  have henv := says_break.append (says_envToToml s.env)
  unfold toToml element
  cases s.workingDir with
  | none => exact (htext.append says_nil).append henv
  | some dir => exact (htext.append (says_line "working_dir" (spells_string dir))).append henv

theorem distinct_element (s : ServerSpec) : s.element.Distinct "env" := by
  constructor
  · unfold Element.table element
    cases s.workingDir with
    | none =>
      change ["name", "group", "auto_start", "command", "env"].Nodup
      decide
    | some dir =>
      change ["name", "group", "auto_start", "command", "working_dir", "env"].Nodup
      decide
  · have hkeys := s.env.nodup_keys
    simpa [element, OrderedMap.keys, Function.comp_def] using hkeys

end ServerSpec

namespace Settings

def integers (s : Settings) : List Nat :=
  s.host.controllerPort.toNat :: s.lifecycle.integers ++ [s.system.busCapacity.toNat]

def sections (s : Settings) : List (String × Members) :=
  [("host", s.host.members), ("lifecycle", s.lifecycle.members), ("updates", s.changes.members),
    ("system", s.system.members)]

def tables (s : Settings) : Members := s.sections.map fun t => (t.1, .table .header t.2)

def document (s : Settings) (servers : List Json) : Json :=
  .object [("host", s.host.toJson.sorted), ("lifecycle", s.lifecycle.toJson.sorted),
    ("servers", .array servers), ("system", s.system.toJson.sorted),
    ("updates", s.changes.toJson.sorted)]

theorem toJson?_tables (s : Settings) : Node.membersToJson? s.tables =
    some [("host", s.host.toJson.sorted), ("lifecycle", s.lifecycle.toJson.sorted),
      ("updates", s.changes.toJson.sorted), ("system", s.system.toJson.sorted)] := rfl

theorem nodup_sections (s : Settings) : ∀ t ∈ s.sections, (t.2.map (·.1)).Nodup := by
  have hhost : (s.host.members.map (·.1)).Nodup := by
    change ["name", "boot_mode", "controller_port"].Nodup
    decide
  have hlifecycle : (s.lifecycle.members.map (·.1)).Nodup := by
    change ["start_poll_attempts", "start_poll_interval_ms", "auto_restart", "max_restarts",
      "restart_base_delay_ms", "restart_max_delay_ms"].Nodup
    decide
  have hchanges : (s.changes.members.map (·.1)).Nodup := by
    change ["allow_overall_rollback", "concurrent_servers"].Nodup
    decide
  have hsystem : (s.system.members.map (·.1)).Nodup := by simp [SystemSettings.members]
  simp [sections, hhost, hlifecycle, hchanges, hsystem]

/-- Wherever the servers stand, the names are put in order. -/
theorem tidy_tables (host lifecycle updates system servers : Json) :
    Json.Reader.tidy [("host", host), ("lifecycle", lifecycle), ("updates", updates),
      ("system", system), ("servers", servers)] =
      .object [("host", host), ("lifecycle", lifecycle), ("servers", servers), ("system", system),
        ("updates", updates)] ∧
    Json.Reader.tidy [("servers", servers), ("host", host), ("lifecycle", lifecycle),
      ("updates", updates), ("system", system)] =
      .object [("host", host), ("lifecycle", lifecycle), ("servers", servers), ("system", system),
        ("updates", updates)] := by
  simp +decide only [Json.Reader.tidy_eq, List.foldl_cons, List.foldl_nil,
      OrderedMap.insertEntry, if_true, if_false]

/-- The servers as they are read, unless a table among them should be a date but is not. -/
def serverTables? (servers : List ServerSpec) : Option (List Json) :=
  (servers.map fun server => server.element.table "env").mapM Members.toJson?

def sectionStatements (s : Settings) : List Statement :=
  s.sections.flatMap fun t => .table [t.1] :: assignments t.2

theorem foldlM_sectionStatements (s : Settings) {ms : Members}
    (hnew : (ms.map (·.1) ++ ["host", "lifecycle", "updates", "system"]).Nodup) :
    ∃ heading, s.sectionStatements.foldlM Document.add? ⟨[], ms⟩ = some ⟨heading, ms ++ s.tables⟩ :=
  Toml.foldlM_sections s.sections hnew s.nodup_sections []

def noServers : Members := [("servers", .value (.strings []))]

theorem ofStatements?_without_servers (s : Settings) :
    ((Document.ofStatements? (assignments noServers ++ s.sectionStatements)).bind
      fun d => d.root.toJson?) = some (s.document []) := by
  have hfirst : (assignments noServers).foldlM Document.add? {} = some ⟨[], noServers⟩ :=
    @foldlM_assignments [] [] id leads_root noServers (by decide)
  obtain ⟨heading, hsections⟩ := @foldlM_sectionStatements s noServers (by decide)
  have hread : Members.toJson? (noServers ++ s.tables) = some (Json.Reader.tidy
      [("servers", .array []), ("host", s.host.toJson.sorted),
        ("lifecycle", s.lifecycle.toJson.sorted), ("updates", s.changes.toJson.sorted),
        ("system", s.system.toJson.sorted)]) := rfl
  rw [Document.ofStatements?, List.foldlM_append, hfirst, Option.bind_eq_bind, Option.bind_some,
    hsections, Option.bind_some, hread, (tidy_tables _ _ _ _ _).2]
  rfl

theorem ofStatements?_with_servers (s : Settings) (first : ServerSpec) (rest : List ServerSpec) :
    ((Document.ofStatements? (s.sectionStatements ++
      (first :: rest).flatMap fun server => server.element.statements "servers" "env")).bind
      fun d => d.root.toJson?) = (serverTables? (first :: rest)).map s.document := by
  obtain ⟨heading, hsections⟩ : ∃ heading, s.sectionStatements.foldlM Document.add? {} =
    some ⟨heading, s.tables⟩ := @foldlM_sectionStatements s [] (by decide)
  have hname : s.tables.lookup "servers" = none := rfl
  have hhead : ∀ m ∈ s.tables.head?, m.1 ≠ dateTimeKey := by
    rintro m ⟨⟩
    exact (by decide : "host" ≠ dateTimeKey)
  have hfirst := Element.foldlM_first first.distinct_element hname heading
  have hall : ∀ e ∈ rest.map ServerSpec.element, e.Distinct "env" :=
    List.forall_mem_map.2 fun server _ => server.distinct_element
  have hrest := toJson?_elements hname (List.cons_ne_nil _ _) hhead s.toJson?_tables
    (rest.map ServerSpec.element) hall ["servers", "env"] [] (first.element.table "env")
  have hservers : serverTables? (first :: rest) =
      (first.element.table "env" :: (rest.map ServerSpec.element).map (Element.table "env")).mapM
        Members.toJson? := by
    rw [serverTables?, List.map_cons, List.map_map]
    rfl
  rw [List.flatMap_map] at hrest
  rw [Document.ofStatements?, List.foldlM_append, hsections, Option.bind_eq_bind, Option.bind_some,
    List.flatMap_cons, List.foldlM_append, hfirst, Option.bind_eq_bind, Option.bind_some, hservers]
  rw [hrest]
  have htidy (items : List Json) : Json.Reader.tidy ([("host", s.host.toJson.sorted),
      ("lifecycle", s.lifecycle.toJson.sorted), ("updates", s.changes.toJson.sorted),
      ("system", s.system.toJson.sorted)] ++ [("servers", .array ([] ++ items))]) =
      s.document items :=
    (tidy_tables s.host.toJson.sorted s.lifecycle.toJson.sorted s.changes.toJson.sorted
      s.system.toJson.sorted (.array items)).1
  simp only [htidy]

/-! ## Writing and reading back -/

theorem toToml_of_not_fits {s : Settings} (h : ¬ ∀ n ∈ s.integers, Numeral.fitsInt64 n = true) :
    s.toToml = .error .integerTooLarge := by
  by_cases hlifecycle : ∀ n ∈ s.lifecycle.integers, Numeral.fitsInt64 n = true
  · have hsystem : ¬ Numeral.fitsInt64 s.system.busCapacity.toNat = true := by
      intro hsystem
      have hport := Numeral.fitsInt64_uint16 s.host.controllerPort
      refine h (List.forall_mem_cons.2 ⟨hport, List.forall_mem_append.2 ⟨hlifecycle, ?_⟩⟩)
      simpa using hsystem
    obtain ⟨lifecycle, hwrite, -⟩ := LifecycleSettings.toToml_of_fits hlifecycle
    rw [toToml, hwrite, SystemSettings.toToml_of_not_fits hsystem]
    rfl
  · rw [toToml, LifecycleSettings.toToml_of_not_fits hlifecycle]
    rfl

/-- Once the integers are written, what is left to look at are the strings. -/
theorem toToml_of_written {s : Settings} {lifecycle system : List Char}
    (hlifecycle : s.lifecycle.toToml = .ok lifecycle) (hsystem : s.system.toToml = .ok system) :
    s.toToml =
      if s.texts.any (overruns ·.toList) then .error .overrun
      else .ok (String.ofList (List.intercalate ['\n']
        (if s.servers.isEmpty then
          line "servers" (stringArray []) :: [s.host.toToml, lifecycle, s.changes.toToml, system]
        else [s.host.toToml, lifecycle, s.changes.toToml, system] ++
          s.servers.map ServerSpec.toToml))) := by
  rw [toToml, hlifecycle, hsystem]
  split <;> rfl

/-- What the blocks of a text say, with the servers last. -/
theorem says_with_servers {s : Settings} {lifecycle system : List Char}
    (hlifecycle : Says lifecycle (.table ["lifecycle"] :: assignments s.lifecycle.members))
    (hsystem : Says system (.table ["system"] :: assignments s.system.members)) :
    Says (List.intercalate ['\n'] ([s.host.toToml, lifecycle, s.changes.toToml, system] ++
        s.servers.map ServerSpec.toToml))
      (s.sectionStatements ++
        s.servers.flatMap fun server => server.element.statements "servers" "env") := by
  let sections : List (List Char × List Statement) :=
    [(s.host.toToml, .table ["host"] :: assignments s.host.members),
      (lifecycle, .table ["lifecycle"] :: assignments s.lifecycle.members),
      (s.changes.toToml, .table ["updates"] :: assignments s.changes.members),
      (system, .table ["system"] :: assignments s.system.members)]
  let servers : List (List Char × List Statement) :=
    s.servers.map fun server => (server.toToml, server.element.statements "servers" "env")
  have hsections : ∀ b ∈ sections, Says b.1 b.2 := by
    simp [sections, s.host.says_toToml, s.changes.says_toToml, hlifecycle, hsystem]
  have hservers : ∀ b ∈ servers, Says b.1 b.2 :=
    List.forall_mem_map.2 fun server _ => server.says_toToml
  have htext := says_intercalate (List.forall_mem_append.2 ⟨hsections, hservers⟩)
  rw [List.map_append, List.flatMap_append, List.map_map, List.flatMap_map] at htext
  exact htext

/-- What fits is written, unless a string overruns the writer, and read back section by section. -/
theorem toToml_of_fits {s : Settings} (h : ∀ n ∈ s.integers, Numeral.fitsInt64 n = true) :
    ((∃ x ∈ s.texts, overruns x.toList = true) → s.toToml = .error .overrun) ∧
    ((∀ x ∈ s.texts, overruns x.toList = false) → ∃ text, s.toToml = .ok text ∧
      Toml.read? text = (serverTables? s.servers).map s.document) := by
  obtain ⟨-, h⟩ := List.forall_mem_cons.1 h
  obtain ⟨hlifecycle, hsystem⟩ := List.forall_mem_append.1 h
  obtain ⟨lifecycle, hlifecycle, hlifecycleLines⟩ := LifecycleSettings.toToml_of_fits hlifecycle
  obtain ⟨system, hsystem, hsystemLines⟩ :=
    SystemSettings.toToml_of_fits (hsystem _ (List.mem_singleton.2 rfl))
  have htext := says_with_servers hlifecycleLines hsystemLines
  rw [toToml_of_written hlifecycle hsystem]
  refine ⟨fun hover => ?_, fun hshort => ?_⟩
  · rw [if_pos (List.any_eq_true.2 hover)]
  · rw [if_neg (by simpa using hshort)]
    refine ⟨_, rfl, ?_⟩
    cases hservers : s.servers with
    | nil =>
      rw [hservers, List.map_nil, List.flatMap_nil, List.append_nil, List.append_nil] at htext
      have hline : Says (line "servers" (stringArray [])) (assignments noServers) :=
        says_line "servers" (spells_strings [])
      have hfirst : Says (line "servers" (stringArray []) ++ ['\n']) (assignments noServers) := by
        simpa using hline.append says_break
      have hread := read?_of_text (hfirst.append htext)
        (show some 's' ≠ some '\uFEFF' by decide)
      rw [if_pos (show ([] : List ServerSpec).isEmpty = true from rfl), List.intercalate_cons_cons,
        hread]
      exact s.ofStatements?_without_servers
    | cons first rest =>
      rw [hservers] at htext
      have hread := read?_of_text htext (show some '[' ≠ some '\uFEFF' by decide)
      rw [if_neg (show ¬ (first :: rest).isEmpty = true from Bool.false_ne_true), hread]
      exact s.ofStatements?_with_servers first rest

end Settings

end HostSteward
