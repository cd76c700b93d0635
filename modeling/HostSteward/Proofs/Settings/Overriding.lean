import HostSteward.Proofs.Settings.Variables

/-!
# Settings are overridden field by field

A file gives values to some fields, the environment to some. Whatever the case of their names,
a field that the environment sets has its value from there, one that only the file sets has it from
the file, and every other field keeps its default.

The members that the layers are laid into stay complete all the way: each part of the file and
each variable leaves them so, for settings in which just the fields it is about have changed.
-/

namespace HostSteward

/-- A field that is left out has the default. -/
theorem Json.Record.withDefault_map {α β : Type} (r : Record) {name : String} (write : α → Json)
    (read : Json → Option β) (out : α → β) (hread : ∀ a, read (write a) = some (out a))
    {a : Option α} (h : r.value name = a.map write) (default : β) :
    r.withDefault name default read = some ((a.map out).getD default) := by
  unfold withDefault
  rw [h]
  cases a with
  | none => rfl
  | some a => exact hread a

namespace Settings

variable {s : Settings} {given : List Assignment} {members : List (String × Json)}

/-! ## Members -/

theorem lookup_setMember (members : List (String × Json)) (name other : String) (value : Json) :
    (setMember members name value).lookup other =
      if other = name then some value else members.lookup other := by
  have hreplace (members : List (String × Json)) :
      (members.map fun m => if m.1 = name then (name, value) else m).lookup other =
        if other = name then (members.lookup name).map fun _ => value
        else members.lookup other := by
    induction members with
    | nil => simp
    | cons m members ih =>
      obtain ⟨key, below⟩ := m
      rw [List.map_cons]
      by_cases hkey : key = name
      · subst hkey
        by_cases hother : other = key <;> simp_all [List.lookup_cons, beq_false_of_ne]
      · by_cases hother : other = name
        · subst hother
          simp_all [List.lookup_cons, beq_false_of_ne (Ne.symm hkey)]
        · simp_all [List.lookup_cons]
  unfold setMember
  split
  next hany =>
    obtain ⟨m, hm, hname⟩ := List.any_eq_true.1 hany
    have hsome : (members.lookup name).isSome :=
      List.lookup_isSome_iff.2 ⟨m, hm, beq_iff_eq.2 (of_decide_eq_true hname).symm⟩
    obtain ⟨below, hbelow⟩ := Option.isSome_iff_exists.1 hsome
    rw [hreplace, hbelow, Option.map_some]
  next hany =>
    have hnone : members.lookup name = none := List.lookup_eq_none_iff.2 fun m hm =>
      bne_iff_ne.2 fun heq => hany (List.any_eq_true.2 ⟨m, hm, decide_eq_true heq.symm⟩)
    rw [List.lookup_append]
    by_cases hother : other = name
    · subst hother
      rw [hnone, List.lookup_cons_self, if_pos rfl, Option.none_or]
    · rw [List.lookup_cons, beq_false_of_ne hother, if_neg hother]
      exact Option.or_none

/-! ## Tables of fields -/

theorem Holds.congr {t : Settings} {sec : Section} (h : Holds s sec members)
    (hget : ∀ f : Field, f.parent = sec → t.get f = s.get f) : Holds t sec members := by
  intro f hf
  rw [hget f hf]
  exact h f hf

theorem Holds.set {f : Field} (h : Holds s f.parent members) (v : f.Value) :
    Holds (s.set f v) f.parent (setMember members f.label (f.toJson v)) := by
  intro g hg
  rw [lookup_setMember, get_set]
  by_cases hgf : g = f
  · subst hgf
    rw [if_pos rfl, Function.update_self]
  · rw [if_neg fun hlabel => hgf (Field.label_injOn hg hlabel), Function.update_of_ne hgf]
    exact h g hg

theorem Section.label_inj {sec other : Section} (h : sec.label = other.label) : sec = other := by
  revert h
  cases sec <;> cases other <;> decide

theorem Section.label_ne_servers (sec : Section) : sec.label ≠ "servers" := by
  cases sec <;> decide

namespace Complete

/-- The table of a section can be replaced by one in which fields of the section are overridden. -/
theorem setSection {sec : Section} {fields : List (String × Json)} (h : Complete s members)
    (hgiven : ∀ a ∈ given, a.1.parent = sec) (hfields : Holds (s.override given) sec fields) :
    Complete (s.override given) (setMember members sec.label (.object fields)) where
  sections other := by
    rw [lookup_setMember]
    by_cases hother : other = sec
    · subst hother
      exact ⟨fields, if_pos rfl, hfields⟩
    · obtain ⟨below, hbelow, hholds⟩ := h.sections other
      rw [if_neg fun hlabel => hother (Section.label_inj hlabel)]
      refine ⟨below, hbelow, hholds.congr fun f hf => get_override_of_notMem fun hkey => ?_⟩
      obtain ⟨v, hv⟩ := List.exists_of_mem_keys hkey
      exact hother (hf.symm.trans (hgiven _ hv))
  servers := by
    rw [lookup_setMember, if_neg sec.label_ne_servers.symm, override_servers]
    exact h.servers

theorem setServers {servers : List ServerSpec} {items : List Json} (h : Complete s members)
    (hitems : items.mapM Lenient.serverSpec? = some servers) :
    Complete { s with servers := servers } (setMember members "servers" (.array items)) where
  sections sec := by
    rw [lookup_setMember, if_neg sec.label_ne_servers]
    obtain ⟨fields, hfields, hholds⟩ := h.sections sec
    exact ⟨fields, hfields, hholds.congr fun f _ => by cases f <;> rfl⟩
  servers := ⟨items, by rw [lookup_setMember, if_pos rfl], hitems⟩

end Complete

theorem merge_field (below : Json) (f : Field) (v : f.Value) :
    merge below (f.toJson v) = f.toJson v := by
  cases f <;> rfl

structure Assignment.SpelledIn (a : Assignment) (sec : Section) (m : String × Json) : Prop where
  parent : a.1.parent = sec
  name : Text.lowercase m.1 = a.1.label
  value : m.2 = a.1.toJson a.2

theorem parent_of_spelledIn {sec : Section} {above : List (String × Json)}
    (h : List.Forall₂ (·.SpelledIn sec) given above) : ∀ a ∈ given, a.1.parent = sec := by
  induction h with
  | nil => exact fun a ha => absurd ha List.not_mem_nil
  | cons ha _ ih => exact List.forall_mem_cons.2 ⟨ha.parent, ih⟩

theorem Holds.mergeMembers {sec : Section} {fields above : List (String × Json)}
    (h : Holds s sec fields) (habove : List.Forall₂ (·.SpelledIn sec) given above) :
    ∃ merged, Settings.mergeMembers (.object fields) above = .object merged ∧
      Holds (s.override given) sec merged := by
  -- What is below changes with every member above it, and the settings change along with it.
  induction habove generalizing s fields with
  | nil => exact ⟨fields, rfl, h⟩
  | @cons a m given above ha _ ih =>
    obtain ⟨key, value⟩ := m
    obtain ⟨rfl, hname, rfl⟩ := ha
    rw [Settings.mergeMembers, tableMembers, hname, merge_field]
    exact ih (h.set a.2)

/-! ## The servers of a file -/

structure ServerEntry where
  name : String
  group : String
  autoStart : Option Bool := none
  command : Option (List String) := none
  workingDir : Option String := none
  env : Option (List (String × String)) := none

namespace ServerEntry

def complete (e : ServerEntry) : ServerSpec where
  name := e.name
  group := e.group
  autoStart := e.autoStart.getD true
  command := e.command.getD []
  workingDir := e.workingDir
  env := (e.env.map .ofList).getD .empty

structure SpelledBy (e : ServerEntry) (members : List (String × Json)) : Prop where
  name : members.lookup "name" = some (.string e.name)
  group : members.lookup "group" = some (.string e.group)
  autoStart : members.lookup "auto_start" = e.autoStart.map .bool
  command : members.lookup "command" = e.command.map .strings
  workingDir : members.lookup "working_dir" = e.workingDir.map .string
  env : members.lookup "env" =
    e.env.map fun vars => .object (vars.map fun v => (v.1, .string v.2))

theorem SpelledBy.serverSpec? {e : ServerEntry} (h : e.SpelledBy members) :
    Lenient.serverSpec? (.object members) = some e.complete := by
  have hread (value : String) : Lenient.text? (.string value) = some value := rfl
  obtain ⟨r, hrecord, hvalue⟩ : ∃ r : Json.Record,
      (∀ fields, Lenient.record? fields (.object members) = some r) ∧
      ∀ name, r.value name = members.lookup name := ⟨_, fun _ => rfl, fun _ => rfl⟩
  have hautoStart := r.withDefault_map .bool Lenient.flag? id (fun _ => rfl)
    ((hvalue _).trans h.autoStart) true
  have hcommand := r.withDefault_map .strings _ id (Json.listOf?_array hread)
    ((hvalue _).trans h.command) []
  have hworkingDir := r.withDefault_map .string (Json.nullable? Lenient.text?) some (fun _ => rfl)
    ((hvalue _).trans h.workingDir) none
  have henv := r.withDefault_map _ _ OrderedMap.ofList Lenient.env?_object
    ((hvalue _).trans h.env) .empty
  simp only [Lenient.serverSpec?, hrecord, Option.bind_eq_bind, Option.bind_some,
    Json.Record.required, hvalue, h.name, h.group, hread, hautoStart, hcommand, hworkingDir, henv,
    Option.map_id, id_eq]
  unfold complete
  cases e.workingDir <;> rfl

end ServerEntry

/-! ## Parts of a file -/

inductive Part where
  | fields (sec : Section) (given : List Assignment)
  | servers (entries : List ServerEntry)

namespace Part

def assignments : Part → List Assignment
  | fields _ given => given
  | servers _ => []

def entries? : Part → Option (List ServerEntry)
  | fields _ _ => none
  | servers entries => some entries

def apply (p : Part) (s : Settings) : Settings :=
  match p with
  | fields _ given => s.override given
  | servers entries => { s with servers := entries.map ServerEntry.complete }

def SpelledBy : Part → String × Json → Prop
  | fields sec given, m => Text.lowercase m.1 = sec.label ∧
      ∃ above, m.2 = .object above ∧ List.Forall₂ (·.SpelledIn sec) given above
  | servers entries, m => Text.lowercase m.1 = "servers" ∧
      ∃ items, m.2 = .array (items.map .object) ∧ List.Forall₂ ServerEntry.SpelledBy entries items

end Part

theorem mapM_entries {entries : List ServerEntry} {items : List (List (String × Json))}
    (h : List.Forall₂ ServerEntry.SpelledBy entries items) :
    (items.map Json.object).mapM Lenient.serverSpec? = some (entries.map ServerEntry.complete) := by
  induction h with
  | nil => rfl
  | cons he _ ih => rw [List.map_cons, List.mapM_cons, he.serverSpec?, ih]; rfl

theorem ofName_section {name : String} {sec : Section} (h : Text.lowercase name = sec.label) :
    PathStep.ofName name = [.member sec.label] := by
  unfold PathStep.ofName
  rw [h]
  cases sec <;> decide

theorem ofName_servers {name : String} (h : Text.lowercase name = "servers") :
    PathStep.ofName name = [.member "servers"] := by
  unfold PathStep.ofName
  rw [h]
  decide

/-- A part of a file is laid over what it is about, and nothing else. -/
theorem Complete.place_part {p : Part} {m : String × Json} (h : Complete s members)
    (hm : p.SpelledBy m) : ∃ laid, place? m.2 (PathStep.ofName m.1) (.object members) =
      some (.object laid) ∧ Complete (p.apply s) laid := by
  obtain ⟨key, value⟩ := m
  cases p with
  | fields sec given =>
    obtain ⟨hname, above, rfl, habove⟩ := hm
    -- The section has a table already, so the new fields are merged into all of the old ones.
    obtain ⟨fields, hfields, hholds⟩ := h.sections sec
    obtain ⟨merged, hmerged, hlaid⟩ := hholds.mergeMembers habove
    refine ⟨_, ?_, h.setSection (parent_of_spelledIn habove) hlaid⟩
    rw [ofName_section hname, place?, tableMembers, hfields, Option.getD_some, merge, hmerged]
  | servers entries =>
    obtain ⟨hname, items, rfl, hitems⟩ := hm
    refine ⟨_, ?_, h.setServers (mapM_entries hitems)⟩
    rw [ofName_servers hname]
    rfl

theorem Complete.layOver_parts {parts : List Part} {layer : List (String × Json)}
    (h : Complete s members) (hparts : List.Forall₂ Part.SpelledBy parts layer) :
    ∃ laid, layOver? (.object members) layer = some (.object laid) ∧
      Complete (parts.foldl (fun s p => p.apply s) s) laid := by
  induction hparts generalizing s members with
  | nil => exact ⟨members, rfl, h⟩
  | @cons p m parts layer hm _ ih =>
    obtain ⟨laid, hlaid, hcomplete⟩ := h.place_part hm
    obtain ⟨merged, hmerged, hend⟩ := ih hcomplete
    exact ⟨merged, by rw [layOver?_cons, hlaid]; exact hmerged, hend⟩

theorem get_apply_parts (parts : List Part) (s : Settings) :
    (parts.foldl (fun s p => p.apply s) s).get =
      (s.override (parts.flatMap Part.assignments)).get := by
  have happly (p : Part) (s : Settings) : (p.apply s).get = (s.override p.assignments).get := by
    cases p with
    | fields _ _ => rfl
    | servers _ => funext f; cases f <;> rfl
  induction parts generalizing s with
  | nil => rfl
  | cons p parts ih =>
    rw [List.foldl_cons, ih, get_override, happly, List.flatMap_cons, get_override, get_override,
      List.foldl_append]

/-- The servers of a part take the place of any before them. -/
theorem servers_apply_parts (parts : List Part) (s : Settings) :
    (parts.foldl (fun s p => p.apply s) s).servers =
      ((parts.filterMap Part.entries?).getLast?.map (·.map ServerEntry.complete)).getD
        s.servers := by
  induction parts generalizing s with
  | nil => rfl
  | cons p parts ih =>
    rw [List.foldl_cons, ih]
    cases p with
    | fields sec given =>
      rw [List.filterMap_cons_none rfl, Part.apply, override_servers]
    | servers entries =>
      have hcons : (Part.servers entries :: parts).filterMap Part.entries? =
          entries :: parts.filterMap Part.entries? := rfl
      rw [hcons, List.getLast?_cons]
      cases (parts.filterMap Part.entries?).getLast? <;> rfl

/-! ## Variables -/

/-- A variable sets its field, and nothing else. -/
theorem Complete.place_variable (h : Complete s members) (a : Assignment) :
    ∃ laid, place? (a.1.toJson a.2) (PathStep.ofName a.1.path) (.object members) =
      some (.object laid) ∧ Complete (s.set a.1 a.2) laid := by
  obtain ⟨fields, hfields, hholds⟩ := h.sections a.1.parent
  have hgiven : ∀ b ∈ [a], b.1.parent = a.1.parent := by simp
  refine ⟨_, ?_, h.setSection hgiven (hholds.set a.2)⟩
  simp only [ofName_path, place?, tableMembers, hfields, Option.getD_some, merge_field,
    Option.bind_eq_bind, Option.bind_some]
  rfl

theorem Complete.layOver_variables (h : Complete s members) (given : List Assignment) :
    ∃ laid, layOver? (.object members) (given.map fun a => (a.1.path, a.1.toJson a.2)) =
      some (.object laid) ∧ Complete (s.override given) laid := by
  induction given generalizing s members with
  | nil => exact ⟨members, rfl, h⟩
  | cons a given ih =>
    obtain ⟨laid, hlaid, hcomplete⟩ := h.place_variable a
    obtain ⟨merged, hmerged, hend⟩ := ih hcomplete
    exact ⟨merged, by rw [List.map_cons, layOver?_cons, hlaid]; exact hmerged, hend⟩

/-! ## Loading -/

/-- What a file gives: the members of the table in it, or nothing if there is none. -/
def FileGives (t : FileTree) (path : String) (members : List (String × Json)) : Prop :=
  match locate? t path with
  | none => members = []
  | some (text, format) => readFile? text format = some members

theorem fileLayer_of_gives {t : FileTree} {path : String} {members : List (String × Json)}
    (h : FileGives t path members) : fileLayer t path = .ok members := by
  unfold FileGives at h
  cases hlocate : locate? t path with
  | none =>
    rw [hlocate] at h
    unfold fileLayer
    rw [hlocate, h]
  | some found =>
    rw [hlocate] at h
    exact fileLayer_of_read hlocate h

theorem load_of_layers {t : FileTree} {environment : List (String × String)} {path : String}
    {file laid : List (String × Json)} (hfile : FileGives t path file)
    (hlaid : (layOver? ({} : Settings).toJson file).bind
      (layOver? · (variableLayer environment)) = some (.object laid)) (h : Complete s laid) :
    load t environment path = .ok s := by
  rw [load_eq_settle (fileLayer_of_gives hfile), settle_eq_conclude, layOver?_append, hlaid, conclude,
    h.settings?]

variable {t : FileTree} {environment : List (String × String)} {path : String} {parts : List Part}
  {file : List (String × Json)} {fromFile fromEnv : List Assignment}
  {entries : Option (List ServerEntry)}

/-- A file that gives values to some fields, and perhaps servers, is loaded together with an
environment that sets some fields. The names of sections and fields are read in any case. Every
field has its value from the environment if it is set there, else from the file if that gives it
one, else it is left at its default; the servers are those of the file. -/
theorem fields_overridden_separately (hfile : FileGives t path file)
    (hparts : List.Forall₂ Part.SpelledBy parts file)
    (hgiven : parts.flatMap Part.assignments = fromFile) (honce : fromFile.NodupKeys)
    (hentries : parts.filterMap Part.entries? = entries.toList)
    (hset : List.Forall₂ Assignment.SetBy fromEnv
      (environment.filter fun v => (variableName? v.1).isSome)) (hsetOnce : fromEnv.NodupKeys) :
    ∃ s, load t environment path = .ok s ∧
      (∀ f, s.get f =
        (fromEnv.dlookup f).getD ((fromFile.dlookup f).getD (({} : Settings).get f))) ∧
      s.servers = (entries.getD []).map ServerEntry.complete := by
  obtain ⟨base, hbase, hdefaults⟩ := complete_defaults
  obtain ⟨below, hbelow, hcomplete⟩ := hdefaults.layOver_parts hparts
  obtain ⟨laid, hlaid, hend⟩ := hcomplete.layOver_variables fromEnv
  rw [← variableLayer_of_setBy hset] at hlaid
  refine ⟨_, load_of_layers hfile (by rw [hbase, hbelow]; exact hlaid) hend, fun f => ?_, ?_⟩
  · rw [get_override_eq hsetOnce, get_apply_parts, hgiven, get_override_eq honce]
  · rw [override_servers, servers_apply_parts, hentries]
    cases entries <;> rfl

theorem fields_overridden_separately_in_any_case :
    let text := "[HOST]\nName = \"a\"\ncontroller_port = 80\n" ++
      "[[servers]]\nname = \"s\"\ngroup = \"g\"\n"
    let environment := [("PATH", "/bin"), ("HostCtl_Host__Name", "b"),
      ("HOSTCTL_UPDATES__CONCURRENT_SERVERS", "true")]
    load { nodes := [(["host.toml"], .file text)] } environment "/host.toml" = .ok {
      host := { name := "b", controllerPort := 80 }
      changes := { concurrentServers := true }
      servers := [{ name := "s", group := "g" }] } := by
  intro text environment
  let entry : ServerEntry := { name := "s", group := "g" }
  let file : List (String × Json) :=
    [("HOST", .object [("Name", .string "a"), ("controller_port", .nat 80)]),
      ("servers", .array [.object [("group", .string "g"), ("name", .string "s")]])]
  let fromFile : List Assignment := [⟨.hostName, "a"⟩, ⟨.controllerPort, (80 : UInt16)⟩]
  let fromEnv : List Assignment := [⟨.hostName, "b"⟩, ⟨.concurrentServers, true⟩]
  have hfile : FileGives { nodes := [(["host.toml"], .file text)] } "/host.toml" file := by
    unfold FileGives
    rw [locate?_at_root]
    decide +kernel
  have hhost : (Part.fields .host fromFile).SpelledBy file[0] :=
    ⟨by decide, _, rfl, .cons ⟨rfl, by decide, rfl⟩ (.cons ⟨rfl, by decide, rfl⟩ .nil)⟩
  have hservers : (Part.servers [entry]).SpelledBy file[1] :=
    ⟨by decide, [_], rfl, .cons ⟨rfl, rfl, rfl, rfl, rfl, rfl⟩ .nil⟩
  have hset : List.Forall₂ Assignment.SetBy fromEnv
      (environment.filter fun v => (variableName? v.1).isSome) :=
    .cons ⟨by decide, rfl, by decide, by decide, by decide⟩ (.cons ⟨by decide, rfl⟩ .nil)
  obtain ⟨s, hload, hfields, hentries⟩ := fields_overridden_separately hfile
    (.cons hhost (.cons hservers .nil)) rfl (show fromFile.keys.Nodup by decide)
    (show _ = (some [entry]).toList from rfl) hset (show fromEnv.keys.Nodup by decide)
  rw [hload]
  exact congrArg _ (ext_fields (fun f => (hfields f).trans (by cases f <;> rfl)) hentries)

/-- A text that is a switch in capital letters becomes one, and a file in which the environment of
a server begins like a date is not read. -/
theorem load_takes_switches_and_dates :
    ("TRUE" ∉ ["true", "false"] ∧ Numeral.readInt64? "TRUE".toList = none ∧
      readReal? "TRUE".toList = none ∧
      (load {} [("HOSTCTL_HOST__NAME", "TRUE")] "/host.toml").toOption.map (·.host.name) =
        some "true") ∧
    let text := "[[servers]]\nname = \"s\"\ngroup = \"g\"\n" ++
      "[servers.env]\n\"$__toml_private_datetime\" = \"x\"\n"
    load { nodes := [(["host.toml"], .file text)] } [] "/host.toml" = .error .malformed := by
  have hlayer : fileLayer {} "/host.toml" = .ok [] := by decide
  refine ⟨⟨by decide, by decide, by decide, ?_⟩, ?_⟩
  · have hvariables : variableLayer [("HOSTCTL_HOST__NAME", "TRUE")] =
        [(Field.hostName.path, .bool true)] := by
      decide +kernel
    rw [load_eq_settle hlayer, settle_eq_conclude, hvariables, List.nil_append, layOver?_cons,
      ofName_path]
    decide +kernel
  · exact load_malformed (locate?_at_root _) (by decide +kernel)

end Settings

end HostSteward
