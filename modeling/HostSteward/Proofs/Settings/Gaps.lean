import HostSteward.Proofs.Json.Objects
import HostSteward.Proofs.Settings.Literals
import HostSteward.Proofs.Toml.Assignments

/-!
# Places for integers in files

In a file there may be a gap where an integer is the value of a field: whatever integer is put
there, the file gives the same as before but for the value of the literal, and it is refused if the
literal is.
-/

namespace HostSteward.Settings

variable {f : Field}

structure Gap (f : Field) (format : FileFormat) where
  pre : List Char
  post : List Char
  ends : format.Ends post
  before : List (String × Json)
  slot : Slot f
  after : List (String × Json)
  spared : ∀ m ∈ after, Spares f m
  reads : ∀ {w : List Char} {n : Int}, format.Writes w n →
    readFile? (String.ofList (pre ++ (w ++ post))) format =
      (format.literal? (w ++ post)).map fun v => before ++ slot.fill v :: after

namespace Gap

variable {format : FileFormat} (gap : Gap f format)

def text (w : List Char) : String := String.ofList (gap.pre ++ (w ++ gap.post))

def frame {environment : List (String × String)} (henvironment : SparedBy f environment) : Frame f where
  before := gap.before
  slot := gap.slot
  after := gap.after ++ variableLayer environment
  spared m hm := (List.mem_append.1 hm).elim (gap.spared m) (henvironment.layer m)

variable {t : FileTree} {path : String} {environment : List (String × String)}
  (henvironment : SparedBy f environment) {w : List Char} {n : Int}

theorem laid (hfile : locate? t path = some (gap.text w, format)) (hw : format.Writes w n) {v : Json}
    (hv : IsPlain v) (hliteral : format.literal? (w ++ gap.post) = some v) :
    (gap.frame henvironment).Laid v t environment path where
  plain := hv
  layers := by
    refine ⟨gap.before ++ gap.slot.fill v :: gap.after, ?_, ?_⟩
    · have hread := gap.reads hw
      rw [hliteral] at hread
      delta FileGives
      rw [hfile]
      exact hread
    · rw [Frame.layers, frame, List.append_assoc, List.cons_append]

theorem malformed (hfile : locate? t path = some (gap.text w, format)) (hw : format.Writes w n)
    (hliteral : format.literal? (w ++ gap.post) = none) :
    load t environment path = .error .malformed := by
  have hread := gap.reads hw
  rw [hliteral] at hread
  have htext : readFile? (gap.text w) format = none := hread
  exact load_eq_error (fileLayer_of_unread hfile htext) environment

end Gap

/-! ## A field in its section -/

structure Surroundings (f : Field) where
  sectionName : String
  isSection : Text.lowercase sectionName = f.parent.label
  fieldName : String
  isField : Text.lowercase fieldName = f.label
  fieldsBefore : List (String × Json)
  fieldsAfter : List (String × Json)
  otherFields : ∀ m ∈ fieldsBefore ++ fieldsAfter, Text.lowercase m.1 ≠ f.label
  sectionsBefore : List (String × Json)
  sectionsAfter : List (String × Json)
  otherSections : ∀ m ∈ sectionsBefore ++ sectionsAfter, ∃ other path,
    PathStep.ofName m.1 = .member other :: path ∧ other ≠ f.parent.label

namespace Surroundings

variable (a : Surroundings f)

def document (v : Json) : Json :=
  Json.Reader.tidy (a.sectionsBefore ++
    (a.sectionName, Json.Reader.tidy (a.fieldsBefore ++ (a.fieldName, v) :: a.fieldsAfter)) ::
      a.sectionsAfter)

/-- The members of the file are the same for every value at the field. -/
theorem document_eq : ∃ sections sections' fields fields' : List (String × Json),
    (∀ m ∈ sections ++ sections', ∃ other path,
      PathStep.ofName m.1 = .member other :: path ∧ other ≠ f.parent.label) ∧
    (∀ m ∈ fields ++ fields', Text.lowercase m.1 ≠ f.label) ∧
    ∀ v, a.document v = .object (sections ++
      (a.sectionName, .object (fields ++ (a.fieldName, v) :: fields')) :: sections') := by
  have hsections : ∀ m ∈ a.sectionsAfter, m.1 ≠ a.sectionName := by
    intro m hm heq
    obtain ⟨other, path, hname, hother⟩ := a.otherSections m (List.mem_append_right _ hm)
    rw [heq, ofName_section a.isSection] at hname
    exact hother (PathStep.member.inj (List.cons.inj hname).1).symm
  have hfields : ∀ m ∈ a.fieldsAfter, m.1 ≠ a.fieldName := by
    intro m hm heq
    exact a.otherFields m (List.mem_append_right _ hm) (heq ▸ a.isField)
  obtain ⟨sections, sections', hmem, houter⟩ :=
    OrderedMap.ofList_around a.sectionsBefore hsections
  obtain ⟨fields, fields', hmem', hinner⟩ :=
    OrderedMap.ofList_around a.fieldsBefore hfields
  refine ⟨sections, sections', fields, fields', fun m hm => a.otherSections m (hmem m hm),
    fun m hm => a.otherFields m (hmem' m hm), fun v => ?_⟩
  rw [document, Json.Reader.tidy, Json.Reader.tidy, houter, hinner]

end Surroundings

theorem narrowMembers_eq_map (members : List (String × Json)) :
    narrowMembers members = members.map fun m => (m.1, narrow m.2) := by
  induction members with
  | nil => rfl
  | cons m members ih => rw [narrowMembers, List.map_cons, ih]

open Json.Reader in
/-- The value of a field of a section in a file in JSON. -/
theorem exists_gap_json (a : Surroundings f) {inner : Nat} {first pre post last : List Char}
    (hleads : Leads maxDepth inner pre post a.document) (hpre : Starts pre) (hfirst : Spaces first)
    (hlast : Spaces last) (hends : Json.Reader.Ends (post ++ last)) :
    ∃ gap : Gap f .json, gap.pre = first ++ pre ∧ gap.post = post ++ last := by
  obtain ⟨sections, sections', fields, fields', hsections, hfields, hdocument⟩ := a.document_eq
  have hfields' : ∀ m ∈ narrowMembers fields', Text.lowercase m.1 ≠ f.label := by
    intro m hm
    rw [narrowMembers_eq_map] at hm
    obtain ⟨field, hfield, rfl⟩ := List.mem_map.1 hm
    exact hfields field (List.mem_append_right _ hfield)
  refine ⟨{
    pre := first ++ pre
    post := post ++ last
    ends := hends
    before := narrowMembers sections
    slot := .table a.sectionName (ofName_section a.isSection) (narrowMembers fields) a.fieldName
      a.isField (narrowMembers fields') hfields'
    after := narrowMembers sections'
    spared := ?_
    reads := ?_ }, rfl, rfl⟩
  · intro m hm
    rw [narrowMembers_eq_map] at hm
    obtain ⟨table, htable, rfl⟩ := List.mem_map.1 hm
    obtain ⟨other, path, hname, hother⟩ := hsections table (List.mem_append_right _ htable)
    exact .elsewhere hname hother
  · intro w n hw
    have hread := Json.read?_integer hleads hpre hfirst hlast hends hw
    have hnarrow (v : Json) : narrow (a.document v) = .object (narrowMembers sections ++
        (a.sectionName, .object (narrowMembers fields ++ (a.fieldName, narrow v) ::
          narrowMembers fields')) :: narrowMembers sections') := by
      rw [hdocument, narrow]
      simp only [narrowMembers_eq_map, List.map_append, List.map_cons, narrow]
    rw [readFile?, List.append_assoc, hread, FileFormat.literal?]
    cases number? (w ++ (post ++ last)) with
    | none => rfl
    | some r =>
      rw [Option.map_some, Option.map_some, Option.map_some, Option.bind_some, hnarrow]
      rfl

structure TomlLines (a : Surroundings f) where
  sections : List (String × Toml.Members)
  sections' : List (String × Toml.Members)
  fields : Toml.Members
  fields' : Toml.Members
  sectionNames : (sections.map (·.1) ++ a.sectionName :: sections'.map (·.1)).Nodup
  fieldNames : (fields.map (·.1) ++ a.fieldName :: fields'.map (·.1)).Nodup
  otherNames : ∀ s ∈ sections ++ sections', (s.2.map (·.1)).Nodup
  noDates : ∀ s ∈ sections, s.1 ≠ Toml.dateTimeKey
  noDate : ∀ m ∈ fields, m.1 ≠ Toml.dateTimeKey
  tables : Toml.Node.membersToJson? (Toml.headed sections) = some a.sectionsBefore
  tables' : Toml.Node.membersToJson? (Toml.headed sections') = some a.sectionsAfter
  values : Toml.Node.membersToJson? fields = some a.fieldsBefore
  values' : Toml.Node.membersToJson? fields' = some a.fieldsAfter

theorem ne_dateTimeKey {name label : String} (hname : Text.lowercase name = label)
    (hlabel : label ≠ Toml.dateTimeKey) : name ≠ Toml.dateTimeKey := by
  have hsmall : Text.lowercase Toml.dateTimeKey = Toml.dateTimeKey := by decide +kernel
  rintro rfl
  exact hlabel (hname.symm.trans hsmall)

open Toml in
/-- The value of a field of a section in a file in TOML. -/
theorem exists_gap_toml (a : Surroundings f) (lines : TomlLines a)
    {pre key white tail more : List Char}
    (hpre : Says pre
      (statementsOf lines.sections ++ .table [a.sectionName] :: assignments lines.fields))
    (hkey : IsKey key [a.fieldName]) (hwhite : ∀ c ∈ white, isWhite c = true)
    (htail : lineEnd? (tail ++ more) = some more)
    (hmore : Says more (assignments lines.fields' ++ statementsOf lines.sections'))
    (hmark : (pre ++ key).head? ≠ some '\uFEFF') :
    ∃ gap : Gap f .toml, gap.pre = pre ++ (key ++ '=' :: white) ∧ gap.post = tail ++ more := by
  obtain ⟨sections, sections', fields, fields', hsections, hfields, hdocument⟩ := a.document_eq
  have hsection : a.sectionName ≠ dateTimeKey :=
    ne_dateTimeKey a.isSection (by cases f.parent <;> decide)
  have hfield : a.fieldName ≠ dateTimeKey :=
    ne_dateTimeKey a.isField (by cases f <;> decide)
  refine ⟨{
    pre := pre ++ (key ++ '=' :: white)
    post := tail ++ more
    ends := ends_of_lineEnd? htail
    before := sections
    slot := .table a.sectionName (ofName_section a.isSection) fields a.fieldName a.isField fields'
      fun m hm => hfields m (List.mem_append_right _ hm)
    after := sections'
    spared := ?_
    reads := ?_ }, rfl, rfl⟩
  · intro m hm
    obtain ⟨other, path, hname, hother⟩ := hsections m (List.mem_append_right _ hm)
    exact .elsewhere hname hother
  · intro w n hw
    have hread := read?_integer hpre hkey hwhite hw htail hmore hmark
    have htext : pre ++ (key ++ '=' :: white) ++ (w ++ (tail ++ more)) =
        pre ++ (key ++ '=' :: (white ++ (w ++ (tail ++ more)))) := by
      simp only [List.append_assoc, List.cons_append]
    have hstatements (v : Json) := ofStatements?_sections lines.sectionNames lines.otherNames
      lines.fieldNames lines.noDates hsection lines.noDate hfield lines.tables lines.tables'
      lines.values lines.values' v
    rw [readFile?, htext, hread, FileFormat.literal?, scalar?_integer hw (ends_of_lineEnd? htail)]
    cases integerIn? n (tail ++ more) with
    | none => rfl
    | some r =>
      rw [Option.bind_some, hstatements]
      change (Json.object? (a.document r.1)) = _
      rw [hdocument]
      rfl

end HostSteward.Settings
