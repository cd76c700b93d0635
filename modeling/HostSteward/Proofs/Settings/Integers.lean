import HostSteward.Proofs.Settings.Gaps

/-!
# Integers are kept or refused, but for those beyond 64 bits

An integer that is given for a field in a file or by a variable is kept if it is in the range of the
field, and refused if it is not, as long as it has 64 bits with a sign. Beyond them TOML refuses
every integer. In JSON and in a variable it is replaced by another one, unless it happens to come out
the same, and only then the range of the field counts.
-/

namespace HostSteward.Settings

variable {f : Field} {w : List Char} {n : Int} {size : Nat}

/-! ## Numbers of a kind -/

namespace Kind

/-- The numbers of a kind are less than this. -/
def size? : Kind → Option Nat
  | .uint16 => some UInt16.size
  | .uint32 => some UInt32.size
  | .uint64 => some UInt64.size
  | .text | .bootMode | .flag => none

def ofNat? : (k : Kind) → Nat → Option k.Value
  | .uint16, n => if n < UInt16.size then some (UInt16.ofNat n) else none
  | .uint32, n => if n < UInt32.size then some (UInt32.ofNat n) else none
  | .uint64, n => if n < UInt64.size then some (UInt64.ofNat n) else none
  | .text, _ | .bootMode, _ | .flag, _ => none

def toNat? : (k : Kind) → k.Value → Option Nat
  | .uint16, x => some (UInt16.toNat x)
  | .uint32, x => some (UInt32.toNat x)
  | .uint64, x => some (UInt64.toNat x)
  | .text, _ | .bootMode, _ | .flag, _ => none

theorem toNat?_of_ofNat? {k : Kind} {n : Nat} {x : k.Value} (h : k.ofNat? n = some x) :
    k.toNat? x = some n := by
  cases k with
  | uint16 =>
    obtain ⟨hn, h⟩ := Option.ite_none_right_eq_some.1 h
    obtain rfl := Option.some.inj h
    exact congrArg some (UInt16.toNat_ofNat_of_lt' hn)
  | uint32 =>
    obtain ⟨hn, h⟩ := Option.ite_none_right_eq_some.1 h
    obtain rfl := Option.some.inj h
    exact congrArg some (UInt32.toNat_ofNat_of_lt' hn)
  | uint64 =>
    obtain ⟨hn, h⟩ := Option.ite_none_right_eq_some.1 h
    obtain rfl := Option.some.inj h
    exact congrArg some (UInt64.toNat_ofNat_of_lt' hn)
  | text | bootMode | flag => cases h

theorem isSome_ofNat? {k : Kind} (h : k.size? = some size) (n : Nat) :
    (k.ofNat? n).isSome = decide (n < size) := by
  have hbelow {α : Type} (x : α) (bound : Nat) :
      (if n < bound then some x else none).isSome = decide (n < bound) := by
    split
    next hn => rw [decide_eq_true hn, Option.isSome_some]
    next hn => rw [decide_eq_false hn, Option.isSome_none]
  cases k with
  | uint16 | uint32 | uint64 =>
    cases h
    exact hbelow _ _
  | text | bootMode | flag => cases h

theorem pos_of_size? {k : Kind} (h : k.size? = some size) : 0 < size := by
  cases k with
  | uint16 | uint32 | uint64 =>
    cases h
    decide
  | text | bootMode | flag => cases h

theorem read?_number {k : Kind} (h : k.size? = some size) (j : Json) :
    k.read? j = (Lenient.number? j).bind k.ofNat? := by
  have hbelow {α : Type} (f : Nat → α) (bound : Nat) :
      (Lenient.numberBelow? bound j).map f =
        (Lenient.number? j).bind fun n => if n < bound then some (f n) else none := by
    rw [Lenient.numberBelow?]
    cases Lenient.number? j with
    | none => rfl
    | some n =>
      rw [Option.bind_eq_bind, Option.bind_some, Option.bind_some]
      split <;> rfl
  cases k with
  | uint16 | uint32 | uint64 => exact hbelow _ _
  | text | bootMode | flag => cases h

end Kind

/-! ## Where integers are given -/

inductive Origin where
  | file (format : FileFormat)
  | environment

namespace Origin

def Writes : Origin → List Char → Int → Prop
  | .file format => format.Writes
  | .environment => Numeral.Writes

def Refuses : Origin → Int → Prop
  | .file format => format.Refuses
  | .environment => fun _ => False

theorem writes_zero (o : Origin) : o.Writes ['0'] 0 := by
  cases o with
  | file format =>
    cases format with
    | toml => exact Toml.writes_digits 0
    | json => exact .unsigned 0
  | environment => exact .unsigned (List.cons_ne_nil '0' []) (List.forall_mem_singleton.2 rfl)

theorem not_refuses (o : Origin) (h : Numeral.fitsInt64 n = true) : ¬ o.Refuses n := by
  have hbounds := fitsInt64_iff.1 h
  have hsize : UInt64.size = 18446744073709551616 := rfl
  cases o with
  | file format =>
    cases format with
    | toml => exact fun hrefuses => Bool.false_ne_true (hrefuses.symm.trans h)
    | json =>
      intro hrefuses
      have hlarge : UInt64.size ≤ n.natAbs := hrefuses
      omega
  | environment => exact id

end Origin

/-- The file tree and the variables as they are with the text of an integer in one place. -/
inductive Place (f : Field) (path : String) :
    Origin → (List Char → FileTree) → (List Char → List (String × String)) → Prop
  | inFile {format : FileFormat} (gap : Gap f format) {t : List Char → FileTree}
      (ht : ∀ w, locate? (t w) path = some (gap.text w, format))
      {environment : List (String × String)} (henvironment : SparedBy f environment) :
      Place f path (.file format) t fun _ => environment
  | inVariable (t : FileTree) (before : List (String × String)) {key : String}
      (hkey : Text.lowercase key = "hostctl_" ++ f.parent.label ++ "__" ++ f.label)
      {after : List (String × String)} (hafter : SparedBy f after) :
      Place f path .environment (fun _ => t) fun w => before ++ (key, String.ofList w) :: after

namespace Place

variable {o : Origin} {t : List Char → FileTree} {environment : List Char → List (String × String)}
  {path : String}

/-- Either nothing can be loaded whatever the integer is, or it is refused, or it is laid over the
other layers as what it is taken for. -/
theorem cases_writes (h : Place f path o t environment) :
    (o = .environment ∧ ∀ w, load (t w) (environment w) path = .error .malformed) ∨
      ∃ F : Frame f, ∀ {w : List Char} {n : Int}, o.Writes w n →
        o.Refuses n ∧ load (t w) (environment w) path = .error .malformed ∨
        (o = .file .toml → Numeral.fitsInt64 n = true) ∧ ∃ v,
          F.Laid v (t w) (environment w) path ∧ Lenient.number? v = taken? n := by
  cases h with
  | @inFile format gap t ht environment henvironment =>
    refine .inr ⟨gap.frame henvironment, fun {w n} hw => ?_⟩
    rcases format.literal?_integer hw gap.ends with ⟨hnone, hrefuses⟩ | ⟨v, hv, htoml, hplain, htaken⟩
    · exact .inl ⟨hrefuses, gap.malformed (ht w) hw hnone⟩
    · refine .inr ⟨fun ho => htoml (Origin.file.inj ho), v, ?_, htaken⟩
      exact gap.laid henvironment (ht w) hw hplain hv
  | inVariable t before hkey hafter =>
    rcases fileGives_or_malformed t path with ⟨file, hfile⟩ | hmalformed
    · refine .inr ⟨Frame.ofVariable f file before hafter, fun {w n} hw => .inr ⟨nofun, ?_⟩⟩
      refine ⟨variableValue (String.ofList w), ?_, number?_variableValue hw⟩
      exact Frame.laid_ofVariable before hafter hfile (variableName?_of_lowercase hkey) _
    · exact .inl ⟨rfl, fun _ => hmalformed _⟩

/-- Unless the integer is refused, all else is loaded as with a zero in its place, and the field is
what the integer is taken for. -/
theorem load_eq (h : Place f path o t environment) (hkind : f.kind.size? = some size)
    (hw : o.Writes w n) :
    o.Refuses n ∧ load (t w) (environment w) path = .error .malformed ∨
      (o = .file .toml → Numeral.fitsInt64 n = true) ∧ load (t w) (environment w) path =
        (load (t ['0']) (environment ['0']) path).bind fun s =>
          match (taken? n).bind f.kind.ofNat? with
          | some x => .ok (s.set f x)
          | none => .error .invalid := by
  rcases h.cases_writes with ⟨rfl, hmalformed⟩ | ⟨F, hF⟩
  · refine .inr ⟨nofun, ?_⟩
    rw [hmalformed, hmalformed]
    rfl
  · rcases hF hw with hrefused | ⟨htoml, v, hlaid, hv⟩
    · exact .inl hrefused
    rcases hF o.writes_zero with ⟨hrefused, -⟩ | ⟨-, v₀, hlaid₀, hv₀⟩
    · exact absurd hrefused (o.not_refuses rfl)
    refine .inr ⟨htoml, ?_⟩
    have hread (v : Json) : f.read? v = (Lenient.number? v).bind f.kind.ofNat? :=
      Kind.read?_number hkind v
    have hsome : (f.read? v₀).isSome := by
      rw [hread, hv₀]
      exact (Kind.isSome_ofNat? hkind 0).trans (decide_eq_true (Kind.pos_of_size? hkind))
    rw [hlaid.load_eq_bind hlaid₀ hsome, hread, hv]
    rfl

end Place

/-! ## What a field becomes -/

def Stores (f : Field) (size m : Nat) (others loaded : Except LoadFault Settings) : Prop :=
  (m < size → ∃ x, f.kind.toNat? x = some m ∧ loaded = others.map (·.set f x)) ∧
    (size ≤ m → loaded = others.bind fun _ => .error .invalid)

theorem stores_ofNat? (hkind : f.kind.size? = some size) {m : Nat}
    {others loaded : Except LoadFault Settings}
    (h : loaded = others.bind fun s =>
      match f.kind.ofNat? m with
      | some x => .ok (s.set f x)
      | none => .error .invalid) : Stores f size m others loaded := by
  have hsome := Kind.isSome_ofNat? hkind m
  cases hx : f.kind.ofNat? m with
  | none =>
    rw [hx] at h hsome
    have hout : size ≤ m := by simpa using hsome
    exact ⟨fun hin => absurd hin (by omega), fun _ => h⟩
  | some x =>
    rw [hx] at h hsome
    have hin : m < size := by simpa using hsome
    refine ⟨fun _ => ⟨x, Kind.toNat?_of_ofNat? hx, ?_⟩, fun hout => absurd hin (by omega)⟩
    rw [h]
    cases others <;> rfl

variable {o : Origin} {t : List Char → FileTree} {environment : List Char → List (String × String)}
  {path : String}

/-- An integer of 64 bits with a sign is given to its field if it is in the range of the field, and
else there are no settings. Of the integers beyond them a file in TOML has none. A file in JSON that
has one, and a variable, give the field a number that stands in for it, which is the integer itself
only in some cases. -/
theorem integer_kept_within_int64 (hplace : Place f path o t environment)
    (hkind : f.kind.size? = some size) (hw : o.Writes w n) :
    let others := load (t ['0']) (environment ['0']) path
    let loaded := load (t w) (environment w) path
    (Numeral.fitsInt64 n = true →
      (0 ≤ n → Stores f size n.toNat others loaded) ∧
        (n < 0 → loaded = others.bind fun _ => .error .invalid)) ∧
    (Numeral.fitsInt64 n = false →
      (o.Refuses n ∧ loaded = .error .malformed ∨
        o ≠ .file .toml ∧ Stores f size (standIn n) others loaded) ∧
      ((standIn n : Int) = n ↔ 0 ≤ n ∧ n < UInt64.size ∧ (2048 ∣ n ∨ n = UInt64.size - 1))) := by
  intro others loaded
  have hload := hplace.load_eq hkind hw
  refine ⟨fun hfits => ?_, fun hbeyond => ⟨?_, standIn_eq_self_iff hbeyond⟩⟩
  · obtain ⟨-, hload⟩ := hload.resolve_left fun hrefused => o.not_refuses hfits hrefused.1
    rw [taken?, if_pos hfits] at hload
    refine ⟨fun hn => ?_, fun hn => ?_⟩
    · rw [if_pos hn] at hload
      exact stores_ofNat? hkind hload
    · rw [if_neg (Int.not_le.2 hn)] at hload
      exact hload
  · rw [taken?, if_neg (Bool.eq_false_iff.1 hbeyond)] at hload
    refine hload.imp_right fun htaken => ⟨fun ho => ?_, stores_ofNat? hkind htaken.2⟩
    rw [htaken.1 ho] at hbeyond
    cases hbeyond

theorem locate?_json_at_root (text : String) :
    locate? { nodes := [(["host.json"], .file text)] } "/host.json" = some (text, .json) := by
  have hname : nameOf? "/host.json" = some "host.json".toList := by decide
  have hparts : FileTree.parts "/host.json" = ["", "host.json"] := by decide
  have hfind : FileTree.find { nodes := [(["host.json"], .file text)] } "/host.json" =
      .ok ["host.json"] := by
    unfold FileTree.find
    rw [if_neg (by decide), if_neg (by decide), hparts]
    rfl
  have htext : FileTree.text? { nodes := [(["host.json"], .file text)] } "/host.json" = some text := by
    unfold FileTree.text?
    rw [hfind]
    rfl
  have hfull : FileTree.fullPath { nodes := [(["host.json"], .file text)] } "/host.json" =
      "/host.json" := rfl
  unfold locate?
  dsimp only
  rw [hfull, hname, htext]
  rfl

def Surroundings.busCapacity : Surroundings .busCapacity where
  sectionName := "system"
  isSection := by decide
  fieldName := "event_bus_capacity"
  isField := by decide
  fieldsBefore := []
  fieldsAfter := []
  otherFields := nofun
  sectionsBefore := []
  sectionsAfter := []
  otherSections := nofun

open Json.Reader in
theorem exists_gap_json_busCapacity : ∃ gap : Gap .busCapacity .json, ∀ w, gap.text w =
    String.ofList ("\x7b\"system\": \x7b\"event_bus_capacity\": ".toList ++
      (w ++ "\x7d\x7d\n".toList)) := by
  have hspaces : Spaces [] := nofun
  have hquoted (name : String)
      (hname : name.toList.all (fun c => c ≠ '"' ∧ c ≠ '\\' ∧ 0x20 ≤ c.toNat) = true)
      (rest : List Char) : string? [] (name.toList ++ ['"'] ++ rest) = some (name, rest) := by
    rw [List.append_assoc]
    refine (string?_plain (fun c hc => of_decide_eq_true (List.all_eq_true.1 hname c hc))
      [] rest).trans ?_
    rw [List.reverse_nil, List.nil_append, String.ofList_toList]
  have hmember (depth : Nat) (hdepth : 1 < depth) (name : String)
      (hname : name.toList.all (fun c => c ≠ '"' ∧ c ≠ '\\' ∧ 0x20 ≤ c.toNat) = true) :=
    leads_member hdepth hspaces hspaces (show Spaces [' '] by decide) lists_nil
      (fun h => absurd rfl h) (hquoted name hname) (closes_brace hspaces)
  have hleads := (hmember maxDepth (by decide) "system" (by decide)).trans
    (hmember (maxDepth - 1) (by decide) "event_bus_capacity" (by decide)) ⟨'{', _, rfl, rfl⟩
  obtain ⟨gap, hpre, hpost⟩ := exists_gap_json .busCapacity hleads ⟨'{', _, rfl, rfl⟩ hspaces
    (show Spaces ['\n'] by decide) (by rintro c ⟨⟩; decide)
  refine ⟨gap, fun w => ?_⟩
  rw [Gap.text, hpre, hpost]
  rfl

open Toml in
theorem exists_gap_toml_busCapacity : ∃ gap : Gap .busCapacity .toml, ∀ w, gap.text w =
    String.ofList ("[system]\nevent_bus_capacity = ".toList ++ (w ++ "\n".toList)) := by
  let lines : TomlLines .busCapacity := {
    sections := []
    sections' := []
    fields := []
    fields' := []
    sectionNames := by simp
    fieldNames := by simp
    otherNames := nofun
    noDates := nofun
    noDate := nofun
    tables := rfl
    tables' := rfl
    values := rfl
    values' := rfl }
  have hheader : Says (header "system") [.table ["system"]] :=
    says_header (by decide) fun _ => rfl
  have hwhite : ∀ c ∈ [' '], isWhite c = true := List.forall_mem_singleton.2 rfl
  have hline : lineEnd? (['\n'] ++ []) = some [] := rfl
  obtain ⟨gap, hpre, hpost⟩ := exists_gap_toml .busCapacity lines hheader
    (isKey_writeKey "event_bus_capacity") hwhite hline says_nil (by decide)
  refine ⟨gap, fun w => ?_⟩
  rw [Gap.text, hpre, hpost]
  rfl

theorem integer_kept_within_int64_above :
    let json := "\x7b\"system\": \x7b\"event_bus_capacity\": 9223372036854775809\x7d\x7d\n"
    let toml := "[system]\nevent_bus_capacity = 9223372036854775809\n"
    load { nodes := [(["host.json"], .file json)] } [] "/host.json" =
        .ok { system := { busCapacity := 9223372036854775808 } } ∧
      load { nodes := [(["host.toml"], .file toml)] } [] "/host.toml" = .error .malformed := by
  intro json toml
  constructor
  · obtain ⟨gap, hgap⟩ := exists_gap_json_busCapacity
    let t (w : List Char) : FileTree := { nodes := [(["host.json"], .file (gap.text w))] }
    have hplace : Place .busCapacity "/host.json" (.file .json) t fun _ => [] :=
      .inFile gap (fun w => locate?_json_at_root (gap.text w)) nofun
    have hwrites : Origin.Writes (.file .json) (Numeral.digits 9223372036854775809)
        9223372036854775809 := .unsigned 9223372036854775809
    obtain ⟨-, hbeyond⟩ := integer_kept_within_int64 hplace rfl hwrites
    obtain ⟨hrefused | ⟨-, hstores, -⟩, -⟩ := hbeyond (by decide)
    · exact absurd hrefused.1 (show ¬ UInt64.size ≤ 9223372036854775809 by decide)
    obtain ⟨x, hx, hload⟩ := hstores (by decide)
    have hzero : load (t ['0']) [] "/host.json" = .ok { system := { busCapacity := 0 } } := by
      have hlayer : fileLayer (t ['0']) "/host.json" =
          .ok [("system", .object [("event_bus_capacity", .int 0)])] := by
        simp only [t, hgap]
        decide +kernel
      rw [load_eq_settle hlayer, settle_eq_conclude]
      decide +kernel
    have hx : x = (9223372036854775808 : UInt64) := by
      have hnumber : UInt64.toNat x = 9223372036854775808 := (Option.some.inj hx).trans (by decide)
      exact UInt64.toNat_inj.1 hnumber
    have htext : gap.text (Numeral.digits 9223372036854775809) = json := by
      rw [hgap]
      decide +kernel
    rw [hzero, hx] at hload
    simp only [t, htext] at hload
    exact hload
  · obtain ⟨gap, hgap⟩ := exists_gap_toml_busCapacity
    let t (w : List Char) : FileTree := { nodes := [(["host.toml"], .file (gap.text w))] }
    have hplace : Place .busCapacity "/host.toml" (.file .toml) t fun _ => [] :=
      .inFile gap (fun w => locate?_at_root (gap.text w)) nofun
    have hwrites : Origin.Writes (.file .toml) (Numeral.digits 9223372036854775809)
        9223372036854775809 := Toml.writes_digits 9223372036854775809
    obtain ⟨-, hbeyond⟩ := integer_kept_within_int64 hplace rfl hwrites
    obtain ⟨⟨-, hload⟩ | ⟨htoml, -⟩, -⟩ := hbeyond (by decide)
    · have htext : gap.text (Numeral.digits 9223372036854775809) = toml := by
        rw [hgap]
        decide +kernel
      simp only [t, htext] at hload
      exact hload
    · exact absurd rfl htoml

end HostSteward.Settings
