import HostSteward.Proofs.Settings.Overriding

/-!
# A field is what was given for it last

Layers may give a field a value, in the table of its section or by its path, and others after them
may be about anything else. Then the settings have just this value, read as far as it can be for the
kind of the field, and all their other fields do not depend on it.

Two runs of the layers, with different values at the same place, are followed side by side. What
they put together stays alike but for the field.
-/

namespace HostSteward.Settings

/-! ## Reading field by field -/

def Kind.read? : (k : Kind) → Json → Option k.Value
  | .text => Lenient.text?
  | .bootMode => Lenient.bootMode?
  | .uint16 => Lenient.uint16?
  | .uint32 => Lenient.uint32?
  | .uint64 => Lenient.uint64?
  | .flag => Lenient.flag?

def Field.read? (f : Field) (j : Json) : Option f.Value := f.kind.read? j

def Section.fields : Section → List Field
  | .host => [.hostName, .bootMode, .controllerPort]
  | .lifecycle => [.startPollAttempts, .startPollInterval, .autoRestart, .maxRestarts,
      .restartBaseDelay, .restartMaxDelay]
  | .changes => [.allowOverallRollback, .concurrentServers]
  | .system => [.busCapacity]

variable {s : Settings} {f : Field} {v w : Json}

/-- A record gives a field the value that the settings have in it. -/
def Shows (s : Settings) (r : Json.Record) (f : Field) : Prop :=
  r.withDefault f.label (({} : Settings).get f) f.read? = some (s.get f)

theorem shows_iff_of_value {r : Json.Record} (h : r.value f.label = some v) :
    s.Shows r f ↔ f.read? v = some (s.get f) := by
  rw [Shows, Json.Record.withDefault, h]

theorem Shows.congr {t : Settings} {r q : Json.Record} (h : s.Shows r f)
    (hvalue : q.value f.label = r.value f.label) (hget : t.get f = s.get f) : t.Shows q f := by
  unfold Shows Json.Record.withDefault at h ⊢
  rwa [hvalue, hget]

def ReadsAs (s : Settings) (sec : Section) (j : Json) : Prop :=
  ∃ r, Lenient.record? (sec.fields.map Field.label) j = some r ∧
    ∀ f : Field, f.parent = sec → s.Shows r f

theorem hostSettings?_eq_some_iff {j : Json} :
    Lenient.hostSettings? j = some s.host ↔ s.ReadsAs .host j := by
  simp only [Lenient.hostSettings?, Option.bind_eq_bind, Option.bind_eq_some_iff]
  constructor
  · rintro ⟨r, hr, name, hname, mode, hmode, port, hport, heq⟩
    have hhost : ⟨name, mode, port⟩ = s.host := Option.some.inj heq
    refine ⟨r, hr, fun f hf => ?_⟩
    cases f <;> cases hf
    · exact hname.trans (congrArg (some ·.name) hhost)
    · exact hmode.trans (congrArg (some ·.bootMode) hhost)
    · exact hport.trans (congrArg (some ·.controllerPort) hhost)
  · rintro ⟨r, hr, h⟩
    exact ⟨r, hr, _, h .hostName rfl, _, h .bootMode rfl, _, h .controllerPort rfl, rfl⟩

theorem lifecycleSettings?_eq_some_iff {j : Json} :
    Lenient.lifecycleSettings? j = some s.lifecycle ↔ s.ReadsAs .lifecycle j := by
  simp only [Lenient.lifecycleSettings?, Option.bind_eq_bind, Option.bind_eq_some_iff]
  constructor
  · rintro ⟨r, hr, attempts, hattempts, interval, hinterval, restart, hrestart, restarts,
      hrestarts, base, hbase, max, hmax, heq⟩
    have hlifecycle : ⟨attempts, interval, restart, restarts, base, max⟩ = s.lifecycle :=
      Option.some.inj heq
    refine ⟨r, hr, fun f hf => ?_⟩
    cases f <;> cases hf
    · exact hattempts.trans (congrArg (some ·.startPollAttempts) hlifecycle)
    · exact hinterval.trans (congrArg (some ·.startPollInterval) hlifecycle)
    · exact hrestart.trans (congrArg (some ·.autoRestart) hlifecycle)
    · exact hrestarts.trans (congrArg (some ·.maxRestarts) hlifecycle)
    · exact hbase.trans (congrArg (some ·.restartBaseDelay) hlifecycle)
    · exact hmax.trans (congrArg (some ·.restartMaxDelay) hlifecycle)
  · rintro ⟨r, hr, h⟩
    exact ⟨r, hr, _, h .startPollAttempts rfl, _, h .startPollInterval rfl, _, h .autoRestart rfl,
      _, h .maxRestarts rfl, _, h .restartBaseDelay rfl, _, h .restartMaxDelay rfl, rfl⟩

theorem changeSettings?_eq_some_iff {j : Json} :
    Lenient.changeSettings? j = some s.changes ↔ s.ReadsAs .changes j := by
  simp only [Lenient.changeSettings?, Option.bind_eq_bind, Option.bind_eq_some_iff]
  constructor
  · rintro ⟨r, hr, rollback, hrollback, concurrent, hconcurrent, heq⟩
    have hchanges : ⟨rollback, concurrent⟩ = s.changes := Option.some.inj heq
    refine ⟨r, hr, fun f hf => ?_⟩
    cases f <;> cases hf
    · exact hrollback.trans (congrArg (some ·.allowOverallRollback) hchanges)
    · exact hconcurrent.trans (congrArg (some ·.concurrentServers) hchanges)
  · rintro ⟨r, hr, h⟩
    exact ⟨r, hr, _, h .allowOverallRollback rfl, _, h .concurrentServers rfl, rfl⟩

theorem systemSettings?_eq_some_iff {j : Json} :
    Lenient.systemSettings? j = some s.system ↔ s.ReadsAs .system j := by
  simp only [Lenient.systemSettings?, Option.bind_eq_bind, Option.bind_eq_some_iff]
  constructor
  · rintro ⟨r, hr, capacity, hcapacity, heq⟩
    have hsystem : ⟨capacity⟩ = s.system := Option.some.inj heq
    refine ⟨r, hr, fun f hf => ?_⟩
    cases f <;> cases hf
    exact hcapacity.trans (congrArg (some ·.busCapacity) hsystem)
  · rintro ⟨r, hr, h⟩
    exact ⟨r, hr, _, h .busCapacity rfl, rfl⟩

/-- Settings are read from a table just if each section is there with its fields, and the
servers are. -/
theorem settings?_eq_some_iff {members : List (String × Json)} :
    Lenient.settings? (.object members) = some s ↔
      (∀ sec : Section, ∃ j, members.lookup sec.label = some j ∧ s.ReadsAs sec j) ∧
        (⟨true, fun name => members.lookup name⟩ : Json.Record).withDefault "servers" []
          (Json.listOf? Lenient.serverSpec?) = some s.servers := by
  have hrecord : Lenient.record? ["host", "lifecycle", "updates", "system", "servers"]
      (.object members) = some ⟨true, fun name => members.lookup name⟩ := rfl
  simp only [Lenient.settings?, hrecord, Json.Record.required, Option.bind_eq_bind,
    Option.bind_some, Option.bind_eq_some_iff]
  constructor
  · rintro ⟨host, ⟨j₁, hj₁, hhost⟩, lifecycle, ⟨j₂, hj₂, hlifecycle⟩, changes, ⟨j₃, hj₃, hchanges⟩,
      system, ⟨j₄, hj₄, hsystem⟩, servers, hservers, heq⟩
    obtain rfl : ⟨host, lifecycle, changes, system, servers⟩ = s := Option.some.inj heq
    refine ⟨fun sec => ?_, hservers⟩
    cases sec with
    | host => exact ⟨j₁, hj₁, hostSettings?_eq_some_iff.1 hhost⟩
    | lifecycle => exact ⟨j₂, hj₂, lifecycleSettings?_eq_some_iff.1 hlifecycle⟩
    | changes => exact ⟨j₃, hj₃, changeSettings?_eq_some_iff.1 hchanges⟩
    | system => exact ⟨j₄, hj₄, systemSettings?_eq_some_iff.1 hsystem⟩
  · rintro ⟨hsections, hservers⟩
    obtain ⟨j₁, hj₁, hhost⟩ := hsections .host
    obtain ⟨j₂, hj₂, hlifecycle⟩ := hsections .lifecycle
    obtain ⟨j₃, hj₃, hchanges⟩ := hsections .changes
    obtain ⟨j₄, hj₄, hsystem⟩ := hsections .system
    exact ⟨_, ⟨j₁, hj₁, hostSettings?_eq_some_iff.2 hhost⟩, _,
      ⟨j₂, hj₂, lifecycleSettings?_eq_some_iff.2 hlifecycle⟩, _,
      ⟨j₃, hj₃, changeSettings?_eq_some_iff.2 hchanges⟩, _,
      ⟨j₄, hj₄, systemSettings?_eq_some_iff.2 hsystem⟩, _, hservers, rfl⟩

/-! ## The place of a field -/

variable {j k : Json} {l : String}

def Field.sectionIn (f : Field) (j : Json) : Json :=
  ((tableMembers j).lookup f.parent.label).getD .null

def Field.at? (f : Field) (j : Json) : Option Json := (tableMembers (f.sectionIn j)).lookup f.label

theorem Field.exists_of_at? (h : f.at? j = some v) : ∃ fields,
    (tableMembers j).lookup f.parent.label = some (.object fields) ∧
      fields.lookup f.label = some v := by
  unfold at? sectionIn at h
  cases hsection : (tableMembers j).lookup f.parent.label with
  | none =>
    rw [hsection] at h
    cases h
  | some table =>
    rw [hsection, Option.getD_some] at h
    cases table with
    | object fields => exact ⟨fields, rfl, h⟩
    | _ => cases h

/-- Two tables have the same members but for one. -/
def AgreeBut (l : String) (j k : Json) : Prop :=
  ∀ name ≠ l, (tableMembers j).lookup name = (tableMembers k).lookup name

theorem AgreeBut.symm (h : AgreeBut l j k) : AgreeBut l k j := fun name hname => (h name hname).symm

structure Alike (f : Field) (j k : Json) : Prop where
  left : j = .object (tableMembers j)
  right : k = .object (tableMembers k)
  sections : AgreeBut f.parent.label j k
  fields : AgreeBut f.label (f.sectionIn j) (f.sectionIn k)

namespace Alike

theorem refl (f : Field) (members : List (String × Json)) :
    Alike f (.object members) (.object members) := ⟨rfl, rfl, fun _ _ => rfl, fun _ _ => rfl⟩

theorem symm (h : Alike f j k) : Alike f k j := ⟨h.right, h.left, h.sections.symm, h.fields.symm⟩

end Alike

theorem read?_of_settings? {members : List (String × Json)} (hv : f.at? (.object members) = some v)
    (hs : Lenient.settings? (.object members) = some s) : f.read? v = some (s.get f) := by
  obtain ⟨fields, hfields, hfield⟩ := Field.exists_of_at? hv
  obtain ⟨table, htable, r, hr, hshows⟩ := (settings?_eq_some_iff.1 hs).1 f.parent
  rw [tableMembers] at hfields
  obtain rfl : table = .object fields := Option.some.inj (htable.symm.trans hfields)
  obtain rfl := Option.some.inj hr
  exact (shows_iff_of_value hfield).1 (hshows f rfl)

/-- Where two tables are alike, what is read from one is read from the other, but for the field. -/
theorem Alike.settings?_of_read (h : Alike f j k) (hv : f.at? j = some v) (hw : f.at? k = some w)
    (hs : Lenient.settings? k = some s) {x : f.Value} (hx : f.read? v = some x) :
    Lenient.settings? j = some (s.set f x) := by
  obtain ⟨fields, hfields, hfield⟩ := Field.exists_of_at? hv
  obtain ⟨others, hothers, -⟩ := Field.exists_of_at? hw
  rw [h.right] at hs
  rw [h.left]
  obtain ⟨hsections, hservers⟩ := settings?_eq_some_iff.1 hs
  refine settings?_eq_some_iff.2 ⟨fun sec => ?_, ?_⟩
  · obtain ⟨table, htable, r, hr, hshows⟩ := hsections sec
    by_cases hsec : sec = f.parent
    · subst hsec
      obtain rfl : table = .object others := Option.some.inj (htable.symm.trans hothers)
      obtain rfl := Option.some.inj hr
      refine ⟨_, hfields, _, rfl, fun g hg => ?_⟩
      by_cases hgf : g = f
      · subst hgf
        rw [shows_iff_of_value hfield, get_set, Function.update_self]
        exact hx
      · have hlabel : g.label ≠ f.label := fun heq => hgf (Field.label_injOn hg heq)
        have hagree := h.fields g.label hlabel
        unfold Field.sectionIn at hagree
        rw [hfields, hothers] at hagree
        exact (hshows g hg).congr hagree (by rw [get_set, Function.update_of_ne hgf])
    · have hlabel : sec.label ≠ f.parent.label := fun heq => hsec (Section.label_inj heq)
      refine ⟨table, (h.sections _ hlabel).trans htable, r, hr, fun g hg => ?_⟩
      have hgf : g ≠ f := by
        rintro rfl
        exact hsec hg.symm
      exact (hshows g hg).congr rfl (by rw [get_set, Function.update_of_ne hgf])
  · have hlabel : "servers" ≠ f.parent.label := f.parent.label_ne_servers.symm
    have hagree := h.sections _ hlabel
    rw [set_servers, ← hservers]
    unfold Json.Record.withDefault
    dsimp only
    rw [hagree]

/-- Which value stands at the field matters for the field alone. -/
theorem Alike.settings? (h : Alike f j k) (hv : f.at? j = some v) (hw : f.at? k = some w)
    (hread : (f.read? w).isSome) :
    Lenient.settings? j = (Lenient.settings? k).bind fun s => (f.read? v).map (s.set f) := by
  obtain ⟨y, hy⟩ := Option.isSome_iff_exists.1 hread
  have hv' := hv
  rw [h.left] at hv'
  cases hx : f.read? v with
  | none =>
    have hnone : Lenient.settings? j = none := by
      rw [h.left, Option.eq_none_iff_forall_ne_some]
      intro t ht
      rw [read?_of_settings? hv' ht] at hx
      cases hx
    rw [hnone]
    cases Lenient.settings? k <;> rfl
  | some x =>
    cases hs : Lenient.settings? k with
    | some s => exact h.settings?_of_read hv hw hs hx
    | none =>
      rw [Option.bind_none, Option.eq_none_iff_forall_ne_some]
      intro t ht
      rw [h.symm.settings?_of_read hw hv ht hy] at hs
      cases hs

/-! ## Placing beside a field -/

def placeIn? (value : Json) (path : List PathStep) (below? : Option Json) : Option Json :=
  match path with
  | [] => some (merge (below?.getD (.object [])) value)
  | step :: path => place? value (step :: path) (below?.getD .null)

theorem place?_member (value : Json) (name : String) (path : List PathStep) (j : Json) :
    place? value (.member name :: path) j =
      (placeIn? value path ((tableMembers j).lookup name)).map fun placed =>
        .object (setMember (tableMembers j) name placed) := by
  cases path with
  | nil => rfl
  | cons step path =>
    rw [place?, placeIn?]
    · cases place? value (step :: path) (((tableMembers j).lookup name).getD .null) <;> rfl
    · exact List.cons_ne_nil step path

theorem lookup_placed (members : List (String × Json)) (name other : String) (placed : Json) :
    (tableMembers (.object (setMember members name placed))).lookup other =
      if other = name then some placed else members.lookup other :=
  lookup_setMember members name other placed

theorem AgreeBut.setMember {name : String} (h : AgreeBut l j k) (u : Json) :
    AgreeBut l (.object (setMember (tableMembers j) name u))
      (.object (setMember (tableMembers k) name u)) := by
  intro other hother
  rw [lookup_placed, lookup_placed, h other hother]

theorem AgreeBut.mergeMembers {above : List (String × Json)} (h : AgreeBut l j k)
    (habove : ∀ m ∈ above, Text.lowercase m.1 ≠ l) :
    AgreeBut l (mergeMembers j above) (mergeMembers k above) := by
  induction above generalizing j k with
  | nil => exact h
  | cons m above ih =>
    obtain ⟨key, value⟩ := m
    obtain ⟨hkey, habove⟩ := List.forall_mem_cons.1 habove
    rw [Settings.mergeMembers, Settings.mergeMembers, h _ hkey]
    exact ih (h.setMember _) habove

/-- Members of other names leave alone what is there under a name. -/
theorem lookup_mergeMembers {above : List (String × Json)}
    (habove : ∀ m ∈ above, Text.lowercase m.1 ≠ l) (j : Json) :
    (tableMembers (mergeMembers j above)).lookup l = (tableMembers j).lookup l := by
  induction above generalizing j with
  | nil => rfl
  | cons m above ih =>
    obtain ⟨key, value⟩ := m
    obtain ⟨hkey, habove⟩ := List.forall_mem_cons.1 habove
    rw [mergeMembers, ih habove, lookup_placed, if_neg hkey.symm]

/-- A named value in a layer that is about something else than a field. -/
inductive Spares (f : Field) : String × Json → Prop
  | elsewhere {name other : String} {path : List PathStep} {value : Json}
      (hname : PathStep.ofName name = .member other :: path) (hother : other ≠ f.parent.label) :
      Spares f (name, value)
  | beside {name other : String} {path : List PathStep} {value : Json}
      (hname : PathStep.ofName name = .member f.parent.label :: .member other :: path)
      (hother : other ≠ f.label) : Spares f (name, value)
  | around {name : String} {above : List (String × Json)}
      (hname : PathStep.ofName name = [.member f.parent.label])
      (habove : ∀ m ∈ above, Text.lowercase m.1 ≠ f.label) : Spares f (name, .object above)

structure Spared (f : Field) (j k j' k' : Json) : Prop where
  alike : Alike f j' k'
  left : f.at? j' = f.at? j
  right : f.at? k' = f.at? k

theorem Spared.refl (h : Alike f j k) : Spared f j k j k := ⟨h, rfl, rfl⟩

theorem Spared.trans {j' k' j'' k'' : Json} (h : Spared f j k j' k') (h' : Spared f j' k' j'' k'') :
    Spared f j k j'' k'' :=
  ⟨h'.alike, h'.left.trans h.left, h'.right.trans h.right⟩

/-- Another section is replaced. -/
theorem Alike.setOther {name : String} (h : Alike f j k) (hname : name ≠ f.parent.label) (u : Json) :
    Spared f j k (.object (setMember (tableMembers j) name u))
      (.object (setMember (tableMembers k) name u)) := by
  have hsection (j : Json) :
      f.sectionIn (.object (setMember (tableMembers j) name u)) = f.sectionIn j := by
    rw [Field.sectionIn, lookup_placed, if_neg hname.symm, Field.sectionIn]
  refine ⟨⟨rfl, rfl, h.sections.setMember u, ?_⟩, ?_, ?_⟩
  · rw [hsection, hsection]
    exact h.fields
  · rw [Field.at?, hsection, Field.at?]
  · rw [Field.at?, hsection, Field.at?]

theorem Field.sectionIn_setMember (f : Field) (members : List (String × Json)) (a : Json) :
    f.sectionIn (.object (setMember members f.parent.label a)) = a := by
  rw [sectionIn, lookup_placed, if_pos rfl, Option.getD_some]

/-- The section of the field is replaced. -/
theorem Alike.setOwn (h : Alike f j k) {a b : Json} (hab : AgreeBut f.label a b) :
    Alike f (.object (setMember (tableMembers j) f.parent.label a))
      (.object (setMember (tableMembers k) f.parent.label b)) where
  left := rfl
  right := rfl
  sections other hother := by
    rw [lookup_placed, lookup_placed, h.sections other hother, if_neg hother, if_neg hother]
  fields := by
    rw [Field.sectionIn_setMember, Field.sectionIn_setMember]
    exact hab

def Field.base (f : Field) (j : Json) : Json :=
  ((tableMembers j).lookup f.parent.label).getD (.object [])

theorem Field.tableMembers_base (f : Field) (j : Json) :
    tableMembers (f.base j) = tableMembers (f.sectionIn j) := by
  rw [base, sectionIn]
  cases (tableMembers j).lookup f.parent.label <;> rfl

theorem Field.place?_section (f : Field) (above : List (String × Json)) (j : Json) :
    place? (.object above) [.member f.parent.label] j =
      some (.object (setMember (tableMembers j) f.parent.label (mergeMembers (f.base j) above))) :=
  rfl

theorem Alike.base (h : Alike f j k) : AgreeBut f.label (f.base j) (f.base k) := by
  intro other hother
  rw [f.tableMembers_base, f.tableMembers_base, h.fields other hother]

theorem Spares.place {m : String × Json} (hm : Spares f m) (h : Alike f j k) :
    Option.Rel (Spared f j k) (place? m.2 (PathStep.ofName m.1) j)
      (place? m.2 (PathStep.ofName m.1) k) := by
  cases hm with
  | @elsewhere name other path value hname hother =>
    rw [hname, place?_member, place?_member, h.sections other hother]
    cases placeIn? value path ((tableMembers k).lookup other) with
    | none => exact .none
    | some u => exact .some (h.setOther hother u)
  | @beside name other path value hname hother =>
    have hplace (j : Json) : place? value (.member f.parent.label :: .member other :: path) j =
        (placeIn? value path ((tableMembers (f.sectionIn j)).lookup other)).map fun u =>
          .object (setMember (tableMembers j) f.parent.label
            (.object (setMember (tableMembers (f.sectionIn j)) other u))) := by
      rw [place?_member, placeIn?, ← Field.sectionIn, place?_member, Option.map_map]
      rfl
    rw [hname, hplace, hplace, h.fields other hother]
    cases placeIn? value path ((tableMembers (f.sectionIn k)).lookup other) with
    | none => exact .none
    | some u =>
      have hat (j : Json) : f.at? (.object (setMember (tableMembers j) f.parent.label
          (.object (setMember (tableMembers (f.sectionIn j)) other u)))) = f.at? j := by
        rw [Field.at?, Field.sectionIn_setMember, lookup_placed, if_neg hother.symm, Field.at?]
      exact .some ⟨h.setOwn (h.fields.setMember u), hat j, hat k⟩
  | @around name above hname habove =>
    have hat (j : Json) : f.at? (.object (setMember (tableMembers j) f.parent.label
        (mergeMembers (f.base j) above))) = f.at? j := by
      rw [Field.at?, Field.sectionIn_setMember, lookup_mergeMembers habove, f.tableMembers_base,
        Field.at?]
    rw [hname, f.place?_section, f.place?_section]
    exact .some ⟨h.setOwn (h.base.mergeMembers habove), hat j, hat k⟩

theorem layOver?_spared {layer : List (String × Json)} (hlayer : ∀ m ∈ layer, Spares f m)
    (h : Alike f j k) : Option.Rel (Spared f j k) (layOver? j layer) (layOver? k layer) := by
  induction layer generalizing j k with
  | nil => exact .some (.refl h)
  | cons m layer ih =>
    obtain ⟨hm, hlayer⟩ := List.forall_mem_cons.1 hlayer
    have hplace := hm.place h
    rw [layOver?_cons, layOver?_cons]
    generalize place? m.2 (PathStep.ofName m.1) j = left at hplace ⊢
    generalize place? m.2 (PathStep.ofName m.1) k = right at hplace ⊢
    cases hplace with
    | none => exact .none
    | some hplaced =>
      have hlaid := ih hlayer hplaced.alike
      rw [Option.bind_some, Option.bind_some]
      generalize layOver? _ layer = left at hlaid ⊢
      generalize layOver? _ layer = right at hlaid ⊢
      cases hlaid with
      | none => exact .none
      | some hlaid => exact .some (hplaced.trans hlaid)

/-! ## The value of a field among the layers -/

/-- A place in a layer where a field is given a value: its path, or its name in the table of its
section. -/
inductive Slot (f : Field)
  | path (name : String)
      (hname : PathStep.ofName name = [.member f.parent.label, .member f.label])
  | table (name : String) (hname : PathStep.ofName name = [.member f.parent.label])
      (before : List (String × Json)) (key : String) (hkey : Text.lowercase key = f.label)
      (after : List (String × Json)) (hafter : ∀ m ∈ after, Text.lowercase m.1 ≠ f.label)

def Slot.fill (slot : Slot f) (v : Json) : String × Json :=
  match slot with
  | path name _ => (name, v)
  | table name _ before key _ after _ => (name, .object (before ++ (key, v) :: after))

def IsPlain (v : Json) : Prop := ∀ below, merge below v = v

theorem mergeMembers_append (j : Json) (above more : List (String × Json)) :
    mergeMembers j (above ++ more) = mergeMembers (mergeMembers j above) more := by
  induction above generalizing j with
  | nil => rfl
  | cons m above ih =>
    obtain ⟨key, value⟩ := m
    rw [List.cons_append, mergeMembers, mergeMembers, ih]

def Slot.section (slot : Slot f) (v j : Json) : Json :=
  match slot with
  | path _ _ => .object (setMember (tableMembers (f.sectionIn j)) f.label v)
  | table _ _ before _ _ after _ =>
    mergeMembers (.object (setMember (tableMembers (mergeMembers (f.base j) before)) f.label v)) after

theorem Slot.place?_fill (slot : Slot f) (hv : IsPlain v) (j : Json) :
    place? (slot.fill v).2 (PathStep.ofName (slot.fill v).1) j =
      some (.object (setMember (tableMembers j) f.parent.label (slot.section v j))) := by
  cases slot with
  | path name hname =>
    rw [fill, hname, place?_member, placeIn?, ← Field.sectionIn, place?_member, placeIn?, hv]
    rfl
  | table name hname before key hkey after hafter =>
    rw [fill, hname, f.place?_section, mergeMembers_append, mergeMembers, hkey, hv]
    rfl

theorem Slot.lookup_section (slot : Slot f) (v j : Json) :
    (tableMembers (slot.section v j)).lookup f.label = some v := by
  cases slot with
  | path name hname => rw [Slot.section, lookup_placed, if_pos rfl]
  | table name hname before key hkey after hafter =>
    rw [Slot.section, lookup_mergeMembers hafter, lookup_placed, if_pos rfl]

theorem agreeBut_placed (members : List (String × Json)) (l : String) (v w : Json) :
    AgreeBut l (.object (setMember members l v)) (.object (setMember members l w)) := by
  intro other hother
  rw [lookup_placed, lookup_placed, if_neg hother, if_neg hother]

theorem Slot.section_agree (slot : Slot f) (v w j : Json) :
    AgreeBut f.label (slot.section v j) (slot.section w j) := by
  cases slot with
  | path name hname => exact agreeBut_placed _ _ v w
  | table name hname before key hkey after hafter =>
    exact (agreeBut_placed _ _ v w).mergeMembers hafter

/-- Layers in which a field is given a value, and after that spared. -/
structure Frame (f : Field) where
  before : List (String × Json)
  slot : Slot f
  after : List (String × Json)
  spared : ∀ m ∈ after, Spares f m

def Frame.layers (F : Frame f) (v : Json) : List (String × Json) :=
  F.before ++ F.slot.fill v :: F.after

theorem ofName_eq_member (name : String) :
    ∃ first path, PathStep.ofName name = .member first :: path := by
  unfold PathStep.ofName
  dsimp only
  cases hread : PathStep.read? (Text.lowercase name).toList with
  | none => exact ⟨_, [], rfl⟩
  | some path =>
    obtain ⟨⟨first, rest⟩, -, hpath⟩ := Option.bind_eq_some_iff.1 hread
    obtain ⟨path, -, hpath⟩ := Option.bind_eq_some_iff.1 hpath
    exact ⟨first, path, (Option.some.inj hpath).symm⟩

theorem layOver?_object {layer members : List (String × Json)} {j : Json}
    (h : layOver? (.object members) layer = some j) : ∃ laid, j = .object laid := by
  induction layer generalizing members with
  | nil => exact ⟨members, (Option.some.inj h).symm⟩
  | cons m layer ih =>
    obtain ⟨first, path, hname⟩ := ofName_eq_member m.1
    rw [layOver?_cons, hname, place?_member] at h
    obtain ⟨placed, hplaced, hrest⟩ := Option.bind_eq_some_iff.1 h
    obtain ⟨u, -, rfl⟩ := Option.map_eq_some_iff.1 hplaced
    exact ih hrest

/-- Whatever the values are, what the layers put together is alike and has them at the field. -/
theorem Frame.laid (F : Frame f) (hv : IsPlain v) (hw : IsPlain w) :
    Option.Rel (fun j k => Alike f j k ∧ f.at? j = some v ∧ f.at? k = some w)
      (layOver? ({} : Settings).toJson (F.layers v)) (layOver? ({} : Settings).toJson (F.layers w)) := by
  obtain ⟨defaults, hdefaults, -⟩ := complete_defaults
  rw [hdefaults, layers, layers, layOver?_append, layOver?_append]
  cases hbefore : layOver? (.object defaults) F.before with
  | none => exact .none
  | some below =>
    obtain ⟨members, rfl⟩ := layOver?_object hbefore
    have hfilled := (Alike.refl f members).setOwn (F.slot.section_agree v w (.object members))
    have hrest := layOver?_spared F.spared hfilled
    rw [Option.bind_some, Option.bind_some, layOver?_cons, layOver?_cons, F.slot.place?_fill hv,
      F.slot.place?_fill hw, Option.bind_some, Option.bind_some]
    generalize layOver? _ F.after = left at hrest ⊢
    generalize layOver? _ F.after = right at hrest ⊢
    cases hrest with
    | none => exact .none
    | some hspared =>
      refine .some ⟨hspared.alike, hspared.left.trans ?_, hspared.right.trans ?_⟩
      · rw [Field.at?, Field.sectionIn_setMember, Slot.lookup_section]
      · rw [Field.at?, Field.sectionIn_setMember, Slot.lookup_section]

/-! ## Loading -/

variable {t t' : FileTree} {environment environment' : List (String × String)} {path path' : String}

/-- The value that is given for a field decides about the field, and about nothing else. -/
theorem Frame.settle_eq (F : Frame f) (hv : IsPlain v) (hw : IsPlain w)
    (hread : (f.read? w).isSome) :
    settle (F.layers v) = (settle (F.layers w)).bind fun s =>
      match f.read? v with
      | some x => .ok (s.set f x)
      | none => .error .invalid := by
  have hlaid := F.laid hv hw
  rw [settle_eq_conclude, settle_eq_conclude]
  generalize layOver? _ (F.layers v) = left at hlaid ⊢
  generalize layOver? _ (F.layers w) = right at hlaid ⊢
  cases hlaid with
  | none => rfl
  | @some j k h =>
    obtain ⟨halike, hj, hk⟩ := h
    rw [conclude, conclude, halike.settings? hj hk hread]
    cases Lenient.settings? k with
    | none => rfl
    | some s =>
      rw [Option.bind_some]
      cases f.read? v <;> rfl

structure Frame.Laid (F : Frame f) (v : Json) (t : FileTree) (environment : List (String × String))
    (path : String) : Prop where
  plain : IsPlain v
  layers : ∃ file, FileGives t path file ∧ file ++ variableLayer environment = F.layers v

theorem Frame.Laid.load_eq {F : Frame f} (h : F.Laid v t environment path) :
    load t environment path = settle (F.layers v) := by
  obtain ⟨file, hfile, hlayers⟩ := h.layers
  rw [load_eq_settle (fileLayer_of_gives hfile), hlayers]

/-- Of two loads that differ in the value of a field only, the one succeeds with the value that is
read as soon as the other does with any. -/
theorem Frame.Laid.load_eq_bind {F : Frame f} (h : F.Laid v t environment path)
    (h' : F.Laid w t' environment' path') (hread : (f.read? w).isSome) :
    load t environment path = (load t' environment' path').bind fun s =>
      match f.read? v with
      | some x => .ok (s.set f x)
      | none => .error .invalid := by
  rw [h.load_eq, h'.load_eq]
  exact F.settle_eq h.plain h'.plain hread

/-! ## Variables -/

theorem isPlain_variableValue (value : String) : IsPlain (variableValue value) := by
  intro below
  unfold variableValue
  dsimp only
  split
  next => rfl
  next =>
    split
    next => rfl
    next =>
      split
      next => rfl
      next => split <;> rfl

theorem variableLayer_append (environment more : List (String × String)) :
    variableLayer (environment ++ more) = variableLayer environment ++ variableLayer more :=
  List.filterMap_append

/-- Variables that are about something else than a field. -/
def SparedBy (f : Field) (environment : List (String × String)) : Prop :=
  ∀ v ∈ environment, ∀ name ∈ variableName? v.1, Spares f (name, variableValue v.2)

theorem SparedBy.layer {environment : List (String × String)} (h : SparedBy f environment) :
    ∀ m ∈ variableLayer environment, Spares f m := by
  intro m hm
  obtain ⟨v, hv, hm⟩ := List.mem_filterMap.1 hm
  obtain ⟨name, hname, rfl⟩ := Option.map_eq_some_iff.1 hm
  exact h v hv name hname

/-- A variable that is about another field. -/
theorem spares_path {g : Field} (hne : g ≠ f) (v : Json) : Spares f (g.path, v) := by
  by_cases hparent : g.parent = f.parent
  · have hlabel : g.label ≠ f.label := fun heq => hne (Field.label_injOn hparent heq)
    exact .beside ((ofName_path g).trans (by rw [hparent])) hlabel
  · exact .elsewhere (ofName_path g) fun heq => hparent (Section.label_inj heq)

def Frame.ofVariable (f : Field) (file : List (String × Json)) (before : List (String × String))
    {after : List (String × String)} (hafter : SparedBy f after) : Frame f where
  before := file ++ variableLayer before
  slot := .path f.path (ofName_path f)
  after := variableLayer after
  spared := hafter.layer

theorem Frame.laid_ofVariable {file : List (String × Json)} (before : List (String × String))
    {after : List (String × String)} (hafter : SparedBy f after) (hfile : FileGives t path file)
    {name : String} (hname : variableName? name = some f.path) (value : String) :
    (ofVariable f file before hafter).Laid (variableValue value) t
      (before ++ (name, value) :: after) path where
  plain := isPlain_variableValue value
  layers := by
    refine ⟨file, hfile, ?_⟩
    rw [variableLayer_append, variableLayer_cons, hname, ← List.append_assoc]
    rfl

/-- A file either gives something or is refused, whatever the variables are. -/
theorem fileGives_or_malformed (t : FileTree) (path : String) : (∃ file, FileGives t path file) ∨
    ∀ environment, load t environment path = .error .malformed := by
  unfold FileGives
  cases hlocate : locate? t path with
  | none => exact .inl ⟨[], rfl⟩
  | some found =>
    obtain ⟨text, format⟩ := found
    cases hread : readFile? text format with
    | some members => exact .inl ⟨members, hread⟩
    | none =>
      exact .inr (load_eq_error (fileLayer_of_unread hlocate hread))

end HostSteward.Settings
