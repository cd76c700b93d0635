import HostSteward.Toml.Definition

/-!
# What headers and assignments make of a document

The table that a heading leads to is at the end of the document, or of the last table of a list at
the end. Assignments add to it in order, and the tables around it stay as they are.
-/

namespace HostSteward.Toml

variable {ms inner : Members} {name : String}

namespace Members

theorem lookup_append_self (h : ms.lookup name = none) (n : Node) :
    (ms ++ [(name, n)]).lookup name = some n := by
  rw [List.lookup_append, h]
  simp

theorem lookup_eq_none (h : name ∉ ms.map (·.1)) : ms.lookup name = none := by
  refine List.lookup_eq_none_iff.2 fun m hm => ?_
  have hne : name ≠ m.1 := fun heq => h (List.mem_map.2 ⟨m, hm, heq.symm⟩)
  simpa using hne

theorem ne_of_lookup (h : ms.lookup name = none) {m : String × Node} (hm : m ∈ ms) : m.1 ≠ name := by
  rintro rfl
  simpa using List.lookup_eq_none_iff.1 h m hm

theorem set_append_self (h : ms.lookup name = none) (n n' : Node) :
    set (ms ++ [(name, n)]) name n' = ms ++ [(name, n')] := by
  have hsame : ms.map (fun m => if m.1 = name then (name, n') else m) = ms.map id :=
    List.map_congr_left fun m hm => if_neg (ne_of_lookup h hm)
  have hany : (ms ++ [(name, n)]).any (fun m => m.1 = name) = true := by simp
  rw [set, if_pos hany, List.map_append, hsame]
  simp

theorem set_of_lookup (h : ms.lookup name = none) (n : Node) : set ms name n = ms ++ [(name, n)] := by
  have hany : ms.any (fun m => m.1 = name) = false := by
    simpa using fun m n hm => ne_of_lookup h hm
  rw [set, hany]
  simp

end Members

/-! ## Where a heading leads -/

/-- A heading leads to a place in a document. -/
def Leads (heading : List String) (plug : Members → Members) : Prop :=
  ∀ inner f, (plug inner).within? f heading = (f inner).map plug

theorem leads_root : Leads [] id := by
  intro inner f
  rw [Members.within?, Option.map_id]
  rfl

theorem Leads.table {path : List String} {plug : Members → Members} (h : Leads path plug)
    (hname : ms.lookup name = none) (origin : Origin) :
    Leads (name :: path) fun inner => ms ++ [(name, .table origin (plug inner))] := by
  intro inner f
  rw [Members.within?, Members.lookup_append_self hname]
  simp only [h inner f, Option.map_map]
  congr 1
  funext after
  exact Members.set_append_self hname _ _

theorem Leads.tables {path : List String} {plug : Members → Members} (h : Leads path plug)
    (hname : ms.lookup name = none) (earlier : List Json) :
    Leads (name :: path) fun inner => ms ++ [(name, .tables earlier (plug inner))] := by
  intro inner f
  rw [Members.within?, Members.lookup_append_self hname]
  simp only [h inner f, Option.map_map]
  congr 1
  funext after
  exact Members.set_append_self hname _ _

/-! ## What the statements do -/

def assignments (members : Members) : List Statement := members.map fun m => .assignment [m.1] m.2

theorem foldlM_assignments {heading : List String} {plug : Members → Members}
    (h : Leads heading plug) (members : Members) (hnew : ((inner ++ members).map (·.1)).Nodup) :
    (assignments members).foldlM Document.add? ⟨heading, plug inner⟩ =
      some ⟨heading, plug (inner ++ members)⟩ := by
  induction members generalizing inner with
  | nil => rw [List.append_nil]; rfl
  | cons m members ih =>
    have hnone : inner.lookup m.1 = none := by
      rw [List.map_append, List.nodup_append] at hnew
      exact Members.lookup_eq_none fun hm => hnew.2.2 _ hm _ (by simp) rfl
    have hassign : inner.assign? m.2 true [m.1] = some (inner ++ [m]) := by
      rw [Members.assign?, hnone]
      rfl
    have hadd : Document.add? ⟨heading, plug inner⟩ (.assignment [m.1] m.2) =
        some ⟨heading, plug (inner ++ [m])⟩ := by
      change (Members.within? _ heading (plug inner)).bind _ = _
      rw [h, hassign]
      rfl
    have hrest := @ih (inner ++ [m]) (by simpa using hnew)
    rw [List.append_assoc, List.singleton_append] at hrest
    rw [assignments, List.map_cons, List.foldlM_cons, hadd]
    exact hrest

theorem add?_table (hname : ms.lookup name = none) (heading : List String) :
    Document.add? ⟨heading, ms⟩ (.table [name]) = some ⟨[name], ms ++ [(name, .table .header [])]⟩ := by
  change ((Members.openTable? name ms).bind _ : Option Document) = _
  rw [Members.openTable?, hname, ← Members.set_of_lookup hname]
  rfl

/-- A header and the lines under it. -/
theorem foldlM_section (hname : ms.lookup name = none) (heading : List String) (members : Members)
    (hnew : (members.map (·.1)).Nodup) :
    (.table [name] :: assignments members).foldlM Document.add? ⟨heading, ms⟩ =
      some ⟨[name], ms ++ [(name, .table .header members)]⟩ := by
  have hlines := @foldlM_assignments [] _ _ (leads_root.table hname .header) members hnew
  rw [List.foldlM_cons, add?_table hname]
  exact hlines

theorem foldlM_sections (sections : List (String × Members))
    (hnames : (ms.map (·.1) ++ sections.map (·.1)).Nodup)
    (hmembers : ∀ s ∈ sections, (s.2.map (·.1)).Nodup) (heading : List String) :
    ∃ heading', (sections.flatMap fun s => .table [s.1] :: assignments s.2).foldlM Document.add?
      ⟨heading, ms⟩ = some ⟨heading', ms ++ sections.map fun s => (s.1, .table .header s.2)⟩ := by
  induction sections generalizing ms heading with
  | nil => exact ⟨heading, by simp⟩
  | cons s sections ih =>
    obtain ⟨hs, hrest⟩ := List.forall_mem_cons.1 hmembers
    have hnew : ms.lookup s.1 = none := by
      rw [List.nodup_append] at hnames
      exact Members.lookup_eq_none fun hm => hnames.2.2 _ hm _ (by simp) rfl
    obtain ⟨heading', hfold⟩ :=
      @ih (ms ++ [(s.1, .table .header s.2)]) (by simpa using hnames) hrest [s.1]
    refine ⟨heading', ?_⟩
    rw [List.flatMap_cons, List.foldlM_append, foldlM_section hnew heading s.2 hs,
      Option.bind_eq_bind, Option.bind_some, hfold]
    simp

/-! ## Lists of tables -/

structure Element where
  members : Members
  inside : Members

namespace Element

variable {sub : String}

def statements (name sub : String) (e : Element) : List Statement :=
  .element [name] :: assignments e.members ++ .table [name, sub] :: assignments e.inside

def table (sub : String) (e : Element) : Members :=
  e.members ++ [(sub, .table .header e.inside)]

def Distinct (sub : String) (e : Element) : Prop :=
  ((e.table sub).map (·.1)).Nodup ∧ (e.inside.map (·.1)).Nodup

/-- What follows the header of an element. -/
theorem foldlM_body {e : Element} (he : e.Distinct sub) (hname : ms.lookup name = none)
    (earlier : List Json) :
    (assignments e.members ++ .table [name, sub] :: assignments e.inside).foldlM Document.add?
      ⟨[name], ms ++ [(name, .tables earlier [])]⟩ =
      some ⟨[name, sub], ms ++ [(name, .tables earlier (e.table sub))]⟩ := by
  obtain ⟨htable, hinside⟩ := he
  rw [table, List.map_append, List.nodup_append] at htable
  obtain ⟨hmembers, -, hother⟩ := htable
  have hsub : e.members.lookup sub = none :=
    Members.lookup_eq_none fun hm => hother _ hm _ (by simp) rfl
  have houter : Leads [name] fun inner => ms ++ [(name, .tables earlier inner)] :=
    leads_root.tables hname earlier
  have hinner : Leads [name, sub] fun inner =>
      ms ++ [(name, .tables earlier (e.members ++ [(sub, .table .header inner)]))] :=
    (leads_root.table hsub .header).tables hname earlier
  have hfirst := @foldlM_assignments [] _ _ houter e.members hmembers
  have hopen : e.members.openTable? sub = some (e.members ++ [(sub, .table .header [])]) := by
    rw [Members.openTable?, hsub, ← Members.set_of_lookup hsub]
  have hheader : Document.add? ⟨[name], ms ++ [(name, .tables earlier e.members)]⟩
      (.table [name, sub]) =
      some ⟨[name, sub], ms ++ [(name, .tables earlier (e.members ++ [(sub, .table .header [])]))]⟩ := by
    change ((Members.within? (Members.openTable? sub) [name] _).bind _ : Option Document) = _
    rw [houter, hopen]
    rfl
  have hsecond := @foldlM_assignments [] _ _ hinner e.inside hinside
  rw [List.nil_append] at hfirst hsecond
  rw [List.foldlM_append, hfirst, Option.bind_eq_bind, Option.bind_some, List.foldlM_cons, hheader]
  exact hsecond

theorem foldlM_first {e : Element} (he : e.Distinct sub) (hname : ms.lookup name = none)
    (heading : List String) :
    (e.statements name sub).foldlM Document.add? ⟨heading, ms⟩ =
      some ⟨[name, sub], ms ++ [(name, .tables [] (e.table sub))]⟩ := by
  have hopen : Document.add? ⟨heading, ms⟩ (.element [name]) =
      some ⟨[name], ms ++ [(name, .tables [] [])]⟩ := by
    change ((Members.openElement? name ms).bind _ : Option Document) = _
    rw [Members.openElement?, hname, ← Members.set_of_lookup hname]
    rfl
  rw [statements, List.cons_append, List.foldlM_cons, hopen]
  exact foldlM_body he hname []

/-- The table before is settled once another one begins. -/
theorem foldlM_next {e : Element} (he : e.Distinct sub) (hname : ms.lookup name = none)
    (heading : List String) (earlier : List Json) (last : Members) :
    (e.statements name sub).foldlM Document.add? ⟨heading, ms ++ [(name, .tables earlier last)]⟩ =
      last.toJson?.map fun j =>
        ⟨[name, sub], ms ++ [(name, .tables (earlier ++ [j]) (e.table sub))]⟩ := by
  have hopen : Document.add? ⟨heading, ms ++ [(name, .tables earlier last)]⟩ (.element [name]) =
      last.toJson?.map fun j => ⟨[name], ms ++ [(name, .tables (earlier ++ [j]) [])]⟩ := by
    change ((Members.openElement? name (ms ++ [(name, .tables earlier last)])).bind _ :
      Option Document) = _
    rw [Members.openElement?, Members.lookup_append_self hname]
    simp only [Members.set_append_self hname]
    cases last.toJson? <;> rfl
  rw [statements, List.cons_append, List.foldlM_cons, hopen]
  cases last.toJson? with
  | none => rfl
  | some j => exact foldlM_body he hname (earlier ++ [j])

end Element

/-! ## The document as a whole -/

theorem membersToJson?_append (first second : Members) :
    Node.membersToJson? (first ++ second) = do
      let first ← Node.membersToJson? first
      let second ← Node.membersToJson? second
      return first ++ second := by
  induction first with
  | nil => simp [Node.membersToJson?]
  | cons m first ih =>
    rw [List.cons_append, Node.membersToJson?, Node.membersToJson?, ih]
    cases Node.toJson? m.2 with
    | none => rfl
    | some j => cases Node.membersToJson? first <;> cases Node.membersToJson? second <;> rfl

theorem toJson?_of_head (h : ∀ m ∈ ms.head?, m.1 ≠ dateTimeKey) :
    ms.toJson? = (Node.membersToJson? ms).map Json.Reader.tidy := by
  cases ms with
  | nil => rfl
  | cons m ms =>
    rw [Members.toJson?, Node.tableToJson?, if_neg (h m rfl), Node.membersToJson?]
    cases Node.toJson? m.2 with
    | none => rfl
    | some j => cases Node.membersToJson? ms <;> rfl

/-- A document that ends with a list of tables. -/
theorem toJson?_tables (hne : ms ≠ []) (hhead : ∀ m ∈ ms.head?, m.1 ≠ dateTimeKey)
    {members : List (String × Json)} (hms : Node.membersToJson? ms = some members)
    (earlier : List Json) (last : Members) :
    Members.toJson? (ms ++ [(name, .tables earlier last)]) = last.toJson?.map fun j =>
      Json.Reader.tidy (members ++ [(name, .array (earlier ++ [j]))]) := by
  have hfirst : ∀ m ∈ (ms ++ [(name, Node.tables earlier last)]).head?, m.1 ≠ dateTimeKey := by
    obtain ⟨m, tail, rfl⟩ := List.exists_cons_of_ne_nil hne
    exact hhead
  have hlast : Node.membersToJson? [(name, .tables earlier last)] =
      last.toJson?.map fun j => [(name, .array (earlier ++ [j]))] := by
    rw [Node.membersToJson?, Node.toJson?]
    change ((Option.map _ last.toJson?).bind _ : Option (List (String × Json))) = _
    cases last.toJson? <;> rfl
  rw [toJson?_of_head hfirst, membersToJson?_append, hms, hlast]
  cases last.toJson? <;> rfl

/-- The rest of the tables of a list, after one of them. -/
theorem toJson?_elements {sub : String} (hname : ms.lookup name = none)
    (hne : ms ≠ []) (hhead : ∀ m ∈ ms.head?, m.1 ≠ dateTimeKey)
    {members : List (String × Json)} (hms : Node.membersToJson? ms = some members)
    (elements : List Element) (hall : ∀ e ∈ elements, e.Distinct sub) (heading : List String)
    (earlier : List Json) (last : Members) :
    ((elements.flatMap (Element.statements name sub)).foldlM Document.add?
      ⟨heading, ms ++ [(name, .tables earlier last)]⟩).bind (fun d => d.root.toJson?) =
      ((last :: elements.map (Element.table sub)).mapM Members.toJson?).map fun items =>
        Json.Reader.tidy (members ++ [(name, .array (earlier ++ items))]) := by
  induction elements generalizing heading earlier last with
  | nil =>
    rw [List.flatMap_nil, List.foldlM_nil]
    change Members.toJson? (ms ++ [(name, .tables earlier last)]) = _
    rw [toJson?_tables hne hhead hms]
    cases hlast : last.toJson? <;> simp [hlast]
  | cons e elements ih =>
    obtain ⟨he, hrest⟩ := List.forall_mem_cons.1 hall
    -- The element before is settled first, and then stands among the earlier ones.
    rw [List.flatMap_cons, List.foldlM_append, Element.foldlM_next he hname, List.map_cons,
      List.mapM_cons]
    cases last.toJson? with
    | none => rfl
    | some j =>
      have hnext := ih hrest [name, sub] (earlier ++ [j]) (e.table sub)
      refine hnext.trans ?_
      cases (e.table sub :: elements.map (Element.table sub)).mapM Members.toJson? <;> simp

end HostSteward.Toml
