import HostSteward.Proofs.Toml.Documents
import HostSteward.Proofs.Toml.Statements

/-!
# Integers on a line of their own

A line that assigns an integer is read as a statement just if the integer has 64 bits. A document
with such a line among others is refused if it has not.
-/

namespace HostSteward.Toml

variable {key white w rest : List Char} {path : List String} {n : Int}

/-- What ends a line ends a value. -/
theorem ends_of_lineEnd? {more : List Char} (h : lineEnd? rest = some more) : Ends rest := by
  cases rest with
  | nil => nofun
  | cons c cs =>
    rintro d ⟨⟩
    by_cases hwhite : isWhite c = true
    · rw [isWhite, Bool.or_eq_true, decide_eq_true_eq, decide_eq_true_eq] at hwhite
      rcases hwhite with rfl | rfl <;> decide
    · by_contra hc
      have hbegins : Begins c := by
        refine ⟨Bool.not_eq_true _ ▸ hwhite, ?_, ?_, ?_⟩
        all_goals
          rintro rfl
          exact hc (by decide)
      rw [lineEnd?_of_begins hbegins] at h
      cases h

theorem statement?_integer (hkey : IsKey key path) (hwhite : ∀ c ∈ white, isWhite c = true)
    (hw : Writes w n) (hrest : Ends rest) :
    statement? (key ++ '=' :: (white ++ (w ++ rest))) =
      (integerIn? n rest).map fun r => (.assignment path (.value r.1), r.2) := by
  have hskip : skipWhite (white ++ (w ++ rest)) = w ++ rest := by
    obtain ⟨d, more, rfl, hd⟩ := hw.exists_cons
    have hsolid : isWhite d = false := by
      rcases hd with rfl | rfl | hd
      · rfl
      · rfl
      · exact isWhite_of_isDigit hd
    rw [skipWhite, List.dropWhile_append_of_pos hwhite]
    exact skipWhite_eq hsolid _
  rw [statement?_of_key hkey, hskip, value?_integer hw hrest, Option.map_map]
  rfl

/-- The statements of a text with an assignment of an integer among others. -/
theorem statements?_integer {pre tail more : List Char} {ss ss' : List Statement}
    (hpre : Says pre ss) (hkey : IsKey key path) (hwhite : ∀ c ∈ white, isWhite c = true)
    (hw : Writes w n) (htail : lineEnd? (tail ++ more) = some more) (hmore : Says more ss')
    {fuel : Nat}
    (hfuel : (pre ++ (key ++ '=' :: (white ++ (w ++ (tail ++ more))))).length < fuel) :
    statements? [] fuel (pre ++ (key ++ '=' :: (white ++ (w ++ (tail ++ more))))) =
      (integerIn? n (tail ++ more)).map fun r => ss ++ .assignment path (.value r.1) :: ss' := by
  have hstatement := statement?_integer hkey hwhite hw (ends_of_lineEnd? htail)
  obtain ⟨c, start, rfl, hc, -⟩ := hkey.starts
  obtain ⟨left, hleft, hread⟩ := hpre [] _ fuel hfuel
  obtain ⟨left, rfl, hline⟩ := exists_fuel hleft
  rw [hread, List.append_nil]
  rw [List.cons_append] at hstatement hline ⊢
  rw [statements?, if_neg (by simp), lineEnd?_of_begins hc]
  dsimp only
  rw [skipWhite_eq hc.1, hstatement, integerIn?]
  split
  next =>
    have hrest : (more ++ []).length < left := by
      simp only [List.length_cons, List.length_append, List.length_nil] at hline ⊢
      omega
    obtain ⟨last, hlast, hend⟩ := hmore (.assignment path (.value (.int n)) :: ss.reverse) [] left hrest
    obtain ⟨last, rfl, -⟩ := exists_fuel hlast
    rw [List.append_nil] at hend
    simp only [Option.map_some, Option.bind_eq_bind, Option.bind_some, htail]
    rw [hend, statements?]
    simp
  next => rfl

/-- A document with an assignment of an integer among its statements. -/
theorem read?_integer {pre tail more : List Char} {ss ss' : List Statement} (hpre : Says pre ss)
    (hkey : IsKey key path) (hwhite : ∀ c ∈ white, isWhite c = true) (hw : Writes w n)
    (htail : lineEnd? (tail ++ more) = some more) (hmore : Says more ss')
    (hmark : (pre ++ key).head? ≠ some '\uFEFF') :
    read? (String.ofList (pre ++ (key ++ '=' :: (white ++ (w ++ (tail ++ more)))))) =
      (integerIn? n (tail ++ more)).bind fun r =>
        (Document.ofStatements? (ss ++ .assignment path (.value r.1) :: ss')).bind
          fun d => d.root.toJson? := by
  have hhead : (pre ++ (key ++ '=' :: (white ++ (w ++ (tail ++ more))))).head? ≠ some '\uFEFF' := by
    obtain ⟨c, start, rfl, -⟩ := hkey.starts
    rw [← List.append_assoc, List.head?_append]
    cases hfirst : (pre ++ c :: start).head? with
    | none => simp at hfirst
    | some d =>
      rw [hfirst] at hmark
      exact hmark
  unfold read?
  rw [String.toList_ofList]
  split
  next heq =>
    rw [heq] at hhead
    exact absurd rfl hhead
  next =>
    dsimp only
    rw [statements?_integer hpre hkey hwhite hw htail hmore (Nat.lt_succ_self _)]
    cases integerIn? n (tail ++ more) <;> rfl

/-! ## Sections -/

def headed (sections : List (String × Members)) : Members :=
  sections.map fun s => (s.1, .table .header s.2)

def statementsOf (sections : List (String × Members)) : List Statement :=
  sections.flatMap fun s => .table [s.1] :: assignments s.2

theorem membersToJson?_headed_cons (name : String) (members : Members) (rest : Members) :
    Node.membersToJson? ((name, .table .header members) :: rest) =
      members.toJson?.bind fun j => (Node.membersToJson? rest).map fun js => (name, j) :: js := by
  rw [Node.membersToJson?, Node.toJson?]
  change members.toJson?.bind _ = _
  cases members.toJson? with
  | none => rfl
  | some j => cases Node.membersToJson? rest <;> rfl

/-- A table that has a certain member, and none that makes a date of it. -/
theorem toJson?_around {ms rest : Members} {l : String} {node : Node}
    (hms : ∀ m ∈ ms, m.1 ≠ dateTimeKey) (hl : l ≠ dateTimeKey) :
    Members.toJson? (ms ++ (l, node) :: rest) =
      (Node.membersToJson? (ms ++ (l, node) :: rest)).map Json.Reader.tidy := by
  refine toJson?_of_head ?_
  cases ms with
  | nil =>
    rintro m ⟨⟩
    exact hl
  | cons first ms =>
    rintro m ⟨⟩
    exact hms first List.mem_cons_self

variable {sections sections' : List (String × Members)} {fields fields' : Members}
  {tables tables' values values' : List (String × Json)} {name label : String}

/-- A document of sections with a value in one of them. -/
theorem ofStatements?_sections
    (hnames : (sections.map (·.1) ++ name :: sections'.map (·.1)).Nodup)
    (hmembers : ∀ s ∈ sections ++ sections', (s.2.map (·.1)).Nodup)
    (hlabels : (fields.map (·.1) ++ label :: fields'.map (·.1)).Nodup)
    (hsections : ∀ s ∈ sections, s.1 ≠ dateTimeKey) (hname : name ≠ dateTimeKey)
    (hfields : ∀ m ∈ fields, m.1 ≠ dateTimeKey) (hlabel : label ≠ dateTimeKey)
    (htables : Node.membersToJson? (headed sections) = some tables)
    (htables' : Node.membersToJson? (headed sections') = some tables')
    (hvalues : Node.membersToJson? fields = some values)
    (hvalues' : Node.membersToJson? fields' = some values') (v : Json) :
    (Document.ofStatements? ((statementsOf sections ++ .table [name] :: assignments fields) ++
      .assignment [label] (.value v) :: (assignments fields' ++ statementsOf sections'))).bind
        (fun d => d.root.toJson?) =
      some (Json.Reader.tidy (tables ++
        (name, Json.Reader.tidy (values ++ (label, v) :: values')) :: tables')) := by
  let own := fields ++ (label, .value v) :: fields'
  let all := sections ++ (name, own) :: sections'
  have hall : (statementsOf sections ++ .table [name] :: assignments fields) ++
      .assignment [label] (.value v) :: (assignments fields' ++ statementsOf sections') =
      all.flatMap fun s => .table [s.1] :: assignments s.2 := by
    simp [all, own, statementsOf, assignments]
  have hinside : ∀ s ∈ all, (s.2.map (·.1)).Nodup := by
    intro s hs
    rcases List.mem_append.1 hs with hs | hs
    · exact hmembers s (List.mem_append_left _ hs)
    · rcases List.mem_cons.1 hs with rfl | hs
      · simpa [own] using hlabels
      · exact hmembers s (List.mem_append_right _ hs)
  obtain ⟨heading, hdocument⟩ := @foldlM_sections [] all (by simpa [all] using hnames) hinside []
  have hown : Members.toJson? own =
      some (Json.Reader.tidy (values ++ (label, v) :: values')) := by
    have hvalue : Node.membersToJson? ((label, .value v) :: fields') = some ((label, v) :: values') := by
      rw [Node.membersToJson?, hvalues', Node.toJson?]
      rfl
    rw [toJson?_around hfields hlabel, membersToJson?_append, hvalues, hvalue]
    rfl
  have hsplit : headed all = headed sections ++ (name, .table .header own) :: headed sections' := by
    simp [headed, all]
  have hheaded : ∀ m ∈ headed sections, m.1 ≠ dateTimeKey := by
    intro m hm
    obtain ⟨s, hs, rfl⟩ := List.mem_map.1 hm
    exact hsections s hs
  rw [hall, Document.ofStatements?]
  refine (congrArg (·.bind fun d : Document => d.root.toJson?) hdocument).trans ?_
  change Members.toJson? (headed all) = _
  rw [hsplit, toJson?_around hheaded hname, membersToJson?_append, htables,
    membersToJson?_headed_cons, hown, htables']
  rfl

end HostSteward.Toml
