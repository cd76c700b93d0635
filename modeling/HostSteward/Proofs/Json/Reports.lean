import HostSteward.Proofs.Json.Forms

/-!
# Which reports have a JSON form

The outcomes of a report are keyed by identities. An object names its members by texts, and the form
of an identity is no text: so a report is written just as long as nothing has been recorded in it, and
only such a report is ever read.
-/

namespace HostSteward

namespace Json

variable {κ ν : Type} {key : κ → Json} {value : ν → Json}

theorem keyed?_eq (h : ∀ k, (key k).string? = none) (entries : List (κ × ν)) :
    keyed? key value entries = if entries.isEmpty then some (.object []) else none := by
  cases entries with
  | nil => rfl
  | cons e rest =>
    rw [keyed?, List.mapM_cons, h e.1]
    rfl

theorem ofKeyed?_eq {key : Json → Option κ} {value : Json → Option ν}
    (h : ∀ name, key (.string name) = none) (j : Json) : ofKeyed? key value j =
      j.object?.bind fun members => if members.isEmpty then some [] else none := by
  unfold ofKeyed?
  cases j.object? with
  | none => rfl
  | some members =>
    rw [Option.bind_eq_bind, Option.bind_some, Option.bind_some]
    cases members with
    | nil => rfl
    | cons m rest =>
      rw [List.mapM_cons, h m.1]
      rfl

theorem eq_nil_of_ofKeyed? {key : Json → Option κ} {value : Json → Option ν}
    (h : ∀ name, key (.string name) = none) {j : Json} {entries : List (κ × ν)}
    (hread : ofKeyed? key value j = some entries) : entries = [] := by
  rw [ofKeyed?_eq h] at hread
  obtain ⟨members, -, hentries⟩ := Option.bind_eq_some_iff.1 hread
  exact (Option.some.inj (Option.ite_none_right_eq_some.1 hentries).2).symm

end Json

namespace Report

theorem toJson?_eq (r : Report) : r.toJson? = if r.outcomes.isEmpty then
    some (.object [("host_failure", Json.option Fault.toJson r.hostFault),
      ("outcomes", .object [])]) else none := by
  rw [toJson?, Json.keyed?_eq fun _ => rfl, OrderedMap.isEmpty]
  cases r.outcomes.entries <;> rfl

theorem isEmpty_of_ofJson? {j : Json} {r : Report} (h : ofJson? j = some r) :
    r.outcomes.isEmpty = true := by
  simp only [ofJson?, Option.bind_eq_bind, Option.bind_eq_some_iff] at h
  obtain ⟨_, -, hostFault, -, outcomes, houtcomes, hr⟩ := h
  obtain ⟨form, -, hread⟩ := Option.bind_eq_some_iff.1 houtcomes
  obtain rfl := Json.eq_nil_of_ofKeyed? (fun _ => rfl) hread
  obtain rfl := Option.some.inj hr
  rfl

theorem exists_of_isEmpty {r : Report} (h : r.outcomes.isEmpty = true) :
    ∃ hostFault, r = ⟨hostFault, .empty⟩ := by
  obtain ⟨hostFault, entries, hascending⟩ := r
  obtain rfl : entries = [] := List.isEmpty_iff.1 h
  exact ⟨hostFault, rfl⟩

theorem isSome_toJson?_iff (r : Report) : r.toJson?.isSome ↔ r.outcomes.isEmpty = true := by
  rw [toJson?_eq]
  split
  next h => exact iff_of_true rfl h
  next h => exact iff_of_false nofun h

theorem ofJson?_of_toJson? {r : Report} {j : Json} (h : r.toJson? = some j) :
    ofJson? j = some r := by
  have hempty : r.outcomes.isEmpty = true := by
    rw [← isSome_toJson?_iff, h]
    rfl
  obtain ⟨hostFault, rfl⟩ := exists_of_isEmpty hempty
  obtain rfl := Option.some.inj h
  have hfault := Json.nullable?_option Fault.ofJson?_toJson nofun hostFault
  change (do
    let hostFault ← Json.nullable? Fault.ofJson? (Json.option Fault.toJson hostFault)
    some (Report.mk hostFault .empty)) = some ⟨hostFault, .empty⟩
  rw [hfault]
  rfl

theorem isEmpty_record (r : Report) (server : Identity) (outcome : Outcome) :
    (r.record server outcome).outcomes.isEmpty ≠ true := by
  have hfound : (r.record server outcome).outcomes.get? server = some outcome := by
    rw [record_eq, withOutcome, OrderedMap.get?_insert, if_pos rfl]
  intro hempty
  obtain ⟨hostFault, heq⟩ := exists_of_isEmpty hempty
  rw [heq] at hfound
  cases hfound

/-- What is recorded once is never lost again. -/
theorem isEmpty_foldl_record (r : Report) (answers : List (Identity × Outcome)) :
    (answers.foldl (fun r a => r.record a.1 a.2) r).outcomes.isEmpty = true ↔
      r.outcomes.isEmpty = true ∧ answers = [] := by
  induction answers generalizing r with
  | nil => exact (and_iff_left rfl).symm
  | cons a rest ih =>
    rw [List.foldl_cons, ih]
    apply iff_of_false
    · exact fun h => isEmpty_record r a.1 a.2 h.1
    · exact fun h => List.cons_ne_nil a rest h.2

/-- Of the reports that come about by recording answers, one is written just if there was no answer.
Then it is read back as it was; a report with an answer in it cannot be read from anything. -/
theorem written_without_outcomes {start : Report}
    (hstart : start = .neutral ∨ ∃ cause, start = .refused cause)
    (answers : List (Identity × Outcome)) :
    let r := answers.foldl (fun r a => r.record a.1 a.2) start
    (r.toJson?.isSome ↔ answers = []) ∧
    (∀ j, r.toJson? = some j → ofJson? j = some r) ∧
    ((∃ j, ofJson? j = some r) ↔ answers = []) := by
  intro r
  have hopen : start.outcomes.isEmpty = true := by
    rcases hstart with rfl | ⟨cause, rfl⟩
    · rfl
    · rfl
  have hempty : r.outcomes.isEmpty = true ↔ answers = [] :=
    (isEmpty_foldl_record start answers).trans (and_iff_right hopen)
  have hwritten : r.toJson?.isSome ↔ answers = [] := (isSome_toJson?_iff r).trans hempty
  refine ⟨hwritten, fun j => ofJson?_of_toJson?, fun ⟨j, hj⟩ => hempty.1 (isEmpty_of_ofJson? hj), ?_⟩
  intro h
  obtain ⟨j, hj⟩ := Option.isSome_iff_exists.1 (hwritten.2 h)
  exact ⟨j, ofJson?_of_toJson? hj⟩

/-- A report with one answer has no form, one with a fault of the host and no answer has. -/
theorem written_without_outcomes_refused :
    let id : Identity := ⟨"h", "g", "a"⟩
    (neutral.record id .rolledBack).toJson? = none ∧
    (¬ ∃ j, ofJson? j = some (neutral.record id .rolledBack)) ∧
    ∃ j, (refused ⟨"full"⟩).toJson? = some j ∧ ofJson? j = some (refused ⟨"full"⟩) := by
  intro id
  obtain ⟨hnone, -, hunread⟩ := written_without_outcomes (.inl rfl) [(id, .rolledBack)]
  obtain ⟨hsome, hread, -⟩ := written_without_outcomes (.inr ⟨⟨"full"⟩, rfl⟩) []
  obtain ⟨j, hj⟩ := Option.isSome_iff_exists.1 (hsome.2 rfl)
  refine ⟨?_, fun h => List.cons_ne_nil _ _ (hunread.1 h), j, hj, hread j hj⟩
  rw [← Option.not_isSome_iff_eq_none]
  exact fun h => List.cons_ne_nil _ _ (hnone.1 h)

end Report

end HostSteward
