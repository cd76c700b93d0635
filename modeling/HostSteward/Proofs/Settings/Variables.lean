import HostSteward.Proofs.Numerals
import HostSteward.Proofs.Settings.Fields

/-!
# Fields are set by variables

A variable of the host names a section and a field of it, in capital or small letters, and its text
stands for a value of that field. The layer of the variables then addresses each field by its path.
-/

namespace HostSteward

theorem Text.isSmall_of_isDigit {c : Char} (h : c.isDigit = true) : IsSmall c := by
  have hhigh : c.toNat ≤ '9'.toNat := (Char.isDigit_iff_toNat.1 h).2
  refine ⟨Nat.lt_of_le_of_lt hhigh (by decide), ?_⟩
  unfold Char.toLower
  refine dif_neg fun hupper => ?_
  have hlow : 'A'.toNat ≤ c.toNat := hupper.1
  exact absurd (hlow.trans hhigh) (by decide)

namespace Settings

/-! ## Values -/

/-- The text of a variable that stands for a value. A text must not look like anything else,
a switch not even in capital letters. -/
def Kind.Writes : (k : Kind) → k.Value → String → Prop
  | .text, s, x => x = s ∧ Text.lowercase x ∉ ["true", "false"] ∧
      Numeral.readInt64? x.toList = none ∧ readReal? x.toList = none
  | .bootMode, b, x => x = BootMode.label b
  | .uint16, n, x => x = Numeral.text (UInt16.toNat n)
  | .uint32, n, x => x = Numeral.text (UInt32.toNat n)
  | .uint64, n, x => x = Numeral.text (UInt64.toNat n) ∧
      Numeral.fitsInt64 (UInt64.toNat n) = true
  | .flag, b, x => x = cond b "true" "false"

theorem variableValue_of_no_switch {value : String}
    (h : Text.lowercase value ∉ ["true", "false"]) :
    variableValue value = match Numeral.readInt64? value.toList with
      | some n => .int n
      | none =>
        match readReal? value.toList with
        | some x => .real x
        | none => .string value := by
  obtain ⟨htrue, hfalse⟩ : Text.lowercase value ≠ "true" ∧ Text.lowercase value ≠ "false" := by
    simpa using h
  exact (if_neg htrue).trans (if_neg hfalse)

/-- What is written with signs and digits alone is no switch. -/
theorem no_switch_of_signed {value : String}
    (h : ∀ c ∈ value.toList, c = '+' ∨ c = '-' ∨ c.isDigit = true) :
    Text.lowercase value ∉ ["true", "false"] := by
  have hsmall : Text.lowercase value = value := by
    refine Text.lowercase_of_small fun c hc => ?_
    rcases h c hc with rfl | rfl | hdigit
    · decide
    · decide
    · exact Text.isSmall_of_isDigit hdigit
  have hword {word : String} (hmem : 'e' ∈ word.toList) : value ≠ word := by
    rintro rfl
    exact absurd (h 'e' hmem) (by decide)
  have htrue : value ≠ "true" := hword (by decide)
  have hfalse : value ≠ "false" := hword (by decide)
  simp [hsmall, htrue, hfalse]

theorem variableValue_integerText {n : Int} (h : Numeral.fitsInt64 n = true) :
    variableValue (Numeral.integerText n) = .int n := by
  have hswitch := no_switch_of_signed fun c hc => .inr (Numeral.eq_minus_or_isDigit (n := n) hc)
  rw [variableValue_of_no_switch hswitch, Numeral.readInt64?_integerText h]

theorem variableValue_numeral {n : Nat} (h : Numeral.fitsInt64 n = true) :
    variableValue (Numeral.text n) = .nat n := by
  have htext : Numeral.integerText n = Numeral.text n := if_neg (Int.not_lt.2 (Int.natCast_nonneg n))
  rw [← htext, variableValue_integerText h]
  rfl

theorem variableValue_of_writes {k : Kind} {v : k.Value} {x : String} (h : k.Writes v x) :
    variableValue x = k.toJson v := by
  cases k with
  | text =>
    obtain ⟨rfl, hcase, hint, hreal⟩ := h
    rw [variableValue_of_no_switch hcase, hint, hreal]
    rfl
  | bootMode =>
    obtain rfl := h
    cases v <;> decide +kernel
  | uint16 =>
    obtain rfl := h
    exact variableValue_numeral (Numeral.fitsInt64_uint16 v)
  | uint32 =>
    obtain rfl := h
    exact variableValue_numeral (Numeral.fitsInt64_uint32 v)
  | uint64 =>
    obtain ⟨rfl, hfits⟩ := h
    exact variableValue_numeral hfits
  | flag =>
    obtain rfl := h
    cases v <;> decide +kernel

/-! ## Names -/

def Field.path (f : Field) : String := f.parent.label ++ "." ++ f.label

theorem Field.toList_path (f : Field) :
    f.path.toList = f.parent.label.toList ++ '.' :: f.label.toList := by
  rw [path, String.toList_append, String.toList_append, List.append_assoc]
  rfl

structure Assignment.SetBy (a : Assignment) (v : String × String) : Prop where
  name : Text.lowercase v.1 = "hostctl_" ++ a.1.parent.label ++ "__" ++ a.1.label
  value : a.1.kind.Writes a.2 v.2

theorem withPoints_append {cs : List Char} (h : '_' ∉ cs) (rest : List Char) :
    withPoints (cs ++ rest) = cs ++ withPoints rest := by
  induction cs with
  | nil => rfl
  | cons c cs ih =>
    obtain ⟨hc, hcs⟩ := not_or.1 (List.mem_cons.not.1 h)
    rw [List.cons_append, withPoints, ih hcs, List.cons_append]
    rintro rest rfl
    exact absurd rfl hc

theorem withPoints_label (f : Field) : withPoints f.label.toList = f.label.toList := by
  cases f <;> decide

theorem variableName?_of_lowercase {f : Field} {name : String}
    (h : Text.lowercase name = "hostctl_" ++ f.parent.label ++ "__" ++ f.label) :
    variableName? name = some f.path := by
  have hchars : (Text.lowercase name).toList =
      variableStart ++ (f.parent.label.toList ++ '_' :: '_' :: f.label.toList) := by
    have hmark : "__".toList = ['_', '_'] := by decide
    rw [h, String.toList_append, String.toList_append, String.toList_append, hmark,
      List.append_assoc, List.append_assoc]
    rfl
  have hparent : '_' ∉ f.parent.label.toList := by cases f.parent <;> decide
  unfold variableName?
  dsimp only
  rw [hchars, List.take_left, if_pos rfl, List.drop_left, withPoints_append hparent, withPoints,
    withPoints_label, ← Field.toList_path, String.ofList_toList]

theorem variableName?_of_setBy {a : Assignment} {v : String × String} (h : a.SetBy v) :
    variableName? v.1 = some a.1.path :=
  variableName?_of_lowercase h.name

theorem ofName_path (f : Field) :
    PathStep.ofName f.path = [.member f.parent.label, .member f.label] := by
  apply ofName_dotted
  · cases f.parent <;> decide
  · cases f <;> decide

theorem variableLayer_cons (v : String × String) (environment : List (String × String)) :
    variableLayer (v :: environment) =
      ((variableName? v.1).map (·, variableValue v.2)).toList ++ variableLayer environment := by
  rw [variableLayer, List.filterMap_cons]
  dsimp only
  cases variableName? v.1 <;> rfl

/-- What is not about the host is passed over, every other variable addresses its field. -/
theorem variableLayer_of_setBy {given : List Assignment} {environment : List (String × String)}
    (h : List.Forall₂ Assignment.SetBy given
      (environment.filter fun v => (variableName? v.1).isSome)) :
    variableLayer environment = given.map fun a => (a.1.path, a.1.toJson a.2) := by
  induction environment generalizing given with
  | nil =>
    cases h
    rfl
  | cons v environment ih =>
    rw [variableLayer_cons]
    cases hname : variableName? v.1 with
    | none =>
      rw [List.filter_cons_of_neg (by simp [hname])] at h
      exact ih h
    | some name =>
      rw [List.filter_cons_of_pos (by simp [hname])] at h
      cases h with
      | cons ha hrest =>
        rw [variableName?_of_setBy ha] at hname
        rw [← Option.some.inj hname, variableValue_of_writes ha.value, ih hrest]
        rfl

end Settings

end HostSteward
