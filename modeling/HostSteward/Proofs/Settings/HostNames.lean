import HostSteward.Proofs.Settings.Placing

/-!
# The name of the host from a variable

The text of a variable is taken for a switch or a number if it can be, and the name of the host is
then made of the switch or the number. So the name is what the variable shows, which is the very
text only for some texts. Whether loading succeeds does not depend on the text.
-/

namespace HostSteward

namespace Settings

def shown (value : String) : String :=
  if Text.lowercase value = "true" then "true"
  else if Text.lowercase value = "false" then "false"
  else
    match Numeral.readInt64? value.toList with
    | some n => Numeral.integerText n
    | none =>
      match readReal? value.toList with
      | some x => x.text
      | none => value

theorem text?_variableValue (value : String) :
    Lenient.text? (variableValue value) = some (shown value) := by
  unfold variableValue shown
  dsimp only
  split
  next => rfl
  next =>
    split
    next => rfl
    next =>
      cases Numeral.readInt64? value.toList with
      | some n => rfl
      | none => cases readReal? value.toList <;> rfl

/-- The texts that come out as they are: the switches in small letters, integers as they are
written, doubles as they are written, and all that cannot be taken for one of these. -/
inductive Verbatim : String → Prop
  | switch (b : Bool) : Verbatim (cond b "true" "false")
  | integer {n : Int} (hfits : Numeral.fitsInt64 n = true) : Verbatim (Numeral.integerText n)
  | number {value : String} (hswitch : Text.lowercase value ∉ ["true", "false"])
      (hinteger : Numeral.readInt64? value.toList = none) {x : Binary64}
      (hread : readReal? value.toList = some x) (hwritten : x.text = value) : Verbatim value
  | word {value : String} (hswitch : Text.lowercase value ∉ ["true", "false"])
      (hinteger : Numeral.readInt64? value.toList = none) (hreal : readReal? value.toList = none) :
      Verbatim value

theorem shown_of_no_switch {value : String} (h : Text.lowercase value ∉ ["true", "false"]) :
    shown value = match Numeral.readInt64? value.toList with
      | some n => Numeral.integerText n
      | none => ((readReal? value.toList).map Binary64.text).getD value := by
  obtain ⟨htrue, hfalse⟩ : Text.lowercase value ≠ "true" ∧ Text.lowercase value ≠ "false" := by
    simpa using h
  rw [shown, if_neg htrue, if_neg hfalse]
  cases Numeral.readInt64? value.toList with
  | some n => rfl
  | none => cases readReal? value.toList <;> rfl

theorem shown_eq_self_iff {value : String} : shown value = value ↔ Verbatim value := by
  constructor
  · intro h
    by_cases hswitch : Text.lowercase value ∈ ["true", "false"]
    · rw [shown] at h
      split at h
      next => exact h ▸ .switch true
      next htrue =>
        have hfalse : Text.lowercase value = "false" := by simpa [htrue] using hswitch
        rw [if_pos hfalse] at h
        exact h ▸ .switch false
    · rw [shown_of_no_switch hswitch] at h
      cases hinteger : Numeral.readInt64? value.toList with
      | some n =>
        rw [hinteger] at h
        exact h ▸ .integer (Numeral.fitsInt64_of_readInt64? hinteger)
      | none =>
        rw [hinteger] at h
        cases hreal : readReal? value.toList with
        | some x =>
          rw [hreal] at h
          exact .number hswitch hinteger hreal h
        | none => exact .word hswitch hinteger hreal
  · intro h
    cases h with
    | switch b => cases b <;> decide +kernel
    | @integer n hfits =>
      have htext := text?_variableValue (Numeral.integerText n)
      rw [variableValue_integerText hfits] at htext
      exact (Option.some.inj htext).symm
    | number hswitch hinteger hreal hwritten =>
      rw [shown_of_no_switch hswitch, hinteger, hreal]
      exact hwritten
    | word hswitch hinteger hreal =>
      rw [shown_of_no_switch hswitch, hinteger, hreal]
      rfl

/-! ## Loading -/

variable {t : FileTree} {path : String} {before after : List (String × String)}

/-- With a variable for the name of the host, whatever the file and the other variables are, the
host has the name that the variable shows: the very text of the variable just if that is one of the
texts that come out as they are. Nothing else depends on the text, not even whether loading
succeeds. -/
theorem host_named_as_shown {key : String}
    (hkey : Text.lowercase key = "hostctl_host__name") (hafter : SparedBy .hostName after)
    (value other : String) :
    load t (before ++ (key, value) :: after) path =
        (load t (before ++ (key, other) :: after) path).map (·.set .hostName (shown value)) ∧
      ∀ s, load t (before ++ (key, value) :: after) path = .ok s →
        s.host.name = shown value ∧ (s.host.name = value ↔ Verbatim value) := by
  have hpath : variableName? key = some Field.hostName.path :=
    variableName?_of_lowercase hkey
  have heq (value other : String) : load t (before ++ (key, value) :: after) path =
      (load t (before ++ (key, other) :: after) path).map
        (·.set .hostName (shown value)) := by
    rcases fileGives_or_malformed t path with ⟨file, hfile⟩ | hmalformed
    · have hlaid := Frame.laid_ofVariable before hafter hfile hpath
      have hread (value : String) :
          Field.hostName.read? (variableValue value) = some (shown value) :=
        text?_variableValue value
      rw [(hlaid value).load_eq_bind (hlaid other) (by rw [hread]; rfl), hread]
      cases load t (before ++ (key, other) :: after) path <;> rfl
    · rw [hmalformed, hmalformed]
      rfl
  refine ⟨heq value other, fun s hs => ?_⟩
  have hshown : s.host.name = shown value := by
    have hself := heq value value
    rw [hs] at hself
    exact congrArg (fun s => s.host.name) (Except.ok.inj hself)
  exact ⟨hshown, by rw [hshown, shown_eq_self_iff]⟩

example : ["TRUE", "+5", "007", "-0", "1e3", "1.50", "0.1", "web-1"].map shown =
    ["true", "5", "7", "0", "1000", "1.5", "0.1", "web-1"] := by
  decide +kernel

theorem host_named_as_shown_agent :
    let environment (value : String) := [("PATH", "/bin"), ("HostCtl_Host__Name", value),
      ("HOSTCTL_HOST__CONTROLLER_PORT", "80")]
    load {} (environment "007") "/host.toml" =
        .ok { host := { name := "7", controllerPort := 80 } } ∧ ¬ Verbatim "007" := by
  intro environment
  have hport : variableName? "HOSTCTL_HOST__CONTROLLER_PORT" = some Field.controllerPort.path := by
    decide +kernel
  have hafter : SparedBy .hostName [("HOSTCTL_HOST__CONTROLLER_PORT", "80")] := by
    intro v hv name hname
    obtain rfl := List.mem_singleton.1 hv
    obtain rfl := Option.some.inj (hport.symm.trans hname)
    exact spares_path (by decide) _
  have hplain : load {} (environment "web") "/host.toml" =
      .ok { host := { name := "web", controllerPort := 80 } } := by
    have hlayer : fileLayer {} "/host.toml" = .ok [] := by decide
    rw [load_eq_settle hlayer, settle_eq_conclude]
    decide +kernel
  have hshown : shown "007" = "7" := by decide +kernel
  obtain ⟨heq, hnamed⟩ := @host_named_as_shown {} "/host.toml" [("PATH", "/bin")]
    [("HOSTCTL_HOST__CONTROLLER_PORT", "80")] "HostCtl_Host__Name" (by decide) hafter "007" "web"
  have hload : load {} (environment "007") "/host.toml" =
      .ok { host := { name := "7", controllerPort := 80 } } := by
    refine heq.trans ?_
    rw [hshown]
    exact congrArg (Except.map _) hplain
  have hverbatim := (hnamed _ hload).2
  exact ⟨hload, fun h => absurd (hverbatim.2 h) (by decide)⟩

end Settings

end HostSteward
