import HostSteward.Settings.Sources

/-!
# The presets are the default settings

The lowest layer of settings is put together from the presets, each of which addresses a setting by
its path. What comes out is the form of the default settings, so that every layer is laid over these.
-/

namespace HostSteward

/-! ## Small letters -/

namespace Text

def IsSmall (c : Char) : Prop := c.toNat < 0x80 ∧ c.toLower = c

instance : DecidablePred IsSmall := fun _ => inferInstanceAs (Decidable (_ ∧ _))

theorem lowercaseFrom_of_small {cs : List Char} (h : ∀ c ∈ cs, IsSmall c) (before : List Char) :
    lowercaseFrom before cs = cs := by
  induction cs generalizing before with
  | nil => rfl
  | cons c cs ih =>
    obtain ⟨⟨hascii, hlower⟩, hcs⟩ := List.forall_mem_cons.1 h
    have hsigma : c ≠ 'Σ' := by
      rintro rfl
      exact absurd hascii (by decide)
    rw [lowercaseFrom, if_neg hsigma, smallLetters_of_ascii hascii, hlower, ih hcs,
      List.singleton_append]

theorem lowercase_of_small {x : String} (h : ∀ c ∈ x.toList, IsSmall c) : lowercase x = x := by
  rw [lowercase, lowercaseFrom_of_small h, String.ofList_toList]

end Text

namespace Settings

/-! ## Paths of two names -/

theorem name?_append {cs : List Char} (hcs : ∀ c ∈ cs, PathStep.isNameChar c = true)
    (hne : cs ≠ []) {rest : List Char} (hrest : rest.head?.any PathStep.isNameChar = false) :
    PathStep.name? (cs ++ rest) = some (String.ofList cs, rest) := by
  have htake : rest.takeWhile PathStep.isNameChar = [] := by
    cases rest <;> simp_all
  have hdrop : rest.dropWhile PathStep.isNameChar = rest := by
    cases rest <;> simp_all
  unfold PathStep.name?
  rw [List.takeWhile_append_of_pos hcs, List.dropWhile_append_of_pos hcs, htake, hdrop,
    List.append_nil, if_neg (by simpa using hne)]

def isPlainName (name : String) : Bool :=
  !name.isEmpty && name.toList.all fun c => decide (Text.IsSmall c) && PathStep.isNameChar c

theorem isPlainName_iff {name : String} : isPlainName name = true ↔
    name.toList ≠ [] ∧ ∀ c ∈ name.toList, Text.IsSmall c ∧ PathStep.isNameChar c = true := by
  simp [isPlainName]

theorem ofName_dotted {first second : String} (hfirst : isPlainName first = true)
    (hsecond : isPlainName second = true) :
    PathStep.ofName (first ++ "." ++ second) = [.member first, .member second] := by
  obtain ⟨hne, hchars⟩ := isPlainName_iff.1 hfirst
  obtain ⟨hne', hchars'⟩ := isPlainName_iff.1 hsecond
  have hlist : (first ++ "." ++ second).toList = first.toList ++ '.' :: second.toList := by
    rw [String.toList_append, String.toList_append, List.append_assoc]
    rfl
  have hsmall : Text.lowercase (first ++ "." ++ second) = first ++ "." ++ second := by
    refine Text.lowercase_of_small fun c hc => ?_
    rw [hlist, List.mem_append, List.mem_cons] at hc
    rcases hc with hc | rfl | hc
    · exact (hchars c hc).1
    · decide
    · exact (hchars' c hc).1
  have hstart : PathStep.name? (first ++ "." ++ second).toList =
      some (first, '.' :: second.toList) := by
    rw [hlist, name?_append (fun c hc => (hchars c hc).2) hne rfl, String.ofList_toList]
  have hend : PathStep.name? second.toList = some (second, []) := by
    rw [← List.append_nil second.toList, name?_append (fun c hc => (hchars' c hc).2) hne' rfl,
      String.ofList_toList]
  have hread : PathStep.read? (first ++ "." ++ second).toList =
      some [.member first, .member second] := by
    rw [PathStep.read?, hstart]
    simp only [PathStep.further?, hend, List.length_cons, Option.bind_eq_bind, Option.bind_some]
    rfl
  rw [PathStep.ofName, hsmall, hread]
  rfl

/-! ## The lowest layer -/

theorem layOver?_cons (below : Json) (m : String × Json) (layer : List (String × Json)) :
    layOver? below (m :: layer) =
      (place? m.2 (PathStep.ofName m.1) below).bind (layOver? · layer) :=
  List.foldlM_cons

theorem layOver?_append (j : Json) (layer more : List (String × Json)) :
    layOver? j (layer ++ more) = (layOver? j layer).bind (layOver? · more) :=
  List.foldlM_append

theorem ofName_preset {parent name : String} {value : Json} (hparent : isPlainName parent = true)
    (hname : isPlainName name = true) :
    PathStep.ofName (preset parent name value).1 = [.member parent, .member name] :=
  ofName_dotted hparent hname

theorem layOver?_presets : layOver? (.object []) presets = some ({} : Settings).toJson := by
  have hservers : PathStep.ofName "servers" = [.member "servers"] := by decide
  unfold presets
  simp only [layOver?_cons, hservers]
  repeat rw [ofName_preset]
  · rfl
  all_goals decide

theorem settle_eq_conclude (layers : List (String × Json)) :
    settle layers = conclude (layOver? ({} : Settings).toJson layers) := by
  simp only [settle, layOver?_append, layOver?_presets, Option.bind_some]

section File

variable {t : FileTree} {path text : String} {format : FileFormat}

theorem fileLayer_of_read (hfile : locate? t path = some (text, format))
    {members : List (String × Json)} (hread : readFile? text format = some members) :
    fileLayer t path = .ok members := by
  unfold fileLayer
  rw [hfile]
  dsimp only
  rw [hread]

theorem fileLayer_of_unread (hfile : locate? t path = some (text, format))
    (hread : readFile? text format = none) : fileLayer t path = .error .malformed := by
  unfold fileLayer
  rw [hfile]
  dsimp only
  rw [hread]

end File

theorem load_eq_settle {t : FileTree} {path : String} {file : List (String × Json)}
    (hfile : fileLayer t path = .ok file) (environment : List (String × String)) :
    load t environment path = settle (file ++ variableLayer environment) := by
  simp only [load, hfile, bind, Except.bind]

theorem load_eq_error {t : FileTree} {path : String} {fault : LoadFault}
    (hfile : fileLayer t path = .error fault) (environment : List (String × String)) :
    load t environment path = .error fault := by
  simp only [load, hfile, bind, Except.bind]

end Settings

end HostSteward
