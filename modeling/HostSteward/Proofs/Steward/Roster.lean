import HostSteward.Steward

/-!
# Rosters

What tracking, forgetting and changing servers does to the server of each process name, and the
order that is kept in a roster: every server stands under its own process name, and no two records
have the same number.
-/

namespace HostSteward

namespace Roster

variable {r r' : Roster} {s : Server}

theorem contains_eq (r : Roster) (p : String) : r.contains p = (r.get? p).isSome := rfl

theorem get?_update (r : Roster) (number : Nat) (f : Server → Server) (p : String) :
    (r.update number f).get? p = (r.get? p).map fun s => if s.number = number then f s else s :=
  OrderedMap.get?_mapValues ..

theorem get?_update_self {p : String} (hget : r.get? p = some s) (f : Server → Server) :
    (r.update s.number f).get? p = some (f s) := by
  rw [get?_update, hget, Option.map_some, if_pos rfl]

theorem get?_remove (r : Roster) (process p : String) :
    (r.remove process).get? p = if process = p then none else r.get? p :=
  OrderedMap.get?_erase ..

theorem get?_removeSame (r : Roster) (process : String) (number : Nat) (p : String) :
    (r.removeSame process number).get? p =
      if process = p ∧ r.tracks process number then none else r.get? p := by
  unfold removeSame
  by_cases h : r.tracks process number
  · simp [h, get?_remove]
  · simp [h]

theorem insert_eq_ok_iff :
    r.insert s = .ok r' ↔ r.get? s.process = none ∧ r' = ⟨r.servers.insert s.process s⟩ := by
  unfold insert contains OrderedMap.contains
  rw [← get?]
  cases r.get? s.process <;> simp [eq_comm]

theorem get?_of_insert (h : r.insert s = .ok r') (p : String) :
    r'.get? p = if s.process = p then some s else r.get? p := by
  rw [(insert_eq_ok_iff.1 h).2]
  exact OrderedMap.get?_insert ..

end Roster

structure Server.Faithful (f : Server → Server) : Prop where
  number : ∀ s, (f s).number = s.number
  identity : ∀ s, (f s).identity = s.identity
  spec : ∀ s, (f s).spec = s.spec

namespace Roster

structure Sound (r : Roster) (next : Nat) : Prop where
  keyed : ∀ {p s}, r.get? p = some s → s.process = p
  below : ∀ {p s}, r.get? p = some s → s.number < next
  distinct : ∀ {p q s t}, r.get? p = some s → r.get? q = some t → s.number = t.number → p = q

variable {r r' : Roster} {next : Nat} {s : Server} {f : Server → Server}

theorem sound_empty (next : Nat) : Roster.empty.Sound next := by
  have hnone (p : String) : Roster.empty.get? p = none := rfl
  refine ⟨fun hget => ?_, fun hget => ?_, fun hget => ?_⟩
  all_goals
    rw [hnone] at hget
    cases hget

theorem exists_of_get?_update {number : Nat} {p : String}
    (hget : (r.update number f).get? p = some s) :
    ∃ t, r.get? p = some t ∧ s = if t.number = number then f t else t := by
  rw [get?_update, Option.map_eq_some_iff] at hget
  obtain ⟨t, ht, rfl⟩ := hget
  exact ⟨t, ht, rfl⟩

/-- No two processes are tracked under one number, so a change of a record changes no other. -/
theorem Sound.get?_update (h : r.Sound next) {p : String} (hget : r.get? p = some s)
    (f : Server → Server) (q : String) :
    (r.update s.number f).get? q = if p = q then some (f s) else r.get? q := by
  by_cases hp : p = q
  · subst hp
    rw [if_pos rfl, get?_update_self hget]
  · rw [if_neg hp, Roster.get?_update]
    cases hother : r.get? q with
    | none => rfl
    | some t => exact congrArg some (if_neg fun he => hp (h.distinct hget hother he.symm))

theorem Sound.update (h : r.Sound next) (hf : Server.Faithful f) (number : Nat) :
    (r.update number f).Sound next := by
  have hsame {p s} (hget : (r.update number f).get? p = some s) :
      ∃ t, r.get? p = some t ∧ s.number = t.number ∧ s.process = t.process := by
    obtain ⟨t, ht, rfl⟩ := exists_of_get?_update hget
    refine ⟨t, ht, ?_⟩
    split
    · exact ⟨hf.number t, congrArg Identity.processName (hf.identity t)⟩
    · exact ⟨rfl, rfl⟩
  refine ⟨fun hget => ?_, fun hget => ?_, fun hget hget' he => ?_⟩
  · obtain ⟨t, ht, -, hp⟩ := hsame hget
    exact hp.trans (h.keyed ht)
  · obtain ⟨t, ht, hn, -⟩ := hsame hget
    exact hn ▸ h.below ht
  · obtain ⟨t, ht, hn, -⟩ := hsame hget
    obtain ⟨t', ht', hn', -⟩ := hsame hget'
    exact h.distinct ht ht' (hn.symm.trans (he.trans hn'))

theorem Sound.untrack (h : r.Sound next) (process : String) (number : Nat) :
    (r.removeSame process number).Sound next := by
  have hsub {p s} (hget : (r.removeSame process number).get? p = some s) : r.get? p = some s := by
    rw [get?_removeSame] at hget
    split at hget
    · cases hget
    · exact hget
  exact ⟨fun hget => h.keyed (hsub hget), fun hget => h.below (hsub hget),
    fun hget hget' => h.distinct (hsub hget) (hsub hget')⟩

theorem Sound.track (h : r.Sound next) (hnumber : s.number = next) (hinsert : r.insert s = .ok r') :
    r'.Sound (next + 1) := by
  have hcases {p t} (hget : r'.get? p = some t) : s.process = p ∧ t = s ∨ r.get? p = some t := by
    rw [get?_of_insert hinsert] at hget
    split at hget
    next he => exact Or.inl ⟨he, (Option.some.inj hget).symm⟩
    · exact Or.inr hget
  refine ⟨fun hget => ?_, fun hget => ?_, fun hget hget' he => ?_⟩
  · rcases hcases hget with ⟨hp, rfl⟩ | hget
    · exact hp
    · exact h.keyed hget
  · rcases hcases hget with ⟨-, rfl⟩ | hget
    · exact hnumber ▸ Nat.lt_succ_self _
    · exact Nat.lt_succ_of_lt (h.below hget)
  · rcases hcases hget with ⟨hp, rfl⟩ | hget
    · rcases hcases hget' with ⟨hq, rfl⟩ | hget'
      · exact hp.symm.trans hq
      · exact absurd he (Nat.ne_of_gt (hnumber ▸ h.below hget'))
    · rcases hcases hget' with ⟨hq, rfl⟩ | hget'
      · exact absurd he (Nat.ne_of_lt (hnumber ▸ h.below hget))
      · exact h.distinct hget hget' he

end Roster

namespace Server

theorem faithful_withPhase (phase : Phase) : Faithful (·.withPhase phase) :=
  ⟨fun _ => rfl, fun _ => rfl, fun _ => rfl⟩

theorem faithful_diagnose (message : String) : Faithful (·.diagnose message) :=
  ⟨fun _ => rfl, fun _ => rfl, fun _ => rfl⟩

theorem faithful_registered (incarnation : Incarnation) : Faithful (·.registered incarnation) :=
  ⟨fun _ => rfl, fun _ => rfl, fun _ => rfl⟩

theorem faithful_check (expected : List Phase) (operation : String) :
    Faithful (·.check expected operation) := by
  have hcases (s : Server) : s.check expected operation = s ∨
      s.check expected operation = s.diagnose (s.mismatch expected operation) := by
    unfold check
    split
    · exact Or.inl rfl
    · exact Or.inr rfl
  refine ⟨fun s => ?_, fun s => ?_, fun s => ?_⟩
  all_goals
    rcases hcases s with h | h
    · rw [h]
    · rw [h]
      rfl

end Server

end HostSteward
