import HostSteward.Proofs.Settings.Checks
import HostSteward.Proofs.Steward.Ledger

/-!
# Delays between restarts

A delay is the base delay times a power of two, both the power and the delay being capped. That is
said in exact numbers, and machine words compute it without ever going wrong: seconds and what is
below a second are multiplied apart, and only the checked operations can fail. As failures of a
process add up, its delays never become shorter.
-/

namespace HostSteward

namespace Duration

theorem nanoseconds_min (a b : Duration) :
    (a.min b).nanoseconds = Nat.min a.nanoseconds b.nanoseconds := by
  unfold Duration.min
  split
  next h => exact (Nat.min_eq_left h).symm
  next h => exact (Nat.min_eq_right (Nat.le_of_not_le h)).symm

/-! ## Words -/

/-- A span as it is held: whole seconds, and the nanoseconds past the last of them. -/
structure Words where
  seconds : UInt64
  subsecond : UInt32
deriving DecidableEq

def words (d : Duration) : Words := ⟨.ofNat d.seconds, .ofNat d.subsecond⟩

theorem seconds_lt (d : Duration) : d.seconds < UInt64.size := by
  apply Nat.div_lt_of_lt_mul
  rw [Nat.mul_comm]
  exact d.bounded

theorem subsecond_lt (d : Duration) : d.subsecond < 1000000000 :=
  Nat.mod_lt d.nanoseconds (by decide)

theorem nanoseconds_eq (d : Duration) :
    d.nanoseconds = d.seconds * 1000000000 + d.subsecond := by
  simp only [seconds, subsecond]
  omega

theorem toNat_words_seconds (d : Duration) : d.words.seconds.toNat = d.seconds :=
  UInt64.toNat_ofNat_of_lt' d.seconds_lt

theorem toNat_words_subsecond (d : Duration) : d.words.subsecond.toNat = d.subsecond := by
  apply UInt32.toNat_ofNat_of_lt'
  have hsubsecond := d.subsecond_lt
  simp only [UInt32.size]
  omega

namespace Words

theorem ext_toNat {v w : Words} (hseconds : v.seconds.toNat = w.seconds.toNat)
    (hsubsecond : v.subsecond.toNat = w.subsecond.toNat) : v = w := by
  obtain ⟨_, _⟩ := v
  obtain ⟨_, _⟩ := w
  rw [Words.mk.injEq]
  exact ⟨UInt64.toNat_inj.1 hseconds, UInt32.toNat_inj.1 hsubsecond⟩

def product? (a b : UInt64) : Option UInt64 :=
  if a.toNat * b.toNat < UInt64.size then some (a * b) else none

def sum? (a b : UInt64) : Option UInt64 :=
  if a.toNat + b.toNat < UInt64.size then some (a + b) else none

/-- The multiple of a span. The nanoseconds are multiplied without a check, and the whole seconds
among them are carried over. -/
def times? (w : Words) (n : UInt32) : Option Words := do
  let nanoseconds := w.subsecond.toUInt64 * n.toUInt64
  let seconds ← product? w.seconds n.toUInt64
  let seconds ← sum? seconds (nanoseconds / 1000000000)
  return ⟨seconds, (nanoseconds % 1000000000).toUInt32⟩

def min (v w : Words) : Words :=
  if v.seconds < w.seconds ∨ v.seconds = w.seconds ∧ v.subsecond ≤ w.subsecond then v else w

theorem product?_of_lt {a b : UInt64} (h : a.toNat * b.toNat < UInt64.size) :
    ∃ c, product? a b = some c ∧ c.toNat = a.toNat * b.toNat := by
  refine ⟨a * b, if_pos h, ?_⟩
  rw [UInt64.toNat_mul]
  exact Nat.mod_eq_of_lt h

theorem sum?_of_lt {a b : UInt64} (h : a.toNat + b.toNat < UInt64.size) :
    ∃ c, sum? a b = some c ∧ c.toNat = a.toNat + b.toNat := by
  refine ⟨a + b, if_pos h, ?_⟩
  rw [UInt64.toNat_add]
  exact Nat.mod_eq_of_lt h

/-- The nanoseconds of a multiple: what is below a second has 30 bits and the factor 32, so there is
room for their product in a word. -/
theorem toNat_nanoseconds (d : Duration) (n : UInt32) :
    (d.words.subsecond.toUInt64 * n.toUInt64).toNat = d.subsecond * n.toNat := by
  have hsubsecond := d.subsecond_lt
  have hn : n.toNat < 4294967296 := n.toNat_lt
  have hproduct : d.subsecond * n.toNat < 1000000000 * 4294967296 :=
    Nat.mul_lt_mul'' hsubsecond hn
  rw [UInt64.toNat_mul, UInt32.toNat_toUInt64, UInt32.toNat_toUInt64, toNat_words_subsecond]
  apply Nat.mod_eq_of_lt
  omega

/-- The words of a multiple are computed exactly: the unchecked product holds, and a check fails just
where the multiple is out of range. -/
theorem times?_words (d : Duration) (n : UInt32) :
    d.words.times? n = (d.times? n.toNat).map words := by
  have hnanoseconds := toNat_nanoseconds d n
  have htotal : d.nanoseconds * n.toNat =
      d.seconds * n.toNat * 1000000000 + d.subsecond * n.toNat := by
    rw [d.nanoseconds_eq, Nat.add_mul, Nat.mul_right_comm]
  have hchecked : d.words.seconds.toNat * n.toUInt64.toNat = d.seconds * n.toNat := by
    rw [toNat_words_seconds, UInt32.toNat_toUInt64]
  unfold Words.times? Duration.times? ofNanoseconds?
  generalize d.words.subsecond.toUInt64 * n.toUInt64 = nanoseconds at *
  generalize d.subsecond * n.toNat = m at *
  generalize d.seconds * n.toNat = s at *
  have hcarry : (nanoseconds / 1000000000).toNat = m / 1000000000 := by
    rw [UInt64.toNat_div, hnanoseconds]
    rfl
  have hrange : d.nanoseconds * n.toNat < UInt64.size * 1000000000 ↔
      s + m / 1000000000 < UInt64.size := by
    rw [htotal]
    omega
  by_cases hs : s < UInt64.size
  · obtain ⟨seconds, hproduct, hseconds⟩ := product?_of_lt (hchecked ▸ hs)
    rw [hproduct, Option.bind_eq_bind, Option.bind_some]
    rw [← hchecked, ← hseconds, ← hcarry] at hrange
    by_cases hsum : seconds.toNat + (nanoseconds / 1000000000).toNat < UInt64.size
    · obtain ⟨total, hadded, hall⟩ := sum?_of_lt hsum
      rw [hadded, Option.bind_some, dif_pos (hrange.2 hsum), Option.map_some, Option.pure_def,
        Option.some_inj]
      apply ext_toNat
      · rw [toNat_words_seconds]
        simp only [Duration.seconds]
        omega
      · rw [toNat_words_subsecond, UInt64.toNat_toUInt32, UInt64.toNat_mod, hnanoseconds]
        simp only [Duration.subsecond, UInt64.reduceToNat]
        omega
    · rw [dif_neg (mt hrange.1 hsum), sum?, if_neg hsum]
      rfl
  · rw [dif_neg (fun hfits => hs (by omega)), product?, if_neg (by rwa [hchecked])]
    rfl

theorem min_words (a b : Duration) : (a.min b).words = a.words.min b.words := by
  have hle : a ≤ b ↔ a.words.seconds < b.words.seconds ∨
      a.words.seconds = b.words.seconds ∧ a.words.subsecond ≤ b.words.subsecond := by
    rw [UInt64.lt_iff_toNat_lt, ← UInt64.toNat_inj, UInt32.le_iff_toNat_le, toNat_words_seconds,
      toNat_words_seconds, toNat_words_subsecond, toNat_words_subsecond]
    change a.nanoseconds ≤ b.nanoseconds ↔ _
    simp only [Duration.seconds, Duration.subsecond]
    omega
  unfold Duration.min Words.min
  by_cases h : a ≤ b
  · rw [if_pos h, if_pos (hle.1 h)]
  · rw [if_neg h, if_neg (mt hle.2 h)]

end Words

end Duration

namespace RestartPolicy

/-! ## One delay -/

theorem factor_eq (n : UInt32) : factor n = Nat.min (Nat.pow 2 n.toNat) (Nat.pow 2 32 - 1) := by
  unfold factor
  split
  next hsmall =>
    have hpow : Nat.pow 2 n.toNat ≤ Nat.pow 2 31 := Nat.pow_le_pow_right (by decide) (by omega)
    have hle : Nat.pow 2 n.toNat ≤ Nat.pow 2 32 - 1 := Nat.le_trans hpow (by decide)
    rw [Nat.one_shiftLeft]
    exact (Nat.min_eq_left hle).symm
  next hlarge =>
    have hpow : Nat.pow 2 32 ≤ Nat.pow 2 n.toNat := Nat.pow_le_pow_right (by decide) (by omega)
    have hle : Nat.pow 2 32 - 1 ≤ Nat.pow 2 n.toNat := Nat.le_trans (by decide) hpow
    exact (Nat.min_eq_right hle).symm

theorem factor_pos (n : UInt32) : 0 < factor n := by
  rw [factor_eq]
  exact Nat.lt_min.2 ⟨Nat.pow_pos (by decide), by decide⟩

theorem factor_mono {m n : UInt32} (h : m ≤ n) : factor m ≤ factor n := by
  have hpow : Nat.pow 2 m.toNat ≤ Nat.pow 2 n.toNat :=
    Nat.pow_le_pow_right (by decide) (UInt32.le_iff_toNat_le.1 h)
  rw [factor_eq, factor_eq]
  apply Nat.le_min.2
  exact ⟨Nat.le_trans (Nat.min_le_left _ _) hpow, Nat.min_le_right _ _⟩

variable {p : RestartPolicy}

/-- The cap takes the place of what is out of range, since it is itself in range. -/
theorem nanoseconds_delay (h : p.exponential = true) (n : UInt32) : (p.delay n).nanoseconds =
    Nat.min (p.baseDelay.nanoseconds * factor n) p.maxDelay.nanoseconds := by
  unfold delay Duration.times? Duration.ofNanoseconds?
  rw [if_pos h]
  by_cases hfits : p.baseDelay.nanoseconds * factor n < UInt64.size * 1000000000
  · rw [dif_pos hfits]
    exact Duration.nanoseconds_min _ _
  · rw [dif_neg hfits]
    have hmax := p.maxDelay.bounded
    have hle : p.maxDelay.nanoseconds ≤ p.baseDelay.nanoseconds * factor n := by omega
    exact (Nat.min_eq_right hle).symm

theorem delay_le_maxDelay (h : p.exponential = true) (n : UInt32) : p.delay n ≤ p.maxDelay := by
  change (p.delay n).nanoseconds ≤ p.maxDelay.nanoseconds
  rw [nanoseconds_delay h]
  exact Nat.min_le_right _ _

theorem delay_mono (h : p.exponential = true) {m n : UInt32} (hmn : m ≤ n) :
    p.delay m ≤ p.delay n := by
  change (p.delay m).nanoseconds ≤ (p.delay n).nanoseconds
  have hproduct : p.baseDelay.nanoseconds * factor m ≤ p.baseDelay.nanoseconds * factor n :=
    Nat.mul_le_mul_left _ (factor_mono hmn)
  rw [nanoseconds_delay h, nanoseconds_delay h]
  apply Nat.le_min.2
  exact ⟨Nat.le_trans (Nat.min_le_left _ _) hproduct, Nat.min_le_right _ _⟩

theorem baseDelay_le_delay (h : p.exponential = true) (hle : p.baseDelay ≤ p.maxDelay)
    (n : UInt32) : p.baseDelay ≤ p.delay n := by
  change p.baseDelay.nanoseconds ≤ (p.delay n).nanoseconds
  rw [nanoseconds_delay h]
  exact Nat.le_min.2 ⟨Nat.le_mul_of_pos_right _ (factor_pos n), hle⟩

theorem baseDelay_le_maxDelay {s : Settings} (h : s.problem? = none) :
    (ofLifecycle s.lifecycle).baseDelay ≤ (ofLifecycle s.lifecycle).maxDelay := by
  have hle := (Settings.problem?_eq_none_iff.1 h).delays
  exact Nat.mul_le_mul_right _ (UInt64.le_iff_toNat_le.1 hle)

/-- The factor as a word: a power of two, or the largest word if that is too large for one. -/
def factorWord (failures : UInt32) : UInt32 :=
  if failures < 32 then 1 <<< failures else 0xFFFFFFFF

theorem toNat_factorWord (n : UInt32) : (factorWord n).toNat = factor n := by
  unfold factorWord factor
  by_cases h : n < 32
  · have hn : n.toNat < 32 := UInt32.lt_iff_toNat_lt.1 h
    have hpow : Nat.pow 2 n.toNat < Nat.pow 2 32 := Nat.pow_lt_pow_right (by decide) hn
    rw [if_pos h, if_pos hn, UInt32.toNat_shiftLeft, Nat.mod_eq_of_lt hn]
    apply Nat.mod_eq_of_lt
    rw [UInt32.toNat_one, Nat.one_shiftLeft]
    exact hpow
  · have hn : ¬ n.toNat < 32 := fun hlt => h (UInt32.lt_iff_toNat_lt.2 hlt)
    rw [if_neg h, if_neg hn]
    rfl

/-- The delay, computed by words alone. -/
def delayInWords (p : RestartPolicy) (failures : UInt32) : Duration.Words :=
  if p.exponential then
    match p.baseDelay.words.times? (factorWord failures) with
    | some w => w.min p.maxDelay.words
    | none => p.maxDelay.words
  else p.baseDelay.words

theorem delayInWords_eq (p : RestartPolicy) (n : UInt32) : p.delayInWords n = (p.delay n).words := by
  unfold delayInWords delay
  rw [Duration.Words.times?_words, toNat_factorWord]
  by_cases h : p.exponential = true
  · rw [if_pos h, if_pos h]
    cases p.baseDelay.times? (factor n) with
    | none => rfl
    | some d => exact (Duration.Words.min_words d p.maxDelay).symm
  · rw [if_neg h, if_neg h]

end RestartPolicy

/-! ## One failure after another -/

/-- What happens to a process, as far as its budget is concerned. -/
inductive Incident where
  | fails (process : String)
  | recovers (process : String)
deriving DecidableEq

def RestartPolicy.decision (p : RestartPolicy) (failures : Nat) : RestartDecision :=
  if failures < p.maxRestarts.toNat then .retryAfter (p.delay (.ofNat failures)) else .giveUp

/-- A later decision never has a shorter delay, and none is taken back. -/
def RestartDecision.Precedes : RestartDecision → RestartDecision → Prop
  | .retryAfter d, .retryAfter e => d ≤ e
  | _, .giveUp => True
  | .giveUp, .retryAfter _ => False

namespace RestartBudget

def after (b : RestartBudget) : Incident → RestartBudget
  | .fails process => b.spend process
  | .recovers process => b.reset process

/-- The decisions on the failures of a process, among incidents of all processes. -/
def decisions (process : String) (b : RestartBudget) : List Incident → List RestartDecision
  | [] => []
  | i :: rest =>
    (if i = .fails process then [b.decision process] else []) ++ decisions process (b.after i) rest

variable {b : RestartBudget} {process : String}

theorem decision_eq_giveUp_iff :
    b.decision process = .giveUp ↔ b.policy.maxRestarts ≤ b.count process := by
  unfold decision
  split
  next h => exact iff_of_true rfl h
  next h => exact iff_of_false nofun h

/-- A count is only ever increased below the limit, so it does not wrap. -/
theorem toNat_count_spend (h : b.decision process ≠ .giveUp) :
    ((b.spend process).count process).toNat = (b.count process).toNat + 1 := by
  rw [Ne, decision_eq_giveUp_iff, UInt32.not_le] at h
  have hlt := UInt32.lt_iff_toNat_lt.1 h
  have hmost := b.policy.maxRestarts.toNat_lt
  rw [count_spend, if_pos ⟨rfl, h⟩, UInt32.toNat_add, UInt32.toNat_one]
  apply Nat.mod_eq_of_lt
  omega

theorem policy_after (b : RestartBudget) (i : Incident) : (b.after i).policy = b.policy := by
  cases i with
  | fails process => exact b.policy_spend process
  | recovers process => rfl

theorem count_after_of_ne {i : Incident} (hfails : i ≠ .fails process)
    (hrecovers : i ≠ .recovers process) : (b.after i).count process = b.count process := by
  cases i with
  | fails other =>
    have hother : other ≠ process := fun heq => hfails (congrArg _ heq)
    exact (count_spend b other process).trans (if_neg fun h => hother h.1)
  | recovers other =>
    have hother : other ≠ process := fun heq => hrecovers (congrArg _ heq)
    exact (count_reset b other process).trans (if_neg hother)

/-- The count of a process is the number of its failures, as long as that is below the limit. -/
def Stands (b : RestartBudget) (process : String) (failures : Nat) : Prop :=
  if failures < b.policy.maxRestarts.toNat then (b.count process).toNat = failures
  else b.policy.maxRestarts ≤ b.count process

theorem stands_count (b : RestartBudget) (process : String) :
    b.Stands process (b.count process).toNat := by
  unfold Stands
  split
  next => rfl
  next h => exact UInt32.le_iff_toNat_le.2 (Nat.le_of_not_lt h)

theorem Stands.decision_eq {failures : Nat} (h : b.Stands process failures) :
    b.decision process = b.policy.decision failures := by
  unfold Stands at h
  unfold decision RestartPolicy.decision
  by_cases hlt : failures < b.policy.maxRestarts.toNat
  · rw [if_pos hlt] at h
    have hleft : ¬ b.policy.maxRestarts ≤ b.count process := by
      rw [UInt32.le_iff_toNat_le]
      omega
    rw [if_neg hleft, if_pos hlt, ← h, UInt32.ofNat_toNat]
  · rw [if_neg hlt] at h
    rw [if_pos h, if_neg hlt]

theorem Stands.spend {failures : Nat} (h : b.Stands process failures) :
    (b.spend process).Stands process (failures + 1) := by
  unfold Stands at h ⊢
  rw [policy_spend]
  by_cases hlt : failures < b.policy.maxRestarts.toNat
  · rw [if_pos hlt] at h
    have hleft : b.decision process ≠ .giveUp := by
      rw [Ne, decision_eq_giveUp_iff, UInt32.le_iff_toNat_le]
      omega
    have hcount := toNat_count_spend hleft
    split
    next => omega
    next =>
      rw [UInt32.le_iff_toNat_le]
      omega
  · rw [if_neg hlt] at h
    rw [if_neg (by omega), spend_of_giveUp (decision_eq_giveUp_iff.2 h)]
    exact h

/-- Among incidents that do not include a recovery, each failure of a process is decided on as one
more in a row. -/
theorem Stands.decisions_eq {failures : Nat} {incidents : List Incident}
    (h : b.Stands process failures) (hdown : .recovers process ∉ incidents) :
    b.decisions process incidents =
      (List.range' failures (incidents.count (.fails process))).map b.policy.decision := by
  induction incidents generalizing b failures with
  | nil => rfl
  | cons i rest ih =>
    obtain ⟨hi, hrest⟩ := not_or.1 (List.mem_cons.not.1 hdown)
    by_cases hfails : i = .fails process
    · subst hfails
      have hnext := ih h.spend hrest
      rw [policy_spend] at hnext
      rw [decisions, if_pos rfl, h.decision_eq, List.count_cons_self, List.range'_succ, List.map_cons,
        ← hnext]
      rfl
    · have hstands : (b.after i).Stands process failures := by
        unfold Stands at h ⊢
        rw [policy_after, count_after_of_ne hfails (Ne.symm hi)]
        exact h
      have hnext := ih hstands hrest
      rw [policy_after] at hnext
      rw [decisions, if_neg hfails, List.count_cons_of_ne hfails, List.nil_append, hnext]

end RestartBudget

namespace RestartPolicy

variable {p : RestartPolicy}

theorem decision_precedes (h : p.exponential = true) {m n : Nat} (hmn : m ≤ n) :
    (p.decision m).Precedes (p.decision n) := by
  have hmost := p.maxRestarts.toNat_lt
  unfold decision
  by_cases hn : n < p.maxRestarts.toNat
  · have hle : UInt32.ofNat m ≤ UInt32.ofNat n := by
      rw [UInt32.le_iff_toNat_le, UInt32.toNat_ofNat_of_lt' (by simp only [UInt32.size]; omega),
        UInt32.toNat_ofNat_of_lt' (by simp only [UInt32.size]; omega)]
      exact hmn
    rw [if_pos (Nat.lt_of_le_of_lt hmn hn), if_pos hn]
    exact delay_mono h hle
  · rw [if_neg hn]
    split <;> exact trivial

end RestartPolicy

end HostSteward
