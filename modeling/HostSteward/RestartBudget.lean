import HostSteward.Journal
import HostSteward.Settings

/-!
# The restart budget

Every process has a budget of restarts. Each failure spends one, and the delay before the
restart doubles from one failure to the next up to a maximum; a process that came up again
gets its whole budget back.
-/

namespace HostSteward

structure RestartPolicy where
  maxRestarts : UInt32
  baseDelay : Duration
  maxDelay : Duration
  exponential : Bool
deriving DecidableEq

inductive RestartDecision where
  | retryAfter (delay : Duration)
  | giveUp
deriving DecidableEq

structure RestartBudget where
  policy : RestartPolicy
  counts : OrderedMap String UInt32
deriving DecidableEq

namespace RestartPolicy

def standard : RestartPolicy where
  maxRestarts := 5
  baseDelay := .ofSeconds 1
  maxDelay := .ofSeconds 60
  exponential := true

def ofLifecycle (l : LifecycleSettings) : RestartPolicy where
  maxRestarts := l.maxRestarts
  baseDelay := .ofMilliseconds l.restartBaseDelay
  maxDelay := .ofMilliseconds l.restartMaxDelay
  exponential := true

/-- The delay doubles with each earlier failure, as far as 32 bits hold the factor. -/
def factor (failures : UInt32) : Nat :=
  if failures.toNat < 32 then 1 <<< failures.toNat else UInt32.size - 1

/-- The delay before the restart that follows the given number of earlier failures. A
multiple out of the range of durations is above every maximum. -/
def delay (p : RestartPolicy) (failures : UInt32) : Duration :=
  if p.exponential then
    match p.baseDelay.times? (factor failures) with
    | some d => d.min p.maxDelay
    | none => p.maxDelay
  else p.baseDelay

end RestartPolicy

namespace RestartBudget

def ofPolicy (policy : RestartPolicy) : RestartBudget := ⟨policy, .empty⟩

/-- Failures of a process since it last came up. -/
def count (b : RestartBudget) (process : String) : UInt32 := (b.counts.get? process).getD 0

def decision (b : RestartBudget) (process : String) : RestartDecision :=
  if b.policy.maxRestarts ≤ b.count process then .giveUp
  else .retryAfter (b.policy.delay (b.count process))

/-- A failure spends one restart, unless none is left. -/
def spend (b : RestartBudget) (process : String) : RestartBudget :=
  if b.policy.maxRestarts ≤ b.count process then b
  else { b with counts := b.counts.insert process (b.count process + 1) }

def announcement (b : RestartBudget) (process : String) : Entry :=
  let most := Numeral.text b.policy.maxRestarts.toNat
  match b.decision process with
  | .giveUp => .error ("Maximum restarts (" ++ most ++ ") exceeded for " ++ process)
  | .retryAfter delay =>
    .info ("Scheduling restart of " ++ process ++ " in " ++ delay.text ++ " (attempt " ++
      Numeral.text (b.count process + 1).toNat ++ "/" ++ most ++ ")")

def reset (b : RestartBudget) (process : String) : RestartBudget :=
  { b with counts := b.counts.erase process }

/-- A reset is worth an entry only if the process had failed. -/
def resetAnnouncement? (b : RestartBudget) (process : String) : Option Entry :=
  if b.counts.contains process then
    some (.info (process ++ " recovered, reset restart count"))
  else none

end RestartBudget

end HostSteward
