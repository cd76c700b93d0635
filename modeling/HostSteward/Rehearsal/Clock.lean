/-!
# The clock of rehearsals

Times are in nanoseconds. Timers have a limit: one that is set for longer goes off when the
limit is reached.
-/

namespace HostSteward.Rehearsal

def second : Nat := 1000000000

/-- Thirty years of 365 days. -/
def longestWait : Nat := 946080000 * second

def waitFor (time : Nat) : Nat := min time longestWait

end HostSteward.Rehearsal
