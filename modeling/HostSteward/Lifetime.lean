/-!
# Lifetimes

How long something lasts, in nanoseconds.
-/

namespace HostSteward

inductive Lifetime where
  | lasts (time : Nat)
  | endless
  /-- Nothing is known about it. -/
  | unknown
deriving DecidableEq

namespace Lifetime

def add : Lifetime → Lifetime → Lifetime
  | .lasts a, .lasts b => .lasts (a + b)
  | .endless, _ | .lasts _, .endless => .endless
  | .unknown, _ | .lasts _, .unknown => .unknown

/-- Both at once, until the later end. -/
def both : Lifetime → Lifetime → Lifetime
  | .lasts a, .lasts b => .lasts (max a b)
  | .unknown, _ | _, .unknown => .unknown
  | .endless, _ | .lasts _, .endless => .endless

/-- Whether something is over by the end of something else. -/
def within : Lifetime → Lifetime → Bool
  | .lasts a, .lasts b => a ≤ b
  | .lasts _, .endless | .endless, .endless => true
  | .endless, .lasts _ => false
  | .unknown, _ | _, .unknown => false

def isOver : Lifetime → Bool
  | .lasts _ => true
  | .endless | .unknown => false

end Lifetime

end HostSteward
