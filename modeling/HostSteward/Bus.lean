import HostSteward.Journal
import HostSteward.Notice
import HostSteward.OrderedMap

/-!
# The notice bus

Notices are numbered in the order of publication and a bounded number of the latest is
retained. Every subscription has a position of its own: the number of the first notice it
has not taken yet. A subscription that falls behind the oldest retained notice is told how
many it lost and goes on from there.
-/

namespace HostSteward

inductive NoticeFilter where
  | all
  | kinds (names : List String)
  | processes (names : List String)
deriving DecidableEq

namespace NoticeFilter

def accepts (f : NoticeFilter) (n : Notice) : Bool :=
  match f with
  | .all => true
  | .kinds names => names.contains n.kind
  | .processes names => match n.process? with
    | some p => names.contains p
    | none => false

end NoticeFilter

structure Subscription where
  filter : NoticeFilter
  position : Nat
deriving DecidableEq

inductive Reception where
  | notice (n : Notice)
  | nothing
  | lagged (count : Nat)
  | closed
deriving DecidableEq

inductive BusFault where
  | closed
  | lagged (count : Nat)
  | publishFailed (details : String)
deriving DecidableEq

namespace BusFault

def unheard : BusFault := .publishFailed "channel closed"

def message : BusFault → String
  | .closed => "Event bus channel closed"
  | .lagged count => "Receiver lagged behind by " ++ Numeral.text count ++ " events"
  | .publishFailed details => "Failed to publish event: " ++ details

end BusFault

/-- Subscriptions are kept by names of type `κ`. The retained notices are numbered from
`oldest` on. -/
structure Bus (κ : Type) [LT κ] where
  size : Nat
  oldest : Nat := 0
  retained : List Notice := []
  subscriptions : OrderedMap κ Subscription := .empty
  closed : Bool := false

namespace Bus

/-- More notices than this have no place in memory. -/
def largestSize : Nat := 0x100000000000000

/-- The least power of two that is not below a number. -/
def roundedUp (n : Nat) : Nat := if n ≤ 1 then 1 else Nat.pow 2 ((n - 1).log2 + 1)

theorem le_roundedUp (n : Nat) : n ≤ roundedUp n := by
  unfold roundedUp
  split
  next hsmall => exact hsmall
  next =>
    have hlog : n - 1 < Nat.pow 2 ((n - 1).log2 + 1) := Nat.lt_log2_self
    omega

/-- A bus of at least the given capacity, which is rounded up to a power of two. A bus
without capacity cannot be had, nor one that has no place in any memory. -/
def ofCapacity? (κ : Type) [LT κ] (capacity : UInt64) : Option (Bus κ) :=
  if capacity = 0 ∨ largestSize < capacity.toNat then none
  else some { size := roundedUp capacity.toNat }

/-- The memory that a notice takes on a bus, in bytes. All of it is taken at the start. -/
def slotSize : Nat := 72

/-- Why a bus cannot be had. -/
inductive Shortage where
  | capacity
  | memory
deriving DecidableEq

def make (κ : Type) [LT κ] (memory : Nat) (capacity : UInt64) : Except Shortage (Bus κ) :=
  match ofCapacity? κ capacity with
  | none => .error .capacity
  | some bus => if memory < slotSize * bus.size then .error .memory else .ok bus

variable {κ : Type} [LT κ]

def next (b : Bus κ) : Nat := b.oldest + b.retained.length

def subscriberCount (b : Bus κ) : Nat := b.subscriptions.size

/-- Notices reach nobody without a subscription, so publishing one then fails. Otherwise the
oldest notice gives way when the bus is full. -/
def publish? (b : Bus κ) (n : Notice) : Option (Bus κ) :=
  if b.subscriptions.isEmpty then none
  else
    let retained := b.retained ++ [n]
    if b.size < retained.length then
      some { b with oldest := b.oldest + 1, retained := retained.drop 1 }
    else some { b with retained }

/-- Nothing is published any more; what is retained can still be taken. -/
def close (b : Bus κ) : Bus κ := { b with closed := true }

/-- Skips notices that a filter rejects; returns the first accepted one and the number of the
notice after it. -/
def firstAccepted (f : NoticeFilter) (position : Nat) : List Notice → Option Notice × Nat
  | [] => (none, position)
  | n :: rest => if f.accepts n then (some n, position + 1) else firstAccepted f (position + 1) rest

def take (b : Bus κ) (s : Subscription) : Reception × Subscription :=
  if s.position < b.oldest then
    (.lagged (b.oldest - s.position), { s with position := b.oldest })
  else
    match firstAccepted s.filter s.position (b.retained.drop (s.position - b.oldest)) with
    | (some n, position) => (.notice n, { s with position })
    | (none, position) => (if b.closed then .closed else .nothing, { s with position })

variable [DecidableLT κ] [DecidableEq κ] [LinearKey κ]

/-- A new subscription sees only later notices; it replaces one of the same name. -/
def subscribe (b : Bus κ) (name : κ) (filter : NoticeFilter) : Bus κ :=
  { b with subscriptions := b.subscriptions.insert name ⟨filter, b.next⟩ }

def unsubscribe (b : Bus κ) (name : κ) : Bus κ :=
  { b with subscriptions := b.subscriptions.erase name }

def receive? (b : Bus κ) (name : κ) : Option (Reception × Bus κ) := do
  let (r, s) := b.take (← b.subscriptions.get? name)
  return (r, { b with subscriptions := b.subscriptions.insert name s })

end Bus

namespace Notice

def publicationEntry? : Notice → Option Entry
  | .connectionFailed cause => some (.error ("Supervisor connection failure: " ++ cause))
  | .shutdownRequested => some (.info "Supervisor requested shutdown")
  | .serverDown p => some (.warning ("Server process " ++ p ++ " is down"))
  | _ => none

end Notice

end HostSteward
