import HostSteward.Identity

/-!
# Outcomes of changes

An `Outcome` is what became of one change on one server, a `Verdict` what the host model
says about one host change, and a `Report` the outcomes of one host change on all servers
it reached.
-/

namespace HostSteward

structure Fault where
  message : String
deriving DecidableEq

inductive Outcome where
  | succeeded (value : Json)
  | failed (cause : Fault)
  | rolledBack
  | cancelled
  | timedOut
deriving DecidableEq

structure Verdict where
  servers : List Identity
  hostFault : Option Fault
deriving DecidableEq

structure Report where
  hostFault : Option Fault
  outcomes : OrderedMap Identity Outcome
deriving DecidableEq

namespace Fault

def unknownServer (id : Identity) : Fault := ⟨"unknown server " ++ id.text⟩

def noServerNamed (name : String) : Fault := ⟨"No server available with name " ++ name⟩

def toJson (f : Fault) : Json := .object [("message", .string f.message)]

def ofJson? (j : Json) : Option Fault := do
  let r ← j.record? ["message"]
  return ⟨← r.required "message" Json.string?⟩

end Fault

namespace Outcome

def label : Outcome → String
  | .succeeded _ => "succeeded"
  | .failed _ => "failed"
  | .rolledBack => "rolled_back"
  | .cancelled => "cancelled"
  | .timedOut => "timed_out"

def value? : Outcome → Option Json
  | .succeeded v => some v
  | _ => none

def fault? : Outcome → Option Fault
  | .failed cause => some cause
  | _ => none

def isSucceeded (o : Outcome) : Bool := o.value?.isSome

def toJson (o : Outcome) : Json :=
  match o with
  | .succeeded v => .object [("outcome", .string o.label), ("detail", v)]
  | .failed cause => .object [("outcome", .string o.label), ("detail", cause.toJson)]
  | _ => .object [("outcome", .string o.label)]

def ofJson? (j : Json) : Option Outcome := do
  let (tag, content) ← j.tagged? "outcome" "detail"
  match tag, content with
  | "succeeded", some v => some (.succeeded v)
  | "failed", some c => return .failed (← Fault.ofJson? c)
  | "rolled_back", none | "rolled_back", some .null => some .rolledBack
  | "cancelled", none | "cancelled", some .null => some .cancelled
  | "timed_out", none | "timed_out", some .null => some .timedOut
  | _, _ => none

end Outcome

namespace Verdict

def affecting (servers : List Identity) : Verdict := ⟨servers, none⟩

def refused (cause : Fault) : Verdict := ⟨[], some cause⟩

def toJson (v : Verdict) : Json :=
  .object [("servers", .array (v.servers.map Identity.toJson)),
    ("host_failure", Json.option Fault.toJson v.hostFault)]

def ofJson? (j : Json) : Option Verdict := do
  let r ← j.record? ["servers", "host_failure"]
  return {
    servers := ← r.required "servers" (Json.listOf? Identity.ofJson?)
    hostFault := ← r.optional "host_failure" Fault.ofJson?
  }

end Verdict

namespace Report

def neutral : Report := ⟨none, .empty⟩

instance : Inhabited Report := ⟨neutral⟩

def refused (cause : Fault) : Report := ⟨some cause, .empty⟩

/-- Every server has one outcome at most; a later one takes the place of an earlier one. -/
def withOutcome (r : Report) (server : Identity) (outcome : Outcome) : Report :=
  { r with outcomes := r.outcomes.insert server outcome }

def addResult (r : Report) (server : Identity) (value : Json) : Report :=
  r.withOutcome server (.succeeded value)

def addFailure (r : Report) (server : Identity) (cause : Fault) : Report :=
  r.withOutcome server (.failed cause)

def addRollback (r : Report) (server : Identity) : Report := r.withOutcome server .rolledBack

def addCancellation (r : Report) (server : Identity) : Report := r.withOutcome server .cancelled

def addTimeout (r : Report) (server : Identity) : Report := r.withOutcome server .timedOut

def record (r : Report) (server : Identity) : Outcome → Report
  | .cancelled => r.addCancellation server
  | .timedOut => r.addTimeout server
  | .rolledBack => r.addRollback server
  | .failed cause => r.addFailure server cause
  | .succeeded value => r.addResult server value

theorem record_eq (r : Report) (server : Identity) (outcome : Outcome) :
    r.record server outcome = r.withOutcome server outcome := by
  cases outcome <;> rfl

def outcome? (r : Report) (server : Identity) : Option Outcome := r.outcomes.get? server

def serverCount (r : Report) : Nat := r.outcomes.size

def isNeutral (r : Report) : Bool := r.hostFault.isNone && r.outcomes.isEmpty

def results (r : Report) : List (Identity × Json) :=
  r.outcomes.entries.filterMap fun (id, o) => o.value?.map (id, ·)

def failures (r : Report) : List (Identity × Fault) :=
  r.outcomes.entries.filterMap fun (id, o) => o.fault?.map (id, ·)

def serversWith (r : Report) (p : Outcome → Bool) : List Identity :=
  (r.outcomes.entries.filter fun e => p e.2).map (·.1)

def rolledBack (r : Report) : List Identity := r.serversWith (· = .rolledBack)

def cancelled (r : Report) : List Identity := r.serversWith (· = .cancelled)

def timedOut (r : Report) : List Identity := r.serversWith (· = .timedOut)

def requiresRollback (r : Report) : Bool :=
  r.hostFault.isSome || r.outcomes.entries.any fun e => !e.2.isSucceeded

/-- A report is written like any record, its outcomes like any map. They are keyed by identities,
though, whose forms cannot name the members of an object. -/
def toJson? (r : Report) : Option Json := do
  let outcomes ← Json.keyed? Identity.toJson Outcome.toJson r.outcomes.entries
  return .object [("host_failure", Json.option Fault.toJson r.hostFault), ("outcomes", outcomes)]

def ofJson? (j : Json) : Option Report := do
  let r ← j.record? ["host_failure", "outcomes"]
  let hostFault ← r.optional "host_failure" Fault.ofJson?
  let outcomes ← r.required "outcomes" (Json.ofKeyed? Identity.ofJson? Outcome.ofJson?)
  return ⟨hostFault, .ofList outcomes⟩

end Report

end HostSteward
