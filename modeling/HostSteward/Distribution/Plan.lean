import HostSteward.Change
import HostSteward.Journal
import HostSteward.Outcome

/-!
# Planning a distribution

A batch of host changes and the verdicts on them give one batch of server changes for each
server, every change with its position in the host's batch. Changes that the host refused
and changes without a part for servers reach no server.
-/

namespace HostSteward

/-- The changes for one server in order, each with the position of its host change. -/
abbrev Share := List (Nat × ServerChange)

structure Plan where
  shares : OrderedMap Identity Share
  reports : List Report

namespace Plan

def openingReport : Option Verdict → Report
  | some ⟨_, some cause⟩ => .refused cause
  | _ => .neutral

def delivery? (c : HostChange) (v : Verdict) : Option (ServerChange × List Identity) :=
  if v.hostFault.isSome then none
  else c.serverChange.map (·, v.servers.eraseDups)

def assign (token : Nat) (change : ServerChange) (shares : OrderedMap Identity Share)
    (server : Identity) : OrderedMap Identity Share :=
  shares.insert server ((shares.get? server).getD [] ++ [(token, change)])

/-- Deals out changes from position `token` on. -/
def deal (token : Nat) (shares : OrderedMap Identity Share) :
    List HostChange → List Verdict → OrderedMap Identity Share
  | c :: changes, v :: verdicts =>
    let shares := match delivery? c v with
      | none => shares
      | some (change, servers) => servers.foldl (assign token change) shares
    deal (token + 1) shares changes verdicts
  | _, _ => shares

def openingReports : List HostChange → List Verdict → List Report
  | [], _ => []
  | _ :: changes, verdicts => openingReport verdicts.head? :: openingReports changes verdicts.tail

def make (changes : List HostChange) (verdicts : List Verdict) : Plan where
  shares := deal 0 .empty changes verdicts
  reports := openingReports changes verdicts

/-- There should be one verdict for each change. -/
def warning? (changes : List HostChange) (verdicts : List Verdict) : Option Entry :=
  if verdicts.length = changes.length then none
  else some (.warning ("Host model returned " ++ Numeral.text verdicts.length ++
    " responses for " ++ Numeral.text changes.length ++ " updates"))

def recordShare (server : Identity) (reports : List Report) :
    Share → List Outcome → List Report
  | (token, _) :: share, outcome :: outcomes =>
    recordShare server (reports.modify token fun r => r.record server outcome) share outcomes
  | _, _ => reports

/-- The final reports, once every server answered its share. -/
def conclude (p : Plan) (answers : List (Identity × List Outcome)) : List Report :=
  answers.foldl (fun reports (server, outcomes) =>
    recordShare server reports ((p.shares.get? server).getD []) outcomes) p.reports

end Plan

end HostSteward
