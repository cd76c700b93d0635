import HostSteward.Proofs.Distribution.Deliveries
import HostSteward.Proofs.Steward.Configured

/-!
# Changes and their scope

The host judges a change by its scope, the plan deals it out by the identities of the verdict, and
every batch finds its server by the process name. All three come to the same servers because names
are unique: the configured ones in the scope of the change.
-/

namespace HostSteward

namespace Scope

def covers : Scope → ServerSpec → Bool
  | .host, _ => false
  | .group name, s => s.group = name
  | .server name, s => s.name = name

def misses (servers : List ServerSpec) : Scope → Bool
  | .server name => !servers.any (·.name = name)
  | _ => false

end Scope

namespace ServerSpec

def part? (s : ServerSpec) (c : HostChange) : Option ServerChange :=
  if c.scope.covers s then c.serverChange else none

def parts (s : ServerSpec) (changes : List HostChange) : List ServerChange :=
  changes.filterMap s.part?

/-- The part in a change stands after those in the changes before it. -/
theorem getElem?_parts {s : ServerSpec} {changes : List HostChange} {i : Nat} {c : HostChange}
    {change : ServerChange} (hc : changes[i]? = some c) (hpart : s.part? c = some change) :
    (s.parts changes)[(s.parts (changes.take i)).length]? = some change := by
  obtain ⟨hi, rfl⟩ := List.getElem?_eq_some_iff.1 hc
  have hsplit : s.parts changes =
      s.parts (changes.take i) ++ change :: s.parts (changes.drop (i + 1)) := by
    have hlist := congrArg s.parts (List.take_append_drop i changes)
    rw [List.drop_eq_getElem_cons hi] at hlist
    rw [← hlist, parts, List.filterMap_append, List.filterMap_cons, hpart]
    rfl
  rw [hsplit, List.getElem?_append_right (Nat.le_refl _), Nat.sub_self]
  rfl

end ServerSpec

namespace HostModel

variable {m : HostModel} {c : HostChange} {spec spec' : ServerSpec} {id : Identity}

theorem isSome_hostFault_verdict (m : HostModel) (c : HostChange) :
    (m.verdict c).hostFault.isSome = c.scope.misses m.servers := by
  unfold verdict Scope.misses
  cases c.scope with
  | host | group => rfl
  | server name =>
    have hany : m.servers.any (·.name = name) = (m.server? name).isSome := by
      rw [Bool.eq_iff_iff, server?, List.find?_isSome, List.any_eq_true]
    simp only [hany]
    cases m.server? name <;> rfl

variable (hnd : (m.servers.map (·.name)).Nodup)

include hnd

theorem mem_servers_verdict :
    id ∈ (m.verdict c).servers ↔ ∃ spec ∈ m.servers, c.scope.covers spec ∧ m.identity spec = id := by
  unfold verdict Scope.covers
  cases c.scope with
  | host => simp [Verdict.affecting]
  | group group => simp [Verdict.affecting, and_assoc]
  | server name =>
    cases hserver : m.server? name with
    | none =>
      have hnone : ∀ spec ∈ m.servers, spec.name ≠ name := by
        simpa [server?] using hserver
      simp only [hserver, Verdict.refused, List.not_mem_nil, decide_eq_true_eq, false_iff]
      rintro ⟨spec, hspec, hname, -⟩
      exact hnone spec hspec hname
    | some found =>
      simp only [hserver, Verdict.affecting, List.mem_singleton, decide_eq_true_eq]
      constructor
      · rintro rfl
        have hname : found.name = name := by simpa using List.find?_some hserver
        exact ⟨found, mem_of_server? hserver, hname, rfl⟩
      · rintro ⟨spec, hspec, rfl, rfl⟩
        rw [server?_of_mem hnd hspec] at hserver
        rw [Option.some.inj hserver]

theorem spec_eq_of_identity (hspec : spec ∈ m.servers) (hspec' : spec' ∈ m.servers)
    (hid : m.identity spec = m.identity spec') : spec = spec' :=
  List.inj_on_of_nodup_map hnd hspec hspec' (congrArg Identity.server hid)

theorem mem_servers_verdict_of_mem (hspec : spec ∈ m.servers) :
    m.identity spec ∈ (m.verdict c).servers ↔ c.scope.covers spec := by
  rw [mem_servers_verdict hnd]
  constructor
  · rintro ⟨found, hfound, hcovers, hid⟩
    rwa [← spec_eq_of_identity hnd hfound hspec hid]
  · exact fun hcovers => ⟨spec, hspec, hcovers, rfl⟩

/-- A configured server has a part in a change just if it is in the scope. -/
theorem part?_verdict (hspec : spec ∈ m.servers) :
    Plan.part? (m.identity spec) c (m.verdict c) = spec.part? c := by
  rw [Plan.part?_eq, ServerSpec.part?]
  by_cases hcovers : c.scope.covers spec
  · have hmisses : c.scope.misses m.servers = false := by
      cases hscope : c.scope with
      | host | group => rfl
      | server name =>
        rw [hscope] at hcovers
        simpa [Scope.misses] using ⟨spec, hspec, by simpa [Scope.covers] using hcovers⟩
    rw [← isSome_hostFault_verdict, Option.isSome_eq_false_iff, Option.isNone_iff_eq_none] at hmisses
    rw [if_pos ⟨hmisses, (mem_servers_verdict_of_mem hnd hspec).2 hcovers⟩, if_pos hcovers]
  · rw [if_neg fun h => hcovers ((mem_servers_verdict_of_mem hnd hspec).1 h.2), if_neg hcovers]

theorem of_part? {change : ServerChange} (hspec : spec ∈ m.servers)
    (hpart : spec.part? c = some change) :
    m.identity spec ∈ (m.verdict c).servers ∧ (m.verdict c).hostFault = none ∧
      c.serverChange = some change := by
  rwa [← part?_verdict hnd hspec, Plan.part?_eq_some_iff] at hpart

omit hnd in
theorem servers_verdict_of_host (hhost : c.scope = .host) : (m.verdict c).servers = [] := by
  rw [verdict, hhost]
  rfl

omit hnd in
theorem zip_verdicts (m : HostModel) (changes : List HostChange) :
    changes.zip (changes.map m.verdict) = changes.map fun c => (c, m.verdict c) := by
  have h := @List.zip_map' _ _ _ id m.verdict changes
  rwa [List.map_id] at h

theorem addressedTo_verdicts (hspec : spec ∈ m.servers) (changes : List HostChange) :
    Plan.addressedTo changes (changes.map m.verdict) (m.identity spec) = spec.parts changes := by
  unfold Plan.addressedTo ServerSpec.parts
  rw [zip_verdicts, List.filterMap_map]
  apply List.filterMap_congr
  intro c _
  rw [← part?_verdict hnd hspec, Plan.part?_eq]
  rfl

theorem earlier_verdicts (hspec : spec ∈ m.servers) (changes : List HostChange) (i : Nat) :
    Plan.earlier changes (changes.map m.verdict) (m.identity spec) i =
      (spec.parts (changes.take i)).length := by
  unfold Plan.earlier ServerSpec.parts
  rw [zip_verdicts, ← List.map_take, List.countP_map, List.length_filterMap_eq_countP]
  apply List.countP_congr
  intro c _
  show (Plan.part? (m.identity spec) c (m.verdict c)).isSome ↔ _
  rw [part?_verdict hnd hspec]

theorem lists_verdicts {changes : List HostChange} :
    Plan.Lists changes (changes.map m.verdict) id ↔
      ∃ spec ∈ m.servers, m.identity spec = id ∧ spec.parts changes ≠ [] := by
  constructor
  · rintro ⟨i, c, v, hc, hv, hfault, hmem, hchange⟩
    rw [List.getElem?_map, hc, Option.map_some, Option.some.injEq] at hv
    subst hv
    obtain ⟨spec, hspec, hcovers, rfl⟩ := (mem_servers_verdict hnd).1 hmem
    obtain ⟨change, hchange⟩ := Option.ne_none_iff_exists'.1 hchange
    refine ⟨spec, hspec, rfl, List.ne_nil_of_mem (a := change) ?_⟩
    refine List.mem_filterMap.2 ⟨c, List.mem_of_getElem? hc, ?_⟩
    rw [ServerSpec.part?, if_pos hcovers, hchange]
  · rintro ⟨spec, hspec, rfl, hne⟩
    obtain ⟨change, hmem⟩ := List.exists_mem_of_ne_nil _ hne
    obtain ⟨c, hc, hpart⟩ := List.mem_filterMap.1 hmem
    obtain ⟨i, hi⟩ := List.mem_iff_getElem?.1 hc
    obtain ⟨hlisted, hfault, hchange⟩ := of_part? hnd hspec hpart
    refine ⟨i, c, m.verdict c, hi, ?_, hfault, hlisted, by simp [hchange]⟩
    rw [List.getElem?_map, hi, Option.map_some]

end HostModel

/-- What the report of a change says, given the servers that are tracked and what their executors
answered: of each server in the scope, what became of this very change. -/
structure Settings.Reports (settings : Settings) (roster : Roster)
    (reply : Identity → Except Failure (List Outcome)) (changes : List HostChange) (i : Nat)
    (c : HostChange) (r : Report) : Prop where
  refused : r.hostFault.isSome ↔ c.scope.misses settings.servers
  neutral : ¬ c.scope.misses settings.servers → c.scope = .host ∨ c.serverChange = none →
    r = .neutral
  keys : ¬ c.scope.misses settings.servers → c.serverChange ≠ none → ∀ id,
    (r.outcome? id).isSome ↔
      ∃ spec ∈ settings.servers, c.scope.covers spec ∧ spec.identity settings.host.name = id
  outcome : ∀ spec ∈ settings.servers, ∀ change, spec.part? c = some change →
    let k := (spec.parts (changes.take i)).length
    (spec.parts changes)[k]? = some change ∧
    r.outcome? (spec.identity settings.host.name) = some (match roster.get? spec.processName with
      | none => .failed (.unknownServer (spec.identity settings.host.name))
      | some found =>
        match reply (spec.identity settings.host.name) with
        | .ok outcomes => outcomes.getD k (Batch.noResponse found)
        | .error e => .failed ⟨e.message⟩)

/-- Changes are distributed by their scope among the configured servers: each has its report, and
every tracked server with a part in them gets one call. -/
structure Settings.Distributes (settings : Settings) (roster : Roster)
    (reply : Identity → Except Failure (List Outcome)) (changes : List HostChange)
    (calls : List Delivery) (reports : List Report) : Prop where
  length : reports.length = changes.length
  report : ∀ (i : Nat) (c : HostChange) (r : Report), changes[i]? = some c → reports[i]? = some r →
    settings.Reports roster reply changes i c r
  calls : calls.Perm (settings.servers.filterMap fun spec =>
    if (roster.get? spec.processName).isSome ∧ spec.parts changes ≠ [] then
      some ⟨spec.identity settings.host.name, spec.parts changes,
        settings.changes.allowOverallRollback⟩
    else none)

namespace Plan

variable {w : Conditions} {calls : List Delivery} {d : Dispatch} {rollback concurrent : Bool}

/-- In a complete run every call was made to a server that was found, and was answered. -/
theorem answered_of_mem {changes : List HostChange} {verdicts : List Verdict}
    {Q : Delivery → Except Failure (List Outcome) → Prop}
    (h : Dispatch.Run w (.ofPlan (make changes verdicts) rollback concurrent) calls d)
    (hdone : d.isSettled) (hQ : Dispatch.Answered Q w d) {call : Delivery} (hcall : call ∈ calls) :
    ∃ server found, Lists changes verdicts server ∧
      (w.roster (.identity server)).get? server.processName = some found ∧
      call.server = found.identity ∧ Q call (w.reply (.identity server)) := by
  have hexpected := (calls_of_settled h hdone).mem_iff.1 hcall
  obtain ⟨e, he, hmap⟩ := List.mem_filterMap.1 hexpected
  obtain ⟨found, hfound, rfl⟩ := Option.map_eq_some_iff.1 hmap
  let b := (make changes verdicts).batchFor rollback e.1
  have hb : b.settle (b.outcomesIn w) ∈ d.batches := by
    rw [h.settled (fresh_ofPlan ..).idle hdone, batches_ofPlan]
    exact List.mem_map_of_mem (List.mem_map_of_mem (List.mem_map_of_mem he))
  have hdelivery : (b.settle (b.outcomesIn w)).delivery? w =
      some ⟨found.identity, e.2.map (·.2), rollback⟩ := by
    show b.delivery? w = _
    rw [delivery?_batchFor he, hfound, Option.map_some]
  refine ⟨e.1, found, mem_keys_iff.1 (List.mem_map_of_mem he), hfound, rfl, ?_⟩
  exact hQ _ hb (List.all_eq_true.1 hdone _ hb) _ hdelivery

end Plan

namespace Steward.Configured

variable {settings : Settings} {host : Steward} {changes : List HostChange} {w : Conditions}
  {calls : List Delivery} {d : Dispatch} {concurrent : Bool}

theorem nodup_names (h : host.Configured settings) (hvalid : settings.problem? = none) :
    (host.model.servers.map (·.name)).Nodup :=
  h.servers ▸ (Settings.problem?_eq_none_iff.1 hvalid).nodup_names

theorem model_identity (h : host.Configured settings) (spec : ServerSpec) :
    host.model.identity spec = spec.identity settings.host.name :=
  congrArg spec.identity h.hostName

/-- The servers with a part in the changes are called once if they are tracked. -/
theorem calls_perm (h : host.Configured settings) (hvalid : settings.problem? = none)
    {rollback : Bool} (hcalls : Plan.Delivers (fun server => host.roster.get? server.processName)
      changes (changes.map host.model.verdict) rollback calls) :
    calls.Perm (settings.servers.filterMap fun spec =>
      if (host.roster.get? spec.processName).isSome ∧ spec.parts changes ≠ [] then
        some ⟨spec.identity settings.host.name, spec.parts changes, rollback⟩ else none) := by
  obtain ⟨servers, hnodup, hmem, hperm⟩ := hcalls
  have hnd := h.nodup_names hvalid
  let concerned := settings.servers.filter fun spec => spec.parts changes ≠ []
  have hservers : servers.Perm (concerned.map host.model.identity) := by
    have hidentities : (settings.servers.map host.model.identity).Nodup :=
      Settings.nodup_identities hvalid host.model.host
    have hconcerned : (concerned.map host.model.identity).Nodup :=
      hidentities.sublist (List.filter_sublist.map host.model.identity)
    apply (List.perm_ext_iff_of_nodup hnodup hconcerned).2
    intro id
    rw [hmem, HostModel.lists_verdicts hnd, h.servers]
    simp only [concerned, List.mem_map, List.mem_filter, decide_eq_true_eq]
    exact exists_congr fun spec => by tauto
  refine hperm.trans ((hservers.filterMap _).trans (List.Perm.of_eq ?_))
  rw [List.filterMap_map, List.filterMap_filter]
  apply List.filterMap_congr
  intro spec hspec
  have hmodel : spec ∈ host.model.servers := h.servers ▸ hspec
  have hprocess : (host.model.identity spec).processName = spec.processName := rfl
  simp only [Function.comp_apply, hprocess, HostModel.addressedTo_verdicts hnd hmodel,
    decide_eq_true_eq]
  cases hget : host.roster.get? spec.processName with
  | none => simp
  | some found =>
    rw [Option.map_some, h.identity_eq hvalid hspec hget]
    by_cases hparts : spec.parts changes = []
    · simp [hparts]
    · simp [hparts]

/-- The report that a change deserves by its verdict is the one that it deserves by its scope. -/
theorem reports_of_deserves (h : host.Configured settings) (hvalid : settings.problem? = none)
    (hroster : ∀ a, w.roster a = host.roster) {i : Nat} {c : HostChange} {r : Report}
    (hc : changes[i]? = some c)
    (hdeserves : Plan.Deserves w changes (changes.map host.model.verdict) i c r) :
    settings.Reports host.roster (fun id => w.reply (.identity id)) changes i c r := by
  have hnd := h.nodup_names hvalid
  have hmisses : (host.model.verdict c).hostFault.isSome = c.scope.misses settings.servers := by
    rw [HostModel.isSome_hostFault_verdict, h.servers]
  have hpart {spec change} (hspec : spec ∈ settings.servers) (hpart : spec.part? c = some change) :=
    HostModel.of_part? hnd (h.servers ▸ hspec : spec ∈ host.model.servers) hpart
  simp only [Plan.Deserves, List.getElem?_map, hc, Option.map_some] at hdeserves
  cases hfault : (host.model.verdict c).hostFault with
  | some cause =>
    rw [hfault] at hdeserves hmisses
    obtain rfl : r = .refused cause := hdeserves
    refine ⟨iff_of_true rfl hmisses.symm, absurd hmisses.symm, absurd hmisses.symm, ?_⟩
    intro spec hspec change hsome
    cases hfault.symm.trans (hpart hspec hsome).2.1
  | none =>
    rw [hfault] at hdeserves hmisses
    have hhits : ¬ c.scope.misses settings.servers := by simp [← hmisses]
    cases hchange : c.serverChange with
    | none =>
      rw [hchange] at hdeserves
      obtain rfl : r = .neutral := hdeserves
      refine ⟨iff_of_false nofun hhits, fun _ _ => rfl, fun _ hne => absurd hchange hne, ?_⟩
      intro spec hspec change hsome
      cases hchange.symm.trans (hpart hspec hsome).2.2
    | some change =>
      rw [hchange] at hdeserves
      obtain ⟨hnofault, houtcome⟩ := hdeserves
      refine ⟨iff_of_false (by simp [hnofault]) hhits, fun _ hscope => ?_, fun _ _ id => ?_, ?_⟩
      · have hhost : c.scope = .host := hscope.resolve_right (by simp [hchange])
        apply Report.ext_outcome? hnofault
        intro id
        rw [houtcome, HostModel.servers_verdict_of_host hhost]
        rfl
      · have hmem : id ∈ (host.model.verdict c).servers ↔ _ := HostModel.mem_servers_verdict hnd
        simp only [h.servers, h.model_identity] at hmem
        rw [houtcome, ← hmem]
        by_cases hid : id ∈ (host.model.verdict c).servers <;> simp [hid]
      · intro spec hspec change' hsome k
        have hmodel : spec ∈ host.model.servers := h.servers ▸ hspec
        refine ⟨ServerSpec.getElem?_parts hc hsome, ?_⟩
        rw [← h.model_identity, houtcome, if_pos (hpart hspec hsome).1,
          HostModel.earlier_verdicts hnd hmodel, Plan.outcomeOn, hroster]
        rfl

/-- A complete run distributes changes by their scope, if the tracked servers stay the same. -/
theorem distributes_of_settled (h : host.Configured settings) (hvalid : settings.problem? = none)
    (hroster : ∀ a, w.roster a = host.roster)
    (hrun : Dispatch.Run w (.ofPlan (.make changes (changes.map host.model.verdict))
      settings.changes.allowOverallRollback concurrent) calls d) (hdone : d.isSettled) :
    settings.Distributes host.roster (fun id => w.reply (.identity id)) changes calls
      ((Plan.make changes (changes.map host.model.verdict)).conclude d.answers) := by
  obtain ⟨hlength, hexact⟩ := Plan.exact_of_settled hrun hdone
  refine ⟨hlength, fun i c r hc hr => ?_, h.calls_perm hvalid ?_⟩
  · obtain ⟨r', hr', hdeserves⟩ := hexact i c hc
    obtain rfl : r = r' := Option.some.inj (hr.symm.trans hr')
    exact h.reports_of_deserves hvalid hroster hc hdeserves
  · have hcalls := Plan.delivers_of_settled hrun hdone
    simp only [hroster] at hcalls
    exact hcalls

end Steward.Configured

namespace Rehearsal.Stage

variable {settings : Settings} {s : Stage} {changes : List HostChange}

/-- So does a stage that is alone, with the answers of its executor. -/
theorem distributes_of_alone (h : s.steward.Configured settings)
    (hvalid : settings.problem? = none) (halone : s.IsAlone) (changes : List HostChange) :
    ∃ reply calls, settings.Distributes s.steward.roster reply changes calls
        (s.applyChanges changes).2 ∧
      (∀ call ∈ calls, ∃ x : Executor, x.kind = s.backstage.executor.kind ∧
        x.unreachable = s.backstage.executor.unreachable ∧
        (x.answer call).2 = reply call.server) ∧
      (s.backstage.executor.kind = .scripted →
        (s.applyChanges changes).1.backstage.executor.received =
          s.backstage.executor.received ++ calls) := by
  let s₁ : Stage := { s with steward := { s.steward with
    model := (s.steward.model.apply changes).2 } }
  have halone₁ : s₁.IsAlone :=
    ⟨halone.timers, halone.ready, halone.resting, halone.loops, halone.watches⟩
  have happly : s.applyChanges changes = s₁.distribute changes
      (changes.map s.steward.model.verdict) settings.changes.allowOverallRollback
      settings.changes.concurrentServers := by
    rw [← h.given]
    rfl
  obtain ⟨calls, d, ⟨-, hreceived⟩, ⟨w, hseen, hheard, hrun⟩, hdone, hreports⟩ := distribute_reaches
    ((lasting_sameParties s₁).and (lasting_receives s₁))
    ⟨fun halone => ⟨halone, rfl, rfl, rfl⟩, rfl, fun _ => (List.append_nil _).symm⟩
    changes (changes.map s.steward.model.verdict) settings.changes.allowOverallRollback
    settings.changes.concurrentServers
  have hroster (a : Address) : w.roster a = s.steward.roster := by
    obtain ⟨-, s', ⟨hs', -⟩, hroster⟩ := hseen a
    rw [← hroster, (hs' halone₁).roster]
  rw [happly]
  refine ⟨fun id => w.reply (.identity id), calls, ?_, fun call hcall => ?_, hreceived.received⟩
  · rw [hreports]
    exact h.distributes_of_settled hvalid hroster hrun hdone
  · obtain ⟨server, found, hlists, hfound, hserver, -, s', ⟨hs', -⟩, hreply⟩ :=
      Plan.answered_of_mem hrun hdone hheard hcall
    obtain ⟨spec, hspec, rfl, -⟩ := (HostModel.lists_verdicts (h.nodup_names hvalid)).1 hlists
    rw [hroster] at hfound
    have hid := h.identity_eq hvalid (h.servers ▸ hspec) hfound
    rw [hserver, hid, ← h.model_identity]
    exact ⟨s'.backstage.executor, (hs' halone₁).kind, (hs' halone₁).unreachable, hreply⟩

end Rehearsal.Stage

/-- A host that has come to track any of its servers applies changes by their scope. It takes those
that it does not refuse into its model, in their order. The changes are distributed to the end, and
however this goes, it is among the configured servers in their scope; a stage does so, too. -/
theorem changes_follow_scope {settings : Settings} (hvalid : settings.problem? = none)
    (inDomain : Bool) {σ : Type} {S : Surroundings σ} {around : σ} {s : System σ}
    (h : System.Runs S ⟨.make settings none inDomain, around, none, []⟩ s)
    (changes : List HostChange) :
    let verdicts := (s.host.model.apply changes).1
    let model := (s.host.model.apply changes).2
    let plan := Plan.make changes verdicts
    let opening := Dispatch.ofPlan plan settings.changes.allowOverallRollback
      settings.changes.concurrentServers
    model.accepted = s.host.model.accepted ++
      changes.filter (fun c => !c.scope.misses settings.servers) ∧
    (∀ w, (∀ a, w.roster a = s.host.roster) →
      (∃ calls d, Dispatch.Run w opening calls d ∧ d.isSettled) ∧
      ∀ calls d, Dispatch.Run w opening calls d → d.isSettled →
        settings.Distributes s.host.roster (fun id => w.reply (.identity id)) changes calls
          (plan.conclude d.answers)) ∧
    ∀ stage : Rehearsal.Stage, stage.IsAlone → stage.steward = s.host →
      (stage.applyChanges changes).1.steward.model = model ∧
      ∃ reply calls, settings.Distributes s.host.roster reply changes calls
          (stage.applyChanges changes).2 ∧
        (∀ call ∈ calls, ∃ x : Rehearsal.Executor, x.kind = stage.backstage.executor.kind ∧
          x.unreachable = stage.backstage.executor.unreachable ∧
          (x.answer call).2 = reply call.server) ∧
        (stage.backstage.executor.kind = .scripted →
          (stage.applyChanges changes).1.backstage.executor.received =
            stage.backstage.executor.received ++ calls) := by
  intro verdicts model plan opening
  have hconfigured := h.configured
  refine ⟨?_, fun w hroster => ⟨?_, fun calls d hrun hdone => ?_⟩, fun stage halone hhost => ?_⟩
  · have haccepts (c : HostChange) :
        (s.host.model.verdict c).hostFault.isNone = !c.scope.misses settings.servers := by
      rw [← hconfigured.servers, ← HostModel.isSome_hostFault_verdict]
      cases (s.host.model.verdict c).hostFault <;> rfl
    show s.host.model.accepted ++ changes.filter _ = _
    simp only [haccepts]
  · obtain ⟨calls, d, hrun, hdone⟩ := (Dispatch.Run.nil (w := w) (d := opening)).exists_settled
    exact ⟨_, d, hrun, hdone⟩
  · exact hconfigured.distributes_of_settled hvalid hroster hrun hdone
  · rw [← hhost] at hconfigured
    obtain ⟨journal, hsteward⟩ := Rehearsal.Stage.steward_applyChanges halone changes
    refine ⟨?_, ?_⟩
    · rw [hsteward, hhost]
    · rw [← hhost]
      exact Rehearsal.Stage.distributes_of_alone hconfigured hvalid halone changes

/-- One of three servers was launched. Of the changes one is for the host alone, one has no part for
servers, and one names a server that is not configured. The others go to two servers of a group, to a
server that is not tracked and to the launched one, which gets one call with two parts. -/
theorem changes_follow_scope_launched :
    let a : ServerSpec := { name := "a", group := "g" }
    let b : ServerSpec := { name := "b", group := "g", autoStart := false }
    let c : ServerSpec := { name := "c", group := "k", autoStart := false }
    let settings : Settings := { servers := [c, a, b] }
    let S : Surroundings Unit := ⟨fun s _ s' _ => s' = s, fun _ _ => False, fun _ s _ s' => s' = s⟩
    let part (operation : String) : ServerChange := ⟨operation, .null⟩
    let changes : List HostChange := [⟨"1", .host, .null, some (part "1")⟩,
      ⟨"2", .group "g", .null, some (part "2")⟩, ⟨"3", .server "z", .null, some (part "3")⟩,
      ⟨"4", .group "k", .null, none⟩, ⟨"5", .server "c", .null, some (part "5")⟩,
      ⟨"6", .server "a", .null, some (part "6")⟩]
    ∃ s : System Unit, System.Runs S ⟨.make settings none false, (), none, []⟩ s ∧
      ∃ reply calls, settings.Distributes s.host.roster reply changes calls
          ((Rehearsal.Stage.make s.host { size := 1 } {}).applyChanges changes).2 ∧
        calls = [⟨a.identity "local", [part "2", part "6"], true⟩] ∧
        ((Rehearsal.Stage.make s.host { size := 1 } {}).applyChanges changes).2.map
            (fun r => (r.hostFault.isSome, r.outcomes.keys)) =
          [(false, []), (false, [a.identity "local", b.identity "local"]), (true, []), (false, []),
            (false, [c.identity "local"]), (false, [a.identity "local"])] := by
  intro a b c settings S part changes
  have hcall : System.Runs S ⟨.make settings none false, (), none, []⟩ _ :=
    .single (.step (.call (o := .startServers) rfl))
  have hadd := hcall.tail (.step (.command (c := .add "Server:a" {}) (a := .ok 7) rfl))
  have hstart := hadd.tail (.step (.command (c := .start "Server:a") (a := .ok ()) rfl))
  have hlaunched := hstart.tail (.step .finish)
  obtain ⟨-, -, hstage⟩ := changes_follow_scope (by decide) false hlaunched changes
  obtain ⟨-, reply, calls, hfollows, -, hreceived⟩ :=
    hstage (.make _ { size := 1 } {}) ⟨rfl, rfl, rfl, rfl, rfl⟩ rfl
  have hcalls : calls = [⟨a.identity "local", [part "2", part "6"], true⟩] :=
    (hreceived rfl).symm.trans (by decide +kernel)
  exact ⟨_, hlaunched, reply, calls, hfollows, hcalls, by decide +kernel⟩

end HostSteward
