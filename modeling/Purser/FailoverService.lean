import Purser.ControlEffects
import Purser.ReconcilerActuator

/-!
# What a failover leaves behind

A failover applies the alternate plan and then tears the old deployment down,
which can undo what the new one has just set up.
-/

namespace Purser.Reconciler

open InteractionPrograms Program SharedWorlds List
open ControlPlane Orchestrator
open Agent (Fleet)
open Gateway (RouteTable directCalls)
open EngineRef (agentAddr)

structure Replaces (cluster : Cluster) (deploymentID : String)
    (old : Deployment) (plan : DeploymentPlan) (depID : String)
    (host : Assignment) (ready : List ReadyEngine) (hostEngine : ReadyEngine)
    (stops : List AgentChange) (trace : CallTrace) : Prop where
  fresh : cluster.deployments.find depID = none
  effects : effectsOf trace = ⟨[initialDeployment depID plan,
        activeDeployment depID plan host hostEngine.endpoint
          ((ready ++ [hostEngine]).map ReadyEngine.ref),
        persisted old .stopping old.detail, persisted old .stopped old.detail],
      (ready ++ [hostEngine]).map readyStart ++ stops,
      .upsert (activeRoute depID (activeDetail plan host hostEngine.endpoint
          ((ready ++ [hostEngine]).map ReadyEngine.ref))) ::
        if old.detail.modelID = "" then [] else [.delete old.detail.modelID]⟩
  stopped : stops.map AgentChange.addr = old.detail.engines.reverse.map agentAddr
  allStops : ∀ change ∈ stops, ∃ addr answer, change = .stop addr answer

variable {cluster : Cluster} {deploymentID : String} {old : Deployment}

theorem ne_of_fresh {depID : String} (fresh : cluster.deployments.find depID = none)
    (oldRow : cluster.deployments.find deploymentID = some old) : depID ≠ deploymentID := by
  rintro rfl
  rw [oldRow] at fresh
  cases fresh

theorem replaces_of_failover {agentsConfigured : Bool} {trace : CallTrace} (produced :
      (failover agentsConfigured deploymentID).Produces trace none)
    (accepted : (controlWorld directCalls).Accepts cluster trace) (faultless : Faultless trace)
    (oldRow : cluster.deployments.find deploymentID = some old) :
    ∃ row plan depID host ready hostEngine stops,
      cluster.plans.find old.detail.failoverPlanID = some row ∧
        row.plan = .ok plan ∧
        Replaces cluster deploymentID old plan depID host ready hostEngine stops
          trace := by
  obtain ⟨deployment, row, plan, digits, inner, result, torn, tornResult, rfl,
    decoded, applied, succeeded, tornDown⟩ := replaced_of_failover produced
  obtain ⟨planAccepted, laterAccepted⟩ := accepted.of_append
  -- reading the record and the plan changes nothing
  change (controlWorld directCalls).Accepts cluster _ at laterAccepted
  obtain ⟨applyAccepted, tornAccepted⟩ := laterAccepted.of_append
  obtain rfl : old = deployment := Option.some.inj (oldRow.symm.trans planAccepted.1)
  simp only [Faultless, forall_mem_append] at faultless
  obtain ⟨-, applyFaultless, tornFaultless⟩ := faultless
  obtain ⟨workers, host, ready, hostEngine, opened, updated, audited, published,
    -, -, -⟩ := isActiveTrace_of_apply applied succeeded
  obtain ⟨rfl, rfl⟩ := answers_of_faultless _ _ fun exchange member =>
    applyFaultless exchange (mem_cons_of_mem _ member)
  have appliedEffects (inner : Trace) :
      effectsOf (appliedExchanges digits inner) = effectsOf (inner.map liftExchange) := rfl
  have fresh : cluster.deployments.find ("dep-" ++ digits) = none := applyAccepted.2.1
  -- the new deployment has its own row, so the old one is as it was
  have otherID := ne_of_fresh fresh oldRow
  have current := find_after applyAccepted deploymentID
  rw [appliedEffects, effectsOf_activeTrace, oldRow] at current
  simp [initialDeployment, activeDeployment, otherID] at current
  cases tornDown with
  | missing problem =>
    cases problem with
    | notFound => exact absurd (current.symm.trans tornAccepted.1) (by simp)
    | failed => exact absurd (tornFaultless _ mem_cons_self) (by simp [fault])
  | stopped found _ _ _ _ _ _ rolledBack removed =>
    obtain rfl : old = found := Option.some.inj (current.symm.trans tornAccepted.1)
    simp only [teardownTrace, forall_mem_cons, forall_mem_append] at tornFaultless
    obtain ⟨-, rfl, -, -, removalOk, rfl, -⟩ := tornFaultless
    obtain ⟨stops, tornEffects, addrsEq, allStops⟩ := effectsOf_teardownTrace rolledBack removed
    refine ⟨row, plan, _, host, ready, hostEngine, stops, planAccepted.2.1, decoded,
      fresh, ?_, addrsEq, allStops⟩
    have planEffects : effectsOf (planExchanges deploymentID old row) = ⟨[], [], []⟩ := rfl
    rw [effectsOf_append, effectsOf_append, planEffects, appliedEffects, effectsOf_activeTrace,
      tornEffects]
    cases removed with
    | unnamed noModel =>
      simp [noModel]
      rfl
    | named someModel answer =>
      obtain rfl : answer = none := removalOk _ mem_cons_self
      simp [someModel]
      rfl

/-- All engines of a record are running.  An agent runs one engine, so they sit
at different agents, and each of these serves an engine that reported the
recorded handle. -/
structure AllRunning (fleet : Fleet) (engines : List EngineRef) : Prop where
  distinct : (engines.map agentAddr).Nodup
  serving : ∀ engine ∈ engines, ∃ serving,
    (fleet engine.agentAddr).serving = some serving ∧ serving.handle = engine.handle

/-- The gateway routes the model to an active deployment that was not there
before and whose engines are all running, and the old deployment is stopped. -/
structure KeepsServed (modelID deploymentID : String)
    (before after : Cluster) : Prop where
  replaced : ∃ depID row,
    before.deployments.find depID = none ∧
      after.deployments.find depID = some row ∧ row.state = .active ∧
      (∃ route, after.routes.routeFor modelID = some route ∧
        route.deploymentID = depID ∧ route.endpoint = row.detail.endpoint) ∧
      AllRunning after.agents row.detail.engines
  stopped : ∃ row, after.deployments.find deploymentID = some row ∧ row.state = .stopped

namespace Replaces

variable {depID : String} {plan : DeploymentPlan} {host : Assignment} {ready : List ReadyEngine}
  {hostEngine : ReadyEngine} {stops : List AgentChange} {trace : CallTrace}

section

variable (replaces : Replaces cluster deploymentID old plan depID host ready hostEngine stops trace)

include replaces

theorem startedAt_eq : startedAt trace = agentAddrs (ready ++ [hostEngine]) := by
  have noStarts : stops.filterMap startAddr = [] := by
    rw [filterMap_eq_nil_iff]
    intro change member
    obtain ⟨addr, answer, rfl⟩ := replaces.allStops change member
    rfl
  rw [startedAt, replaces.effects, filterMap_append, noStarts,
    append_nil, filterMap_startAddr_readyStart]

theorem find_eq (accepted : (controlWorld directCalls).Accepts cluster trace)
    (oldRow : cluster.deployments.find deploymentID = some old) (id : String) :
    ((controlWorld directCalls).after cluster trace).deployments.find id =
      if id = deploymentID then some (persisted old .stopped old.detail)
      else if id = depID then
        some (activeDeployment depID plan host hostEngine.endpoint
          ((ready ++ [hostEngine]).map ReadyEngine.ref))
      else cluster.deployments.find id := by
  have oldID : old.id = deploymentID := KeyedStores.Store.key_of_find oldRow
  have otherID := ne_of_fresh replaces.fresh oldRow
  rw [find_after accepted, replaces.effects]
  by_cases isOld : id = deploymentID
  · subst isOld
    simp [initialDeployment, activeDeployment, persisted, oldID, otherID]
  · by_cases isNew : id = depID
    · subst isNew
      simp [initialDeployment, activeDeployment, persisted, oldID, otherID.symm, otherID]
    · simp [initialDeployment, activeDeployment, persisted, oldID, isOld, isNew,
        Ne.symm isOld, Ne.symm isNew]

theorem routeFor_eq : ((controlWorld directCalls).after cluster trace).routes.routeFor
        plan.modelID =
      if old.detail.modelID = "" ∨ old.detail.modelID ≠ plan.modelID then
        some (Gateway.routeOf (activeRoute depID (activeDetail plan host hostEngine.endpoint
            ((ready ++ [hostEngine]).map ReadyEngine.ref))))
      else none := by
  rw [(parts_after _ _).2, replaces.effects]
  by_cases noModel : old.detail.modelID = ""
  · simp only [noModel, if_true, true_or, foldl_cons, foldl_nil]
    exact (RouteTable.routeFor_insertRoute _ _ _ _).trans (if_pos rfl)
  · simp only [noModel, if_false, false_or, foldl_cons, foldl_nil]
    refine (RouteTable.routeFor_removeRoute _ _ _).trans ?_
    by_cases sameModel : plan.modelID = old.detail.modelID
    · simp [sameModel]
    · rw [if_neg sameModel, if_pos (Ne.symm sameModel)]
      exact (RouteTable.routeFor_insertRoute _ _ _ _).trans (if_pos rfl)

theorem map_agentAddr_eq : ((ready ++ [hostEngine]).map ReadyEngine.ref).map agentAddr =
      startedAt trace := by
  rw [replaces.startedAt_eq, map_map]
  rfl

theorem mem_stops_iff (addr : String) :
    addr ∈ stops.map AgentChange.addr ↔ addr ∈ old.detail.engines.map agentAddr := by
  simp [replaces.stopped]

/-- A stop at a new engine's agent gets through, because its start did. -/
theorem serving_of_overlap (accepted : (controlWorld directCalls).Accepts cluster trace)
    {engine : ReadyEngine} (member : engine ∈ ready ++ [hostEngine])
    (recorded : engine.endpoint.agentAddr ∈ old.detail.engines.map agentAddr) :
    (((controlWorld directCalls).after cluster trace).agents
      engine.endpoint.agentAddr).serving = none := by
  obtain ⟨change, stopMember, changeAddr⟩ :=
    mem_map.mp ((replaces.mem_stops_iff _).mpr recorded)
  obtain ⟨addr, answer, rfl⟩ := replaces.allStops change stopMember
  obtain rfl : addr = engine.endpoint.agentAddr := changeAddr
  have reachable := reachable_of_ready accepted (by
    rw [replaces.effects]
    exact mem_append_left _ (mem_map_of_mem member))
  obtain ⟨status, rfl⟩ := answered_of_reachable accepted (by
    rw [replaces.effects]
    exact mem_append_right _ stopMember) reachable
  rw [(parts_after _ _).1, replaces.effects, foldl_append]
  exact serving_of_stopped replaces.allStops stopMember _

theorem allRunning_iff (accepted : (controlWorld directCalls).Accepts cluster trace) :
    AllRunning ((controlWorld directCalls).after cluster trace).agents
        ((ready ++ [hostEngine]).map ReadyEngine.ref) ↔
      (startedAt trace).Nodup ∧ (startedAt trace).Disjoint
        (old.detail.engines.map agentAddr) := by
  constructor
  · intro running
    refine ⟨replaces.map_agentAddr_eq ▸ running.distinct, ?_⟩
    intro addr started recorded
    rw [replaces.startedAt_eq] at started
    obtain ⟨engine, member, rfl⟩ := mem_map.mp started
    obtain ⟨serving, found, -⟩ := running.serving engine.ref (mem_map_of_mem member)
    have silent := replaces.serving_of_overlap accepted member recorded
    exact absurd (silent.symm.trans found) (by simp)
  · rintro ⟨distinct, disjoint⟩
    refine ⟨replaces.map_agentAddr_eq ▸ distinct, ?_⟩
    intro ref refMember
    obtain ⟨engine, member, rfl⟩ := mem_map.mp refMember
    have started : engine.endpoint.agentAddr ∈ startedAt trace := by
      rw [replaces.startedAt_eq]
      exact mem_map_of_mem member
    have apart := disjoint started
    rw [← replaces.mem_stops_iff] at apart
    rw [replaces.startedAt_eq] at distinct
    refine ⟨⟨engine.step.request, engine.handle⟩, ?_, rfl⟩
    change (((controlWorld directCalls).after cluster trace).agents
      engine.endpoint.agentAddr).serving = _
    rw [(parts_after _ _).1, replaces.effects, foldl_append, foldl_apply_of_untouched apart]
    exact serving_of_started distinct _ member

end

end Replaces

/-- A failover that returns without an error keeps the model served exactly when
the old record does not name the model of the plan, the new engines have their
agents for themselves, and none of these agents ran an engine of the old
deployment. -/
theorem failover_keepsServed_iff {agentsConfigured : Bool}
    {deploymentID : String} {cluster : Cluster} {trace : CallTrace}
    {old : Deployment} {row : PlanRow} {plan : DeploymentPlan}
    (produced : (failover agentsConfigured deploymentID).Produces trace none)
    (accepted : (controlWorld directCalls).Accepts cluster trace)
    (faultless : Faultless trace)
    (oldRow : cluster.deployments.find deploymentID = some old)
    (planRow : cluster.plans.find old.detail.failoverPlanID = some row)
    (decoded : row.plan = .ok plan) :
    KeepsServed plan.modelID deploymentID cluster ((controlWorld directCalls).after cluster trace) ↔
      (old.detail.modelID = "" ∨ old.detail.modelID ≠ plan.modelID) ∧
        (startedAt trace).Nodup ∧
        (startedAt trace).Disjoint (old.detail.engines.map agentAddr) := by
  obtain ⟨foundRow, foundPlan, depID, host, ready, hostEngine, stops, found,
    foundDecoded, replaces⟩ :=
    replaces_of_failover produced accepted faultless oldRow
  obtain rfl : row = foundRow := Option.some.inj (planRow.symm.trans found)
  obtain rfl : plan = foundPlan := by
    simpa [decoded] using foundDecoded
  have finds := replaces.find_eq accepted oldRow
  rw [← replaces.allRunning_iff accepted]
  constructor
  · rintro ⟨⟨id, newRow, absent, present, -, ⟨route, routed, -, -⟩, running⟩, -⟩
    constructor
    · by_contra deleted
      rw [replaces.routeFor_eq, if_neg deleted] at routed
      cases routed
    · -- the only row that was not there before is the new deployment's
      rw [finds id] at present
      by_cases isOld : id = deploymentID
      · rw [isOld, oldRow] at absent
        cases absent
      · by_cases isNew : id = depID
        · rw [if_neg isOld, if_pos isNew] at present
          obtain rfl := Option.some.inj present
          exact running
        · rw [if_neg isOld, if_neg isNew, absent] at present
          cases present
  · rintro ⟨undeleted, running⟩
    have otherID := ne_of_fresh replaces.fresh oldRow
    have newRow := (finds depID).trans ((if_neg otherID).trans (if_pos rfl))
    have oldStopped := (finds deploymentID).trans (if_pos rfl)
    have routed := replaces.routeFor_eq.trans (if_pos undeleted)
    exact ⟨⟨depID, _, replaces.fresh, newRow, rfl, ⟨_, routed, rfl, rfl⟩,
      running⟩, ⟨_, oldStopped, rfl⟩⟩

def spareNodePlan : DeploymentPlan where
  planID := "plan-2"
  modelID := "llama"
  quantization := "q4"
  assignments := [⟨"spare", .host, 0, 3, false⟩]

/-- A model served by one node that has died, with an alternate plan for a spare
node.  The record of the deployment names the given model. -/
def deadNodeCluster (recordedModel : String) : Cluster where
  deployments :=
    { rows :=
        [{ id := "dep-1"
           modelID := "llama"
           planID := "plan-1"
           state := .active
           detail :=
             { modelID := recordedModel
               quantization := "q4"
               hostNodeID := "dead"
               endpoint := "http://dead:8000"
               engines := [⟨"dead", "dead:50151", "host", "engine"⟩]
               failoverPlanID := "plan-2" } }]
      unique := nodup_singleton _ }
  plans :=
    { rows := [⟨"plan-2", "llama", "q4", .ok spareNodePlan⟩]
      unique := nodup_singleton _ }
  routes :=
    { rows := [⟨"llama", ⟨"http://dead:8000", "dep-1", "q4", .active⟩⟩]
      unique := nodup_singleton _ }
  reachable addr := addr != "dead:50151"

def deadNodeTrace (recordedModel : String) : CallTrace :=
  (untroubledRun (deadNodeCluster recordedModel) (failover true "dep-1")).1

/-- After an ordinary failover, with no agent in common, the gateway has no
route for the model any more. -/
theorem failover_drops_route : (failover true "dep-1").Produces (deadNodeTrace "llama") none ∧
      (controlWorld directCalls).Accepts (deadNodeCluster "llama") (deadNodeTrace "llama") ∧
      Faultless (deadNodeTrace "llama") ∧
      ¬KeepsServed "llama" "dep-1" (deadNodeCluster "llama")
        ((controlWorld directCalls).after (deadNodeCluster "llama") (deadNodeTrace "llama")) := by
  refine ⟨produces_untroubledRun _ (failover true "dep-1"),
    accepts_untroubledRun _ _, by decide +kernel, ?_⟩
  rintro ⟨⟨depID, row, -, -, -, ⟨route, routed, -, -⟩, -⟩, -⟩
  cases routed

theorem failover_keepsServed_unnamed : KeepsServed "llama" "dep-1" (deadNodeCluster "")
      ((controlWorld directCalls).after (deadNodeCluster "") (deadNodeTrace "")) := by
  have faultless : Faultless (deadNodeTrace "") := by decide +kernel
  have started : startedAt (deadNodeTrace "") = ["spare:50151"] := by
    decide +kernel
  refine (failover_keepsServed_iff (produces_untroubledRun _ (failover true "dep-1"))
    (accepts_untroubledRun (deadNodeCluster "") _) faultless rfl rfl rfl).mpr
    ⟨Or.inl rfl, ?_, ?_⟩
  · exact nodup_singleton _
  · change (startedAt (deadNodeTrace "")).Disjoint ["dead:50151"]
    rw [started, singleton_disjoint]
    decide

end Purser.Reconciler
