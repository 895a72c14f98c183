import Purser.ControlEffects
import Purser.FleetPlanning
import Purser.ReconcilerFailover

/-!
# Where a failover places the shards

A node is down when its last sign of life is too old, whatever its state; the
planner only looks at the state.
-/

namespace Purser.Reconciler

open InteractionPrograms Program SharedWorlds List
open ControlPlane Orchestrator
open Gateway (RouteCalls)
open Planner (Constraints Context Runtime)
open Planning (isFleetRead plannerNode readyNodes readyStates)
open KeyedStores.Store (empty insert key_of_find find_insert find_replace)

variable {row : PlanRow} {plan : DeploymentPlan} {outcome : Except String DeploymentPlan}

def fleetPlanner (rt : Runtime) (ctx : Context) (c : Constraints) :
    FailoverPlanner :=
  fun modelID => Planning.plan rt ctx modelID c

def planIn : Exchange Reply → Option DeploymentPlan
  | ⟨.createPlan row, _⟩ => row.plan.toOption
  | ⟨.getPlan _, .ok row⟩ => row.plan.toOption
  | _ => none

variable (config : Config) (now : Time) (nodes : List NodeRow)

/-- No shard of the plan is placed on a node that is down. -/
def AvoidsDown (plan : DeploymentPlan) : Prop :=
  ∀ node ∈ nodes, nodeDown config node now = true →
    ∀ shard ∈ plan.assignments, shard.nodeID ≠ node.id

def DownUnplanned : Prop :=
  ∀ node ∈ nodes, nodeDown config node now = true →
    ∀ row ∈ nodes, readyStates row.state = true →
      (plannerNode row).map Planner.Node.id ≠ .ok node.id

instance  :
    Decidable (DownUnplanned config now nodes) :=
  inferInstanceAs (Decidable (∀ _ ∈ _, _ → ∀ _ ∈ _, _ → _))

variable {deploymentID : String} {planning : CallTrace}

section Plans

variable {config : Config} {now : Time} {calls : RouteCalls} {cluster : Cluster}
  {exchange : Exchange Reply}

theorem planIn_of_fleetRead (read : isFleetRead exchange.command = true) :
    planIn exchange = none := by
  obtain ⟨call, answer⟩ := exchange
  cases call <;> first | rfl | cases read

theorem effect_of_fleetRead (read : isFleetRead exchange.command = true) (cluster : Cluster) :
    (controlWorld calls).effect cluster exchange = cluster := by
  obtain ⟨call, answer⟩ := exchange
  cases call <;> first | rfl | cases read

theorem planIn_of_command {command : Command} (same : exchange.command = .command command) :
    planIn exchange = none := by
  obtain ⟨call, answer⟩ := exchange
  obtain rfl : call = .command command := same
  rfl

theorem planIn_applied {digits : String} {inner : Trace} :
    ∀ exchange ∈ appliedExchanges digits inner, planIn exchange = none := by
  rw [appliedExchanges, forall_mem_cons]
  refine ⟨rfl, ?_⟩
  intro exchange member
  obtain ⟨original, -, rfl⟩ := mem_map.mp member
  rfl

theorem planIn_teardown {torn : CallTrace} {result : Option String}
    (run : TeardownRun deploymentID torn result) : ∀ exchange ∈ torn, planIn exchange = none := by
  cases run with
  | missing => simp [planIn]
  | stopped deployment stops removal marked noted finished closed rolledBack
      removed =>
      have stopsPlanless : ∀ exchange ∈ stops, planIn exchange = none := by
        intro exchange member
        have issued := mem_map_of_mem (f := Exchange.command) member
        rw [rolledBack] at issued
        obtain ⟨engine, -, same⟩ := mem_map.mp issued
        exact planIn_of_command same.symm
      have removalPlanless : ∀ exchange ∈ removal, planIn exchange = none := by
        cases removed with
        | unnamed => simp
        | named => simp [planIn]
      simp only [teardownTrace, forall_mem_cons, forall_mem_append]
      exact ⟨rfl, rfl, rfl, stopsPlanless, removalPlanless, rfl, rfl, by simp⟩

theorem eq_ok_of_toOption {Value : Type} {answer : Except String Value} {value : Value}
    (succeeded : answer.toOption = some value) : answer = .ok value := by
  cases answer with
  | error => cases succeeded
  | ok => rw [Option.some.inj succeeded]

theorem planIn_loaded {found deployment : Deployment} {foundRow : PlanRow} {rest : CallTrace}
    (accepted : (controlWorld calls).Accepts cluster
      (planExchanges deploymentID found foundRow ++ rest))
    (planless : ∀ exchange ∈ rest, planIn exchange = none)
    (recorded : cluster.deployments.find deploymentID = some deployment)
    (stored : cluster.plans.find deployment.detail.failoverPlanID = some row)
    (member : exchange ∈ planExchanges deploymentID found foundRow ++ rest)
    (isPlan : planIn exchange = some plan) : row.plan = .ok plan := by
  obtain ⟨foundAt, rowAt, -⟩ := accepted
  obtain rfl : deployment = found := Option.some.inj (recorded.symm.trans foundAt)
  obtain rfl : row = foundRow := Option.some.inj (stored.symm.trans rowAt)
  simp only [planExchanges, cons_append, nil_append, mem_cons] at member
  rcases member with rfl | rfl | member
  · cases isPlan
  · exact eq_ok_of_toOption isPlan
  · rw [planless exchange member] at isPlan
    cases isPlan

section Preparation

variable {deployment : Deployment} {newPlan : DeploymentPlan} {digits : String}

theorem after_planning (reads : ∀ exchange ∈ planning, isFleetRead exchange.command = true)
    (cluster : Cluster) : (controlWorld calls).after cluster planning = cluster :=
  Interface.view_after (fun cluster => cluster)
    (fun exchange member => effect_of_fleetRead (reads exchange member)) cluster

theorem find_after_stamped (reads : ∀ exchange ∈ planning, isFleetRead exchange.command = true)
    {prepared : CallTrace} (accepted : (controlWorld calls).Accepts cluster prepared)
    (preparedEq : prepared = ⟨.getDeployment deploymentID, .ok deployment⟩ ::
      (planning ++ [⟨.randomHex 4, digits⟩, ⟨.createPlan (storedPlan newPlan digits), none⟩,
        updateExchange (stamped deployment (storedPlan newPlan digits).id) none])) :
    let later := (controlWorld calls).after cluster prepared
    later.deployments.find deploymentID = some (stamped deployment (storedPlan newPlan digits).id) ∧
      later.plans.find (storedPlan newPlan digits).id = some (storedPlan newPlan digits) := by
  subst preparedEq
  obtain ⟨recorded, accepted⟩ := accepted
  rw [Interface.accepts_append, after_planning reads] at accepted
  rw [Interface.after_cons, Interface.after_append, after_planning reads]
  obtain ⟨-, -, absent, -⟩ := accepted
  constructor
  · change (cluster.deployments.replace _).find deploymentID = _
    have found : cluster.deployments.find deploymentID = some deployment := recorded
    rw [find_replace, found, ← key_of_find found]
    simp [stamped]
  · change (cluster.plans.insert _).find _ = _
    have free : cluster.plans.find (storedPlan newPlan digits).id = none := absent
    rw [find_insert, free, if_pos rfl]
    rfl

end Preparation

section Handling

variable {agentsConfigured : Bool} {rt : Runtime} {ctx : Context} {c : Constraints} {event : Event}
  {trace : CallTrace} {modelID : String}

theorem fleetPlanner_reads (planned : (fleetPlanner rt ctx c modelID).Produces planning outcome) :
    ∀ exchange ∈ planning, isFleetRead exchange.command = true :=
  fun _ member => (Planning.uses_plan rt ctx modelID c).of_mem planned member

/-- A preparation stores the plan that the planner found, if it gets that far. -/
theorem plans_of_prepare {prepared : Bool}
    (attempted : PrepareRun (fleetPlanner rt ctx c) event trace prepared)
    (accepted : (controlWorld calls).Accepts cluster trace) :
    trace.filterMap planIn = [] ∨ ∃ modelID planning newPlan stored,
      (fleetPlanner rt ctx c modelID).Produces planning (.ok newPlan) ∧
        (controlWorld calls).Accepts cluster planning ∧
        trace.filterMap planIn = [stored] ∧ stored.assignments = newPlan.assignments := by
  have planless {modelID : String} {planning : CallTrace} {outcome : Except String DeploymentPlan}
      (planned : (fleetPlanner rt ctx c modelID).Produces planning outcome) :
      planning.filterMap planIn = [] :=
    filterMap_eq_nil_iff.mpr fun exchange member =>
      planIn_of_fleetRead (fleetPlanner_reads planned exchange member)
  cases attempted with
  | unloaded | terminal | unnamed => exact .inl rfl
  | noCapacity _ _ _ _ _ planned =>
    rw [filterMap_cons_none rfl, filterMap_append, planless planned]
    exact .inl rfl
  | notStored _ _ _ _ _ _ _ planned | notStamped _ _ _ _ _ _ _ planned
  | stamped _ _ _ _ _ _ planned =>
    rw [filterMap_cons_none rfl, filterMap_append, planless planned]
    exact .inr ⟨_, _, _, _, planned, accepted.2.of_append.1, rfl, rfl⟩

theorem planIn_prepare {prepared : Bool}
    (attempted : PrepareRun (fleetPlanner rt ctx c) event trace prepared)
    (accepted : (controlWorld calls).Accepts cluster trace)
    (unplanned : DownUnplanned config now cluster.nodes.rows) :
    ∀ exchange ∈ trace, ∀ plan, planIn exchange = some plan →
      AvoidsDown config now cluster.nodes.rows plan := by
  intro exchange member plan isPlan
  have listed : plan ∈ trace.filterMap planIn := mem_filterMap.mpr ⟨exchange, member, isPlan⟩
  rcases plans_of_prepare attempted accepted with
    planless | ⟨_, _, _, stored, planned, planAccepted, plans, same⟩
  · rw [planless] at listed
    cases listed
  · rw [plans] at listed
    obtain rfl := mem_singleton.mp listed
    rw [AvoidsDown, same]
    obtain ⟨row, spec, rows, nodes, links, found, rfl, -, loaded, foundEq, rfl⟩ :=
      Planning.plan_run planned
    have listed : rows.Perm cluster.nodes.rows := planAccepted.2.1
    intro node member down shard shardMember same
    obtain ⟨origin, originMember, rfl⟩ := mem_map.mp shardMember
    obtain ⟨⟨seen, seenMember, idEq⟩, -⟩ :=
      (Planner.plan_isValid foundEq).admitted origin originMember
    obtain ⟨seenRow, rowMember, ready, seenEq⟩ :=
      Planning.mem_readyNodes loaded (mem_of_mem_filter seenMember)
    refine unplanned node member down seenRow (listed.mem_iff.mp rowMember) ready ?_
    rw [seenEq, ← same]
    exact congrArg Except.ok idEq

theorem planIn_finish {acted : Bool}
    (finished : FinishRun (orchestratorActuator agentsConfigured) event trace acted)
    (accepted : (controlWorld calls).Accepts cluster trace) {deployment : Deployment}
    (recorded : cluster.deployments.find event.deploymentID = some deployment)
    (stored : cluster.plans.find deployment.detail.failoverPlanID = some row)
    {exchange : Exchange Reply} (member : exchange ∈ trace) (isPlan : planIn exchange = some plan) :
    row.plan = .ok plan := by
  obtain ⟨inner, result, last, rfl, ran, lastPlanless⟩ : ∃ inner result last,
      trace = inner ++ [last] ∧
        (failover agentsConfigured event.deploymentID).Produces inner result ∧
        planIn last = none := by
    cases finished with
    | failed inner _ _ ran | initiated inner _ ran => exact ⟨inner, _, _, rfl, ran, rfl⟩
  rcases mem_append.mp member with member | member
  · have run := failover_run ran
    cases run with
    | unloaded | noPlan =>
      rw [mem_singleton.mp member] at isPlan
      cases isPlan
    | planMissing =>
      simp only [mem_cons, not_mem_nil, or_false] at member
      rcases member with rfl | rfl <;> cases isPlan
    | undecoded =>
      exact planIn_loaded accepted.of_append.1 (by simp) recorded stored member isPlan
    | notApplied =>
      exact planIn_loaded accepted.of_append.1 planIn_applied recorded stored member isPlan
    | replaced found foundRow _ digits applied _ torn tornResult planned decoded
        appliedRun succeeded tornDown =>
        exact planIn_loaded accepted.of_append.1 (forall_mem_append.mpr
          ⟨planIn_applied, planIn_teardown tornDown⟩) recorded stored member isPlan
  · rw [mem_singleton.mp member, lastPlanless] at isPlan
    cases isPlan

end Handling

end Plans

def bigNode (id : String) (state : NodeState) (lastSeen : Time) : NodeRow where
  id := id
  ramGB := 64
  state := state
  lastSeen := lastSeen

def fleetCluster (nodes : List NodeRow) : Cluster where
  deployments := empty.insert
    { id := "dep-1"
      modelID := "model"
      planID := "plan-1"
      state := .active
      detail :=
        { modelID := "model"
          quantization := "q4"
          engines := [⟨"b", "b:50151", "host", "engine"⟩] } }
  models := empty.insert ⟨"model", .ok
      { id := ""
        layers := 4
        quantizations := [{ name := "q4", sizeGB := 8, quality := 9 / 10 }] }⟩
  nodes := nodes.foldl insert .empty

def unconstrained : Constraints where
  pinned := { entries := [], keysNodup := nodup_nil }

def replacement (nodes : List NodeRow) : CallTrace × Bool :=
  untroubledRun (fleetCluster nodes) (handleNodeDown (orchestratorActuator true)
    (some (fleetPlanner Runtime.default Context.background unconstrained))
    (nodeDownEvent "dep-1" "b"))

theorem produces_replacement (nodes : List NodeRow) : (handleNodeDown (orchestratorActuator true)
      (some (fleetPlanner Runtime.default Context.background unconstrained))
      (nodeDownEvent "dep-1" "b")).Produces (replacement nodes).1 (replacement nodes).2 :=
  produces_untroubledRun _ _

theorem accepts_replacement (nodes : List NodeRow) :
    (controlWorld Gateway.directCalls).Accepts (fleetCluster nodes) (replacement nodes).1 :=
  accepts_untroubledRun _ _

def silentFleet : List NodeRow := [bigNode "b" .running (10 ^ 9)]

def spareFleet : List NodeRow :=
  [bigNode "b" .unreachable (10 ^ 9), bigNode "c" .ready (99 * 10 ^ 9)]

end Purser.Reconciler
