import Purser.ControlEffects
import Purser.OrchestratorChoreography
import Purser.PlanConversion

/-!
# Whether every shard stays served

An agent runs one engine, so two shards on one node cannot both be served: the
engine that is started later takes the place of the earlier one.
-/

namespace Purser.Orchestrator

open InteractionPrograms Program List
open ControlPlane
open Agent (Fleet)
open ReadyEngine (peerAddr step)
open Planner.DeploymentPlan (toProto)
open Planner.Context (background)

variable {shard : Assignment}

variable (plan : DeploymentPlan) (fleet : Fleet) (trace : Trace)

def agentChanges : List AgentChange := (effectsOf (trace.map liftExchange)).agents

def shardOrder : List Assignment :=
  plan.assignments.filter (·.role = .worker) ++ plan.assignments.filter (·.role = .host)

def ServesShard (position : ℕ) (shard : Assignment) : Prop :=
  ∃ endpoint request answer,
    ⟨.resolve shard.nodeID, .ok endpoint⟩ ∈ trace ∧
      (agentChanges trace)[position]? = some (.start endpoint.agentAddr request answer) ∧
      (request.role, request.layerStart, request.layerEnd, request.draft) =
        (shard.role, shard.layerStart, shard.layerEnd, shard.draft) ∧
      (agentChanges trace).foldl AgentChange.apply fleet endpoint.agentAddr =
        ((agentChanges trace).take (position + 1)).foldl AgentChange.apply fleet endpoint.agentAddr

structure ServesEveryShard : Prop where
  complete : (shardOrder plan).Perm plan.assignments
  served : ∀ position shard, (shardOrder plan)[position]? = some shard →
    ServesShard fleet trace position shard

def shardStep (peerAddrs : List String) (shard : Assignment) : LaunchStep :=
  if shard.role = .host then hostStep plan shard peerAddrs
  else workerStep plan shard

variable {plan : DeploymentPlan} {trace : Trace}

theorem shardOrder_perm (specified : ∀ shard ∈ plan.assignments, shard.role ≠ .unspecified) :
    (shardOrder plan).Perm plan.assignments := by
  have hosts : plan.assignments.filter (·.role = .host) =
      plan.assignments.filter fun shard => !decide (shard.role = .worker) := by
    apply filter_congr
    intro shard member
    have known := specified shard member
    cases role : shard.role with
    | unspecified => exact absurd role known
    | host => rfl
    | worker => rfl
  rw [shardOrder, hosts]
  exact filter_append_perm _ _

section Active

variable {depID : String} {workers : List Assignment} {host : Assignment} {ready : List ReadyEngine}
  {hostEngine : ReadyEngine}

theorem map_shardStep (split : partition plan = .ok (workers, host))
    (allReady : workers.map (workerStep plan) = ready.map step)
    (hostReady : hostEngine.step = hostStep plan host (ready.map peerAddr)) :
    (shardOrder plan).map (shardStep plan (ready.map peerAddr)) =
      (ready ++ [hostEngine]).map step := by
  obtain ⟨workersEq, hostEq, _⟩ := (partition_eq_ok_iff _ _ _).mp split
  have hostRole : host.role = .host := by
    have member : host ∈ plan.assignments.filter (·.role = .host) := by
      rw [← hostEq]
      exact mem_singleton_self host
    simpa using (mem_filter.mp member).2
  have workerSteps : workers.map
      (shardStep plan (ready.map peerAddr)) = workers.map (workerStep plan) := by
    apply map_congr_left
    intro worker member
    rw [workersEq] at member
    have role : worker.role = .worker := by
      simpa using (mem_filter.mp member).2
    simp [shardStep, role]
  rw [shardOrder, ← workersEq, ← hostEq, map_append, workerSteps, allReady,
    map_append, map_singleton, map_singleton, hostReady,
    shardStep, if_pos hostRole]

end Active

theorem generation_of_started (ready : List ReadyEngine) (fleet : Fleet) (addr : String) :
    ((ready.map readyStart).foldl AgentChange.apply fleet addr).generation =
      (fleet addr).generation + (agentAddrs ready).count addr := by
  induction ready generalizing fleet with
  | nil => rfl
  | cons engine ready induction =>
    rw [map_cons, foldl_cons, induction]
    change ((fleet.startEngine _ _ _) addr).generation + _ = _ +
      (engine.endpoint.agentAddr :: agentAddrs ready).count addr
    rw [Agent.Fleet.startEngine_of_ready engine.ready]
    by_cases same : addr = engine.endpoint.agentAddr
    · subst same
      simp only [Function.update_self, count_cons_self]
      omega
    · rw [Function.update_of_ne same, count_cons_of_ne (Ne.symm same)]

/-- An agent keeps the state it is in exactly as long as nothing else is started
on it. -/
theorem foldl_started_eq_iff (before later : List ReadyEngine) (fleet : Fleet) (addr : String) :
    ((before ++ later).map readyStart).foldl AgentChange.apply fleet addr =
        (before.map readyStart).foldl AgentChange.apply fleet addr ↔ addr ∉ agentAddrs later := by
  rw [map_append, foldl_append]
  constructor
  · intro unchanged
    have generations := congrArg Agent.Supervisor.generation unchanged
    rw [generation_of_started] at generations
    exact count_eq_zero.mp (by omega)
  · intro untouched
    rw [← map_addr_readyStart] at untouched
    exact foldl_apply_of_untouched untouched _

theorem nodup_iff_not_mem_drop {Item : Type} (items : List Item) :
    items.Nodup ↔ ∀ position item, items[position]? = some item →
        item ∉ items.drop (position + 1) := by
  induction items with
  | nil => simp
  | cons first _ induction =>
    rw [nodup_cons, induction]
    constructor
    · rintro ⟨fresh, distinct⟩ position item found
      cases position with
      | zero =>
        obtain rfl : first = item := by simpa using found
        simpa using fresh
      | succ position =>
        simpa using distinct position item (by simpa using found)
    · intro distinct
      refine ⟨by simpa using distinct 0 first rfl, ?_⟩
      intro position item found
      simpa using distinct (position + 1) item (by simpa using found)

theorem shardStep_shard {peerAddrs : List String} (specified : shard.role ≠ .unspecified) :
    (shardStep plan peerAddrs shard).nodeID = shard.nodeID ∧
      ((shardStep plan peerAddrs shard).request.role,
        (shardStep plan peerAddrs shard).request.layerStart,
        (shardStep plan peerAddrs shard).request.layerEnd,
        (shardStep plan peerAddrs shard).request.draft) =
      (shard.role, shard.layerStart, shard.layerEnd, shard.draft) := by
  cases role : shard.role with
  | unspecified => exact absurd role specified
  | host => simp [shardStep, role, hostStep]
  | worker => simp [shardStep, role, workerStep]

theorem servesShard_iff {engines : List ReadyEngine}
    (changes : agentChanges trace = engines.map readyStart) {position : ℕ} {engine : ReadyEngine}
    (found : engines[position]? = some engine)
    (resolved : ⟨.resolve shard.nodeID, .ok engine.endpoint⟩ ∈ trace)
    (requested : (engine.step.request.role, engine.step.request.layerStart,
        engine.step.request.layerEnd, engine.step.request.draft) =
      (shard.role, shard.layerStart, shard.layerEnd, shard.draft)) (fleet : Fleet) :
    ServesShard fleet trace position shard ↔
      engine.endpoint.agentAddr ∉ (agentAddrs engines).drop (position + 1) := by
  have started : (agentChanges trace)[position]? = some (readyStart engine) := by
    rw [changes, getElem?_map, found, Option.map_some]
  have kept := foldl_started_eq_iff (engines.take (position + 1))
    (engines.drop (position + 1)) fleet engine.endpoint.agentAddr
  rw [take_append_drop, map_take, ← changes, agentAddrs, map_drop] at kept
  rw [agentAddrs, ← kept]
  constructor
  · rintro ⟨endpoint, request, answer, -, startedHere, -, unchanged⟩
    obtain ⟨addrEq, -, -⟩ := AgentChange.start.inj
      (Option.some.inj (started.symm.trans startedHere))
    rw [addrEq]
    exact unchanged
  · intro unchanged
    exact ⟨engine.endpoint, engine.step.request, engine.answer, resolved,
      started, requested, unchanged⟩

structure ShardsStarted (plan : DeploymentPlan) (trace : Trace)
    (engines : List ReadyEngine) (peerAddrs : List String) : Prop where
  specified : ∀ shard ∈ plan.assignments, shard.role ≠ .unspecified
  steps : (shardOrder plan).map (shardStep plan peerAddrs) = engines.map step
  changes : agentChanges trace = engines.map readyStart
  resolved : ∀ engine ∈ engines, ⟨.resolve engine.step.nodeID, .ok engine.endpoint⟩ ∈ trace

theorem exists_shardsStarted {agentsConfigured : Bool} {depID : String} {result : ApplyResult}
    (applied : (apply agentsConfigured depID (some plan)).Produces trace result)
    (succeeded : result.error = none) :
    ∃ engines peerAddrs, ShardsStarted plan trace engines peerAddrs := by
  obtain ⟨workers, host, ready, hostEngine, opened, updated, audited, published,
    split, allReady, hostReady⟩ := isActiveTrace_of_apply applied succeeded
  refine ⟨ready ++ [hostEngine], ready.map peerAddr,
    ((partition_eq_ok_iff _ _ _).mp split).2.2,
    map_shardStep split allReady hostReady,
    by rw [agentChanges, effectsOf_activeTrace], ?_⟩
  intro engine member
  refine mem_append_left _ (mem_append_right _ ?_)
  exact mem_flatMap.mpr ⟨engine, member, mem_cons_self⟩

namespace ShardsStarted

variable {engines : List ReadyEngine} {peerAddrs : List String}

section

variable (shards : ShardsStarted plan trace engines peerAddrs)

include shards

theorem startedAt_eq : startedAt (trace.map liftExchange) = agentAddrs engines := by
  rw [startedAt, ← agentChanges, shards.changes, filterMap_startAddr_readyStart]

theorem length_eq : (shardOrder plan).length = engines.length := by
  simpa using congrArg List.length shards.steps

theorem stepped {position : ℕ} {engine : ReadyEngine}
    (ordered : (shardOrder plan)[position]? = some shard)
    (found : engines[position]? = some engine) :
    engine.step.nodeID = shard.nodeID ∧
      (engine.step.request.role, engine.step.request.layerStart,
        engine.step.request.layerEnd, engine.step.request.draft) =
      (shard.role, shard.layerStart, shard.layerEnd, shard.draft) := by
  have stepEq : shardStep plan peerAddrs shard = engine.step := by
    have sameStep := congrArg (·[position]?) shards.steps
    simpa [ordered, found] using sameStep
  have member := (shardOrder_perm shards.specified).mem_iff.mp (mem_of_getElem? ordered)
  rw [← stepEq]
  exact shardStep_shard (shards.specified shard member)

/-- Every shard is served exactly when no two engines were started on one
agent. -/
theorem servesEveryShard_iff (fleet : Fleet) :
    ServesEveryShard plan fleet trace ↔ (startedAt (trace.map liftExchange)).Nodup := by
  have serves : ∀ (position : ℕ) (shard : Assignment) (engine : ReadyEngine),
      (shardOrder plan)[position]? = some shard →
      engines[position]? = some engine →
      (ServesShard fleet trace position shard ↔ engine.endpoint.agentAddr ∉
        (agentAddrs engines).drop (position + 1)) := by
    intro position shard engine ordered found
    obtain ⟨nodeEq, requestEq⟩ := shards.stepped ordered found
    exact servesShard_iff shards.changes found
      (nodeEq ▸ shards.resolved engine (mem_of_getElem? found)) requestEq
      fleet
  rw [shards.startedAt_eq, nodup_iff_not_mem_drop]
  constructor
  · rintro ⟨-, served⟩ position addr found
    obtain ⟨engine, engineFound, rfl⟩ : ∃ engine, engines[position]? = some engine ∧
        engine.endpoint.agentAddr = addr := by
      simpa [agentAddrs] using found
    obtain ⟨inside, -⟩ := List.getElem?_eq_some_iff.mp engineFound
    have ordered := getElem?_eq_getElem (shards.length_eq ▸ inside)
    exact (serves position _ engine ordered engineFound).mp (served position _ ordered)
  · intro distinct
    refine ⟨shardOrder_perm shards.specified, ?_⟩
    intro position shard ordered
    obtain ⟨inside, -⟩ := List.getElem?_eq_some_iff.mp ordered
    have found := getElem?_eq_getElem (shards.length_eq ▸ inside)
    refine (serves position shard _ ordered found).mpr (distinct position _ ?_)
    simp [agentAddrs, found]

end

end ShardsStarted

/-- Different nodes are reached at different agents. -/
def ResolvesApart (trace : Trace) : Prop := ∀ nodeID otherID endpoint otherEndpoint,
    ⟨.resolve nodeID, .ok endpoint⟩ ∈ trace →
    ⟨.resolve otherID, .ok otherEndpoint⟩ ∈ trace →
    Endpoint.agentAddr endpoint = Endpoint.agentAddr otherEndpoint →
    nodeID = otherID

theorem ShardsStarted.nodup_startedAt {engines : List ReadyEngine} {peerAddrs : List String}
    (shards : ShardsStarted plan trace engines peerAddrs)
    (nodesDistinct : (plan.assignments.map Assignment.nodeID).Nodup) (apart : ResolvesApart trace) :
    (startedAt (trace.map liftExchange)).Nodup := by
  have nodeIDs : engines.map (·.step.nodeID) = (shardOrder plan).map Assignment.nodeID := by
    apply ext_getElem (by simp [shards.length_eq])
    intro position inside otherInside
    simp only [length_map] at inside otherInside
    rw [getElem_map, getElem_map]
    exact (shards.stepped (getElem?_eq_getElem otherInside) (getElem?_eq_getElem inside)).1
  have enginesDistinct : (engines.map (·.step.nodeID)).Nodup := by
    rw [nodeIDs]
    exact ((shardOrder_perm shards.specified).map _).nodup_iff.mpr nodesDistinct
  rw [shards.startedAt_eq]
  refine enginesDistinct.of_map.map_on ?_
  intro engine member other otherMember sameAddr
  exact inj_on_of_nodup_map enginesDistinct member otherMember
    (apart _ _ _ _ (shards.resolved engine member) (shards.resolved other otherMember) sameAddr)

/-- Every shard of a planned deployment is served exactly when no two of its
engines were started on one agent.  This is so when the operator pins nothing
and every node has an agent of its own. -/
theorem plan_shards_served_iff {rt : Planner.Runtime} {ctx : Planner.Context}
    {nodes : List Planner.Node} {links : List Planner.Link}
    {model : Planner.ModelSpec} {c : Planner.Constraints}
    {planned : Planner.DeploymentPlan}
    (returned : Planner.plan rt ctx nodes links model c = .ok planned)
    {agentsConfigured : Bool} {depID : String} {trace : Trace}
    {result : ApplyResult}
    (applied : (apply agentsConfigured depID (some planned.toProto)).Produces trace result)
    (succeeded : result.error = none) (fleet : Fleet) :
    (ServesEveryShard planned.toProto fleet trace ↔ (startedAt (trace.map liftExchange)).Nodup) ∧
      ((nodes.map Planner.Node.id).Nodup → c.pinned.entries = [] →
        ResolvesApart trace → ServesEveryShard planned.toProto fleet trace) := by
  obtain ⟨engines, peerAddrs, shards⟩ := exists_shardsStarted applied succeeded
  refine ⟨shards.servesEveryShard_iff fleet, ?_⟩
  intro distinct noPins apart
  refine (shards.servesEveryShard_iff fleet).mpr (shards.nodup_startedAt ?_ apart)
  have nodesDistinct := Planner.plan_nodup_of_noPins distinct noPins returned
  change ((planned.assignments.map Planner.Assignment.toProto).map Assignment.nodeID).Nodup
  rw [map_map]
  exact nodesDistinct

/-- Two nodes, each of which could hold the whole model. -/
def roomyNodes : List Planner.Node := [{ id := "a", ramAvailableGB := 30, unifiedMemory := true },
    { id := "b", ramAvailableGB := 30, unifiedMemory := true }]

def smallModel : Planner.ModelSpec where
  id := "m"
  layers := 2
  quantizations := [{ name := "q4", sizeGB := 8, quality := 9 / 10 }]

def splitOverTwo (pinned : Planner.PinMap) : Planner.Constraints where
  pinned := pinned
  forceNodeCount := some 2

def roomyPlan (secondNode : String) : DeploymentPlan where
  planID := "plan-m-a"
  modelID := "m"
  quantization := "q4"
  assignments := [⟨"a", .host, 0, 0, false⟩, ⟨secondNode, .worker, 1, 1, false⟩]

theorem exists_planned {outcome : Except Planner.PlanFailure Planner.DeploymentPlan}
    {message : DeploymentPlan} (converted : (outcome.map toProto).toOption =
      some message) : ∃ planned, outcome = .ok planned ∧ planned.toProto = message := by
  cases outcome with
  | error => cases converted
  | ok planned => exact ⟨planned, rfl, Option.some.inj converted⟩

/-- The run in which every agent brings its engine up. -/
def roomyRun (secondNode : String) : Trace × ApplyResult :=
  (apply true "dep-1" (some (roomyPlan secondNode))).run
    (respondWith fun addr => .opened [.event .ready addr]) []

/-- With a pin, two shards of a plan sit on one node, and the worker's engine is
gone when the deployment becomes active. -/
theorem plan_pin_loses_worker :
    ∃ planned, Planner.plan Planner.Runtime.default background
        roomyNodes [] smallModel (splitOverTwo { entries := [(⟨1, 1⟩, "a")] }) = .ok planned ∧
      (apply true "dep-1" (some planned.toProto)).Produces (roomyRun "a").1 (roomyRun "a").2 ∧
      (roomyRun "a").2.error = none ∧
      ¬ServesEveryShard planned.toProto (fun _ => {}) (roomyRun "a").1 := by
  obtain ⟨planned, returned, messageEq⟩ := exists_planned (show
    ((Planner.plan Planner.Runtime.default background roomyNodes
      [] smallModel (splitOverTwo { entries := [(⟨1, 1⟩, "a")] })).map
        toProto).toOption = some (roomyPlan "a") by
    decide +kernel)
  refine ⟨planned, returned, ?_⟩
  rw [messageEq]
  have produced : (apply true "dep-1" (some (roomyPlan "a"))).Produces
      (roomyRun "a").1 (roomyRun "a").2 := produces_run _ _ _
  have succeeded : (roomyRun "a").2.error = none := by decide
  obtain ⟨engines, peerAddrs, shards⟩ := exists_shardsStarted produced succeeded
  refine ⟨produced, succeeded, ?_⟩
  rw [shards.servesEveryShard_iff]
  decide

theorem plan_shards_served_unpinned :
    ∃ planned, Planner.plan Planner.Runtime.default background
        roomyNodes [] smallModel (splitOverTwo {}) = .ok planned ∧
      ServesEveryShard planned.toProto (fun _ => {}) (roomyRun "b").1 := by
  obtain ⟨planned, returned, messageEq⟩ := exists_planned (show
    ((Planner.plan Planner.Runtime.default background roomyNodes
      [] smallModel (splitOverTwo {})).map toProto).toOption = some (roomyPlan "b") by
    decide +kernel)
  have produced : (apply true "dep-1" (some planned.toProto)).Produces
      (roomyRun "b").1 (roomyRun "b").2 := by
    rw [messageEq]
    exact produces_run _ _ _
  exact ⟨planned, returned, (plan_shards_served_iff returned produced (by decide)
    _).1.mpr (by decide)⟩

end Purser.Orchestrator
