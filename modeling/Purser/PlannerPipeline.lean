import Purser.PlannerOrdering
import Purser.PlannerPartition

/-!
# The planning pipeline

Filter the fleet, choose a quantization, propose subsets, assemble the cheapest
plan, check its memory, place the draft and, for the public entry point, plan
the loss of every node it uses.
-/

namespace Purser.Planner

abbrev NodeIndex := String → Option Node

/-- The node of an identifier, the zero value when it is unknown. -/
def NodeIndex.get (index : NodeIndex) (id : String) : Node := (index id).getD default

def sanitizeID (text : String) : String :=
  String.ofList (text.toList.map fun ch =>
    if ch ∈ ['/', ' ', ':'] then '-' else ch)

def newPlanID (modelID nodeID : String) : String :=
  "plan-" ++ sanitizeID modelID ++ "-" ++ sanitizeID nodeID

/-- A throughput range from the seconds the slowest stage spends on a token. -/
def estimatePerformance (bottleneckSecPerTok headroom : ℚ) (model : ModelSpec)
    (node : Node) : PerfEstimate :=
  let decode :=
    if 0 < bottleneckSecPerTok ∧ 0 < memBandwidthUtilFraction then
      1 / (bottleneckSecPerTok / memBandwidthUtilFraction)
    else 0
  let decode :=
    if model.draft.available then decode * expectedAcceptedTokens else decode
  let prefill := decode * prefillComputeMultiple
  let prefill :=
    if 0 < node.prefixCachingFactor ∧ node.prefixCachingFactor < 1 then
      prefill / (1 - node.prefixCachingFactor)
    else prefill
  let effectiveHeadroom :=
    if node.kvSsdOffload ∧ 0 < node.diskFreeGB then
      let ssdContrib := kvSsdOffloadFactor * node.diskFreeGB
      let maxSSD := kvSsdOffloadMaxMultiplier * ssdCapBase node
      headroom + (if maxSSD < ssdContrib then maxSSD else ssdContrib)
    else headroom
  { decodeTokSMin := decode * (1 - perfBandFraction)
    decodeTokSMax := decode * (1 + perfBandFraction)
    prefillTokSMin := prefill * (1 - perfBandFraction)
    prefillTokSMax := prefill * (1 + perfBandFraction)
    headroomGB := effectiveHeadroom }

def estimateSingleNode (node : Node) (model : ModelSpec) (quant : Quantization)
    (headroom : ℚ) : PerfEstimate :=
  estimatePerformance (computeTime node model quant 0 model.layers) headroom model node

/-- The capabilities of the bottleneck node are not tracked, so the zero node
stands in for it. -/
def estimateMultiNode (bottleneck headroom : ℚ) (model : ModelSpec) :
    PerfEstimate :=
  estimatePerformance bottleneck headroom model default

variable (assignments : List Assignment) (multiNode : Bool) (nodeByID : NodeIndex)

def stageTimesForPlan (model : ModelSpec) (quant : Quantization) (links : List Link) : List ℚ :=
  assignments.mapIdx fun idx shard =>
    let ct :=
      if 1 ≤ idx then
        commTime model (lookupLink links
          ((assignments[idx - 1]?.map Assignment.nodeID).getD "") shard.nodeID)
      else 0
    computeTime (nodeByID.get shard.nodeID) model quant shard.layerStart (shard.layerEnd + 1) + ct

def minStageHeadroom (model : ModelSpec) (quant : Quantization) : ℚ :=
  (assignments.foldl (fun (least : WithTop ℚ) shard =>
    let headroom := usefulMemory (nodeByID.get shard.nodeID) -
      stageMemNeed model quant shard.layerStart (shard.layerEnd + 1) model.contextMax
    if (headroom : WithTop ℚ) < least then (headroom : WithTop ℚ) else least)
    ⊤).untopD 0

def variance (values : List ℚ) : ℚ :=
  if values.length < 2 then 0
  else
    let mean := values.sum / values.length
    (values.map fun value => (value - mean) * (value - mean)).sum / values.length

variable (rt : Runtime) (ctx : Context) (nodes : List Node) (links : List Link) (model : ModelSpec)
  (quant : Quantization) (kv : ℚ) (subsets : List (List Node)) (c : Constraints)

def totalLinkCost (links : List Link) : List String → ℚ
  | first :: second :: rest =>
    commTime model (lookupLink links first second) + totalLinkCost links (second :: rest)
  | _ => 0

def costFunction (order : List String) (stageTimes : List ℚ)
    (quant : Quantization) (links : List Link) (model : ModelSpec)
    (c : Constraints) : ℚ :=
  let hops := order.length - 1
  let linkCost := totalLinkCost model links order
  let imbalance := variance stageTimes
  let qualityPenalty := 1 - quant.quality
  let fp4Penalty : ℚ := if quant.emulatedFP4 then 1 else 0
  let w4 := costW4Quality + c.qualityWeightBias
  costW1Hops * hops + costW2LinkCost * linkCost + costW3Imbalance * imbalance +
    w4 * qualityPenalty + costW5FP4 * fp4Penalty

def singleNodePlan (node : Node) (model : ModelSpec) (quant : Quantization)
    (kv : ℚ) (c : Constraints) : DeploymentPlan :=
  let required := quant.sizeGB + kv + overheadOSRuntimeGB
  let headroom := usefulMemory node - required
  { planID := newPlanID model.id node.id
    modelID := model.id
    quantization := quant.name
    assignments := [{
      nodeID := node.id
      role := .host
      layerStart := 0
      layerEnd := model.layers - 1 }]
    pipelineOrder := [node.id]
    estimated := estimateSingleNode node model quant headroom
    cost := 0
    explanation := [.selectedQuantization quant.name quant.quality, .fitsSingleNode node.id,
        .singleNodeBudget quant.sizeGB kv overheadOSRuntimeGB required
          (usefulMemory node) headroom] ++ (if quant.emulatedFP4 then [.emulatedFP4] else []) ++
      (match c.forceHost with
        | some host =>
          if host ≠ node.id then [.forceHostIgnored host node.id] else []
        | none => [])
    failoverAlt := fun _ => none }

structure CoOptimised where
  order : List Node
  assignments : List Assignment
  bottleneck : WithTop ℚ
  rounds : ℕ

def partitionOrder (order : List Node) (rounds : ℕ) : CoOptimised :=
  let result := dpPartition order links model quant model.contextMax
  ⟨order, result.1, result.2, rounds⟩

def coOptimiseFrom : (left : ℕ) → CoOptimised → CoOptimised
  | 0, state => state
  | left + 1, state =>
    let reordered := orderNodes rt state.order model links c
    if sameOrder state.order reordered then state
    else coOptimiseFrom left (partitionOrder links model quant reordered (state.rounds + 1))

def coOptimise (subset : List Node) (links : List Link)
    (model : ModelSpec) (quant : Quantization) (c : Constraints) : CoOptimised :=
  coOptimiseFrom rt links model quant c (coOptMaxRounds - 1)
    (partitionOrder links model quant (orderNodes rt subset model links c) 1)

def placementNote (model : ModelSpec) (quant : Quantization) (shard : Assignment) : Note :=
  .stagePlacement shard.nodeID shard.role shard.layerStart shard.layerEnd
    (stageMemNeed model quant shard.layerStart (shard.layerEnd + 1) model.contextMax)
    (usefulMemory (nodeByID.get shard.nodeID))

def multiNodePlan (subset : List Node) (nodeByID : NodeIndex)
    (model : ModelSpec) (quant : Quantization) (links : List Link)
    (c : Constraints) : Option DeploymentPlan :=
  let found := coOptimise rt subset links model quant c
  if found.assignments = [] then none
  else
    let pins := applyPinnedRanges found.assignments found.order c.pinned
    let assignments := pins.1
    let pipelineOrder := assignments.map Assignment.nodeID
    let host := pipelineOrder.headD ""
    let stageTimes := stageTimesForPlan assignments nodeByID model quant links
    let headroom := minStageHeadroom assignments nodeByID model quant
    let bottleneck := found.bottleneck.untopD 0
    some {
      planID := newPlanID model.id host
      modelID := model.id
      quantization := quant.name
      assignments := assignments
      pipelineOrder := pipelineOrder
      estimated := estimateMultiNode bottleneck headroom model
      cost := costFunction pipelineOrder stageTimes quant links model c
      explanation :=
        [.selectedQuantization quant.name quant.quality, .splitAcross assignments.length,
          .bottleneckStage bottleneck headroom] ++
        assignments.map (placementNote nodeByID model quant) ++
        (if quant.emulatedFP4 then [.emulatedFP4] else []) ++ pins.2 ++
        [.phaseDOrdering (found.order.length ≤ rt.orderingThreshold) host found.rounds] ++
        (match c.forceHost with
          | some forced =>
            if forced = host then [.forceHostHonoured forced]
            else [.forceHostNotInSubset forced host]
          | none => [])
      failoverAlt := fun _ => none }

def applyNodeFilter : List Node :=
  nodes.filter fun node =>
    node.id ∉ c.excludeNodes ∧ (c.includeNodes = [] ∨ node.id ∈ c.includeNodes)

/-- The fleet the pipeline works with: filtered, and restricted to the pool when
one is given. -/
def admittedNodes : Except PlanError (List Node) :=
  let nodes := applyNodeFilter nodes c
  if nodes = [] then
    .error {
      reason := .noNodesAfterFilter
      suggestions := ["widen include_nodes", "remove some exclude_nodes", "register more nodes"] }
  else if c.allowedNodeIDs = [] then .ok nodes
  else
    let pool := nodes.filter fun node => node.id ∈ c.allowedNodeIDs
    if pool = [] then
      .error { reason := .emptyPool c.allowedNodeIDs.length }
    else
      match c.forceHost with
      | none => .ok pool
      | some host =>
        if host ≠ "" ∧ host ∉ c.allowedNodeIDs then
          .error { reason := .forceHostOutsidePool host }
        else .ok pool

def indexNodes : NodeIndex :=
  nodes.foldl (fun index node => Function.update index node.id (some node)) fun _ => none

def lookupQuant (quants : List Quantization) (name : String) : Option Quantization :=
  quants.find? fun quant => quant.name = name

def anyFP4 : Bool := nodes.any Node.fp4Native

def flagFP4 : Quantization :=
  { quant with emulatedFP4 := quant.requiresFP4 && !anyFP4 nodes }

def aggregateNeed : ℚ :=
  quant.sizeGB + kv + overheadOSRuntimeGB * nodes.length

def ramAggregate : ℚ := (nodes.map Node.ramAvailableGB).sum

def rankQuantizations (quants : List Quantization) : List Quantization :=
  quants.insertionSort fun first second => second.quality ≤ first.quality

/-- The smallest quantization, the first among equals.  The source never asks
for one of an empty list. -/
def smallestQuantization : List Quantization → Quantization
  | [] => { name := "", sizeGB := 0, quality := 0 }
  | first :: rest =>
    (first :: rest).foldl (fun smallest quant =>
      if quant.sizeGB < smallest.sizeGB then quant else smallest) first

/-- Phase A: the forced quantization, or the highest-quality one that fits the
aggregate RAM. -/
def selectQuantization : Except PlanError Quantization :=
  if model.quantizations = [] then
    .error {
      reason := .noQuantizations model.id
      suggestions := ["provide at least one Quantization in the ModelSpec"] }
  else
    match c.forceQuant with
    | some name =>
      match lookupQuant model.quantizations name with
      | none =>
        .error {
          reason := .forcedQuantUnknown name model.id
          suggestions := ["pick one of the model's declared quantizations"] }
      | some quant =>
        if ramAggregate nodes < aggregateNeed nodes quant kv then
          .error {
            reason := .forcedQuantTooLarge quant.name
            deficitGB := aggregateNeed nodes quant kv - ramAggregate nodes
            suggestions := ["drop force_quant to let phase A choose", "add memory"] }
        else .ok (flagFP4 nodes quant)
    | none =>
      let ranked := rankQuantizations model.quantizations
      match ranked.find? fun quant =>
          aggregateNeed nodes quant kv ≤ ramAggregate nodes with
      | some quant => .ok (flagFP4 nodes quant)
      | none =>
        .error {
          reason := .modelTooLarge model.id
          deficitGB := aggregateNeed nodes (smallestQuantization ranked) kv - ramAggregate nodes
          suggestions := ["add nodes or free memory", "reduce ContextMax to shrink the KV cache",
            "provide a smaller quantization"] }

/-- Keep the cheapest feasible candidate, the first among equals.  The context is
polled before every candidate. -/
def cheapestPlan (evaluate : List Node → Option DeploymentPlan) :
    (i : ℕ) → (best : Option DeploymentPlan) → List (List Node) →
      Except PlanFailure (Option DeploymentPlan)
  | _, best, [] => .ok best
  | i, best, subset :: subsets =>
    if ctx.cancelled [1, i] then .error .cancelled
    else if subset.length < 2 then cheapestPlan evaluate (i + 1) best subsets
    else
      match evaluate subset, best with
      | none, _ => cheapestPlan evaluate (i + 1) best subsets
      | some cand, none =>
        cheapestPlan evaluate (i + 1) (some cand) subsets
      | some cand, some current =>
        cheapestPlan evaluate (i + 1)
          (some (if cand.cost < current.cost then cand else current)) subsets

/-- The plan of the candidate subsets: on one node when the smallest subset has
one, the cheapest multi-node plan otherwise. -/
def assemblePlan : Except PlanFailure DeploymentPlan :=
  match subsets with
  -- larger subsets are not considered once one node suffices
  | [node] :: _ => .ok (singleNodePlan node model quant kv c)
  | _ =>
    match cheapestPlan ctx
        (fun subset =>
          multiNodePlan rt subset (indexNodes nodes) model quant links c)
        0 none subsets with
    | .error failure => .error failure
    | .ok (some best) => .ok best
    | .ok none =>
      .error (.rejected {
        reason := .noFeasiblePartition model.id quant.name subsets.length
        suggestions := ["choose a smaller quantization",
          "reduce ContextMax to shrink the per-node KV cache",
          "add nodes with more (V)RAM to relieve the tightest stage"] })

def firstSeen (ids : List String) : List String :=
  ids.foldl (fun order id => if id ∈ order then order else order ++ [id]) []

def layersOn (id : String) : ℤ :=
  ((assignments.filter fun shard => shard.nodeID = id).map
    fun shard => shard.layerEnd - shard.layerStart + 1).sum

def constraintCulprit : String :=
  match c.pinned.entries, c.forceNodeCount with
  | _ :: _, some _ => "the pin/force-node-count constraints"
  | _ :: _, none => "a pinned layer range"
  | [], some count => "force_node_count=" ++ toString count
  | [], none => "the plan"

def constraintSuggestions : List String :=
  match c.pinned.entries, c.forceNodeCount with
  | _ :: _, some _ =>
    ["relax the pinned ranges", "drop or raise force_node_count",
      "add memory to the constrained node"]
  | _ :: _, none =>
    ["pin the range to a node with more memory", "pin fewer layers",
      "drop the pin to let the DP balance the split"]
  | [], some _ =>
    ["raise force_node_count to spread the model across more nodes",
      "drop force_node_count to let phase B choose",
      "choose a smaller quantization"]
  | [], none => ["choose a smaller quantization", "add nodes with more (V)RAM"]

def nodeMemNeed (nLayers : ℤ) : ℚ :=
  quant.sizeGB * nLayers / model.layers +
    kvCachePerNode model nLayers model.contextMax + overheadOSRuntimeGB

def nodeMemLimit (node : Node) : ℚ :=
  if multiNode then usefulMemoryForFit node * (1 - defaultHeadroomFraction)
  else usefulMemoryForFit node

def validateNode (model : ModelSpec) (quant : Quantization)
    (c : Constraints) (id : String) : Option PlanError :=
  match nodeByID id with
  | none =>
    some {
      reason := .unknownNode id
      suggestions := ["re-run planning against the current fleet"] }
  | some node =>
    let nLayers := layersOn assignments id
    let required := nodeMemNeed model quant nLayers
    let limit := nodeMemLimit multiNode node
    if limit < required then
      some {
        reason := .overCapacity (constraintCulprit c) nLayers model.layers id
          required limit multiNode
        deficitGB := required - limit
        suggestions := constraintSuggestions c }
    else none

def validatePlanMemory (model : ModelSpec) (quant : Quantization) (c : Constraints) :
    Option PlanError :=
  let order := firstSeen (assignments.map Assignment.nodeID)
  order.findSome? (validateNode assignments (1 < order.length) nodeByID model quant c)

def tailIndex : ℕ :=
  let lastLayer i := (assignments[i]?.map Assignment.layerEnd).getD 0
  (List.range' 1 (assignments.length - 1)).foldl (fun tail i =>
    if lastLayer i > lastLayer tail then i else tail) 0

def placeDraft (plan : DeploymentPlan) (model : ModelSpec) : DeploymentPlan :=
  match model.draft.available, plan.assignments[tailIndex plan.assignments]? with
  | true, some tail =>
    { plan with
      assignments := plan.assignments.mapIdx fun i shard =>
        { shard with draft := decide (i = tailIndex plan.assignments) }
      explanation := plan.explanation ++ [if plan.assignments.length = 1 then
          .draftOnHost model.draft.type model.draft.tailLayers tail.nodeID
        else
          .draftOnTail model.draft.type model.draft.tailLayers tail.nodeID
            tail.layerStart tail.layerEnd] }
  | _, _ => plan

def planAdmitted : Except PlanFailure DeploymentPlan :=
  if model.layers ≤ 0 then
    .error (.rejected {
      reason := .noLayers model.id
      suggestions := ["provide a ModelSpec with Layers > 0"] })
  else
    let kv := kvCacheInMemory model model.contextMax (minPrefixCachingFactor nodes)
    match selectQuantization nodes model kv c with
    | .error error => .error (.rejected error)
    | .ok quant =>
      match candidateSubsets nodes quant kv c with
      | [] =>
        .error (.rejected {
          reason := .usefulMemoryTooSmall model.id quant.name nodes.length
          -- the reported deficit leaves out the SSD contribution
          deficitGB := aggregateNeed nodes quant kv - (nodes.map usefulMemory).sum
          suggestions := ["choose a smaller quantization",
            "reduce ContextMax to shrink the KV cache",
            "add nodes with more (V)RAM"] })
      | smallest :: larger =>
        match assemblePlan rt ctx nodes links model quant kv (smallest :: larger) c with
        | .error failure => .error failure
        | .ok plan =>
          match validatePlanMemory plan.assignments (indexNodes nodes) model quant c with
          | some error => .error (.rejected error)
          | none => .ok (placeDraft plan model)

/-- The pipeline without failover alternatives, together with the fleet it
worked with. -/
def planPhases : Except PlanFailure (List Node × DeploymentPlan) :=
  if ctx.cancelled [0] then .error .cancelled
  else
    match admittedNodes nodes c with
    | .error error => .error (.rejected error)
    | .ok admitted =>
      match planAdmitted rt ctx admitted links model c with
      | .error failure => .error failure
      | .ok plan => .ok (admitted, plan)

def nodesExcluding (id : String) : List Node :=
  nodes.filter fun node => node.id ≠ id

/-- Claim a slot of the failover table for every node of the plan that has none,
and list these nodes in pipeline order. -/
def claimSlots (table : String → Option (Option DeploymentPlan)) (assignments : List Assignment) :
    (String → Option (Option DeploymentPlan)) × List String :=
  assignments.foldl (fun state shard =>
    if (state.1 shard.nodeID).isSome then state
    else (Function.update state.1 shard.nodeID (some none), state.2 ++ [shard.nodeID])) (table, [])

def collectResults {α : Type} (arrival : List ℕ) (results : List (String × α)) :
    String → Option α :=
  arrival.foldl (fun collected i =>
    match results[i]? with
    | some result => Function.update collected result.1 (some result.2)
    | none => collected) fun _ => none

def applyFailover (collected : String → Option (Except PlanFailure DeploymentPlan))
    (plan : DeploymentPlan) (dead : String) : DeploymentPlan :=
  match collected dead with
  -- the claimed slot stays empty
  | some (.error _) =>
    { plan with explanation := plan.explanation ++ [.losingNode dead] }
  | some (.ok alternative) =>
    { plan with failoverAlt :=
        Function.update plan.failoverAlt dead (some (some alternative)) }
  -- a missing entry of the Go map reads as a nil plan without an error
  | none =>
    { plan with failoverAlt := Function.update plan.failoverAlt dead (some none) }

def planAlternatives (order : List String) : List (String × Except PlanFailure DeploymentPlan) :=
  order.mapIdx fun i dead =>
    (dead, (planPhases rt (ctx.child (i + 2)) (nodesExcluding nodes dead) links
      model c).map Prod.snd)

def computeFailoverPlans (plan : DeploymentPlan)
    (nodes : List Node) (links : List Link) (model : ModelSpec)
    (c : Constraints) : DeploymentPlan :=
  let claimed := claimSlots plan.failoverAlt plan.assignments
  let order := claimed.2
  let results := planAlternatives rt ctx nodes links model c order
  let collected := collectResults (ctx.arrival [] order.length) results
  order.foldl (applyFailover collected) { plan with failoverAlt := claimed.1 }

/-- The orchestrator behind `Plan`; alternatives are planned without failover of
their own. -/
def planInternal (computeFailover : Bool) : Except PlanFailure DeploymentPlan :=
  match planPhases rt ctx nodes links model c with
  | .error failure => .error failure
  | .ok (admitted, plan) =>
    if computeFailover then
      .ok (computeFailoverPlans rt ctx plan admitted links model c)
    else .ok plan

/-- The planner's entry point, `Plan` of the source. -/
def plan : Except PlanFailure DeploymentPlan :=
  planInternal rt ctx nodes links model c true

end Purser.Planner
