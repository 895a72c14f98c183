import Purser.DescendingSorts
import Purser.PlannerValidity

/-!
# When planning succeeds

Three checks decide: a quantization fits the aggregate RAM, a prefix of the
ranking covers it, and the one ranked node holds the model or some candidate
subset can be partitioned.
-/

namespace Purser.Planner

open RangeLoops ContiguousSplits List

def residentKV (nodes : List Node) (model : ModelSpec) : ℚ :=
  kvCacheInMemory model model.contextMax (minPrefixCachingFactor nodes)

variable {nodes subset : List Node} {c : Constraints} {model : ModelSpec} {kv : ℚ}
  {quant : Quantization} {node : Node} {links : List Link} {ctx : Context} {rt : Runtime}
  {subsets : List (List Node)}

theorem residentKV_of_no_caching (noCaching : ∀ node ∈ nodes, node.prefixCachingFactor = 0)
    (model : ModelSpec) : residentKV nodes model = estimateKVCache model model.contextMax := by
  have zero : minPrefixCachingFactor nodes = 0 := by
    refine List.foldlRecOn (motive := (· = (0 : ℚ))) nodes _ rfl ?_
    intro least holds node member
    simp [noCaching node member, holds]
  rw [residentKV, zero, kvCacheInMemory_zero]

def phaseAPick (nodes : List Node) (model : ModelSpec) (kv : ℚ) : Option Quantization :=
  (rankQuantizations model.quantizations).find? fun quant =>
    aggregateNeed nodes quant kv ≤ ramAggregate nodes

theorem selectQuantization_auto (auto : c.forceQuant = none) (nodes : List Node) (model : ModelSpec)
    (kv : ℚ) (quant : Quantization) :
    selectQuantization nodes model kv c = .ok quant ↔
      ∃ declared, phaseAPick nodes model kv = some declared ∧ quant = flagFP4 nodes declared := by
  unfold selectQuantization phaseAPick
  rw [auto]
  by_cases none : model.quantizations = []
  · simp [none, rankQuantizations]
  · rw [if_neg none]
    simp only
    cases (rankQuantizations model.quantizations).find? fun quant =>
        aggregateNeed nodes quant kv ≤ ramAggregate nodes with
    | none => simp
    | some => simp [eq_comm]

theorem selectQuantization_forced {name : String} (forced : c.forceQuant = some name)
    (nodes : List Node) (model : ModelSpec) (kv : ℚ) (quant : Quantization) :
    selectQuantization nodes model kv c = .ok quant ↔
      ∃ declared, lookupQuant model.quantizations name = some declared ∧
        aggregateNeed nodes declared kv ≤ ramAggregate nodes ∧ quant = flagFP4 nodes declared := by
  unfold selectQuantization
  rw [forced]
  by_cases none : model.quantizations = []
  · simp [none, lookupQuant]
  · rw [if_neg none]
    simp only
    cases lookupQuant model.quantizations name with
    | none => simp
    | some declared =>
      by_cases large : ramAggregate nodes < aggregateNeed nodes declared kv
      · simp [large]
      · simp [large, not_lt.mp large, eq_comm]

/-- Phase A picks a declared quantization that fits, and none of higher quality
does. -/
theorem phaseAPick_spec {best : Quantization} (picked : phaseAPick nodes model kv = some best) :
    best ∈ model.quantizations ∧
      aggregateNeed nodes best kv ≤ ramAggregate nodes ∧
        ∀ other ∈ model.quantizations,
          aggregateNeed nodes other kv ≤ ramAggregate nodes → other.quality ≤ best.quality := by
  obtain ⟨member, fits, greatest⟩ := DescendingSorts.find?_ranking picked
  refine ⟨member, by simpa using fits, ?_⟩
  intro other otherMem otherFits
  exact greatest other otherMem (by simpa using otherFits)

theorem phaseAPick_isSome (member : quant ∈ model.quantizations)
    (fits : aggregateNeed nodes quant kv ≤ ramAggregate nodes) :
    ∃ best, phaseAPick nodes model kv = some best := by
  have found : ((rankQuantizations model.quantizations).find? fun quant =>
      aggregateNeed nodes quant kv ≤ ramAggregate nodes).isSome = true := by
    rw [find?_isSome]
    exact ⟨quant, (mem_insertionSort _).mpr member, by simpa using fits⟩
  exact Option.isSome_iff_exists.mp found

theorem indexNodes_of_mem (distinct : (nodes.map Node.id).Nodup) (member : node ∈ nodes) :
    indexNodes nodes node.id = some node :=
  KeyedTables.tabulate_of_mem distinct member

theorem nodeMemNeed_layers (layersPos : 0 < model.layers) (quant : Quantization) :
    nodeMemNeed model quant model.layers = quant.sizeGB + estimateKVCache model model.contextMax +
        overheadOSRuntimeGB := by
  have layersPos' : (0 : ℚ) < model.layers := by exact_mod_cast layersPos
  rw [nodeMemNeed, kvCachePerNode_layers layersPos, mul_div_cancel_right₀ _ layersPos'.ne']

/-- The single-node plan passes when the node holds the model with its full KV
cache. -/
theorem validate_singleNodePlan (distinct : (nodes.map Node.id).Nodup) (member : node ∈ nodes)
    (layersPos : 0 < model.layers) (quant : Quantization) (kv : ℚ) (c : Constraints) :
    validatePlanMemory (singleNodePlan node model quant kv c).assignments
        (indexNodes nodes) model quant c = none ↔
      quant.sizeGB + estimateKVCache model model.contextMax +
        overheadOSRuntimeGB ≤ usefulMemoryForFit node := by
  have layersEq : layersOn (singleNodePlan node model quant kv c).assignments
      node.id = model.layers := by
    simp [layersOn, singleNodePlan]
  have oneNode : (firstSeen ((singleNodePlan node model quant kv c).assignments.map
      Assignment.nodeID)).length = 1 := rfl
  rw [validatePlanMemory_eq_none_iff, oneNode]
  simp only [singleNodePlan] at layersEq ⊢
  simp only [mem_singleton, forall_eq, indexNodes_of_mem distinct member,
    Option.some.injEq, exists_eq_left', layersEq, nodeMemNeed_layers layersPos]
  simp [nodeMemLimit]

theorem layersOn_of_nodup {assignments : List Assignment}
    (nodup : (assignments.map Assignment.nodeID).Nodup) {shard : Assignment}
    (member : shard ∈ assignments) :
    layersOn assignments shard.nodeID = shard.layerEnd - shard.layerStart + 1 := by
  have only : assignments.filter (fun other => other.nodeID = shard.nodeID) = [shard] := by
    induction assignments with
    | nil => cases member
    | cons first rest induction =>
      rw [map_cons, nodup_cons, mem_map, not_exists] at nodup
      rcases mem_cons.mp member with rfl | later
      · simpa [filter_cons] using nodup.1
      · have different : ¬ first.nodeID = shard.nodeID := fun same => nodup.1 shard ⟨later, same.symm⟩
        rw [filter_cons_of_neg (by simpa using different)]
        exact induction nodup.2 later
  simp [layersOn, only]

theorem map_nodeID_splitAssignments (order : List Node) {m layers : ℕ} (mLe : m ≤ order.length)
    (split : Split m layers) :
    (splitAssignments order split).map Assignment.nodeID = (order.take m).map Node.id := by
  apply ext_getElem
  · simp [mLe]
  · intro k kLt _
    have inSplit : k < m := by simpa using kLt
    have inOrder : k < order.length := by omega
    simp [splitAssignments, shardAt, inOrder]

/-- The shards of a partition pass the memory check. -/
theorem validate_dpPartition {order : List Node} (distinct : (nodes.map Node.id).Nodup)
    (orderDistinct : (order.map Node.id).Nodup) (subset : ∀ node ∈ order, node ∈ nodes)
    (layersPos : 0 < model.layers) (sizeNonneg : 0 ≤ quant.sizeGB) (c : Constraints)
    (feasible : (dpPartition order links model quant model.contextMax).1 ≠ []) :
    validatePlanMemory (dpPartition order links model quant model.contextMax).1
      (indexNodes nodes) model quant c = none := by
  rcases dpPartition_cases order links model quant model.contextMax with
    ⟨nothing, _⟩ | ⟨m, split, chosen, _, partitionEq⟩
  · rw [nothing] at feasible
    exact absurd rfl feasible
  rw [partitionEq]
  have idsNodup : ((splitAssignments order split).map Assignment.nodeID).Nodup := by
    rw [map_nodeID_splitAssignments order chosen.m_le, map_take]
    exact orderDistinct.sublist (take_sublist _ _)
  rw [validatePlanMemory_eq_none_iff]
  intro shard member
  rw [layersOn_of_nodup idsNodup member]
  obtain ⟨k, kLt, rfl⟩ := mem_mapIdx.mp member
  obtain ⟨node, nodeAt, stageFit⟩ := chosen.fits k split.segments[k].1
    split.segments[k].2 (getElem?_eq_getElem kLt)
  have idEq : (shardAt order k split.segments[k]).nodeID = node.id := by
    simp [shardAt, nodeAt]
  refine ⟨node, ?_, ?_⟩
  · rw [idEq]
    exact indexNodes_of_mem distinct (subset node (mem_of_getElem? nodeAt))
  · have segmentOrdered := (split.segment_lt _ (getElem_mem kLt)).1
    have countEq : (shardAt order k split.segments[k]).layerEnd -
        (shardAt order k split.segments[k]).layerStart + 1 =
          (split.segments[k].2 : ℤ) - split.segments[k].1 := by
      simp only [shardAt]
      omega
    have need : nodeMemNeed model quant ((split.segments[k].2 : ℤ) - split.segments[k].1) =
        stageMemNeed model quant split.segments[k].1 split.segments[k].2 model.contextMax := by
      rw [nodeMemNeed, stageMemNeed, if_neg (by omega)]
    rw [countEq, need, nodeMemLimit]
    split
    · simpa only [stageFits, decide_eq_true_eq] using stageFit
    · exact stageMemNeed_le_of_stageFits sizeNonneg (by exact_mod_cast segmentOrdered.le) stageFit

/-- Without cancellation the selection loop ends, empty-handed only when no
candidate is feasible. -/
theorem exists_cheapestPlan (never : ctx.NeverCancelled)
    (evaluate : List Node → Option DeploymentPlan) (i : ℕ) (best : Option DeploymentPlan)
    (subsets : List (List Node)) :
    ∃ result, cheapestPlan ctx evaluate i best subsets = .ok result ∧
      (result = none ↔ best = none ∧
        ∀ subset ∈ subsets, 2 ≤ subset.length → evaluate subset = none) := by
  fun_induction cheapestPlan ctx evaluate i best subsets with
  | case1 => exact ⟨_, rfl, by simp⟩
  | case2 i _ _ _ cancelled =>
    rw [never [1, i]] at cancelled
    cases cancelled
  | case3 _ _ _ _ _ small induction =>
    obtain ⟨result, resultEq, resultIff⟩ := induction
    refine ⟨result, resultEq, resultIff.trans (and_congr_right fun _ => ?_)⟩
    simp [not_le.mpr small]
  | case4 _ _ _ _ _ _ evaluated induction =>
    obtain ⟨result, resultEq, resultIff⟩ := induction
    refine ⟨result, resultEq, resultIff.trans (and_congr_right fun _ => ?_)⟩
    simp [evaluated]
  -- whichever of the two is kept, some plan is found
  | case5 _ subset _ _ large cand evaluated induction
  | case6 _ subset _ _ large cand _ evaluated induction =>
    obtain ⟨result, resultEq, resultIff⟩ := induction
    refine ⟨result, resultEq, resultIff.trans (iff_of_false (by simp) fun failing => ?_)⟩
    have impossible := failing.2 subset mem_cons_self (by omega)
    rw [evaluated] at impossible
    cases impossible

theorem multiNodePlan_eq_none_iff (distinct : (subset.map Node.id).Nodup) {nodeByID : NodeIndex} :
    multiNodePlan rt subset nodeByID model quant links c = none ↔
      (dpPartition (orderNodes rt subset model links c) links model quant
        model.contextMax).1 = [] := by
  unfold multiNodePlan
  rw [coOptimise_eq rt distinct]
  simp [partitionOrder]

theorem multiNodePlan_assignments (distinct : (subset.map Node.id).Nodup) {nodeByID : NodeIndex}
    (noPins : c.pinned.entries = []) {plan : DeploymentPlan}
    (planned : multiNodePlan rt subset nodeByID model quant links c = some plan) :
    plan.assignments = (dpPartition (orderNodes rt subset model links c) links
      model quant model.contextMax).1 := by
  rw [(isMultiNodePlan planned).assignments_eq, applyPinnedRanges_of_nil noPins,
    coOptimise_eq rt distinct]
  rfl

/-- The candidates fit: the one ranked node holds the model with its full KV
cache, or some candidate subset can be partitioned. -/
def CandidatesFit (rt : Runtime) (links : List Link) (model : ModelSpec)
    (quant : Quantization) (c : Constraints) : List (List Node) → Prop
  | [] => False
  | [node] :: _ =>
    quant.sizeGB + estimateKVCache model model.contextMax +
      overheadOSRuntimeGB ≤ usefulMemoryForFit node
  | subsets =>
    ∃ subset ∈ subsets, 2 ≤ subset.length ∧
      (dpPartition (orderNodes rt subset model links c) links model quant model.contextMax).1 ≠ []

theorem nodup_of_mem_candidateSubsets (distinct : (nodes.map Node.id).Nodup)
    (member : subset ∈ candidateSubsets nodes quant kv c) : (subset.map Node.id).Nodup := by
  have ranked : ((rankNodes nodes).map Node.id).Nodup :=
    ((perm_insertionSort _ nodes).map Node.id).nodup_iff.mpr distinct
  obtain ⟨k, rfl⟩ := exists_take_of_mem_candidateSubsets member
  rw [map_take]
  exact ranked.sublist (take_sublist _ _)

theorem assemblePlan_eq_ok_iff {assembled : DeploymentPlan}
    (notSingle : ∀ node rest, subsets ≠ [node] :: rest) :
    assemblePlan rt ctx nodes links model quant kv subsets c = .ok assembled ↔
      cheapestPlan ctx (fun subset =>
        multiNodePlan rt subset (indexNodes nodes) model quant links c)
          0 none subsets = .ok (some assembled) := by
  unfold assemblePlan
  split
  · exact absurd rfl (notSingle _ _)
  · split <;> simp_all

section Unpinned

variable (distinct : (nodes.map Node.id).Nodup) (layersPos : 0 < model.layers)
  (sizeNonneg : 0 ≤ quant.sizeGB) (noPins : c.pinned.entries = [])

include distinct layersPos sizeNonneg noPins

theorem validate_multiNodePlan (subsetOf : ∀ node ∈ subset, node ∈ nodes)
    (subsetDistinct : (subset.map Node.id).Nodup) {plan : DeploymentPlan}
    (planned : multiNodePlan rt subset (indexNodes nodes) model quant links c =
      some plan) : validatePlanMemory plan.assignments (indexNodes nodes) model quant c = none := by
  have perm := orderNodes_perm rt subset model links c
  have feasible : (dpPartition (orderNodes rt subset model links c) links model
      quant model.contextMax).1 ≠ [] := by
    intro infeasible
    rw [(multiNodePlan_eq_none_iff subsetDistinct).mpr infeasible] at planned
    cases planned
  rw [multiNodePlan_assignments subsetDistinct noPins planned]
  exact validate_dpPartition distinct
    ((perm.map Node.id).nodup_iff.mpr subsetDistinct)
    (fun node nodeMem => subsetOf node (perm.mem_iff.mp nodeMem))
    layersPos sizeNonneg c feasible

variable (never : ctx.NeverCancelled)
  (subsetsOf : ∀ subset ∈ subsets, (∀ node ∈ subset, node ∈ nodes) ∧ (subset.map Node.id).Nodup)

include never subsetsOf

/-- The search returns a plan that passes the check exactly when it finds a plan
at all. -/
theorem cheapestPlan_validates_iff :
    (∃ assembled, cheapestPlan ctx (fun subset =>
        multiNodePlan rt subset (indexNodes nodes) model quant links c)
          0 none subsets = .ok (some assembled) ∧
        validatePlanMemory assembled.assignments (indexNodes nodes) model quant c = none) ↔
      ∃ subset ∈ subsets, 2 ≤ subset.length ∧
        (dpPartition (orderNodes rt subset model links c) links model quant
          model.contextMax).1 ≠ [] := by
  obtain ⟨result, resultEq, resultIff⟩ := exists_cheapestPlan never
    (fun subset =>
      multiNodePlan rt subset (indexNodes nodes) model quant links c)
    0 none subsets
  constructor
  · rintro ⟨assembled, assembledEq, _⟩
    obtain rfl : result = some assembled := Except.ok.inj (resultEq.symm.trans assembledEq)
    have notAll := mt resultIff.mpr (Option.some_ne_none assembled)
    simp only [true_and, not_forall] at notAll
    obtain ⟨subset, member, large, planned⟩ := notAll
    refine ⟨subset, member, large, ?_⟩
    intro infeasible
    exact planned ((multiNodePlan_eq_none_iff (subsetsOf subset member).2).mpr infeasible)
  · rintro ⟨subset, member, large, feasible⟩
    cases result with
    | none =>
      have allNone := (resultIff.mp rfl).2 subset member large
      exact absurd ((multiNodePlan_eq_none_iff (subsetsOf subset member).2).mp allNone) feasible
    | some best =>
      refine ⟨best, resultEq, ?_⟩
      rcases cheapestPlan_mem resultEq with impossible | ⟨chosen, chosenMem, _, planned⟩
      · cases impossible
      · obtain ⟨chosenOf, chosenDistinct⟩ := subsetsOf chosen chosenMem
        exact validate_multiNodePlan distinct layersPos sizeNonneg noPins chosenOf chosenDistinct
          planned

theorem assemble_validates_iff :
    (∃ assembled, assemblePlan rt ctx nodes links model quant kv subsets c = .ok assembled ∧
      validatePlanMemory assembled.assignments (indexNodes nodes) model quant c = none) ↔
      CandidatesFit rt links model quant c subsets := by
  have search := @cheapestPlan_validates_iff nodes c model quant links ctx rt subsets distinct layersPos
    sizeNonneg noPins never subsetsOf
  rcases subsets with _ | ⟨_ | ⟨node, _ | ⟨second, others⟩⟩, rest⟩
  · simp [CandidatesFit, assemblePlan, cheapestPlan]
  · have notSingle : ∀ node others, [] :: rest ≠ [node] :: others := by simp
    simp only [assemblePlan_eq_ok_iff notSingle]
    exact search
  · have nodeMem := (subsetsOf [node] mem_cons_self).1 node (mem_singleton_self node)
    rw [CandidatesFit, ← validate_singleNodePlan distinct nodeMem layersPos quant kv c]
    simp [assemblePlan]
  · have notSingle : ∀ single more, (node :: second :: others) :: rest ≠ [single] :: more := by simp
    simp only [assemblePlan_eq_ok_iff notSingle]
    exact search

end Unpinned

/-- Success of the phases over an admitted fleet. -/
theorem planAdmitted_isOk_iff (never : ctx.NeverCancelled) (distinct : (nodes.map Node.id).Nodup)
    (sizesNonneg : ∀ quant ∈ model.quantizations,
      0 ≤ quant.sizeGB) (noPins : c.pinned.entries = []) :
    (planAdmitted rt ctx nodes links model c).isOk = true ↔ 0 < model.layers ∧ ∃ quant,
        selectQuantization nodes model (residentKV nodes model) c = .ok quant ∧
          CandidatesFit rt links model quant c
            (candidateSubsets nodes quant (residentKV nodes model) c) := by
  have sizeNonneg {quant : Quantization}
      (selected : selectQuantization nodes model (residentKV nodes model) c = .ok quant) :
      0 ≤ quant.sizeGB := by
    obtain ⟨declared, declaredMem, rfl, _⟩ := selectQuantization_ok selected
    exact sizesNonneg declared declaredMem
  have subsetsOf {quant : Quantization} (subset : List Node)
      (member : subset ∈ candidateSubsets nodes quant (residentKV nodes model) c) :=
    And.intro (mem_of_mem_candidateSubsets member) (nodup_of_mem_candidateSubsets distinct member)
  rw [isOk_iff]
  constructor
  · rintro ⟨plan, planned⟩
    obtain ⟨layersPos, quant, selected, _, assembled, assembledEq, validated, _⟩ :=
      planAdmitted_eq_ok_iff.mp planned
    exact ⟨layersPos, quant, selected, (assemble_validates_iff distinct layersPos
      (sizeNonneg selected) noPins never subsetsOf).mp ⟨assembled, assembledEq, validated⟩⟩
  · rintro ⟨layersPos, quant, selected, fits⟩
    obtain ⟨assembled, assembledEq, validated⟩ := (assemble_validates_iff distinct layersPos
      (sizeNonneg selected) noPins never subsetsOf).mpr fits
    refine ⟨placeDraft assembled model, planAdmitted_eq_ok_iff.mpr
      ⟨layersPos, quant, selected, fun empty => ?_, assembled, assembledEq, validated, rfl⟩⟩
    rwa [residentKV, empty] at fits

theorem plan_isOk_iff (never : ctx.NeverCancelled) (nodes : List Node) (links : List Link)
    (model : ModelSpec) (c : Constraints) :
    (plan rt ctx nodes links model c).isOk = true ↔
      ∃ admitted, admittedNodes nodes c = .ok admitted ∧
        (planAdmitted rt ctx admitted links model c).isOk = true := by
  rw [isOk_iff]
  constructor
  · rintro ⟨result, planned⟩
    obtain ⟨admitted, base, basePlanned, _⟩ := plan_eq_ok_iff.mp planned
    obtain ⟨_, passed, planned⟩ := planPhases_eq_ok_iff.mp basePlanned
    exact ⟨admitted, passed, isOk_iff.mpr ⟨base, planned⟩⟩
  · rintro ⟨admitted, passed, planned⟩
    obtain ⟨base, planned⟩ := isOk_iff.mp planned
    exact ⟨_, plan_eq_ok_iff.mpr ⟨admitted, base,
      planPhases_eq_ok_iff.mpr ⟨never [0], passed, planned⟩,
      rfl⟩⟩

/-- The selected plan costs no more than any candidate. -/
theorem cost_cheapestPlan_le {evaluate : List Node → Option DeploymentPlan} {i : ℕ}
    {best : Option DeploymentPlan} {plan : DeploymentPlan}
    (selected : cheapestPlan ctx evaluate i best subsets = .ok (some plan)) :
    (∀ current ∈ best, plan.cost ≤ current.cost) ∧ ∀ subset ∈ subsets, 2 ≤ subset.length →
      ∀ candidate ∈ evaluate subset, plan.cost ≤ candidate.cost := by
  fun_induction cheapestPlan ctx evaluate i best subsets with
  | case1 =>
    cases selected
    simp
  | case2 => cases selected
  | case3 _ _ _ _ _ skipped induction | case4 _ _ _ _ _ _ skipped induction =>
    obtain ⟨bound, later⟩ := induction selected
    exact ⟨bound, forall_mem_cons.mpr ⟨by grind, later⟩⟩
  | case5 _ _ _ _ _ _ evaluated induction =>
    obtain ⟨bound, later⟩ := induction selected
    exact ⟨by simp, forall_mem_cons.mpr ⟨fun _ => evaluated ▸ bound, later⟩⟩
  | case6 _ _ _ _ _ candidate current evaluated induction =>
    obtain ⟨bound, later⟩ := induction selected
    have smaller := bound _ rfl
    rw [apply_ite DeploymentPlan.cost, ← min_def_lt, le_min_iff] at smaller
    refine ⟨by simpa using smaller.2, forall_mem_cons.mpr ⟨fun _ => ?_, later⟩⟩
    simpa [evaluated] using smaller.1

theorem cost_placeDraft (plan : DeploymentPlan) : (placeDraft plan model).cost = plan.cost := by
  unfold placeDraft
  split <;> rfl

theorem cost_computeFailoverPlans (plan : DeploymentPlan) :
    (computeFailoverPlans rt ctx plan nodes links model c).cost = plan.cost := by
  refine foldlRecOn (motive := fun result : DeploymentPlan => result.cost = plan.cost) _ _ rfl ?_
  intro result same dead _
  unfold applyFailover
  split <;> exact same

/-- Where one node is not enough, no candidate is cheaper than the plan. -/
theorem plan_cost_isLeast {result : DeploymentPlan}
    (planned : plan rt ctx nodes links model c = .ok result) : ∃ admitted quant,
    let subsets := candidateSubsets admitted quant (residentKV admitted model) c
    admittedNodes nodes c = .ok admitted ∧
      selectQuantization admitted model (residentKV admitted model) c = .ok quant ∧
      ((∃ node larger, subsets = [node] :: larger) ∨
        IsLeast {cost | ∃ subset ∈ subsets, 2 ≤ subset.length ∧ ∃ candidate,
          multiNodePlan rt subset (indexNodes admitted) model quant links c = some candidate ∧
            candidate.cost = cost} result.cost) := by
  obtain ⟨admitted, base, basePlanned, rfl⟩ := plan_eq_ok_iff.mp planned
  obtain ⟨-, passed, admittedPlanned⟩ := planPhases_eq_ok_iff.mp basePlanned
  obtain ⟨-, quant, selected, -, assembled, assembledEq, -, rfl⟩ :=
    planAdmitted_eq_ok_iff.mp admittedPlanned
  refine ⟨admitted, quant, passed, selected, or_iff_not_imp_left.mpr fun notSingle => ?_⟩
  rw [cost_computeFailoverPlans, cost_placeDraft]
  have chosen := (assemblePlan_eq_ok_iff fun _ _ single => notSingle ⟨_, _, single⟩).mp assembledEq
  constructor
  · obtain ⟨subset, member, several, evaluated⟩ :=
      (cheapestPlan_mem chosen).resolve_left (Option.some_ne_none _).symm
    exact ⟨subset, member, several, assembled, evaluated, rfl⟩
  · rintro _ ⟨subset, member, several, candidate, evaluated, rfl⟩
    exact (cost_cheapestPlan_le chosen).2 subset member several candidate evaluated

theorem plan_cost_isLeast_threeNodes : ∃ result admitted,
    plan Runtime.default Context.background threeNodes [] fourLayers {} = .ok result ∧
      admittedNodes threeNodes {} = .ok admitted := by
  obtain ⟨result, planned⟩ := isOk_iff.mp (plan_threeNodes_isOk {} (by simp))
  obtain ⟨admitted, _, passed, _⟩ := plan_cost_isLeast planned
  exact ⟨result, admitted, planned, passed⟩

end Purser.Planner
