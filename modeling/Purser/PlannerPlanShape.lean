import Purser.PlannerPartitionExact
import Purser.PlannerOrderingRoutes
import Purser.PlannerPins
import Purser.PlannerPipeline

/-!
# The shape of a plan

The shards that leave phase C cover the layer chain, the first of them on the
host.  Pins and the draft only touch the node and the draft flag of a shard, so
every later phase keeps that shape.
-/

namespace Purser.Planner

open RangeLoops ContiguousSplits List
open Assignment (shape nodeID)

variable {others : List Assignment} {subsets : List (List Node)}

/-- The shards cover all layers without gap or overlap, and the first one, and
only it, is the host. -/
structure IsPipeline (layers : ℤ) (assignments : List Assignment) : Prop where
  cover : IsContiguousCover assignments layers
  host_first : ∃ host workers, assignments = host :: workers ∧
    host.role = .host ∧ ∀ shard ∈ workers, shard.role ≠ .host

variable {assignments : List Assignment} {links : List Link} {model : ModelSpec}
  {quant : Quantization} {subset nodes : List Node} {c : Constraints} {plan : DeploymentPlan}
  {kv : ℚ} {rt : Runtime} {ctx : Context}

theorem CoversFrom.of_shapes {start stop : ℤ} (covers : CoversFrom start assignments stop)
    (shapes : others.map shape = assignments.map shape) :
    CoversFrom start others stop := by
  induction assignments generalizing start others with
  | nil =>
    rw [map_nil, map_eq_nil_iff] at shapes
    subst shapes
    exact covers
  | cons _ _ induction =>
    cases others with
    | nil => cases shapes
    | cons =>
      simp only [map_cons, List.cons.injEq, shape, Prod.mk.injEq] at shapes
      obtain ⟨⟨_, startEq, endEq⟩, rest⟩ := shapes
      refine ⟨startEq.trans covers.1, ?_, ?_⟩
      · rw [startEq, endEq]
        exact covers.2.1
      · rw [endEq]
        exact induction covers.2.2 rest

theorem IsPipeline.of_shapes {layers : ℤ} (pipeline : IsPipeline layers assignments)
    (shapes : others.map shape = assignments.map shape) :
    IsPipeline layers others := by
  refine ⟨pipeline.cover.of_shapes shapes, ?_⟩
  obtain ⟨host, workers, rfl, hostRole, workerRoles⟩ := pipeline.host_first
  cases others with
  | nil => cases shapes
  | cons other others =>
    rw [map_cons, map_cons, List.cons.injEq] at shapes
    refine ⟨other, others, rfl, (congrArg Prod.fst shapes.1).trans hostRole, ?_⟩
    intro shard member
    have shapeMem : shard.shape ∈ workers.map shape :=
      shapes.2 ▸ mem_map_of_mem member
    obtain ⟨worker, workerMem, shapeEq⟩ := mem_map.mp shapeMem
    have roleEq : worker.role = shard.role := congrArg Prod.fst shapeEq
    rw [← roleEq]
    exact workerRoles worker workerMem

theorem isPipeline_splitAssignments (order : List Node) {m layers : ℕ} (mPos : 1 ≤ m)
    (split : Split m layers) : IsPipeline layers (splitAssignments order split) := by
  refine ⟨splitAssignments_cover order split, ?_⟩
  have segmentsNonempty : split.segments ≠ [] := by
    intro empty
    have lengthEq := split.segments_length
    rw [empty, length_nil] at lengthEq
    omega
  obtain ⟨first, rest, segmentsEq⟩ := exists_cons_of_ne_nil segmentsNonempty
  refine ⟨shardAt order 0 first, rest.mapIdx fun k => shardAt order (k + 1),
    by rw [splitAssignments, segmentsEq, mapIdx_cons], rfl, ?_⟩
  intro shard member
  obtain ⟨k, _, rfl⟩ := mem_mapIdx.mp member
  simp [shardAt]

theorem dpPartition_isPipeline {order : List Node} {context : ℤ} (layersPos : 0 < model.layers)
    (feasible : (dpPartition order links model quant context).1 ≠ []) :
    IsPipeline model.layers (dpPartition order links model quant context).1 ∧
      ∀ shard ∈ (dpPartition order links model quant context).1,
        shard.nodeID ∈ order.map Node.id := by
  rcases dpPartition_cases order links model quant context with
    ⟨nothing, _⟩ | ⟨m, split, chosen, _, partitionEq⟩
  · rw [nothing] at feasible
    exact absurd rfl feasible
  · rw [partitionEq]
    constructor
    · have pipeline := isPipeline_splitAssignments order chosen.m_pos split
      rwa [Int.toNat_of_nonneg layersPos.le] at pipeline
    · intro shard member
      obtain ⟨k, kLt, shardEq⟩ := mem_iff_getElem.mp member
      obtain ⟨node, nodeAt, idEq⟩ := exists_node_of_splitAssignments chosen.m_le
        (List.getElem?_eq_some_iff.mpr ⟨kLt, shardEq⟩)
      rw [idEq]
      exact mem_map_of_mem (mem_of_getElem? nodeAt)

structure IsCoOptimised (subset : List Node) (links : List Link)
    (model : ModelSpec) (quant : Quantization) (found : CoOptimised) : Prop where
  perm : found.order.Perm subset
  partition : (found.assignments, found.bottleneck) =
    dpPartition found.order links model quant model.contextMax

theorem IsCoOptimised.assignments_eq {found : CoOptimised}
    (spec : IsCoOptimised subset links model quant found) :
    found.assignments = (dpPartition found.order links model quant model.contextMax).1 :=
  congrArg Prod.fst spec.partition

theorem coOptimiseFrom_spec (rt : Runtime) (links : List Link) (model : ModelSpec)
    (quant : Quantization) (c : Constraints) (left : ℕ) (state : CoOptimised)
    (holds : IsCoOptimised subset links model quant state) :
    IsCoOptimised subset links model quant (coOptimiseFrom rt links model quant c left state) := by
  induction left generalizing state with
  | zero => exact holds
  | succ left induction =>
    rw [coOptimiseFrom]
    split
    · exact holds
    · apply induction
      exact ⟨(orderNodes_perm rt state.order model links c).trans holds.perm, rfl⟩

theorem coOptimise_spec (rt : Runtime) (subset : List Node) (links : List Link) (model : ModelSpec)
    (quant : Quantization) (c : Constraints) :
    IsCoOptimised subset links model quant (coOptimise rt subset links model quant c) :=
  coOptimiseFrom_spec rt links model quant c _ _ ⟨orderNodes_perm rt subset model links c, rfl⟩

/-- For distinct identifiers the first order is already stable. -/
theorem coOptimise_eq (rt : Runtime) (distinct : (subset.map Node.id).Nodup) (links : List Link)
    (model : ModelSpec) (quant : Quantization) (c : Constraints) :
    coOptimise rt subset links model quant c =
      partitionOrder links model quant (orderNodes rt subset model links c) 1 := by
  have stable : orderNodes rt (orderNodes rt subset model links c) model links c =
      orderNodes rt subset model links c :=
    (orderNodes_eq_of_perm rt distinct
      (orderNodes_perm rt subset model links c).symm model links c).symm
  change (if sameOrder (orderNodes rt subset model links c)
    (orderNodes rt (orderNodes rt subset model links c) model links c) then _ else _) = _
  rw [stable, if_pos (by simp [sameOrder])]

/-- What holds of a plan when it leaves phase D. -/
structure IsAssembled (nodes : List Node) (model : ModelSpec)
    (quant : Quantization) (plan : DeploymentPlan) : Prop where
  pipeline : IsPipeline model.layers plan.assignments
  order_eq : plan.pipelineOrder = plan.assignments.map nodeID
  placed : ∀ shard ∈ plan.assignments, shard.nodeID ∈ nodes.map Node.id
  quantization_eq : plan.quantization = quant.name
  no_failover : plan.failoverAlt = fun _ => none

theorem isAssembled_singleNodePlan {node : Node} (member : node ∈ nodes)
    (layersPos : 0 < model.layers) (quant : Quantization) (kv : ℚ) (c : Constraints) :
    IsAssembled nodes model quant (singleNodePlan node model quant kv c) where
  pipeline := by
    refine ⟨⟨rfl, ?_, ?_⟩, _, [], rfl, rfl, ?_⟩
    · simp only
      omega
    · simp [CoversFrom]
    · intro shard impossible
      cases impossible
  order_eq := rfl
  placed shard shardMem := by
    rw [mem_singleton.mp shardMem]
    exact mem_map_of_mem member
  quantization_eq := rfl
  no_failover := rfl

/-- What the plan of a subset of several nodes is made of. -/
structure IsMultiNodePlan (found : CoOptimised) (pinned : PinMap) (quant : Quantization)
    (plan : DeploymentPlan) : Prop where
  feasible : found.assignments ≠ []
  assignments_eq : plan.assignments = (applyPinnedRanges found.assignments found.order pinned).1
  order_eq : plan.pipelineOrder = plan.assignments.map nodeID
  quantization_eq : plan.quantization = quant.name
  no_failover : plan.failoverAlt = fun _ => none
  refused_eq : refusedPins plan.explanation =
    refusedPins (applyPinnedRanges found.assignments found.order pinned).2
  none_lost : lostNodes plan.explanation = []

theorem isMultiNodePlan {nodeByID : NodeIndex}
    (planned : multiNodePlan rt subset nodeByID model quant links c = some plan) :
    IsMultiNodePlan (coOptimise rt subset links model quant c) c.pinned quant plan := by
  have placements (shards : List Assignment) :
      refusedPins (shards.map (placementNote nodeByID model quant)) = [] ∧
        lostNodes (shards.map (placementNote nodeByID model quant)) = [] := by
    rw [refusedPins, lostNodes, filterMap_map, filterMap_map]
    exact ⟨filterMap_eq_nil_iff.mpr fun _ _ => rfl, filterMap_eq_nil_iff.mpr fun _ _ => rfl⟩
  unfold multiNodePlan at planned
  simp only at planned
  split at planned
  · cases planned
  · rename_i feasible
    obtain rfl := Option.some.inj planned
    refine ⟨feasible, rfl, rfl, rfl, rfl, ?_, ?_⟩
    · simp only [refusedPins_append, placements]
      split <;> split <;> (try split) <;> simp [refusedPins]
    · simp only [lostNodes_append, placements, (applyPinnedRanges_eq _ _ _).2.2]
      split <;> split <;> (try split) <;> rfl

theorem notes_singleNodePlan (node : Node) :
    refusedPins (singleNodePlan node model quant kv c).explanation = [] ∧
      lostNodes (singleNodePlan node model quant kv c).explanation = [] := by
  simp only [singleNodePlan, refusedPins_append, lostNodes_append]
  split <;> split <;> (try split) <;> exact ⟨rfl, rfl⟩

/-- Phase B only proposes prefixes of the ranking. -/
theorem exists_take_of_mem_candidateSubsets (member : subset ∈ candidateSubsets nodes quant kv c) :
    ∃ k, subset = (rankNodes nodes).take k := by
  unfold candidateSubsets at member
  simp only at member
  split at member
  · exact ⟨_, mem_singleton.mp member⟩
  · split at member
    · cases member
    · obtain ⟨k, _, rfl⟩ := mem_map.mp member
      exact ⟨k, rfl⟩

theorem mem_of_mem_candidateSubsets (member : subset ∈ candidateSubsets nodes quant kv c) :
    ∀ node ∈ subset, node ∈ nodes := by
  obtain ⟨k, rfl⟩ := exists_take_of_mem_candidateSubsets member
  intro node nodeMem
  exact (mem_insertionSort _).mp (mem_of_mem_take nodeMem)

/-- The selection loop returns its accumulator or one of the candidates. -/
theorem cheapestPlan_mem {evaluate : List Node → Option DeploymentPlan} {i : ℕ}
    {best : Option DeploymentPlan}
    (selected : cheapestPlan ctx evaluate i best subsets = .ok (some plan)) :
    best = some plan ∨ ∃ subset ∈ subsets, 2 ≤ subset.length ∧ evaluate subset = some plan := by
  fun_induction cheapestPlan ctx evaluate i best subsets with
  | case1 => exact .inl (Except.ok.inj selected)
  | case2 => cases selected
  | case3 _ _ _ _ _ _ induction | case4 _ _ _ _ _ _ _ induction =>
    exact (induction selected).imp_right exists_mem_cons_of_exists
  | case5 _ subset _ _ large cand evaluated induction =>
    refine .inr ((induction selected).elim (fun fromCand => ?_) exists_mem_cons_of_exists)
    exact ⟨subset, mem_cons_self, by omega, evaluated.trans fromCand⟩
  | case6 _ subset _ _ large cand current evaluated induction =>
    rcases induction selected with chosen | found
    · split at chosen
      · exact .inr ⟨subset, mem_cons_self, by omega, evaluated.trans chosen⟩
      · exact .inl chosen
    · exact .inr (exists_mem_cons_of_exists found)

/-- An assembled plan is that of a single node, or of a candidate of several. -/
theorem assemblePlan_cases
    (assembled : assemblePlan rt ctx nodes links model quant kv subsets c = .ok plan) :
    (∃ node larger, subsets = [node] :: larger ∧ plan = singleNodePlan node model quant kv c) ∨
      ∃ subset ∈ subsets, 2 ≤ subset.length ∧
        multiNodePlan rt subset (indexNodes nodes) model quant links c = some plan := by
  unfold assemblePlan at assembled
  split at assembled
  · exact .inl ⟨_, _, rfl, (Except.ok.inj assembled).symm⟩
  · split at assembled
    · cases assembled
    · rename_i selected
      obtain rfl := Except.ok.inj assembled
      exact .inr ((cheapestPlan_mem selected).resolve_left (Option.some_ne_none _).symm)
    · cases assembled

theorem isAssembled_assemblePlan (layersPos : 0 < model.layers)
    (subsetsOf : ∀ subset ∈ subsets, ∀ node ∈ subset, node ∈ nodes)
    (assembled : assemblePlan rt ctx nodes links model quant kv subsets c = .ok plan) :
    IsAssembled nodes model quant plan := by
  rcases assemblePlan_cases assembled with ⟨node, _, rfl, rfl⟩ | ⟨subset, member, _, planned⟩
  · exact isAssembled_singleNodePlan
      (subsetsOf [node] mem_cons_self node (mem_singleton_self node))
      layersPos quant kv c
  · have subsetOf := subsetsOf subset member
    have found := coOptimise_spec rt subset links model quant c
    have parts := isMultiNodePlan planned
    obtain ⟨pipeline, placed⟩ := dpPartition_isPipeline layersPos
      (found.assignments_eq ▸ parts.feasible)
    rw [← found.assignments_eq] at pipeline placed
    refine ⟨?_, parts.order_eq, ?_, parts.quantization_eq, parts.no_failover⟩
    · rw [parts.assignments_eq]
      refine pipeline.of_shapes ?_
      rw [(applyPinnedRanges_eq _ _ c.pinned).1, relocate_shapes]
    · rw [parts.assignments_eq]
      intro shard member
      obtain ⟨node, nodeMem, idEq⟩ := mem_map.mp (applyPinnedRanges_placed placed shard member)
      rw [← idEq]
      exact mem_map_of_mem (subsetOf node (found.perm.mem_iff.mp nodeMem))

end Purser.Planner
