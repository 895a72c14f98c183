import Purser.OrchestratorApply
import Purser.PlannerFeasibility

/-!
# Plans on the wire

The orchestrator receives the plans of the planner as messages.  A message keeps
the placement of the shards and drops the alternatives for lost nodes.  Without
pins, no node carries two shards of one plan.
-/

namespace Purser.Planner

open List

/-- A negative integer becomes zero, a large one is truncated. -/
def u32 (value : ℤ) : ℕ :=
  if value < 0 then 0 else value.toNat % 2 ^ 32

def Assignment.toProto (shard : Assignment) : Orchestrator.Assignment where
  nodeID := shard.nodeID
  role := shard.role
  layerStart := u32 shard.layerStart
  layerEnd := u32 shard.layerEnd
  draft := shard.draft

def DeploymentPlan.toProto (plan : DeploymentPlan) : Orchestrator.DeploymentPlan where
  planID := plan.planID
  modelID := plan.modelID
  quantization := plan.quantization
  assignments := plan.assignments.map Assignment.toProto

variable {nodes : List Node} {c : Constraints} {rt : Runtime} {model : ModelSpec}
  {links : List Link}

theorem admittedNodes_sublist {admitted : List Node}
    (passed : admittedNodes nodes c = .ok admitted) : admitted.Sublist nodes := by
  have pool : ((applyNodeFilter nodes c).filter fun node =>
      node.id ∈ c.allowedNodeIDs).Sublist nodes :=
    filter_sublist.trans filter_sublist
  unfold admittedNodes at passed
  simp only at passed
  split at passed
  · cases passed
  split at passed
  · obtain rfl := Except.ok.inj passed
    exact filter_sublist
  split at passed
  · cases passed
  split at passed
  · obtain rfl := Except.ok.inj passed
    exact pool
  · split at passed
    · cases passed
    · obtain rfl := Except.ok.inj passed
      exact pool

theorem nodup_multiNodePlan {subset : List Node} (distinct : (subset.map Node.id).Nodup)
    {nodeByID : NodeIndex} {quant : Quantization} (noPins : c.pinned.entries = [])
    {plan : DeploymentPlan}
    (planned : multiNodePlan rt subset nodeByID model quant links c = some plan) :
    (plan.assignments.map Assignment.nodeID).Nodup := by
  have found := coOptimise_spec rt subset links model quant c
  have orderDistinct := (found.perm.map Node.id).nodup_iff.mpr distinct
  have parts := isMultiNodePlan planned
  rw [parts.assignments_eq, applyPinnedRanges_of_nil noPins, found.assignments_eq]
  rcases dpPartition_cases (coOptimise rt subset links model quant c).order
    links model quant model.contextMax with
    ⟨nothing, _⟩ | ⟨m, split, chosen, _, partitionEq⟩
  · rw [nothing]
    exact nodup_nil
  · rw [partitionEq, map_nodeID_splitAssignments _ chosen.m_le, map_take]
    exact orderDistinct.sublist (take_sublist _ _)

/-- Without pins every node of a plan carries one shard. -/
theorem plan_nodup_of_noPins {ctx : Context} {result : DeploymentPlan}
    (distinct : (nodes.map Node.id).Nodup) (noPins : c.pinned.entries = [])
    (planned : plan rt ctx nodes links model c = .ok result) :
    (result.assignments.map Assignment.nodeID).Nodup := by
  obtain ⟨admitted, base, basePlanned, rfl⟩ := plan_eq_ok_iff.mp planned
  obtain ⟨_, passed, phases⟩ := planPhases_eq_ok_iff.mp basePlanned
  obtain ⟨_, quant, _, _, assembled, assembledEq, _, rfl⟩ :=
    planAdmitted_eq_ok_iff.mp phases
  have admittedDistinct : (admitted.map Node.id).Nodup :=
    distinct.sublist ((admittedNodes_sublist passed).map _)
  have ids : (placeDraft assembled model).assignments.map Assignment.nodeID =
      assembled.assignments.map Assignment.nodeID :=
    map_of_placements (placeDraft_placements assembled model) Prod.fst
  rw [(computeFailoverPlans_frame rt ctx _ admitted links model c).1, ids]
  rcases assemblePlan_cases assembledEq with ⟨_, _, _, rfl⟩ | ⟨subset, member, _, planned⟩
  · exact nodup_singleton _
  · obtain ⟨k, rfl⟩ := exists_take_of_mem_candidateSubsets member
    have ranked : ((rankNodes admitted).map Node.id).Nodup :=
      ((perm_insertionSort _ admitted).map Node.id).nodup_iff.mpr admittedDistinct
    refine nodup_multiNodePlan ?_ noPins planned
    rw [map_take]
    exact ranked.sublist (take_sublist _ _)

end Purser.Planner
