import Purser.PlannerAutomaticPlans
import Purser.PlannerFailover

/-!
# What becomes of pins and of a forced node count

The last pin that falls into a shard decides where it goes; a plan on a single
node looks at no pin.  A forced node count fixes the nodes phase C may use, not
the nodes it does use.
-/

namespace Purser.Planner

open List
open Assignment (placement)

variable {rt : Runtime} {ctx : Context} {nodes order subset : List Node} {links : List Link}
  {model : ModelSpec} {quant : Quantization} {kv : ℚ} {c : Constraints}
  {shards assignments : List Assignment} {plan : DeploymentPlan} {pin : LayerRange × String}
  {outcome : Except PlanFailure DeploymentPlan}

/-- The shards of the plan of a candidate subset, before a draft is placed, and
the pins it reports. -/
def planShards (rt : Runtime) (links : List Link) (model : ModelSpec) (quant : Quantization)
    (c : Constraints) : List Node → List Assignment × List (LayerRange × String)
  | [node] => ([{
      nodeID := node.id
      role := .host
      layerStart := 0
      layerEnd := model.layers - 1 }], [])
  | subset =>
    let found := coOptimise rt subset links model quant c
    let pins := applyPinnedRanges found.assignments found.order c.pinned
    (pins.1, refusedPins pins.2)

theorem planShards_of_several (several : 2 ≤ subset.length) :
    planShards rt links model quant c subset =
      let found := coOptimise rt subset links model quant c
      let pins := applyPinnedRanges found.assignments found.order c.pinned
      (pins.1, refusedPins pins.2) := by
  rcases subset with _ | ⟨_, _ | _⟩
  · rfl
  · simp at several
  · rfl

theorem refusedPins_placeDraft (plan : DeploymentPlan) (model : ModelSpec) :
    refusedPins (placeDraft plan model).explanation = refusedPins plan.explanation := by
  unfold placeDraft
  split
  · rw [refusedPins_append]
    split <;> exact append_nil _
  · rfl

theorem refusedPins_computeFailoverPlans (plan : DeploymentPlan) :
    refusedPins (computeFailoverPlans rt ctx plan nodes links model c).explanation =
      refusedPins plan.explanation := by
  refine List.foldlRecOn (motive := fun result : DeploymentPlan =>
    refusedPins result.explanation = refusedPins plan.explanation) _ _ rfl ?_
  intro result holds dead _
  unfold applyFailover
  split
  · rw [refusedPins_append, holds]
    exact append_nil _
  · exact holds
  · exact holds

/-- A plan comes from one candidate subset, which is a single node or has a
feasible partition. -/
theorem exists_subset_of_plan {result : DeploymentPlan}
    (planned : Planner.plan rt ctx nodes links model c = .ok result) :
    0 < model.layers ∧ ∃ admitted, admittedNodes nodes c = .ok admitted ∧
      let kv := kvCacheInMemory model model.contextMax (minPrefixCachingFactor admitted)
      ∃ quant, selectQuantization admitted model kv c = .ok quant ∧
        ∃ subset ∈ candidateSubsets admitted quant kv c,
          (subset.length = 1 ∨ 2 ≤ subset.length ∧
            (coOptimise rt subset links model quant c).assignments ≠ []) ∧
          result.assignments.map placement =
            (planShards rt links model quant c subset).1.map placement ∧
          refusedPins result.explanation = (planShards rt links model quant c subset).2 := by
  obtain ⟨admitted, base, phases, rfl⟩ := plan_eq_ok_iff.mp planned
  obtain ⟨_, admits, plannedBase⟩ := planPhases_eq_ok_iff.mp phases
  obtain ⟨layersPos, quant, selects, _, assembled, assembledEq, _, rfl⟩ :=
    planAdmitted_eq_ok_iff.mp plannedBase
  refine ⟨layersPos, admitted, admits, quant, selects, ?_⟩
  rw [refusedPins_computeFailoverPlans, refusedPins_placeDraft,
    (computeFailoverPlans_frame rt ctx _ admitted links model c).1, placeDraft_placements]
  rcases assemblePlan_cases assembledEq with
    ⟨node, _, subsetsEq, rfl⟩ | ⟨subset, member, several, plannedSubset⟩
  · exact ⟨[node], subsetsEq ▸ mem_cons_self, .inl rfl, rfl, (notes_singleNodePlan node).1⟩
  · have parts := isMultiNodePlan plannedSubset
    refine ⟨subset, member, .inr ⟨several, parts.feasible⟩, ?_⟩
    rw [planShards_of_several several]
    exact ⟨congrArg _ parts.assignments_eq, parts.refused_eq⟩

/-- All layers of the pin's range are on the node it names. -/
def Honoured (assignments : List Assignment) (pin : LayerRange × String) : Prop :=
  ∀ layer, pin.1.start ≤ layer → layer ≤ pin.1.stop → ∃ shard ∈ assignments,
    shard.layerStart ≤ layer ∧ layer ≤ shard.layerEnd ∧ shard.nodeID = pin.2

theorem honoured_of_placements
    (placements : assignments.map placement = shards.map placement) :
    Honoured assignments pin ↔ Honoured shards pin := by
  have viewed (shards : List Assignment) : Honoured shards pin ↔
      ∀ layer, pin.1.start ≤ layer → layer ≤ pin.1.stop →
        ∃ placed ∈ shards.map placement,
          placed.2.2.1 ≤ layer ∧ layer ≤ placed.2.2.2 ∧ placed.1 = pin.2 := by
    simp only [mem_map, exists_exists_and_eq_and]
    rfl
  rw [viewed, viewed, placements]

theorem CoversFrom.pairwise {start stop : ℤ} (covers : CoversFrom start shards stop) :
    (∀ shard ∈ shards, start ≤ shard.layerStart) ∧
      shards.Pairwise fun first second => first.layerEnd < second.layerStart := by
  induction shards generalizing start with
  | nil => exact ⟨forall_mem_nil _, .nil⟩
  | cons first rest induction =>
    obtain ⟨startEq, nonempty, restCovers⟩ := covers
    obtain ⟨later, ordered⟩ := induction restCovers
    refine ⟨forall_mem_cons.mpr ⟨startEq.ge, fun shard member => ?_⟩,
      ordered.cons fun shard member => ?_⟩
    · have := later shard member
      omega
    · have := later shard member
      omega

/-- A pin of a multi-node plan is honoured or reported unless a later pin that
names another node moves the same shard. -/
theorem honoured_relocate_iff {start stop : ℤ} (covers : CoversFrom start shards stop)
    {pins : List (LayerRange × String)} (member : pin ∈ pins) :
    (Honoured (relocate shards order pins) pin ∨
        (pin.2 ∉ order.map Node.id ∨ shardOf shards pin.1 = none)) ↔
      (pin.1.start ≤ pin.1.stop → pin.2 ∈ order.map Node.id → ∀ i,
        shardOf shards pin.1 = some i → ∀ last, decidingPin shards order pins i = some last →
          last.2 = pin.2) := by
  constructor
  · rintro settled nonempty inside i moves last deciding
    rcases settled with honoured | outside | nowhere
    · obtain ⟨shard, placed, low, high, nodeEq⟩ := honoured _ le_rfl nonempty
      obtain ⟨iLt, contains, _⟩ := findIdx?_eq_some_iff_getElem.mp moves
      obtain ⟨j, inRange, rfl⟩ := mem_iff_getElem.mp placed
      have jLt : j < shards.length := by simpa [relocate] using inRange
      simp only [relocate, getElem_mapIdx] at low high nodeEq
      rw [decide_eq_true_eq] at contains
      obtain rfl : j = i := by
        by_contra apart
        rcases Nat.lt_or_gt_of_ne apart with before | after
        · have := pairwise_iff_getElem.mp covers.pairwise.2 j i jLt iLt before
          omega
        · have := pairwise_iff_getElem.mp covers.pairwise.2 i j iLt jLt after
          omega
      rwa [deciding] at nodeEq
    · exact absurd inside outside
    · cases nowhere.symm.trans moves
  · intro agrees
    by_cases refused : pin.2 ∉ order.map Node.id ∨ shardOf shards pin.1 = none
    · exact .inr refused
    · refine .inl fun layer low high => ?_
      obtain ⟨inside, somewhere⟩ := not_or.mp refused
      obtain ⟨i, moves⟩ := Option.ne_none_iff_exists'.mp somewhere
      obtain ⟨iLt, contains, _⟩ := findIdx?_eq_some_iff_getElem.mp moves
      rw [decide_eq_true_eq] at contains
      have decided : (decidingPin shards order pins i).isSome := by
        rw [decidingPin, find?_isSome]
        exact ⟨pin, member, decide_eq_true ⟨not_not.mp inside, moves⟩⟩
      obtain ⟨last, deciding⟩ := Option.isSome_iff_exists.mp decided
      have inRange : i < (relocate shards order pins).length := by simpa [relocate] using iLt
      refine ⟨_, getElem_mem inRange, ?_⟩
      simp only [relocate, getElem_mapIdx, deciding]
      exact ⟨by omega, by omega, agrees (low.trans high) (not_not.mp inside) i moves last deciding⟩

/-- On a single node every pin names that node and layers of the model; on
several, the last pin that moves a shard names the node that every pin moving
the shard names. -/
def PinsKept (rt : Runtime) (links : List Link) (model : ModelSpec) (quant : Quantization)
    (c : Constraints) : List Node → Prop
  | [node] => ∀ pin ∈ c.pinned.entries, pin.1.start ≤ pin.1.stop →
      pin.2 = node.id ∧ 0 ≤ pin.1.start ∧ pin.1.stop < model.layers
  | subset =>
    let found := coOptimise rt subset links model quant c
    ∀ pin ∈ c.pinned.entries, pin.1.start ≤ pin.1.stop → pin.2 ∈ found.order.map Node.id → ∀ i,
      shardOf found.assignments pin.1 = some i → ∀ last,
        decidingPin found.assignments found.order (latestFirst c.pinned) i = some last →
          last.2 = pin.2

theorem honoured_single_iff {node : Node} :
    Honoured (planShards rt links model quant c [node]).1 pin ↔ (pin.1.start ≤ pin.1.stop →
      pin.2 = node.id ∧ 0 ≤ pin.1.start ∧ pin.1.stop < model.layers) := by
  simp only [Honoured, planShards, mem_singleton, exists_eq_left]
  constructor
  · intro honoured nonempty
    obtain ⟨low, _, same⟩ := honoured _ le_rfl nonempty
    have high := (honoured _ nonempty le_rfl).2.1
    exact ⟨same.symm, low, by omega⟩
  · intro kept layer low high
    obtain ⟨same, startLe, stopLt⟩ := kept (low.trans high)
    exact ⟨by omega, by omega, same.symm⟩

theorem plan_pins_settled_iff {result : DeploymentPlan}
    (planned : Planner.plan rt ctx nodes links model c = .ok result) :
    ∃ admitted quant, admittedNodes nodes c = .ok admitted ∧ ∃ subset ∈ candidateSubsets admitted
        quant (kvCacheInMemory model model.contextMax (minPrefixCachingFactor admitted)) c,
      result.assignments.map placement =
          (planShards rt links model quant c subset).1.map placement ∧
        ((∀ pin ∈ c.pinned.entries,
            Honoured result.assignments pin ∨ pin ∈ refusedPins result.explanation) ↔
          PinsKept rt links model quant c subset) := by
  obtain ⟨layersPos, admitted, admits, quant, _, subset, member, single | several, placements,
    refused⟩ := exists_subset_of_plan planned
  · refine ⟨admitted, quant, admits, subset, member, placements, ?_⟩
    obtain ⟨node, rfl⟩ := length_eq_one_iff.mp single
    simp only [refused, honoured_of_placements placements, honoured_single_iff, PinsKept]
    simp only [planShards, not_mem_nil, or_false]
  · refine ⟨admitted, quant, admits, subset, member, placements, ?_⟩
    obtain ⟨large, feasible⟩ := several
    have found := coOptimise_spec rt subset links model quant c
    have pipeline := (dpPartition_isPipeline layersPos (found.assignments_eq ▸ feasible)).1
    rw [← found.assignments_eq] at pipeline
    obtain ⟨moved, reported, -⟩ := applyPinnedRanges_eq
      (coOptimise rt subset links model quant c).assignments
      (coOptimise rt subset links model quant c).order c.pinned
    rw [planShards_of_several large] at placements refused
    simp only [refused, honoured_of_placements placements, moved, reported]
    rcases subset with _ | ⟨_, _ | _⟩
    · simp at large
    · simp at large
    · refine forall₂_congr fun pin entry => ?_
      have listed : pin ∈ latestFirst c.pinned := by
        rwa [latestFirst, mem_reverse, mem_insertionSort]
      rw [mem_reverse, mem_filter, and_iff_right listed, decide_eq_true_eq]
      exact honoured_relocate_iff pipeline.cover listed

def oneLayerModel : ModelSpec where
  id := "m"
  layers := 1
  quantizations := [{ name := "q4", sizeGB := 10, quality := 1 }]

def pinnedTo (entries : List (LayerRange × String)) (nodup : (entries.map Prod.fst).Nodup) :
    Constraints :=
  { pinned := ⟨entries, nodup⟩ }

theorem exists_ok {Holds : DeploymentPlan → Prop} (seen : ∃ plan ∈ outcome.toOption, Holds plan) :
    ∃ plan, outcome = .ok plan ∧ Holds plan := by
  obtain ⟨plan, ok, holds⟩ := seen
  cases outcome with
  | error => cases ok
  | ok => exact ⟨plan, by rw [Option.some.inj ok], holds⟩

theorem exists_dropped (nonempty : pin.1.start ≤ pin.1.stop)
    (seen : ∃ plan ∈ outcome.toOption, refusedPins plan.explanation = [] ∧
      ∀ shard ∈ plan.assignments, shard.layerStart ≤ pin.1.start →
        pin.1.start ≤ shard.layerEnd → shard.nodeID ≠ pin.2) :
    ∃ result, outcome = .ok result ∧
      ¬ (Honoured result.assignments pin ∨ pin ∈ refusedPins result.explanation) := by
  obtain ⟨result, ok, silent, elsewhere⟩ := exists_ok seen
  refine ⟨result, ok, ?_⟩
  rw [silent]
  rintro (honoured | impossible)
  · obtain ⟨shard, member, low, high, same⟩ := honoured _ le_rfl nonempty
    exact elsewhere shard member low high same
  · cases impossible

/-- A model that fits on one node is placed there whatever is pinned elsewhere;
and of two pins into one shard the later one undoes the earlier. -/
theorem plan_drops_pins_silently :
    (∃ result, Planner.plan Runtime.default Context.background threeNodes [] oneLayerModel
        (pinnedTo [(⟨0, 0⟩, "b")] (by decide)) = .ok result ∧
      ¬ (Honoured result.assignments (⟨0, 0⟩, "b") ∨
        (⟨0, 0⟩, "b") ∈ refusedPins result.explanation)) ∧
    ∃ result, Planner.plan Runtime.default Context.background threeNodes [] fourLayers
        (pinnedTo [(⟨0, 0⟩, "b"), (⟨1, 1⟩, "a")] (by decide)) = .ok result ∧
      ¬ (Honoured result.assignments (⟨0, 0⟩, "b") ∨
        (⟨0, 0⟩, "b") ∈ refusedPins result.explanation) :=
  ⟨exists_dropped (by decide) (by decide +kernel), exists_dropped (by decide) (by decide +kernel)⟩

theorem plan_pins_settled_everyConstraint : ∃ result subset,
    Planner.plan Runtime.default Context.background threeNodes [] fourLayers everyConstraint =
      .ok result ∧ ∃ quant, ((∀ pin ∈ everyConstraint.pinned.entries,
        Honoured result.assignments pin ∨ pin ∈ refusedPins result.explanation) ↔
          PinsKept Runtime.default [] fourLayers quant everyConstraint subset) := by
  obtain ⟨result, planned⟩ := isOk_iff.mp (plan_threeNodes_isOk everyConstraint (by simp))
  obtain ⟨_, quant, _, subset, _, _, settled⟩ := plan_pins_settled_iff planned
  exact ⟨result, subset, planned, quant, settled⟩

theorem candidateSubsets_forced {k : ℤ} (forced : c.forceNodeCount = some k) :
    candidateSubsets nodes quant kv c =
      [(rankNodes nodes).take (min (max k 1) nodes.length).toNat] := by
  unfold candidateSubsets
  simp only [forced, rankNodes_length]
  congr 3
  split <;> split <;> omega

theorem length_dpPartition_iff {context : ℤ}
    (feasible : (dpPartition order links model quant context).1 ≠ []) :
    (dpPartition order links model quant context).1.length ≤ order.length ∧
      ((dpPartition order links model quant context).1.length = order.length ↔
        ∀ m, 1 ≤ m → m < order.length →
          (partitionTables order links model quant context).dp model.layers.toNat order.length <
            (partitionTables order links model quant context).dp model.layers.toNat m) := by
  rcases dpPartition_cases order links model quant context with
    ⟨nothing, _⟩ | ⟨m, split, chosen, valueEq, partitionEq⟩
  · rw [nothing] at feasible
    exact absurd rfl feasible
  · rw [partitionEq, splitAssignments_length]
    refine ⟨chosen.m_le, fun whole m' low less => ?_, fun shorter => ?_⟩
    · have later := chosen.shortest m' low (whole ▸ less)
      rwa [valueEq, whole] at later
    · by_contra different
      have less := lt_of_le_of_ne chosen.m_le different
      have least := chosen.least order.length (chosen.m_pos.trans less.le) le_rfl
      rw [valueEq] at least
      exact absurd (shorter m chosen.m_pos less) (not_lt.mpr least)

/-- Splitting over all nodes of the subset is faster than over any shorter
prefix of the pipeline, and the pins leave every shard on a node of its own. -/
def SpreadOverAll (rt : Runtime) (links : List Link) (model : ModelSpec) (quant : Quantization)
    (c : Constraints) (subset : List Node) : Prop :=
  let found := coOptimise rt subset links model quant c
  let bottleneck := (partitionTables found.order links model quant model.contextMax).dp
    model.layers.toNat
  (∀ m, 1 ≤ m → m < subset.length → bottleneck subset.length < bottleneck m) ∧
    ((relocate found.assignments found.order (latestFirst c.pinned)).map Assignment.nodeID).Nodup

theorem length_dedup_eq_iff {ids : List String} {count : ℕ} (le : ids.length ≤ count) :
    ids.dedup.length = count ↔ ids.length = count ∧ ids.Nodup := by
  constructor
  · intro all
    have sublist := dedup_sublist ids
    have lengthEq : ids.length = count := le.antisymm (all ▸ sublist.length_le)
    refine ⟨lengthEq, dedup_eq_self.mp (sublist.eq_of_length (all.trans lengthEq.symm))⟩
  · rintro ⟨lengthEq, nodup⟩
    rw [nodup.dedup, lengthEq]

theorem plan_forced_count_iff {k : ℤ} {result : DeploymentPlan} (forced : c.forceNodeCount = some k)
    (planned : Planner.plan rt ctx nodes links model c = .ok result) :
    ∃ admitted quant, admittedNodes nodes c = .ok admitted ∧
      selectQuantization admitted model
        (kvCacheInMemory model model.contextMax (minPrefixCachingFactor admitted)) c = .ok quant ∧
      let count := (min (max k 1) admitted.length).toNat
      ((result.assignments.map Assignment.nodeID).dedup.length = count ↔
        count = 1 ∨ SpreadOverAll rt links model quant c ((rankNodes admitted).take count)) := by
  obtain ⟨layersPos, admitted, admits, quant, selects, subset, member, sizes, placements, _⟩ :=
    exists_subset_of_plan planned
  refine ⟨admitted, quant, admits, selects, ?_⟩
  rw [candidateSubsets_forced forced, mem_singleton] at member
  have lengthEq : subset.length = (min (max k 1) admitted.length).toNat := by
    rw [member, length_take, rankNodes_length]
    omega
  have ids := map_of_placements placements Prod.fst
  change result.assignments.map Assignment.nodeID = List.map Assignment.nodeID _ at ids
  rw [← lengthEq] at member
  simp only [← lengthEq, ids]
  rw [← member]
  rcases sizes with single | ⟨several, feasible⟩
  · obtain ⟨node, rfl⟩ := length_eq_one_iff.mp single
    exact iff_of_true rfl (.inl rfl)
  · have found := coOptimise_spec rt subset links model quant c
    obtain ⟨le, whole⟩ := length_dpPartition_iff (found.assignments_eq ▸ feasible)
    rw [← found.assignments_eq, found.perm.length_eq] at le whole
    rw [planShards_of_several several, or_iff_right (by omega), SpreadOverAll]
    simp only [(applyPinnedRanges_eq _ _ _).1, ← whole]
    have sameLength : ((relocate (coOptimise rt subset links model quant c).assignments
        (coOptimise rt subset links model quant c).order (latestFirst c.pinned)).map
          Assignment.nodeID).length = (coOptimise rt subset links model quant c).assignments.length :=
      by simp [relocate]
    rw [length_dedup_eq_iff (sameLength ▸ le), sameLength]

def slowLinks : List Link :=
  [{ source := "a", target := "b", rttMs := 10 ^ 6 }, { source := "b", target := "a", rttMs := 10 ^ 6 }]

/-- Two nodes are forced, but over the slow link one node alone is faster. -/
theorem plan_forced_two_uses_one : ∃ result,
    Planner.plan Runtime.default Context.background (threeNodes.take 2) slowLinks
        { oneLayerModel with layers := 4 } { forceNodeCount := some 2 } = .ok result ∧
      (result.assignments.map Assignment.nodeID).dedup.length = 1 :=
  exists_ok (by decide +kernel)

theorem plan_forced_count_threeNodes : ∃ result quant,
    Planner.plan Runtime.default Context.background threeNodes [] fourLayers
        { forceNodeCount := some 2 } = .ok result ∧
      ((result.assignments.map Assignment.nodeID).dedup.length = 2 ↔
        SpreadOverAll Runtime.default [] fourLayers quant { forceNodeCount := some 2 }
          ((rankNodes threeNodes).take 2)) := by
  obtain ⟨result, planned⟩ := isOk_iff.mp (plan_threeNodes_isOk { forceNodeCount := some 2 } (by simp))
  obtain ⟨admitted, quant, admits, _, counted⟩ := plan_forced_count_iff rfl planned
  obtain rfl : threeNodes = admitted := Except.ok.inj admits
  exact ⟨result, quant, planned, by simpa [threeNodes] using counted⟩

end Purser.Planner
