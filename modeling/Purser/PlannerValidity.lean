import Purser.PlannerPlanShape
import Mathlib.Data.Finset.Card

/-!
# Plans are valid

Every plan covers the layers with the host first, uses only admitted nodes, fits
their memory and carries the draft on its tail.
-/

namespace Purser.Planner

open RangeLoops KeyedTables List

variable {rt : Runtime} {ctx : Context} {nodes : List Node} {links : List Link} {model : ModelSpec}
  {c : Constraints} {quant : Quantization} {assignments : List Assignment}
  {others : List Assignment} {result : DeploymentPlan}

theorem admittedNodes_ok {admitted : List Node} (passed : admittedNodes nodes c = .ok admitted) :
    admitted ≠ [] ∧ ∀ node, node ∈ admitted ↔ node ∈ applyNodeFilter nodes c ∧
        (c.allowedNodeIDs ≠ [] → node.id ∈ c.allowedNodeIDs) := by
  unfold admittedNodes at passed
  simp only at passed
  split at passed
  · cases passed
  rename_i nonempty
  split at passed
  · rename_i noPool
    obtain rfl := Except.ok.inj passed
    exact ⟨nonempty, fun node => by simp [noPool]⟩
  rename_i pool
  split at passed
  · cases passed
  rename_i poolNonempty
  have admittedEq : admitted = (applyNodeFilter nodes c).filter fun node =>
      node.id ∈ c.allowedNodeIDs := by
    split at passed
    · exact (Except.ok.inj passed).symm
    · split at passed
      · cases passed
      · exact (Except.ok.inj passed).symm
  subst admittedEq
  refine ⟨poolNonempty, ?_⟩
  simp [pool]

theorem mem_of_indexNodes {nodeID : String} {node : Node}
    (found : indexNodes nodes nodeID = some node) :
    node ∈ nodes ∧ node.id = nodeID := by
  have indexed : tabulate Node.id id nodes nodeID = some node := found
  obtain ⟨member, memberOf, idEq, rfl⟩ := exists_of_tabulate indexed
  exact ⟨memberOf, idEq⟩

theorem foldl_firstSeen (ids order : List String) (nodup : order.Nodup) :
    (ids.foldl (fun order id => if id ∈ order then order else order ++ [id]) order).Nodup ∧
      ∀ id, id ∈ ids.foldl (fun order id => if id ∈ order then order else order ++ [id]) order ↔
        id ∈ order ∨ id ∈ ids := by
  induction ids generalizing order with
  | nil => simp [nodup]
  | cons first rest induction =>
    rw [foldl_cons]
    split
    next seen =>
      grind
    next fresh =>
      obtain ⟨distinct, members⟩ := induction _ (concat_eq_append ▸ nodup.concat fresh)
      refine ⟨distinct, fun id => ?_⟩
      rw [members, mem_append, mem_singleton, mem_cons, or_assoc]

@[simp]
theorem mem_firstSeen {ids : List String} {id : String} : id ∈ firstSeen ids ↔ id ∈ ids := by
  simp [firstSeen, (foldl_firstSeen ids [] nodup_nil).2 id]

theorem nodup_firstSeen (ids : List String) : (firstSeen ids).Nodup :=
  (foldl_firstSeen ids [] nodup_nil).1

section

variable (model : ModelSpec) (quant : Quantization) (assignments : List Assignment) (id : String)

def SpansSeveral : Prop :=
  ∃ first ∈ assignments, ∃ second ∈ assignments, first.nodeID ≠ second.nodeID

theorem one_lt_firstSeen_iff :
    1 < (firstSeen (assignments.map Assignment.nodeID)).length ↔ SpansSeveral assignments := by
  rw [← toFinset_card_of_nodup (nodup_firstSeen _), Finset.one_lt_card]
  simp [SpansSeveral]

theorem validatePlanMemory_eq_none_iff
    (nodeByID : NodeIndex) (model : ModelSpec) (quant : Quantization)
    (c : Constraints) :
    validatePlanMemory assignments nodeByID model quant c = none ↔
      ∀ shard ∈ assignments, ∃ node, nodeByID shard.nodeID = some node ∧
        nodeMemNeed model quant (layersOn assignments shard.nodeID) ≤ nodeMemLimit
            (1 < (firstSeen (assignments.map Assignment.nodeID)).length) node := by
  unfold validatePlanMemory
  simp only [findSome?_eq_none_iff, mem_firstSeen, forall_mem_map]
  refine forall₂_congr fun shard _ => ?_
  unfold validateNode
  cases nodeByID shard.nodeID with
  | none => simp
  | some => simp

def shardLoad : ℚ :=
  ((assignments.filter fun shard => shard.nodeID = id).map fun shard =>
    quant.sizeGB * (shard.layerEnd - shard.layerStart + 1 : ℤ) / model.layers +
      kvCachePerNode model (shard.layerEnd - shard.layerStart + 1) model.contextMax).sum

theorem kvCachePerNode_add (first second context : ℤ) :
    kvCachePerNode model (first + second) context =
      kvCachePerNode model first context + kvCachePerNode model second context := by
  unfold kvCachePerNode
  split
  · simp
  · push_cast
    ring

theorem shardLoad_add_overhead :
    shardLoad model quant assignments id + overheadOSRuntimeGB =
      nodeMemNeed model quant (layersOn assignments id) := by
  have additive : ∀ sizes : List ℤ,
      (sizes.map fun size : ℤ => quant.sizeGB * (size : ℚ) / model.layers +
        kvCachePerNode model size model.contextMax).sum =
        quant.sizeGB * (sizes.sum : ℤ) / model.layers +
          kvCachePerNode model sizes.sum model.contextMax := by
    intro sizes
    induction sizes with
    | nil => simp [kvCachePerNode]
    | cons _ _ induction =>
      rw [map_cons, sum_cons, sum_cons, induction, kvCachePerNode_add]
      push_cast
      ring
  unfold shardLoad nodeMemNeed layersOn
  rw [← additive, map_map]
  rfl

end

/-- What the draft leaves alone. -/
def Assignment.placement (shard : Assignment) : String × Role × ℤ × ℤ := (shard.nodeID, shard.shape)

theorem placeDraft_placements (plan : DeploymentPlan) (model : ModelSpec) :
    (placeDraft plan model).assignments.map Assignment.placement =
      plan.assignments.map Assignment.placement := by
  unfold placeDraft
  split
  · apply ext_getElem
    · simp
    · simp [Assignment.placement, Assignment.shape]
  · rfl

theorem map_of_placements {α : Type*}
    (placements : others.map Assignment.placement = assignments.map Assignment.placement)
    (view : String × Role × ℤ × ℤ → α) :
    others.map (fun shard => view shard.placement) =
      assignments.map fun shard => view shard.placement := by
  have viewed := congrArg (List.map view) placements
  rwa [map_map, map_map] at viewed

theorem shardLoad_of_placements
    (placements : others.map Assignment.placement = assignments.map Assignment.placement)
    (model : ModelSpec) (quant : Quantization) (id : String) :
    shardLoad model quant others id = shardLoad model quant assignments id := by
  have viewed (shards : List Assignment) : shardLoad model quant shards id =
      (((shards.map Assignment.placement).filter fun placed => placed.1 = id).map fun placed =>
        quant.sizeGB * (placed.2.2.2 - placed.2.2.1 + 1 : ℤ) / model.layers +
          kvCachePerNode model (placed.2.2.2 - placed.2.2.1 + 1) model.contextMax).sum := by
    rw [filter_map, map_map]
    rfl
  rw [viewed, viewed, placements]

theorem filter_draft_mapIdx (assignments : List Assignment) {tail : ℕ}
    {carrier : Assignment} (tailAt : assignments[tail]? = some carrier) :
    (assignments.mapIdx fun i shard =>
        { shard with draft := decide (i = tail) }).filter Assignment.draft =
      [{ carrier with draft := true }] := by
  induction assignments generalizing tail with
  | nil => simp at tailAt
  | cons shard shards induction =>
    rw [mapIdx_cons]
    cases tail with
    | zero =>
      obtain rfl := Option.some.inj tailAt
      have noneLater : (shards.mapIdx fun i shard =>
          { shard with draft := decide (i + 1 = 0) }).filter Assignment.draft = [] := by
        rw [filter_eq_nil_iff]
        intro other member
        obtain ⟨i, _, rfl⟩ := mem_mapIdx.mp member
        simp
      rw [filter_cons_of_pos (by simp), noneLater]
      simp
    | succ tail =>
      rw [filter_cons_of_neg (by simp)]
      have tailAt' : shards[tail]? = some carrier := by simpa using tailAt
      simpa only [Nat.add_right_cancel_iff] using induction tailAt'

theorem CoversFrom.layerEnd_lt {start stop : ℤ} (covers : CoversFrom start assignments stop) :
    start ≤ stop ∧ ∀ shard ∈ assignments, shard.layerEnd < stop := by
  induction assignments generalizing start with
  | nil =>
    exact ⟨covers.le, fun shard member => absurd member not_mem_nil⟩
  | cons _ _ induction =>
    obtain ⟨startEq, nonempty, restCovers⟩ := covers
    obtain ⟨restStart, restLt⟩ := induction restCovers
    refine ⟨by omega, ?_⟩
    intro shard member
    rcases mem_cons.mp member with rfl | later
    · omega
    · exact restLt shard later

theorem CoversFrom.exists_last {start stop : ℤ} (covers : CoversFrom start assignments stop)
    (nonempty : assignments ≠ []) : ∃ shard ∈ assignments, shard.layerEnd = stop - 1 := by
  induction assignments generalizing start with
  | nil => exact absurd rfl nonempty
  | cons first rest induction =>
    obtain ⟨_, _, restCovers⟩ := covers
    cases rest with
    | nil =>
      simp only [CoversFrom] at restCovers
      exact ⟨first, mem_cons_self, by omega⟩
    | cons =>
      obtain ⟨shard, member, endEq⟩ := induction restCovers (by simp)
      exact ⟨shard, mem_cons_of_mem first member, endEq⟩

theorem CoversFrom.layerStart_le {start stop : ℤ} (covers : CoversFrom start assignments stop) :
    ∀ shard ∈ assignments, shard.layerStart ≤ shard.layerEnd := by
  induction assignments generalizing start with
  | nil => exact fun shard member => absurd member not_mem_nil
  | cons _ _ induction =>
    intro shard member
    rcases mem_cons.mp member with rfl | later
    · exact covers.2.1
    · exact induction covers.2.2 shard later

theorem tailIndex_spec {layers : ℤ} (pipeline : IsPipeline layers assignments) :
    ∃ tail, assignments[tailIndex assignments]? = some tail ∧ tail.layerEnd = layers - 1 := by
  obtain ⟨host, workers, assignmentsEq, _⟩ := pipeline.host_first
  have nonempty : assignments ≠ [] := by simp [assignmentsEq]
  obtain ⟨tailLt, greatest, _⟩ := foldl_selects_first
    (fun first second : ℤ => first > second)
    (fun i => (assignments[i]?.map Assignment.layerEnd).getD 0)
    assignments.length (by omega) (by omega)
    (length_pos_iff.mpr nonempty)
  change tailIndex assignments < _ at tailLt
  have tailAt : assignments[tailIndex assignments]? =
      some assignments[tailIndex assignments] := getElem?_eq_getElem tailLt
  refine ⟨_, tailAt, ?_⟩
  obtain ⟨last, lastMem, lastEnd⟩ := pipeline.cover.exists_last nonempty
  obtain ⟨i, iLt, rfl⟩ := mem_iff_getElem.mp lastMem
  have notGreater := greatest i iLt
  change ¬ (_ > (assignments[tailIndex assignments]?.map Assignment.layerEnd).getD 0) at notGreater
  rw [tailAt, getElem?_eq_getElem iLt] at notGreater
  simp only [Option.map_some, Option.getD_some] at notGreater
  have bounded := pipeline.cover.layerEnd_lt.2 _ (getElem_mem tailLt)
  omega

/-- A node holds everything the plan places on it: its shards and one overhead,
within 90% of its memory when the plan spans several nodes. -/
def NodeHolds (model : ModelSpec) (quant : Quantization)
    (assignments : List Assignment) (node : Node) : Prop :=
  (SpansSeveral assignments →
    shardLoad model quant assignments node.id + 2 ≤ usefulMemoryForFit node * (9 / 10)) ∧
  (¬ SpansSeveral assignments →
    shardLoad model quant assignments node.id + 2 ≤ usefulMemoryForFit node)

/-- The validity conditions of a plan over a fleet. -/
structure IsValidPlan (nodes : List Node) (model : ModelSpec) (c : Constraints)
    (plan : DeploymentPlan) : Prop where
  cover : IsContiguousCover plan.assignments model.layers
  host_first : ∃ host workers, plan.assignments = host :: workers ∧
    host.role = .host ∧ ∀ shard ∈ workers, shard.role ≠ .host
  order_eq : plan.pipelineOrder = plan.assignments.map Assignment.nodeID
  admitted : ∀ shard ∈ plan.assignments,
    (∃ node ∈ applyNodeFilter nodes c, node.id = shard.nodeID) ∧
      (c.allowedNodeIDs ≠ [] → shard.nodeID ∈ c.allowedNodeIDs)
  memory : ∃ quant ∈ model.quantizations, quant.name = plan.quantization ∧
    ∀ shard ∈ plan.assignments, ∃ node ∈ nodes, node.id = shard.nodeID ∧
      NodeHolds model quant plan.assignments node
  draft : model.draft.available = true →
    ∃ carrier, plan.assignments.filter Assignment.draft = [carrier] ∧
      carrier.layerStart ≤ model.layers - 1 ∧ carrier.layerEnd = model.layers - 1

theorem selectQuantization_ok {kv : ℚ}
    (selected : selectQuantization nodes model kv c = .ok quant) :
    ∃ declared ∈ model.quantizations, quant = flagFP4 nodes declared ∧
      aggregateNeed nodes declared kv ≤ ramAggregate nodes := by
  unfold selectQuantization at selected
  split at selected
  · cases selected
  split at selected
  · split at selected
    · cases selected
    · rename_i declared found
      split at selected
      · cases selected
      · rename_i fits
        exact ⟨declared, mem_of_find?_eq_some found, (Except.ok.inj selected).symm, not_lt.mp fits⟩
  · simp only at selected
    split at selected
    · rename_i declared found
      exact ⟨declared, (mem_insertionSort _).mp (mem_of_find?_eq_some found),
        (Except.ok.inj selected).symm, by simpa using find?_some found⟩
    · cases selected

/-- A plan leaves phase E exactly when every phase before it succeeds. -/
theorem planAdmitted_eq_ok_iff {plan : DeploymentPlan} :
    planAdmitted rt ctx nodes links model c = .ok plan ↔ 0 < model.layers ∧
      let kv := kvCacheInMemory model model.contextMax (minPrefixCachingFactor nodes)
      ∃ quant, selectQuantization nodes model kv c = .ok quant ∧
        candidateSubsets nodes quant kv c ≠ [] ∧ ∃ assembled,
          assemblePlan rt ctx nodes links model quant kv (candidateSubsets nodes quant kv c) c =
            .ok assembled ∧
          validatePlanMemory assembled.assignments (indexNodes nodes) model quant c = none ∧
          plan = placeDraft assembled model := by
  unfold planAdmitted
  by_cases noLayers : model.layers ≤ 0
  · simp [noLayers]
  rw [if_neg noLayers]
  dsimp only
  generalize kvCacheInMemory model model.contextMax (minPrefixCachingFactor nodes) = kv
  cases selectQuantization nodes model kv c with
  | error => simp
  | ok quant =>
    cases subsetsEq : candidateSubsets nodes quant kv c with
    | nil => simp [subsetsEq]
    | cons smallest larger =>
      cases assembledEq : assemblePlan rt ctx nodes links model quant kv (smallest :: larger) c with
      | error => simp [subsetsEq, assembledEq]
      | ok assembled =>
        cases validated : validatePlanMemory assembled.assignments
            (indexNodes nodes) model quant c with
        | some => simp [subsetsEq, assembledEq, validated]
        | none =>
          simp [subsetsEq, assembledEq, validated, not_le.mp noLayers, eq_comm (a := plan)]

theorem planPhases_eq_ok_iff {admitted : List Node} {plan : DeploymentPlan} :
    planPhases rt ctx nodes links model c = .ok (admitted, plan) ↔
      ctx.cancelled [0] = false ∧ admittedNodes nodes c = .ok admitted ∧
        planAdmitted rt ctx admitted links model c = .ok plan := by
  unfold planPhases
  cases ctx.cancelled [0] with
  | true => simp
  | false =>
    cases admittedNodes nodes c with
    | error => simp
    | ok passed =>
      cases planned : planAdmitted rt ctx passed links model c with
      | error =>
        simp only [Bool.false_eq_true, if_false, planned, Except.ok.injEq,
          true_and, reduceCtorEq, false_iff, not_and]
        rintro rfl
        simp [planned]
      | ok =>
        simp only [Bool.false_eq_true, if_false, planned, Except.ok.injEq, Prod.mk.injEq, true_and]
        constructor
        · rintro ⟨rfl, rfl⟩
          exact ⟨rfl, planned⟩
        · rintro ⟨rfl, other⟩
          exact ⟨rfl, Except.ok.inj (planned.symm.trans other)⟩

theorem nodeHolds_of_validated
    (validated : validatePlanMemory assignments (indexNodes nodes) model quant c = none) {shard : Assignment} (member : shard ∈ assignments) :
    ∃ node ∈ nodes, node.id = shard.nodeID ∧ NodeHolds model quant assignments node := by
  obtain ⟨node, found, fits⟩ := (validatePlanMemory_eq_none_iff _ _ _ _ _).mp validated shard member
  obtain ⟨nodeMem, idEq⟩ := mem_of_indexNodes found
  rw [← shardLoad_add_overhead, ← idEq] at fits
  refine ⟨node, nodeMem, idEq, fun several => ?_, fun single => ?_⟩
  · rw [nodeMemLimit, if_pos (by simpa [one_lt_firstSeen_iff] using several)] at fits
    exact fits.trans_eq (by norm_num [defaultHeadroomFraction])
  · rwa [nodeMemLimit, if_neg (by simpa [one_lt_firstSeen_iff] using single)] at fits

theorem spansSeveral_of_placements
    (placements : others.map Assignment.placement = assignments.map Assignment.placement) :
    SpansSeveral others ↔ SpansSeveral assignments := by
  rw [← one_lt_firstSeen_iff, ← one_lt_firstSeen_iff]
  have ids : others.map Assignment.nodeID = assignments.map Assignment.nodeID :=
    map_of_placements placements Prod.fst
  rw [ids]

theorem placeDraft_frame (plan : DeploymentPlan) (model : ModelSpec) :
    (placeDraft plan model).pipelineOrder = plan.pipelineOrder ∧
      (placeDraft plan model).quantization = plan.quantization ∧
        (placeDraft plan model).failoverAlt = plan.failoverAlt := by
  unfold placeDraft
  split
  · exact ⟨rfl, rfl, rfl⟩
  · exact ⟨rfl, rfl, rfl⟩

theorem isValidPlan_planPhases {admitted : List Node} {plan : DeploymentPlan}
    (planned : planPhases rt ctx nodes links model c = .ok (admitted, plan)) :
    IsValidPlan nodes model c plan ∧ plan.failoverAlt = fun _ => none := by
  obtain ⟨_, passed, planned⟩ := planPhases_eq_ok_iff.mp planned
  obtain ⟨layersPos, quant, selected, _, assembled, assembledEq, validated, rfl⟩ :=
    planAdmitted_eq_ok_iff.mp planned
  obtain ⟨declared, declaredMem, quantEq, _⟩ := selectQuantization_ok selected
  have shape := isAssembled_assemblePlan layersPos
    (fun subset member => mem_of_mem_candidateSubsets member) assembledEq
  obtain ⟨_, admittedIff⟩ := admittedNodes_ok passed
  obtain ⟨orderEq, quantizationEq, failoverEq⟩ := placeDraft_frame assembled model
  have placements := placeDraft_placements assembled model
  have shapes : (placeDraft assembled model).assignments.map Assignment.shape =
      assembled.assignments.map Assignment.shape :=
    map_of_placements placements Prod.snd
  have ids : (placeDraft assembled model).assignments.map Assignment.nodeID =
      assembled.assignments.map Assignment.nodeID :=
    map_of_placements placements Prod.fst
  have pipeline := shape.pipeline.of_shapes shapes
  have origin : ∀ shard ∈ (placeDraft assembled model).assignments,
      ∃ other ∈ assembled.assignments, other.nodeID = shard.nodeID := by
    intro shard member
    have idMem : shard.nodeID ∈ assembled.assignments.map Assignment.nodeID :=
      ids ▸ mem_map_of_mem member
    exact mem_map.mp idMem
  constructor
  · constructor
    · exact pipeline.cover
    · exact pipeline.host_first
    · rw [orderEq, shape.order_eq, ids]
    · intro shard member
      obtain ⟨other, otherMem, same⟩ := origin shard member
      obtain ⟨node, nodeMem, idEq⟩ := mem_map.mp (shape.placed other otherMem)
      obtain ⟨filtered, inPool⟩ := (admittedIff node).mp nodeMem
      rw [← same, ← idEq]
      exact ⟨⟨node, filtered, rfl⟩, inPool⟩
    · refine ⟨declared, declaredMem, ?_, ?_⟩
      · rw [quantizationEq, shape.quantization_eq, quantEq]
        rfl
      · intro shard member
        obtain ⟨other, otherMem, same⟩ := origin shard member
        obtain ⟨node, nodeMem, idEq, holds⟩ :=
          nodeHolds_of_validated validated otherMem
        have filtered := ((admittedIff node).mp nodeMem).1
        refine ⟨node, mem_of_mem_filter filtered, idEq.trans same, ?_⟩
        unfold NodeHolds at holds ⊢
        rw [spansSeveral_of_placements placements, shardLoad_of_placements placements]
        rw [quantEq] at holds
        exact holds
    · intro available
      obtain ⟨tail, tailAt, tailEnd⟩ := tailIndex_spec shape.pipeline
      have nonempty := shape.pipeline.cover.layerStart_le tail (mem_of_getElem? tailAt)
      refine ⟨{ tail with draft := true }, ?_, by simp only; omega, tailEnd⟩
      unfold placeDraft
      rw [available, tailAt]
      exact filter_draft_mapIdx assembled.assignments tailAt
  · rw [failoverEq, shape.no_failover]

theorem computeFailoverPlans_frame (rt : Runtime) (ctx : Context)
    (plan : DeploymentPlan) (nodes : List Node) (links : List Link)
    (model : ModelSpec) (c : Constraints) :
    let result := computeFailoverPlans rt ctx plan nodes links model c
    result.assignments = plan.assignments ∧
      result.pipelineOrder = plan.pipelineOrder ∧ result.quantization = plan.quantization := by
  refine List.foldlRecOn (motive := fun result : DeploymentPlan =>
    result.assignments = plan.assignments ∧
      result.pipelineOrder = plan.pipelineOrder ∧
        result.quantization = plan.quantization) _ _ ⟨rfl, rfl, rfl⟩ ?_
  intro result holds dead _
  unfold applyFailover
  split
  · exact holds
  · exact holds
  · exact holds

theorem plan_eq_ok_iff :
    plan rt ctx nodes links model c = .ok result ↔ ∃ admitted base,
        planPhases rt ctx nodes links model c = .ok (admitted, base) ∧
          result = computeFailoverPlans rt ctx base admitted links model c := by
  unfold plan planInternal
  cases planPhases rt ctx nodes links model c with
  | error => simp
  | ok passed =>
    obtain ⟨admitted, base⟩ := passed
    simp [eq_comm]

theorem plan_isValid (planned : plan rt ctx nodes links model c = .ok result) :
    IsValidPlan nodes model c result := by
  obtain ⟨admitted, base, basePlanned, rfl⟩ := plan_eq_ok_iff.mp planned
  obtain ⟨assignmentsEq, orderEq, quantEq⟩ :=
    computeFailoverPlans_frame rt ctx base admitted links model c
  have valid := (isValidPlan_planPhases basePlanned).1
  constructor
  case order_eq => rw [orderEq, assignmentsEq, valid.order_eq]
  case memory => rw [assignmentsEq, quantEq]; exact valid.memory
  all_goals rw [assignmentsEq]
  exacts [valid.cover, valid.host_first, valid.admitted, valid.draft]

/-- With distinct identifiers the memory condition binds every node of the fleet
that the plan uses. -/
theorem plan_valid {rt : Runtime} {ctx : Context} {nodes : List Node}
    {links : List Link} {model : ModelSpec} {c : Constraints}
    {result : DeploymentPlan} (distinct : (nodes.map Node.id).Nodup)
    (planned : plan rt ctx nodes links model c = .ok result) :
    IsValidPlan nodes model c result ∧
      ∃ quant ∈ model.quantizations, quant.name = result.quantization ∧
        ∀ node ∈ nodes, (∃ shard ∈ result.assignments, shard.nodeID = node.id) →
          NodeHolds model quant result.assignments node := by
  have valid := plan_isValid planned
  obtain ⟨quant, quantMem, nameEq, holds⟩ := valid.memory
  refine ⟨valid, quant, quantMem, nameEq, ?_⟩
  rintro node nodeMem ⟨shard, shardMem, idEq⟩
  obtain ⟨other, otherMem, otherId, otherHolds⟩ := holds shard shardMem
  have same : other = node := inj_on_of_nodup_map distinct otherMem nodeMem (otherId.trans idEq)
  exact same ▸ otherHolds

theorem isOk_iff {ε α : Type*} {outcome : Except ε α} :
    outcome.isOk = true ↔ ∃ value, outcome = .ok value := by
  cases outcome with
  | error | ok => simp [Except.isOk, Except.toBool]

def threeNodes : List Node := [{ id := "a", ramAvailableGB := 30, unifiedMemory := true },
    { id := "b", ramAvailableGB := 30, unifiedMemory := true },
    { id := "c", ramAvailableGB := 30, unifiedMemory := true }]

def fourLayers : ModelSpec where
  id := "m"
  layers := 4
  quantizations := [{ name := "q8", sizeGB := 40, quality := 99 / 100 }]
  draft := { available := true, type := "mtp", tailLayers := 1 }

def everyConstraint : Constraints where
  pinned := { entries := [(⟨2, 3⟩, "a")] }
  includeNodes := ["a", "b", "c"]
  excludeNodes := ["c"]
  forceNodeCount := some 2
  forceQuant := some "q8"
  forceHost := some "b"
  allowedNodeIDs := ["a", "b"]

/-- The three nodes hold the model, whatever the constraints. -/
theorem plan_threeNodes_isOk : ∀ c ∈ [everyConstraint, {}, { forceNodeCount := some 2 }],
    (plan Runtime.default Context.background threeNodes [] fourLayers c).isOk = true := by
  decide +kernel

theorem plan_valid_threeNodes : ∃ result,
    plan Runtime.default Context.background threeNodes [] fourLayers everyConstraint = .ok result ∧
      IsValidPlan threeNodes fourLayers everyConstraint result := by
  obtain ⟨result, planned⟩ := isOk_iff.mp (plan_threeNodes_isOk everyConstraint (by simp))
  exact ⟨result, planned, (plan_valid (by decide) planned).1⟩

end Purser.Planner
