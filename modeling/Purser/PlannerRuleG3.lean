import Purser.PlannerAutomaticPlans

/-!
# Rule G3

Phase B only tries the first node of its ranking by memory times bandwidth, so
the rule holds for that node and not for a slower node with more memory.
-/

namespace Purser.Planner

open ContiguousSplits List

variable {nodes : List Node} {links : List Link} {model : ModelSpec} {quant : Quantization}
  {rt : Runtime}

theorem mem_rankNodes {node : Node} : node ∈ rankNodes nodes ↔ node ∈ nodes :=
  mem_insertionSort _

theorem segments_of_one_stage {layers : ℕ} (split : Split 1 layers) :
    split.segments = [(0, layers)] := by
  cases split with
  | snoc front =>
    cases front with
    | nil => rfl

/-- A partition into one stage places the whole model on the host, which holds it
with headroom. -/
theorem stageFits_of_one_shard {order : List Node} (layersPos : 0 < model.layers)
    (oneShard : (dpPartition order links model quant model.contextMax).1.length = 1) :
    ∃ host, order.head? = some host ∧
      stageFits host model quant 0 model.layers model.contextMax = true := by
  rcases dpPartition_cases order links model quant model.contextMax with
    ⟨nothing, _⟩ | ⟨m, split, chosen, _, partitionEq⟩
  · simp [nothing] at oneShard
  · rw [partitionEq] at oneShard
    simp only [splitAssignments_length] at oneShard
    subst oneShard
    obtain ⟨host, hostAt, hostFits⟩ := chosen.fits 0 0 model.layers.toNat
      (by rw [segments_of_one_stage]; rfl)
    rw [Int.toNat_of_nonneg layersPos.le] at hostFits
    exact ⟨host, by rw [head?_eq_getElem?, hostAt], hostFits⟩

theorem placeDraft_length (plan : DeploymentPlan) (model : ModelSpec) :
    (placeDraft plan model).assignments.length = plan.assignments.length := by
  have lengths := congrArg List.length (placeDraft_placements plan model)
  simpa using lengths

/-- A plan of one shard for the `k` first nodes of the ranking puts the model on a
node as capable as the first. -/
theorem exists_host_of_one_shard (layersPos : 0 < model.layers) (sizeNonneg : 0 ≤ quant.sizeGB)
    {k : ℕ} (kPos : 0 < k) {top : Node} {rest : List Node}
    (rankedEq : rankNodes nodes = top :: rest) (oneShard : (dpPartition
      (orderNodes rt ((rankNodes nodes).take k) model links {}) links model quant
        model.contextMax).1.length = 1) :
    ∃ node ∈ nodes, usefulCapacity node = usefulCapacity top ∧
      quant.sizeGB + estimateKVCache model model.contextMax +
        overheadOSRuntimeGB ≤ usefulMemoryForFit node := by
  obtain ⟨host, hostHead, hostFits⟩ := stageFits_of_one_shard layersPos oneShard
  have topInPrefix : top ∈ (rankNodes nodes).take k := by
    obtain ⟨k, rfl⟩ := Nat.exists_eq_succ_of_ne_zero kPos.ne'
    rw [rankedEq]
    exact mem_cons_self
  obtain ⟨head, headEq, mostCapable⟩ := exists_host_orderNodes rt
    (ne_nil_of_mem topInPrefix) model links (c := {}) rfl
  obtain rfl := Option.some.inj (hostHead.symm.trans headEq)
  have hostInPrefix : host ∈ (rankNodes nodes).take k :=
    (orderNodes_perm rt _ model links {}).mem_iff.mp (mem_of_mem_head? hostHead)
  have hostMem : host ∈ nodes := mem_rankNodes.mp (mem_of_mem_take hostInPrefix)
  have sameCapacity : usefulCapacity host = usefulCapacity top :=
    le_antisymm (DescendingSorts.score_le_head rankedEq hostMem) (mostCapable top topInPrefix)
  refine ⟨host, hostMem, sameCapacity, ?_⟩
  rw [← stageMemNeed_layers layersPos]
  exact stageMemNeed_le_of_stageFits sizeNonneg layersPos.le hostFits

/-- When the first node of the ranking holds the model, the assembled plan has one
shard.  Otherwise it has one only if a node of equal capacity holds the model. -/
theorem assembled_one_shard {ctx : Context} (distinct : (nodes.map Node.id).Nodup)
    (layersPos : 0 < model.layers) (sizeNonneg : 0 ≤ quant.sizeGB) {assembled : DeploymentPlan}
    (nonempty : candidateSubsets nodes quant (estimateKVCache model model.contextMax) {} ≠ [])
    (assembledEq : assemblePlan rt ctx nodes links model quant
      (estimateKVCache model model.contextMax)
      (candidateSubsets nodes quant (estimateKVCache model model.contextMax) {})
      {} = .ok assembled) {top : Node} {rest : List Node}
    (rankedEq : rankNodes nodes = top :: rest) :
    (quant.sizeGB + estimateKVCache model model.contextMax +
          overheadOSRuntimeGB ≤ usefulMemoryForFit top →
        assembled.assignments.length = 1) ∧
      (assembled.assignments.length = 1 → ∃ node ∈ nodes, usefulCapacity node = usefulCapacity top ∧
        quant.sizeGB + estimateKVCache model model.contextMax +
          overheadOSRuntimeGB ≤ usefulMemoryForFit node) := by
  have topMem : top ∈ nodes := by
    rw [← mem_rankNodes, rankedEq]
    exact mem_cons_self
  have oneIff := findKMin_eq_one_iff
    (quant.sizeGB + estimateKVCache model model.contextMax) top rest
  rw [← rankedEq] at oneIff
  by_cases holds : quant.sizeGB + estimateKVCache model model.contextMax +
      overheadOSRuntimeGB ≤ usefulMemoryForFit top
  · obtain ⟨larger, subsetsEq⟩ := exists_candidateSubsets_zero (oneIff.mpr holds)
    rw [subsetsEq, rankedEq] at assembledEq
    obtain rfl := Except.ok.inj assembledEq
    exact ⟨fun _ => rfl, fun _ => ⟨top, topMem, rfl, holds⟩⟩
  · refine ⟨fun held => absurd held holds, ?_⟩
    intro oneShard
    cases found : findKMin (quant.sizeGB + estimateKVCache model model.contextMax)
        0 0 (rankNodes nodes) with
    | none => exact absurd (by simp [candidateSubsets, found]) nonempty
    | some kMin =>
      -- from here on every candidate has at least two nodes
      have kNeOne : kMin ≠ 1 := by
        rintro rfl
        exact holds (oneIff.mp found)
      have bounds := findKMin_bounds found
      rw [rankNodes_length] at bounds
      obtain ⟨larger, subsetsEq⟩ := exists_candidateSubsets_zero found
      have smallest : ((rankNodes nodes).take kMin).length = kMin :=
        length_take_rankNodes (by omega)
      rcases assemblePlan_cases assembledEq with ⟨_, _, onlyOne, _⟩ | ⟨subset, member, _, planned⟩
      · obtain ⟨single, -⟩ := List.cons.inj (subsetsEq.symm.trans onlyOne)
        rw [single, length_singleton] at smallest
        omega
      obtain ⟨k, low, _, high, rfl⟩ := (mem_candidateSubsets_zero found subset).mp member
      have subsetDistinct := nodup_of_mem_candidateSubsets distinct member
      rw [multiNodePlan_assignments subsetDistinct rfl planned] at oneShard
      exact exists_host_of_one_shard layersPos sizeNonneg (by omega) rankedEq oneShard

/-- The plan uses a single node when the first node of the ranking holds the
model, and otherwise only if a node of equal capacity holds it. -/
theorem plan_one_shard_of_top_holds {rt : Runtime} {ctx : Context}
    {nodes : List Node} (distinct : (nodes.map Node.id).Nodup)
    (noCaching : ∀ node ∈ nodes, node.prefixCachingFactor = 0)
    {links : List Link} {model : ModelSpec}
    (distinctNames : (model.quantizations.map Quantization.name).Nodup)
    {result : DeploymentPlan}
    (planned : plan rt ctx nodes links model {} = .ok result)
    {quant : Quantization} (declared : quant ∈ model.quantizations)
    (named : quant.name = result.quantization) (sizeNonneg : 0 ≤ quant.sizeGB) :
    ∃ top, (rankNodes nodes).head? = some top ∧
      (quant.sizeGB + estimateKVCache model model.contextMax + 2 ≤ usefulMemoryForFit top →
        result.assignments.length = 1) ∧
      (result.assignments.length = 1 → ∃ node ∈ nodes, usefulCapacity node = usefulCapacity top ∧
        quant.sizeGB + estimateKVCache model model.contextMax + 2 ≤ usefulMemoryForFit node) := by
  obtain ⟨admitted, base, basePlanned, rfl⟩ := plan_eq_ok_iff.mp planned
  obtain ⟨_, passed, admittedPlanned⟩ := planPhases_eq_ok_iff.mp basePlanned
  obtain ⟨nodesNonempty, rfl⟩ := (admittedNodes_zero nodes admitted).mp passed
  obtain ⟨layersPos, selected, selectedEq, nonempty, assembled, assembledEq, _,
    rfl⟩ := planAdmitted_eq_ok_iff.mp admittedPlanned
  obtain ⟨assignmentsEq, _, quantEq⟩ := computeFailoverPlans_frame rt ctx
    (placeDraft assembled model) admitted links model {}
  obtain ⟨chosen, chosenMem, rfl, _⟩ := selectQuantization_ok selectedEq
  have shape := isAssembled_assemblePlan layersPos
    (fun subset member => mem_of_mem_candidateSubsets member) assembledEq
  have chosenEq : chosen = quant := by
    apply inj_on_of_nodup_map distinctNames chosenMem declared
    rw [named, quantEq, (placeDraft_frame assembled model).2.1, shape.quantization_eq]
    rfl
  subst chosenEq
  rw [assignmentsEq, placeDraft_length]
  change candidateSubsets admitted _ (residentKV admitted model) {} ≠ [] at nonempty
  change assemblePlan rt ctx admitted links model _ (residentKV admitted model)
    (candidateSubsets admitted _ (residentKV admitted model) {}) {} = _ at assembledEq
  rw [residentKV_of_no_caching noCaching] at nonempty assembledEq
  have flaggedNonneg : 0 ≤ (flagFP4 admitted chosen).sizeGB := sizeNonneg
  obtain ⟨top, rest, rankedEq⟩ : ∃ top rest, rankNodes admitted = top :: rest :=
    exists_cons_of_ne_nil (ne_nil_of_length_pos (by
      rw [rankNodes_length]
      exact length_pos_of_ne_nil nodesNonempty))
  exact ⟨top, by rw [rankedEq]; rfl, assembled_one_shard distinct layersPos
    flaggedNonneg nonempty assembledEq rankedEq⟩

def fastAndLarge : List Node :=
  [{ id := "fast", ramAvailableGB := 10, unifiedMemory := true,
      memBandwidthGBs := 1000 },
    { id := "large", ramAvailableGB := 60, unifiedMemory := true,
      memBandwidthGBs := 100 }]

def twoLayers (sizeGB : ℚ) : ModelSpec where
  id := "m"
  layers := 2
  quantizations := [{ name := "q4", sizeGB := sizeGB, quality := 9 / 10 }]

theorem plan_one_shard_of_top_holds_fastAndLarge : ∃ result,
    plan Runtime.default Context.background fastAndLarge [] (twoLayers 8) {} = .ok result ∧
      result.assignments.length = 1 := by
  have planned : ((plan Runtime.default Context.background fastAndLarge []
      (twoLayers 8) {}).map DeploymentPlan.quantization).toOption = some "q4" := by
    decide +kernel
  cases outcome : plan Runtime.default Context.background fastAndLarge [] (twoLayers 8) {} with
  | error =>
    rw [outcome] at planned
    cases planned
  | ok result =>
    rw [outcome] at planned
    obtain ⟨top, ranked, oneShard, _⟩ := plan_one_shard_of_top_holds (by decide)
      (by decide +kernel) (by decide) outcome
      (show { name := "q4", sizeGB := 8, quality := 9 / 10 } ∈
        (twoLayers 8).quantizations from mem_singleton_self _)
      (Option.some.inj planned).symm (by norm_num)
    have topHolds : ∀ node ∈ (rankNodes fastAndLarge).head?,
        (8 : ℚ) + estimateKVCache (twoLayers 8) (twoLayers 8).contextMax + 2 ≤
          usefulMemoryForFit node := by
      decide +kernel
    exact ⟨result, rfl, oneShard (topHolds top ranked)⟩

/-- The large node holds the model on its own, yet the plan distributes it. -/
theorem plan_distributes_fitting_model :
    (∃ node ∈ fastAndLarge, (12 : ℚ) + estimateKVCache (twoLayers 12)
        (twoLayers 12).contextMax + 2 ≤ usefulMemoryForFit node) ∧
      ((plan Runtime.default Context.background fastAndLarge [] (twoLayers 12)
        {}).map fun result => result.assignments.length).toOption = some 2 := by
  decide +kernel

end Purser.Planner
