import Purser.PlannerAutomaticPlans
import Purser.PlannerQuantizationChoice

/-!
# Changes of the fleet

A new node, or prefix caching, can turn a deployable model undeployable.
-/

namespace Purser.Planner

open List
open Context (background background_neverCancelled)

variable {nodes : List Node} {extra : Node}

theorem rankNodes_append_last (last : ∀ node ∈ nodes, usefulCapacity extra ≤ usefulCapacity node) :
    rankNodes (nodes ++ [extra]) = rankNodes nodes ++ [extra] :=
  DescendingSorts.insertionSort_append_last last

variable {rt : Runtime} {links : List Link} {model : ModelSpec}

theorem RankingFits.append_last {quant : Quantization} {kv : ℚ}
    (fits : RankingFits rt nodes links model quant kv)
    (last : ∀ node ∈ nodes, usefulCapacity extra ≤ usefulCapacity node) :
    RankingFits rt (nodes ++ [extra]) links model quant kv := by
  obtain ⟨kMin, found, single, several⟩ := fits
  refine ⟨kMin, ?_, ?_, ?_⟩
  · rw [rankNodes_append_last last]
    exact findKMin_append found [extra]
  · intro one
    obtain ⟨top, topEq, holds⟩ := single one
    refine ⟨top, ?_, holds⟩
    rw [rankNodes_append_last last, head?_append, topEq]
    rfl
  · intro more
    obtain ⟨k, low, window, high, feasible⟩ := several more
    refine ⟨k, low, window, ?_, ?_⟩
    · rw [length_append]
      omega
    · rwa [rankNodes_append_last last, take_append_of_le_length (by simpa using high)]

/-- A node that ranks last and changes neither the pick of phase A nor the
resident KV cache keeps a deployable model deployable. -/
theorem plan_isOk_append_last {ctx ctx' : Context}
    (never : ctx.NeverCancelled) (never' : ctx'.NeverCancelled) {nodes : List Node}
    (distinct : ((nodes ++ [extra]).map Node.id).Nodup)
    (sizesNonneg : ∀ quant ∈ model.quantizations, 0 ≤ quant.sizeGB)
    (sameKV : residentKV (nodes ++ [extra]) model = residentKV nodes model)
    (samePick : phaseAPick (nodes ++ [extra]) model (residentKV nodes model) =
      phaseAPick nodes model (residentKV nodes model))
    (last : ∀ node ∈ nodes, usefulCapacity extra ≤ usefulCapacity node)
    (deployable : (plan rt ctx nodes links model {}).isOk = true) :
    (plan rt ctx' (nodes ++ [extra]) links model {}).isOk = true := by
  have nodesDistinct : (nodes.map Node.id).Nodup := by
    rw [map_append] at distinct
    exact distinct.of_append_left
  obtain ⟨_, layersPos, quant, picked, fits⟩ :=
    (plan_zero_isOk_iff never nodesDistinct links sizesNonneg).mp deployable
  rw [plan_zero_isOk_iff never' distinct links sizesNonneg, sameKV, samePick]
  exact ⟨by simp, layersPos, quant, picked, fits.append_last last⟩

/-- A small fourth node, added to a deployable fleet of three. -/
theorem plan_isOk_append_last_small_node : (plan Runtime.default background
      (threeNodes ++ [{ id := "d", ramAvailableGB := 4 }]) [] fourLayers {}).isOk = true :=
  plan_isOk_append_last background_neverCancelled
    background_neverCancelled (by decide)
    (by simp [fourLayers]) (by decide +kernel) (by decide +kernel)
    (by decide +kernel) (plan_threeNodes_isOk {} (by simp))

def longContext : ModelSpec where
  id := "m"
  layers := 2
  nKVHeads := 1000
  headDim := 1000
  contextMax := 2500
  attentionType := .mha
  quantizations := [{ name := "q4", sizeGB := 20, quality := 9 / 10 }]

/-- Four ways a new node hurts: it brings less memory than its overhead, it lifts
the pick of phase A to a quantization no stage can hold, it outranks the others
without being able to hold a layer, or it reports prefix caching. -/
theorem plan_fails_with_extra_node :
    ((plan Runtime.default background (threeNodes.take 1) []
        { fourLayers with
          quantizations := [{ name := "q4", sizeGB := 28, quality := 1 }] }
          {}).isOk = true ∧
      (plan Runtime.default background (threeNodes.take 1 ++ [{ id := "x" }]) []
        { fourLayers with
          quantizations := [{ name := "q4", sizeGB := 28, quality := 1 }] }
          {}).isOk = false) ∧
    ((plan Runtime.default background (threeNodes.take 1) []
        twoQuantizations {}).isOk = true ∧
      (plan Runtime.default background (threeNodes.take 1 ++
          [{ id := "x", ramAvailableGB := 30, unifiedMemory := true }]) []
        twoQuantizations {}).isOk = false) ∧
    ((plan Runtime.default background (threeNodes.take 2) [] fourLayers {}).isOk = true ∧
      (plan Runtime.default background (threeNodes.take 2 ++
          [{ id := "x", ramAvailableGB := 3, memBandwidthGBs := 10000 }]) []
        fourLayers {}).isOk = false) ∧
    ((plan Runtime.default background (threeNodes.take 2) [] longContext {}).isOk = true ∧
      (plan Runtime.default background (threeNodes.take 2 ++
          [{ id := "x", ramAvailableGB := 3, prefixCachingFactor := 9 / 10 }]) []
        longContext {}).isOk = false) := by
  refine ⟨?_, ?_, ?_, ?_⟩
  · decide +kernel
  · decide +kernel
  · decide +kernel
  · decide +kernel

def withPrefixCaching (factor : String → ℚ) (nodes : List Node) : List Node :=
  nodes.map fun node => { node with prefixCachingFactor := factor node.id }

theorem withPrefixCaching_ids (factor : String → ℚ) (nodes : List Node) :
    (withPrefixCaching factor nodes).map Node.id = nodes.map Node.id := by
  simp [withPrefixCaching, Function.comp_def]

theorem minPrefixCachingFactor_range (inRange : ∀ node ∈ nodes,
      0 ≤ node.prefixCachingFactor ∧ node.prefixCachingFactor < 1) :
    0 ≤ minPrefixCachingFactor nodes ∧ minPrefixCachingFactor nodes < 1 := by
  refine List.foldlRecOn (motive := fun least : ℚ => 0 ≤ least ∧ least < 1) nodes _
    ⟨le_rfl, by norm_num⟩ ?_
  intro least holds node member
  split
  · exact inRange node member
  · exact holds

theorem residentKV_withPrefixCaching {factor : String → ℚ}
    (inRange : ∀ id, 0 ≤ factor id ∧ factor id < 1) (nodes : List Node) (model : ModelSpec) :
    residentKV (withPrefixCaching factor nodes) model = estimateKVCache model model.contextMax *
        (1 - minPrefixCachingFactor (withPrefixCaching factor nodes)) := by
  have fleetRange : ∀ node ∈ withPrefixCaching factor nodes,
      0 ≤ node.prefixCachingFactor ∧ node.prefixCachingFactor < 1 := by
    intro node member
    obtain ⟨origin, _, rfl⟩ := mem_map.mp member
    exact inRange origin.id
  obtain ⟨low, high⟩ := minPrefixCachingFactor_range fleetRange
  unfold residentKV kvCacheInMemory
  split
  · rename_i unusable
    have zero : minPrefixCachingFactor (withPrefixCaching factor nodes) = 0 := by
      rcases unusable with small | large
      · exact le_antisymm small low
      · exact absurd large (not_le.mpr high)
    rw [zero, sub_zero, mul_one]
  · rfl

/-- With prefix caching a deployable model stays deployable exactly when the
quantization and the prefixes of the ranking that are chosen for the reduced KV
cache also hold the full one. -/
theorem plan_withPrefixCaching_isOk_iff {ctx ctx' : Context}
    (never : ctx.NeverCancelled) (never' : ctx'.NeverCancelled)
    {nodes : List Node} (distinct : (nodes.map Node.id).Nodup)
    (sizesNonneg : ∀ quant ∈ model.quantizations, 0 ≤ quant.sizeGB)
    (factor : String → ℚ) (inRange : ∀ id, 0 ≤ factor id ∧ factor id < 1)
    (deployable : (plan rt ctx (withPrefixCaching (fun _ => 0) nodes) links model {}).isOk = true) :
    ∃ kv quant,
      kv = estimateKVCache model model.contextMax *
          (1 - minPrefixCachingFactor (withPrefixCaching factor nodes)) ∧
      phaseAPick (withPrefixCaching factor nodes) model kv = some quant ∧
      ((plan rt ctx' (withPrefixCaching factor nodes) links model {}).isOk = true ↔
        RankingFits rt (withPrefixCaching factor nodes) links model quant kv) := by
  have zeroDistinct := withPrefixCaching_ids (fun _ => 0) nodes ▸ distinct
  have fleetDistinct := withPrefixCaching_ids factor nodes ▸ distinct
  obtain ⟨nonempty, layersPos, base, basePicked, _⟩ :=
    (plan_zero_isOk_iff never zeroDistinct links sizesNonneg).mp deployable
  have fleetNonempty : withPrefixCaching factor nodes ≠ [] := by
    simpa [withPrefixCaching] using nonempty
  rw [residentKV_of_no_caching (by simp [withPrefixCaching])] at basePicked
  have less : residentKV (withPrefixCaching factor nodes) model ≤
      estimateKVCache model model.contextMax :=
    kvCacheInMemory_le model model.contextMax _
  have sameRam (any : String → ℚ) : ramAggregate (withPrefixCaching any nodes) =
      ramAggregate nodes := by simp [ramAggregate, withPrefixCaching, Function.comp_def]
  obtain ⟨baseMem, baseFits, _⟩ := phaseAPick_spec basePicked
  have fits : aggregateNeed (withPrefixCaching factor nodes) base
      (residentKV (withPrefixCaching factor nodes) model) ≤
        ramAggregate (withPrefixCaching factor nodes) := by
    have sameLength (any : String → ℚ) : (withPrefixCaching any nodes).length = nodes.length :=
      length_map _
    rw [aggregateNeed, sameRam, sameLength] at baseFits ⊢
    linarith
  obtain ⟨quant, picked⟩ := phaseAPick_isSome baseMem fits
  refine ⟨residentKV (withPrefixCaching factor nodes) model, quant,
    residentKV_withPrefixCaching inRange nodes model, picked, ?_⟩
  rw [plan_zero_isOk_iff never' fleetDistinct links sizesNonneg]
  constructor
  · rintro ⟨_, _, other, otherPicked, fits⟩
    rw [picked] at otherPicked
    obtain rfl := Option.some.inj otherPicked
    exact fits
  · intro fits
    exact ⟨fleetNonempty, layersPos, quant, picked, fits⟩

theorem longContext_evaluated :
    (plan Runtime.default background
      (withPrefixCaching (fun _ => 0) threeNodes) [] longContext {}).isOk = true ∧
    estimateKVCache longContext longContext.contextMax *
      (1 - minPrefixCachingFactor (withPrefixCaching (fun _ => 1 / 10) threeNodes)) = 18 ∧
    (plan Runtime.default background
        (withPrefixCaching (fun _ => 0) (threeNodes.take 2)) [] longContext {}).isOk = true ∧
      (plan Runtime.default background
        (withPrefixCaching (fun _ => 9 / 10) (threeNodes.take 2)) [] longContext
          {}).isOk = false := by
  decide +kernel

theorem plan_withPrefixCaching_isOk_iff_threeNodes : ∃ kv quant, kv = 18 ∧
      phaseAPick (withPrefixCaching (fun _ => 1 / 10) threeNodes) longContext kv = some quant ∧
      ((plan Runtime.default background
          (withPrefixCaching (fun _ => 1 / 10) threeNodes) [] longContext
            {}).isOk = true ↔ RankingFits Runtime.default
          (withPrefixCaching (fun _ => 1 / 10) threeNodes) [] longContext quant kv) := by
  obtain ⟨kv, quant, kvEq, picked, outcome⟩ := plan_withPrefixCaching_isOk_iff
    background_neverCancelled background_neverCancelled
    (by decide) (by simp [longContext]) (fun _ => 1 / 10)
    (fun _ => by norm_num) longContext_evaluated.1
  exact ⟨kv, quant, kvEq.trans longContext_evaluated.2.1, picked, outcome⟩

/-- With 90% of the KV cache taken for cached, phase B settles for one node, which
the memory check then rejects for the full KV cache. -/
theorem plan_fails_with_prefixCaching : (plan Runtime.default background
        (withPrefixCaching (fun _ => 0) (threeNodes.take 2)) [] longContext {}).isOk = true ∧
      (plan Runtime.default background
        (withPrefixCaching (fun _ => 9 / 10) (threeNodes.take 2)) [] longContext
          {}).isOk = false :=
  longContext_evaluated.2.2

end Purser.Planner
