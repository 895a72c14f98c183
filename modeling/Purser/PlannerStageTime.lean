import Mathlib.Tactic.FieldSimp
import Mathlib.Tactic.Linarith
import Mathlib.Tactic.Positivity
import Purser.KeyedTables
import Purser.PlannerReports

/-!
# Stage-time model of the pipeline

The time one stage spends on a range of layers: streaming its weights, plus
receiving the activation from the previous stage.  A range that does not fit
takes infinite time.
-/

namespace Purser.Planner

variable (node : Node) (model : ModelSpec)

/-- The compression factor of the KV cache: the model's own ratio when it is
usable, the default of its attention type otherwise. -/
def kvFactor : ℚ :=
  if 0 < model.kvCompressionRatio ∧ model.kvCompressionRatio ≤ 1 then
    model.kvCompressionRatio
  else
    match model.attentionType with
    | .mha | .gqa => 1
    | .mla => 1 / 10
    | .linear => 1 / 100
    | .unspecified => 1

def estimateKVCache (context : ℤ) : ℚ :=
  if context ≤ 0 ∨ model.layers ≤ 0 ∨ model.nKVHeads ≤ 0 ∨ model.headDim ≤ 0 then 0
  else
    let base : ℚ := 2 * model.layers * model.nKVHeads * model.headDim * context * bytesFP16
    base * kvFactor model / 10 ^ 9

def kvCachePerNode (layersOnNode context : ℤ) : ℚ :=
  if model.layers ≤ 0 then 0
  else estimateKVCache model context * (layersOnNode / model.layers)

/-- The KV cache that must be resident when a fraction of the tokens is served
from the prefix cache. -/
def kvCacheInMemory (contextLen : ℤ) (prefixCachingFactor : ℚ) : ℚ :=
  let full := estimateKVCache model contextLen
  if prefixCachingFactor ≤ 0 ∨ 1 ≤ prefixCachingFactor then full
  else full * (1 - prefixCachingFactor)

/-- The smallest non-zero prefix-caching factor of the fleet, zero when no node
reports one. -/
def minPrefixCachingFactor (nodes : List Node) : ℚ :=
  nodes.foldl (fun minPCF node =>
    if 0 < node.prefixCachingFactor ∧ (minPCF = 0 ∨ node.prefixCachingFactor < minPCF) then
      node.prefixCachingFactor
    else minPCF) 0

theorem kvFactor_pos : 0 < kvFactor model := by
  unfold kvFactor
  split
  · rename_i usable
    exact usable.1
  · cases model.attentionType <;> norm_num

theorem estimateKVCache_nonneg (context : ℤ) : 0 ≤ estimateKVCache model context := by
  unfold estimateKVCache
  split
  · exact le_rfl
  · rename_i positive
    push Not at positive
    obtain ⟨contextPos, layersPos, headsPos, dimPos⟩ := positive
    have factorPos := kvFactor_pos model
    unfold bytesFP16
    positivity

theorem kvCachePerNode_nonneg {layersOnNode : ℤ} (layersNonneg : 0 ≤ layersOnNode) (context : ℤ) :
    0 ≤ kvCachePerNode model layersOnNode context := by
  unfold kvCachePerNode
  split
  · exact le_rfl
  · rename_i layersPos
    push Not at layersPos
    have full := estimateKVCache_nonneg model context
    positivity

theorem kvCachePerNode_mono {fewer more : ℤ} (le : fewer ≤ more) (context : ℤ) :
    kvCachePerNode model fewer context ≤ kvCachePerNode model more context := by
  unfold kvCachePerNode
  split
  · exact le_rfl
  · rename_i layersPos
    push Not at layersPos
    have layersPos' : (0 : ℚ) < model.layers := by exact_mod_cast layersPos
    have le' : (fewer : ℚ) ≤ more := by exact_mod_cast le
    apply mul_le_mul_of_nonneg_left _ (estimateKVCache_nonneg model context)
    exact div_le_div_of_nonneg_right le' layersPos'.le

theorem kvCachePerNode_layers {model : ModelSpec} (layersPos : 0 < model.layers) (context : ℤ) :
    kvCachePerNode model model.layers context = estimateKVCache model context := by
  have layersPos' : (0 : ℚ) < model.layers := by exact_mod_cast layersPos
  rw [kvCachePerNode, if_neg (by omega), div_self layersPos'.ne', mul_one]

theorem kvCacheInMemory_le (contextLen : ℤ) (factor : ℚ) :
    kvCacheInMemory model contextLen factor ≤ estimateKVCache model contextLen := by
  unfold kvCacheInMemory
  have full := estimateKVCache_nonneg model contextLen
  split
  · exact le_rfl
  · rename_i inside
    push Not at inside
    nlinarith [inside.1]

@[simp]
theorem kvCacheInMemory_zero (contextLen : ℤ) :
    kvCacheInMemory model contextLen 0 = estimateKVCache model contextLen := by
  simp [kvCacheInMemory]

/-- The memory a node can devote to weights and KV cache: available RAM, bounded
by VRAM on discrete-GPU nodes. -/
def usefulMemory : ℚ :=
  if node.unifiedMemory then node.ramAvailableGB
  else if 0 < node.vramGB then min node.ramAvailableGB node.vramGB
  else node.ramAvailableGB

def ssdCapBase : ℚ :=
  if node.vramGB ≤ 0 then node.ramAvailableGB else node.vramGB

/-- Useful memory with the capped contribution of KV-cache SSD offload, as the
fit checks read it. -/
def usefulMemoryForFit : ℚ :=
  let base := usefulMemory node
  if !node.kvSsdOffload ∨ node.diskFreeGB ≤ 0 then base
  else
    let offload := kvSsdOffloadFactor * node.diskFreeGB
    let maxContrib := kvSsdOffloadMaxMultiplier * ssdCapBase node - base
    let ssdContrib := if maxContrib < offload then maxContrib else offload
    if 0 < ssdContrib then base + ssdContrib else base

/-- A memory bandwidth as a unit-less weight; an unknown one is neutral. -/
def normalizeBandwidth (gbs : ℚ) : ℚ :=
  if gbs ≤ 0 then 1 else gbs / referenceMemBandwidthGBs

def usefulCapacity : ℚ := usefulMemory node * normalizeBandwidth node.memBandwidthGBs

open KeyedTables

/-- Bytes of the activation handed from one stage to the next for one token. -/
def activationBytes : ℚ := model.hiddenSize * bytesFP16

variable (links : List Link) (node : Node) (order : List Node) (m : ℕ) (model : ModelSpec)

def lookupLink (source target : String) : Option Link :=
  links.find? fun link => link.source = source ∧ link.target = target

abbrev LinkIndex := String × String → Option Link

def buildLinkIndex : LinkIndex :=
  links.foldl (fun index link =>
    Function.update index (link.source, link.target) (some link)) fun _ => none

def commTime : Option Link → ℚ
  | none => 0
  | some link =>
    let time := link.rttMs / 1000
    if 0 < link.bandwidthGBs then
      time + activationBytes model / (link.bandwidthGBs * 10 ^ 9)
    else time

/-- The bandwidth a node sustains for a shard: the harmonic mean of memory and
SSD bandwidth once the shard's KV cache spills out of VRAM. -/
def effectiveBandwidth (shardWeightBytes shardKVBytes : ℚ) : ℚ :=
  let vramBW :=
    if node.memBandwidthGBs ≤ 0 then referenceMemBandwidthGBs
    else node.memBandwidthGBs
  let vramBytes := node.vramGB * 10 ^ 9
  let totalBytes := shardWeightBytes + shardKVBytes
  if !node.kvSsdOffload ∨ vramBytes ≤ 0 ∨ totalBytes ≤ vramBytes then vramBW
  else
    let ssdBytes := min (totalBytes - vramBytes) shardKVBytes
    let vramServed := totalBytes - ssdBytes
    let vramFrac := vramServed / totalBytes
    let ssdFrac := ssdBytes / totalBytes
    1 / (vramFrac / vramBW + ssdFrac / kvSsdReadBandwidthGBs)

def activeFraction : ℚ :=
  if 0 < model.paramsTotalB ∧ 0 < model.paramsActiveB then
    model.paramsActiveB / model.paramsTotalB
  else 1

def computeTime (quant : Quantization) (i j : ℤ) : ℚ :=
  if model.layers ≤ 0 then 0
  else
    let nLayers : ℚ := ((j - i : ℤ) : ℚ)
    let activeWeightBytes :=
      quant.sizeGB * 10 ^ 9 * activeFraction model * nLayers / model.layers
    let shardWeightBytes := quant.sizeGB * 10 ^ 9 * nLayers / model.layers
    let shardKVBytes := kvCachePerNode model (j - i) model.contextMax * 10 ^ 9
    let bw := effectiveBandwidth node shardWeightBytes shardKVBytes
    activeWeightBytes / (bw * 10 ^ 9)

def stageMemNeed (model : ModelSpec) (quant : Quantization) (i j context : ℤ) : ℚ :=
  if model.layers ≤ 0 then 0
  else
    let weight := quant.sizeGB * ((j - i : ℤ) : ℚ) / model.layers
    let kv := kvCachePerNode model (j - i) context
    weight + kv + overheadOSRuntimeGB

def stageFits (node : Node) (model : ModelSpec) (quant : Quantization) (i j context : ℤ) : Bool :=
  stageMemNeed model quant i j context ≤ usefulMemoryForFit node * (1 - defaultHeadroomFraction)

/-- The time of the `m`-th stage (counted from one) of a pipeline on a range of
layers, infinite when the range does not fit.  The source never asks for a stage
outside the pipeline. -/
def stageTimeAt (i j : ℤ) (links : List Link) (model : ModelSpec) (quant : Quantization)
    (context : ℤ) : WithTop ℚ :=
  match order[m - 1]? with
  | none => ⊤
  | some node =>
    if !stageFits node model quant i j context then ⊤
    else
      let ct :=
        if 2 ≤ m then
          commTime model (lookupLink links ((order[m - 2]?.map Node.id).getD "") node.id)
        else 0
      ((computeTime node model quant i j + ct : ℚ) : WithTop ℚ)

def stageTimeAtIdx (i j : ℤ) (index : LinkIndex) (model : ModelSpec) (quant : Quantization)
    (context : ℤ) : WithTop ℚ :=
  match order[m - 1]? with
  | none => ⊤
  | some node =>
    if !stageFits node model quant i j context then ⊤
    else
      let ct :=
        if 2 ≤ m then
          commTime model (index ((order[m - 2]?.map Node.id).getD "", node.id))
        else 0
      ((computeTime node model quant i j + ct : ℚ) : WithTop ℚ)

/-- Without duplicate endpoints, indexed and linear lookup agree. -/
theorem buildLinkIndex_eq_lookupLink {links : List Link}
    (nodup : (links.map fun link => (link.source, link.target)).Nodup) (source target : String) :
    buildLinkIndex links (source, target) = lookupLink links source target := by
  let endpoints := fun link : Link => (link.source, link.target)
  have indexed : buildLinkIndex links = tabulate endpoints id links := rfl
  rw [indexed]
  cases found : lookupLink links source target with
  | none =>
    cases entry : tabulate endpoints id links (source, target) with
    | none => rfl
    | some =>
      obtain ⟨other, member, keyEq, _⟩ := exists_of_tabulate entry
      have missed := List.find?_eq_none.mp found other member
      simp [Prod.mk.inj keyEq] at missed
  | some link =>
    have matching : link.source = source ∧ link.target = target := by
      simpa using List.find?_some found
    obtain ⟨rfl, rfl⟩ := matching
    exact tabulate_of_mem nodup (List.mem_of_find?_eq_some found)

theorem buildLinkIndex_apply (source target : String) :
    buildLinkIndex links (source, target) = lookupLink links.reverse source target := by
  have indexed : buildLinkIndex links =
      tabulate (fun link => (link.source, link.target)) id links := rfl
  rw [indexed, tabulate_apply, Option.map_id, id, lookupLink]
  simp only [Prod.mk.injEq]

/-- What the communication time reads of a link. -/
def Link.cost (link : Link) : ℚ × ℚ := (link.rttMs, max link.bandwidthGBs 0)

theorem commTime_some (link : Link) : commTime model (some link) =
      link.cost.1 / 1000 + activationBytes model / (link.cost.2 * 10 ^ 9) := by
  by_cases fast : 0 < link.bandwidthGBs
  · simp [commTime, Link.cost, fast, max_eq_left fast.le]
  · simp [commTime, Link.cost, fast, max_eq_right (not_lt.mp fast)]

/-- Both stage times agree exactly if the first and the last link between two
nodes always cost the same. -/
theorem stageTimeAtIdx_eq_iff : (∀ order m i j model quant context,
      stageTimeAtIdx order m i j (buildLinkIndex links) model quant context =
        stageTimeAt order m i j links model quant context) ↔
      ∀ source target first last, lookupLink links source target = some first →
        lookupLink links.reverse source target = some last → first.cost = last.cost := by
  constructor
  · intro same source target first last foundFirst foundLast
    let probe (hiddenSize : ℤ) : ModelSpec :=
      { id := "", layers := 0, hiddenSize := hiddenSize, quantizations := [] }
    let quant : Quantization := ⟨"", 0, false, 0, false⟩
    -- without layers every node fits, and the times differ in the communication only
    have fits (hiddenSize : ℤ) :
        stageFits { id := target } (probe hiddenSize) quant 0 0 0 = true := by
      simp [probe, stageFits, stageMemNeed, usefulMemoryForFit, usefulMemory]
    have staged (hiddenSize : ℤ) := same [{ id := source }, { id := target }] 2 0 0
      (probe hiddenSize) quant 0
    simp only [stageTimeAtIdx, stageTimeAt, List.getElem?_cons_succ, List.getElem?_cons_zero, fits,
      buildLinkIndex_apply, Option.map_some, Option.getD_some, foundFirst, foundLast, Bool.not_true,
      Bool.false_eq_true, if_false, le_refl, if_true, WithTop.coe_inj, add_right_inj,
      Nat.reduceSub, commTime_some, activationBytes, probe] at staged
    have rtt : last.cost.1 = first.cost.1 := by simpa [bytesFP16] using staged 0
    have bandwidth : last.cost.2 = first.cost.2 := by
      simpa [rtt, bytesFP16, div_eq_mul_inv] using staged 1
    exact (Prod.ext rtt bandwidth).symm
  · intro agree order m i j model quant context
    have comm (source target : String) : commTime model (buildLinkIndex links (source, target)) =
        commTime model (lookupLink links source target) := by
      rw [buildLinkIndex_apply]
      have found : (lookupLink links.reverse source target).isSome =
          (lookupLink links source target).isSome := by
        rw [Bool.eq_iff_iff]
        simp [lookupLink]
      cases first : lookupLink links source target <;>
        cases last : lookupLink links.reverse source target
      case none.none => rfl
      case some.some => rw [commTime_some, commTime_some, agree _ _ _ _ first last]
      all_goals simp [first, last] at found
    simp only [stageTimeAtIdx, stageTimeAt, comm]

/-- Two links from `a` to `b`, and the last one is slower. -/
theorem repeated_link_slower : ∃ order model quant,
    stageTimeAt order 2 0 0 [⟨"a", "b", 1, 0⟩, ⟨"a", "b", 2, 0⟩] model quant 0 =
        ((1 / 1000 : ℚ) : WithTop ℚ) ∧
      stageTimeAtIdx order 2 0 0 (buildLinkIndex [⟨"a", "b", 1, 0⟩, ⟨"a", "b", 2, 0⟩])
        model quant 0 = ((1 / 500 : ℚ) : WithTop ℚ) :=
  ⟨[{ id := "a" }, { id := "b" }], { id := "", layers := 0, quantizations := [] },
    ⟨"", 0, false, 0, false⟩, by decide +kernel⟩

theorem effectiveBandwidth_pos (shardWeightBytes : ℚ) {shardKVBytes : ℚ}
    (kvNonneg : 0 ≤ shardKVBytes) : 0 < effectiveBandwidth node shardWeightBytes shardKVBytes := by
  have vramBWPos : 0 < (if node.memBandwidthGBs ≤ 0 then
      referenceMemBandwidthGBs else node.memBandwidthGBs) := by
    split
    · norm_num [referenceMemBandwidthGBs]
    · rename_i reported
      exact not_le.mp reported
  unfold effectiveBandwidth
  simp only
  split
  · exact vramBWPos
  · rename_i spills
    push Not at spills
    obtain ⟨-, vramPos, overflow⟩ := spills
    have totalPos := vramPos.trans overflow
    have ssdNonneg : 0 ≤ min (shardWeightBytes + shardKVBytes -
        node.vramGB * 10 ^ 9) shardKVBytes :=
      le_min (by linarith) kvNonneg
    have servedPos : 0 < shardWeightBytes + shardKVBytes -
        min (shardWeightBytes + shardKVBytes - node.vramGB * 10 ^ 9)
          shardKVBytes := by
      have bounded := min_le_left
        (shardWeightBytes + shardKVBytes - node.vramGB * 10 ^ 9) shardKVBytes
      linarith
    have vramTermPos := div_pos (div_pos servedPos totalPos) vramBWPos
    have ssdTermNonneg := div_nonneg (div_nonneg ssdNonneg totalPos.le)
      (by norm_num [kvSsdReadBandwidthGBs] : (0 : ℚ) ≤ kvSsdReadBandwidthGBs)
    exact one_div_pos.mpr (add_pos_of_pos_of_nonneg vramTermPos ssdTermNonneg)

theorem activeFraction_pos (model : ModelSpec) : 0 < activeFraction model := by
  unfold activeFraction
  split
  · rename_i reported
    exact div_pos reported.2 reported.1
  · exact one_pos

variable {quant : Quantization} {i j : ℤ}

theorem computeTime_nonneg (node : Node) (model : ModelSpec) (sizeNonneg : 0 ≤ quant.sizeGB)
    (le : i ≤ j) : 0 ≤ computeTime node model quant i j := by
  unfold computeTime
  split
  · exact le_rfl
  · rename_i layersPos
    push Not at layersPos
    have kvNonneg : 0 ≤ kvCachePerNode model (j - i) model.contextMax * 10 ^ 9 :=
      mul_nonneg (kvCachePerNode_nonneg model (sub_nonneg.mpr le) _) (by norm_num)
    have bwPos := effectiveBandwidth_pos node
      (quant.sizeGB * 10 ^ 9 * ((j - i : ℤ) : ℚ) / model.layers) kvNonneg
    have fractionPos := activeFraction_pos model
    positivity

theorem stageMemNeed_mono (model : ModelSpec) (sizeNonneg : 0 ≤ quant.sizeGB) (i : ℤ) {j' : ℤ}
    (le : j ≤ j') (context : ℤ) :
    stageMemNeed model quant i j context ≤ stageMemNeed model quant i j' context := by
  unfold stageMemNeed
  split
  · exact le_rfl
  · rename_i layersPos
    push Not at layersPos
    have layersPos' : (0 : ℚ) < model.layers := by exact_mod_cast layersPos
    have rangeLe : ((j - i : ℤ) : ℚ) ≤ ((j' - i : ℤ) : ℚ) := by
      exact_mod_cast sub_le_sub_right le i
    have weightLe : quant.sizeGB * ((j - i : ℤ) : ℚ) / model.layers ≤
        quant.sizeGB * ((j' - i : ℤ) : ℚ) / model.layers :=
      div_le_div_of_nonneg_right (mul_le_mul_of_nonneg_left rangeLe sizeNonneg) layersPos'.le
    have kvLe := kvCachePerNode_mono model (sub_le_sub_right le i) context
    linarith

theorem stageMemNeed_nonneg (model : ModelSpec) (sizeNonneg : 0 ≤ quant.sizeGB) (le : i ≤ j)
    (context : ℤ) : 0 ≤ stageMemNeed model quant i j context := by
  apply le_trans _ (stageMemNeed_mono model sizeNonneg i le context)
  unfold stageMemNeed
  split
  · exact le_rfl
  · simp [kvCachePerNode, overheadOSRuntimeGB]

theorem stageMemNeed_le_of_stageFits {node : Node} {model : ModelSpec}
    (sizeNonneg : 0 ≤ quant.sizeGB) (le : i ≤ j) {context : ℤ}
    (fits : stageFits node model quant i j context = true) :
    stageMemNeed model quant i j context ≤ usefulMemoryForFit node := by
  simp only [stageFits, decide_eq_true_eq] at fits
  have needNonneg := stageMemNeed_nonneg model sizeNonneg le context
  have margin : (0 : ℚ) < 1 - defaultHeadroomFraction := by
    norm_num [defaultHeadroomFraction]
  have usefulNonneg : 0 ≤ usefulMemoryForFit node :=
    nonneg_of_mul_nonneg_left (needNonneg.trans fits) margin
  apply fits.trans
  apply mul_le_of_le_one_right usefulNonneg
  norm_num [defaultHeadroomFraction]

theorem stageMemNeed_layers {model : ModelSpec} (layersPos : 0 < model.layers)
    (quant : Quantization) (context : ℤ) :
    stageMemNeed model quant 0 model.layers context =
      quant.sizeGB + estimateKVCache model context + overheadOSRuntimeGB := by
  have layersPos' : (0 : ℚ) < model.layers := by exact_mod_cast layersPos
  rw [stageMemNeed, if_neg (by omega)]
  simp only [sub_zero]
  rw [kvCachePerNode_layers layersPos, mul_div_cancel_right₀ _ layersPos'.ne']

theorem stageTimeAtIdx_ne_top_iff (i j : ℤ) (index : LinkIndex) (model : ModelSpec)
    (quant : Quantization) (context : ℤ) :
    stageTimeAtIdx order m i j index model quant context ≠ ⊤ ↔ ∃ node, order[m - 1]? = some node ∧
        stageFits node model quant i j context = true := by
  unfold stageTimeAtIdx
  cases found : order[m - 1]? with
  | none => simp
  | some node =>
    cases fits : stageFits node model quant i j context <;> simp [fits]

theorem stageTimeAt_ne_top_iff (i j : ℤ) (links : List Link) (model : ModelSpec)
    (quant : Quantization) (context : ℤ) :
    stageTimeAt order m i j links model quant context ≠ ⊤ ↔ ∃ node, order[m - 1]? = some node ∧
        stageFits node model quant i j context = true :=
  stageTimeAtIdx_ne_top_iff order m i j (fun ends => lookupLink links ends.1 ends.2) model quant
    context

end Purser.Planner
