import Purser.PlannerStageTime
import Purser.RangeLoops
import Mathlib.Data.List.Sort

/-!
# Phases B and C: candidate subsets and the partition

Phase B proposes prefixes of the ranking.  Phase C splits the layer chain over a
pipeline order with a dynamic program that minimises the slowest stage.  Pins
are applied to the finished shards.
-/

namespace Purser.Planner

open RangeLoops

def rankNodes (nodes : List Node) : List Node :=
  nodes.insertionSort fun first second =>
    usefulCapacity second ≤ usefulCapacity first

/-- The smallest number of leading nodes, at least `used + 1`, whose memory
together with `aggMem` covers the need and one overhead for each node. -/
def findKMin (ramNeeded : ℚ) : (used : ℕ) → (aggMem : ℚ) → List Node → Option ℕ
  | _, _, [] => none
  | used, aggMem, node :: rest =>
    let aggMem := aggMem + usefulMemoryForFit node
    if ramNeeded + overheadOSRuntimeGB * (used + 1 : ℕ) ≤ aggMem then
      some (used + 1)
    else findKMin ramNeeded (used + 1) aggMem rest

/-- The node subsets phase C evaluates, smallest first; none when the model does
not fit on the whole fleet. -/
def candidateSubsets (nodes : List Node) (quant : Quantization) (kv : ℚ)
    (c : Constraints) : List (List Node) :=
  let ranked := rankNodes nodes
  match c.forceNodeCount with
  | some forced =>
    -- a forced count is clamped, and the memory need is not looked at
    let k := if forced < 1 then 1 else forced
    let k := if (ranked.length : ℤ) < k then (ranked.length : ℤ) else k
    [ranked.take k.toNat]
  | none =>
    match findKMin (quant.sizeGB + kv) 0 0 ranked with
    | none => []
    | some kMin =>
      ((List.range' kMin (planDelta + 1)).filter
        (fun k => k ≤ ranked.length)).map fun k => ranked.take k

/-- The two tables of the partition program: `dp i m` is the least bottleneck
of the first `i` layers on the first `m` nodes, `cut i m` the first layer of the
last of these nodes. -/
structure DpTables where
  dp : ℕ → ℕ → WithTop ℚ
  cut : ℕ → ℕ → ℤ

namespace DpTables

def initial : DpTables where
  dp i m := if i = 0 ∧ m = 0 then 0 else ⊤
  cut _ _ := -1

variable (stage : ℕ → ℕ → ℕ → WithTop ℚ) (layers m : ℕ) (tables : DpTables) (i : ℕ)

def relax (m i j : ℕ) (bottleneck : WithTop ℚ) : DpTables :=
  if bottleneck < tables.dp j m then
    { dp := Function.update tables.dp j (Function.update (tables.dp j) m bottleneck)
      cut := Function.update tables.cut j (Function.update (tables.cut j) m i) }
  else tables

def relaxFrom : DpTables :=
  foldlBreak (fun tables j =>
    -- a longer shard cannot fit either
    if stage m i j = ⊤ then none
    else some (tables.relax m i j (max (tables.dp i (m - 1)) (stage m i j))))
    tables (List.range' (i + 1) (layers - i))

def fillColumn (m : ℕ) : DpTables :=
  (List.range (layers + 1)).foldl (fun tables i =>
    if tables.dp i (m - 1) = ⊤ then tables
    else relaxFrom stage layers m tables i) tables

def fill (layers nodes : ℕ) : DpTables :=
  (List.range' 1 nodes).foldl (fillColumn stage layers) initial

def bestPrefix (layers nodes : ℕ) : WithTop ℚ × Option ℕ :=
  (List.range' 1 nodes).foldl (fun best m =>
    if tables.dp layers m < best.1 then (tables.dp layers m, some m) else best)
    (⊤, none)

end DpTables

/-- The first layers of the stages, followed by the number of layers. -/
def walkStarts (cut : ℕ → ℕ → ℤ) : (m : ℕ) → (j : ℤ) → List ℤ
  | 0, j => [j]
  | m + 1, j => walkStarts cut m (cut j.toNat (m + 1)) ++ [j]

def reconstructCuts (cut : ℕ → ℕ → ℤ) (layers usedM : ℕ) (order : List Node) : List Assignment :=
  let starts := walkStarts cut usedM layers
  (List.range' 1 usedM).filterMap fun m =>
    let start := starts.getD (m - 1) 0
    let stop := starts.getD m 0
    -- the source skips empty stages
    if stop ≤ start then none
    else some {
      nodeID := (order[m - 1]?.map Node.id).getD ""
      role := if m = 1 then .host else .worker
      layerStart := start
      layerEnd := stop - 1 }

/-- Phase C: the shards of a pipeline order and their bottleneck, no shard and
`⊤` when no partition is feasible. -/
def dpPartition (order : List Node) (links : List Link) (model : ModelSpec)
    (quant : Quantization) (context : ℤ) : List Assignment × WithTop ℚ :=
  let layers := model.layers.toNat
  let index := buildLinkIndex links
  let tables := DpTables.fill
    (fun m i j => stageTimeAtIdx order m i j index model quant context)
    layers order.length
  match tables.bestPrefix layers order.length with
  | (_, none) => ([], ⊤)
  | (best, some bestM) =>
    if best = ⊤ then ([], ⊤)
    else (reconstructCuts tables.cut layers bestM order, best)

def pinBefore (first second : LayerRange × String) : Prop :=
  first.1.start < second.1.start ∨ first.1.start = second.1.start ∧ first.1.stop ≤ second.1.stop

instance : DecidableRel pinBefore := fun first second =>
  inferInstanceAs (Decidable (first.1.start < second.1.start ∨
    first.1.start = second.1.start ∧ first.1.stop ≤ second.1.stop))

/-- Move the first shard that contains the range to the target.  The result is
absent when no single shard contains it. -/
def applyPin (range : LayerRange) (target : String) :
    List Assignment → Option (List Assignment × List Note)
  | [] => none
  | shard :: shards =>
    if shard.layerStart ≤ range.start ∧ range.stop ≤ shard.layerEnd then
      if shard.nodeID ≠ target then
        some ({ shard with nodeID := target } :: shards,
          [.pinMovedShard range target shard.layerStart shard.layerEnd shard.nodeID])
      else some (shard :: shards, [])
    else
      (applyPin range target shards).map fun result =>
        (shard :: result.1, result.2)

/-- The operator's pins, applied in order to the finished shards.  Pins to nodes
outside the subset and pins no shard contains are only reported. -/
def applyPinnedRanges (assignments : List Assignment) (order : List Node)
    (pinned : PinMap) : List Assignment × List Note :=
  (pinned.entries.insertionSort pinBefore).foldl (fun state pin =>
    if pin.2 ∉ order.map Node.id then
      (state.1, state.2 ++ [.pinOutsideSubset pin.1 pin.2])
    else
      match applyPin pin.1 pin.2 state.1 with
      | some result => (result.1, state.2 ++ result.2)
      | none => (state.1, state.2 ++ [.pinNotApplied pin.1 pin.2]))
    (assignments, [])

end Purser.Planner
