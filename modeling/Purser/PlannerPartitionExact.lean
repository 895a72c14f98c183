import Purser.PlannerPartitionTables

/-!
# The partition program is exact

With non-negative weights and links without duplicates the split of phase C has
the least slowest stage among all splits that fit.
-/

namespace Purser.Planner

open RangeLoops ContiguousSplits List

def shardAt (order : List Node) (k : ℕ) (segment : ℕ × ℕ) : Assignment where
  nodeID := (order[k]?.map Node.id).getD ""
  role := if k = 0 then .host else .worker
  layerStart := segment.1
  layerEnd := segment.2 - 1

def splitAssignments (order : List Node) {m layers : ℕ}
    (split : Split m layers) : List Assignment :=
  split.segments.mapIdx (shardAt order)

variable {m layers : ℕ} {order : List Node}

@[simp]
theorem splitAssignments_length (order : List Node) (split : Split m layers) :
    (splitAssignments order split).length = m := by
  simp [splitAssignments]

theorem splitAssignments_snoc (order : List Node) {start stop : ℕ} (front : Split m start)
    (nonempty : start < stop) :
    splitAssignments order (.snoc front nonempty) =
      splitAssignments order front ++ [shardAt order m (start, stop)] := by
  simp [splitAssignments, Split.segments, mapIdx_append]

theorem exists_node_of_splitAssignments {split : Split m layers} (mLe : m ≤ order.length) {k : ℕ}
    {shard : Assignment} (shardAt : (splitAssignments order split)[k]? = some shard) :
    ∃ node, order[k]? = some node ∧ shard.nodeID = node.id := by
  have kLt : k < order.length := by
    have inRange := (List.getElem?_eq_some_iff.mp shardAt).1
    rw [splitAssignments_length] at inRange
    omega
  have nodeAt : order[k]? = some order[k] := getElem?_eq_getElem kLt
  simp only [splitAssignments, getElem?_mapIdx, Option.map_eq_some_iff] at shardAt
  obtain ⟨segment, -, rfl⟩ := shardAt
  simp [Planner.shardAt, nodeAt]

/-- Shards that follow each other without gap or overlap from one layer up to,
but not including, another, none of them empty. -/
def CoversFrom : (start : ℤ) → List Assignment → (stop : ℤ) → Prop
  | start, [], stop => start = stop
  | start, shard :: shards, stop =>
    shard.layerStart = start ∧ shard.layerStart ≤ shard.layerEnd ∧
      CoversFrom (shard.layerEnd + 1) shards stop

def IsContiguousCover (assignments : List Assignment) (layers : ℤ) : Prop :=
  CoversFrom 0 assignments layers

theorem CoversFrom.append_singleton {start middle : ℤ} {assignments : List Assignment}
    (shard : Assignment) (covers : CoversFrom start assignments middle)
    (startEq : shard.layerStart = middle) (nonempty : shard.layerStart ≤ shard.layerEnd) :
    CoversFrom start (assignments ++ [shard]) (shard.layerEnd + 1) := by
  induction assignments generalizing start with
  | nil =>
    subst covers
    exact ⟨startEq, nonempty, rfl⟩
  | cons _ _ induction =>
    exact ⟨covers.1, covers.2.1, induction covers.2.2⟩

theorem splitAssignments_cover (order : List Node) (split : Split m layers) :
    IsContiguousCover (splitAssignments order split) layers := by
  induction split with
  | nil => rfl
  | @snoc m start stop _ _ induction =>
    rw [splitAssignments_snoc]
    have shardNonempty : (shardAt order m (start, stop)).layerStart ≤
        (shardAt order m (start, stop)).layerEnd := by
      simp only [shardAt]
      omega
    have extended := CoversFrom.append_singleton
      (shardAt order m (start, stop)) induction rfl shardNonempty
    simpa [IsContiguousCover, shardAt] using extended

theorem reconstructCuts_eq_splitAssignments {cut : ℕ → ℕ → ℤ} {usedM : ℕ} (order : List Node)
    (split : Split usedM layers)
    (startsEq : walkStarts cut usedM layers = split.bounds.map Nat.cast) :
    reconstructCuts cut layers usedM order = splitAssignments order split := by
  have shardEq : ∀ m ∈ List.range' 1 usedM,
      (fun m =>
        let start := (walkStarts cut usedM layers).getD (m - 1) 0
        let stop := (walkStarts cut usedM layers).getD m 0
        if stop ≤ start then none
        else some ({
          nodeID := (order[m - 1]?.map Node.id).getD ""
          role := if m = 1 then .host else .worker
          layerStart := start
          layerEnd := stop - 1 } : Assignment)) m =
        some (shardAt order (m - 1) (split.segments.getD (m - 1) (0, 0))) := by
    intro m member
    rw [mem_range'_1] at member
    obtain ⟨start, stop, startAt, stopAt, segmentAt⟩ :=
      split.getElem?_segments (m - 1) (by omega)
    have ordered := (split.segment_lt _ (mem_of_getElem? segmentAt)).1
    have next : m - 1 + 1 = m := by omega
    rw [next] at stopAt
    have notEmpty : ¬ ((stop : ℤ) ≤ start) := by
      omega
    simp only [startsEq, getD_eq_getElem?_getD, getElem?_map, startAt,
      stopAt, segmentAt, Option.map_some, Option.getD_some, if_neg notEmpty,
      shardAt]
    by_cases first : m = 1
    · simp [first]
    · have later : ¬ (m - 1 = 0) := by omega
      simp [first, later]
  unfold reconstructCuts
  rw [filterMap_congr shardEq]
  apply ext_getElem
  · simp
  · intro k leftLt rightLt
    have stageLt : k < split.segments.length := by simpa using leftLt
    simp [splitAssignments, getElem?_eq_getElem stageLt]

namespace DpTables

variable {stage : ℕ → ℕ → ℕ → WithTop ℚ} {layers nodes : ℕ}

/-- On possible entries the starts read off the cuts are positions in the
chain. -/
theorem walkStarts_eq_walkCuts (m j : ℕ) (mLe : m ≤ nodes) (jLe : j ≤ layers)
    (possible : (fill stage layers nodes).dp j m ≠ ⊤) :
    walkStarts (fill stage layers nodes).cut m j =
      (walkCuts (cutTable stage layers nodes).cut m j).map Nat.cast := by
  induction m generalizing j with
  | zero => rfl
  | succ m induction =>
    obtain ⟨i, startLt, cutEq, valueEq⟩ :=
      (filledTo_fill stage layers nodes).attained m j (by omega) possible
    have frontPossible : (fill stage layers nodes).dp i m ≠ ⊤ := by
      intro impossible
      apply possible
      rw [valueEq, impossible]
      exact max_eq_left le_top
    have cutNat : (cutTable stage layers nodes).cut j (m + 1) = i := by
      simp [cutTable, cutEq]
    rw [walkStarts, walkCuts, Int.toNat_natCast, cutEq, cutNat,
      map_append, induction i (by omega) (by omega) frontPossible]
    rfl

/-- The chosen prefix has the least entry, and is the shortest with it. -/
theorem bestPrefix_spec (tables : DpTables) (layers nodes : ℕ) :
    (tables.bestPrefix layers nodes = (⊤, none) ∧ ∀ m, 1 ≤ m → m ≤ nodes → tables.dp layers m = ⊤) ∨
      ∃ bestM, 1 ≤ bestM ∧ bestM ≤ nodes ∧
        tables.bestPrefix layers nodes = (tables.dp layers bestM, some bestM) ∧
          tables.dp layers bestM ≠ ⊤ ∧
          (∀ m, 1 ≤ m → m ≤ nodes → tables.dp layers bestM ≤ tables.dp layers m) ∧
          ∀ m, 1 ≤ m → m < bestM → tables.dp layers bestM < tables.dp layers m := by
  let best := (List.range' 1 nodes).foldl (fun best m =>
    if tables.dp layers m < best.elim ⊤ (tables.dp layers) then some m
    else best) none
  have selects : SelectsBelow (tables.dp layers) ⊤ 1 (1 + nodes) best :=
    foldl_selectsBelow (tables.dp layers) ⊤ 1 nodes
  have bestEq : tables.bestPrefix layers nodes = (best.elim ⊤ (tables.dp layers), best) := by
    refine @foldl_hom _ _ _
      (fun best : Option ℕ => (best.elim ⊤ (tables.dp layers), best)) _ _ _ none ?_
    intro best m
    split <;> rfl
  rw [bestEq]
  cases chosen : best with
  | none =>
    rw [chosen] at selects
    left
    refine ⟨rfl, ?_⟩
    intro m low high
    exact top_le_iff.mp (selects.least m low (by omega))
  | some bestM =>
    rw [chosen] at selects
    right
    obtain ⟨low, high⟩ := selects.inside bestM rfl
    refine ⟨bestM, low, by omega, rfl, (selects.below bestM rfl).ne, ?_, selects.first bestM rfl⟩
    intro m low high
    exact selects.least m low (by omega)

end DpTables

def indexedCost (order : List Node) (links : List Link) (model : ModelSpec)
    (quant : Quantization) (context : ℤ) (m i j : ℕ) : WithTop ℚ :=
  stageTimeAtIdx order m i j (buildLinkIndex links) model quant context

def partitionTables (order : List Node) (links : List Link) (model : ModelSpec)
    (quant : Quantization) (context : ℤ) : DpTables :=
  DpTables.fill (indexedCost order links model quant context) model.layers.toNat order.length

variable {links : List Link} {model : ModelSpec} {quant : Quantization} {context : ℤ}

/-- A split that phase C may return: its bottleneck is finite, no other prefix of
the order does better and every shorter one does worse. -/
structure IsChosenSplit (order : List Node) (links : List Link)
    (model : ModelSpec) (quant : Quantization) (context : ℤ) {m : ℕ}
    (split : Split m model.layers.toNat) : Prop where
  m_pos : 1 ≤ m
  m_le : m ≤ order.length
  finite : split.bottleneck (indexedCost order links model quant context) 0 ≠ ⊤
  least : ∀ m', 1 ≤ m' → m' ≤ order.length →
    split.bottleneck (indexedCost order links model quant context) 0 ≤
      (partitionTables order links model quant context).dp model.layers.toNat m'
  shortest : ∀ m', 1 ≤ m' → m' < m →
    split.bottleneck (indexedCost order links model quant context) 0 <
      (partitionTables order links model quant context).dp model.layers.toNat m'

theorem dpPartition_eq : dpPartition order links model quant context =
      match (partitionTables order links model quant context).bestPrefix model.layers.toNat
        order.length with
      | (_, none) => ([], ⊤)
      | (best, some bestM) => if best = ⊤ then ([], ⊤)
        else (reconstructCuts (partitionTables order links model quant context).cut
          model.layers.toNat bestM order, best) :=
  rfl

section

variable (order : List Node) (links : List Link) (model : ModelSpec) (quant : Quantization)
  (context : ℤ)

/-- Whatever the sizes and links, phase C returns nothing or the shards of a
split together with its bottleneck. -/
theorem dpPartition_cases :
    dpPartition order links model quant context = ([], ⊤) ∧
        (∀ m, 1 ≤ m → m ≤ order.length →
          (partitionTables order links model quant context).dp model.layers.toNat m = ⊤) ∨
      ∃ m, ∃ split : Split m model.layers.toNat,
        IsChosenSplit order links model quant context split ∧
          split.bottleneck (indexedCost order links model quant context) 0 =
            (partitionTables order links model quant context).dp model.layers.toNat m ∧
          dpPartition order links model quant context = (splitAssignments order split,
              split.bottleneck (indexedCost order links model quant context) 0) := by
  rcases DpTables.bestPrefix_spec (partitionTables order links model quant context)
        model.layers.toNat order.length with
    ⟨noneBest, allTop⟩ | ⟨bestM, low, high, bestEq, possible, least, first⟩
  · refine .inl ⟨?_, allTop⟩
    rw [dpPartition_eq, noneBest]
  · right
    obtain ⟨split, boundsEq, valueEq⟩ :=
      (DpTables.cutTable (indexedCost order links model quant context)
        model.layers.toNat order.length).exists_split bestM model.layers.toNat high le_rfl possible
    have startsEq := DpTables.walkStarts_eq_walkCuts bestM model.layers.toNat high le_rfl possible
    rw [← boundsEq] at startsEq
    change split.bottleneck (indexedCost order links model quant context) 0 =
      (partitionTables order links model quant context).dp model.layers.toNat bestM at valueEq
    rw [← valueEq] at possible least first
    refine ⟨bestM, split, ⟨low, high, possible, least, first⟩, valueEq, ?_⟩
    rw [dpPartition_eq, bestEq, ← valueEq, ← reconstructCuts_eq_splitAssignments order split startsEq]
    exact if_neg possible

def SplitFits {m layers : ℕ} (split : Split m layers) : Prop :=
  ∀ (k start stop : ℕ), split.segments[k]? = some (start, stop) →
    ∃ node, order[k]? = some node ∧ stageFits node model quant start stop context = true

def slowestStage : List (WithTop ℚ) → WithTop ℚ
  | [] => 0
  | time :: times => times.foldl max time

def plainCost (m i j : ℕ) : WithTop ℚ :=
  stageTimeAt order m i j links model quant context

end

theorem splitFits_snoc_iff {start stop : ℕ} (front : Split m start) (nonempty : start < stop) :
    SplitFits order model quant context (front.snoc nonempty) ↔
      SplitFits order model quant context front ∧
        ∃ node, order[m]? = some node ∧ stageFits node model quant start stop context = true := by
  simp only [SplitFits, Split.segments, getElem?_append, front.segments_length]
  constructor
  · intro fits
    refine ⟨fun k first last segmentAt => ?_, fits m start stop (by simp)⟩
    have inFront : k < m := front.segments_length ▸ (List.getElem?_eq_some_iff.mp segmentAt).1
    exact fits k first last (by rwa [if_pos inFront])
  · rintro ⟨frontFits, fits⟩ k first last segmentAt
    split at segmentAt
    next => exact frontFits k first last segmentAt
    next late =>
      rw [getElem?_singleton] at segmentAt
      split at segmentAt
      next same =>
        cases segmentAt
        rwa [show k = m by omega]
      next => cases segmentAt

/-- Only finite stages make a finite bottleneck. -/
theorem bottleneck_ne_top_iff_splitFits {cost : ℕ → ℕ → ℕ → WithTop ℚ}
    (finiteIff : ∀ m i j : ℕ, cost m i j ≠ ⊤ ↔ ∃ node, order[m - 1]? = some node ∧
        stageFits node model quant i j context = true) (split : Split m layers) :
    split.bottleneck cost 0 ≠ ⊤ ↔ SplitFits order model quant context split := by
  induction split with
  | nil =>
    simp [Split.bottleneck, SplitFits, Split.segments]
  | @snoc m start stop _ _ induction =>
    have lastFits : cost (m + 1) start stop ≠ ⊤ ↔ ∃ node, order[m]? = some node ∧
          stageFits node model quant start stop context = true :=
      finiteIff (m + 1) start stop
    rw [Split.bottleneck, splitFits_snoc_iff, ← induction, ← lastFits]
    simp only [← lt_top_iff_ne_top, max_lt_iff]

theorem IsChosenSplit.fits {split : Split m model.layers.toNat}
    (chosen : IsChosenSplit order links model quant context split) :
    SplitFits order model quant context split := by
  apply (bottleneck_ne_top_iff_splitFits _ split).mp chosen.finite
  intro m i j
  exact stageTimeAtIdx_ne_top_iff order m i j (buildLinkIndex links) model quant context

theorem mapIdx_splitAssignments (split : Split m layers) :
    (splitAssignments order split).mapIdx (fun k shard =>
        stageTimeAt order (k + 1) shard.layerStart (shard.layerEnd + 1) links model quant context) =
      split.stageCosts (plainCost order links model quant context) := by
  induction split with
  | nil => rfl
  | @snoc _ _ _ _ _ induction =>
    rw [splitAssignments_snoc, mapIdx_append, induction, Split.stageCosts]
    simp [shardAt, plainCost]

theorem plainCost_one_nonneg (sizeNonneg : 0 ≤ quant.sizeGB) {start stop : ℕ} (le : start ≤ stop) :
    0 ≤ plainCost order links model quant context 1 start stop := by
  unfold plainCost stageTimeAt
  split
  · exact le_top
  · rename_i node _
    split
    · exact le_top
    · have timeNonneg := computeTime_nonneg node model sizeNonneg
        (show (start : ℤ) ≤ stop by exact_mod_cast le)
      simpa using timeNonneg

theorem stageCosts_head_nonneg (sizeNonneg : 0 ≤ quant.sizeGB) (split : Split m layers)
    {time : WithTop ℚ} {times : List (WithTop ℚ)}
    (costsEq : split.stageCosts (plainCost order links model quant context) =
      time :: times) : 0 ≤ time := by
  induction split generalizing time times with
  | nil => simp [Split.stageCosts] at costsEq
  | @snoc m _ _ front nonempty induction =>
    rw [Split.stageCosts] at costsEq
    cases frontCosts : front.stageCosts (plainCost order links model quant context) with
    | nil =>
      rw [frontCosts] at costsEq
      have onlyStage : m = 0 := by
        have lengthEq := congrArg List.length frontCosts
        rwa [Split.stageCosts_length] at lengthEq
      subst onlyStage
      simp only [nil_append, List.cons.injEq] at costsEq
      rw [← costsEq.1]
      exact plainCost_one_nonneg sizeNonneg nonempty.le
    | cons =>
      rw [frontCosts, cons_append, List.cons.injEq] at costsEq
      rw [← costsEq.1]
      exact induction frontCosts

/-- The first stage takes non-negative time, so the initial zero of the tables
does not show in the bottleneck. -/
theorem bottleneck_eq_slowestStage (sizeNonneg : 0 ≤ quant.sizeGB) (split : Split m layers) :
    split.bottleneck (plainCost order links model quant context) 0 =
      slowestStage (split.stageCosts (plainCost order links model quant context)) := by
  rw [Split.bottleneck_eq_foldl]
  cases costsEq : split.stageCosts (plainCost order links model quant context) with
  | nil => rfl
  | cons =>
    rw [foldl_cons, slowestStage, max_eq_right (stageCosts_head_nonneg sizeNonneg split costsEq)]

theorem indexedCost_eq_plainCost
    (nodup : (links.map fun link => (link.source, link.target)).Nodup) :
    indexedCost order links model quant context = plainCost order links model quant context := by
  funext m i j
  simp only [indexedCost, plainCost, stageTimeAtIdx, stageTimeAt, buildLinkIndex_eq_lookupLink nodup]

theorem plainCost_prunes (sizeNonneg : 0 ≤ quant.sizeGB) (m i j j' : ℕ)
    (overflow : plainCost order links model quant context m i j = ⊤) (le : j ≤ j') :
    plainCost order links model quant context m i j' = ⊤ := by
  by_contra finite
  obtain ⟨node, nodeAt, fits⟩ :=
    (stageTimeAt_ne_top_iff order m i j' links model quant context).mp finite
  -- once a range overflows a node, every longer range with the same start does
  have shorter : stageFits node model quant i j context = true := by
    simp only [stageFits, decide_eq_true_eq] at fits ⊢
    exact (stageMemNeed_mono model sizeNonneg i (by exact_mod_cast le) context).trans fits
  exact (stageTimeAt_ne_top_iff order m i j links model quant context).mpr
    ⟨node, nodeAt, shorter⟩ overflow

/-- The outcome of the partition program against all splits of the layers over a
prefix of the order. -/
structure PartitionIsExact (order : List Node) (links : List Link)
    (model : ModelSpec) (quant : Quantization) (context : ℤ) : Prop where
  /-- Nothing is returned exactly when no split fits at every stage. -/
  nothing_iff : dpPartition order links model quant context = ([], ⊤) ↔
    ∀ m, 1 ≤ m → m ≤ order.length → ∀ split : Split m model.layers.toNat,
      ¬ SplitFits order model quant context split
  /-- Otherwise the bottleneck is the least slowest stage over the fitting
  splits, and the shards cover the layers in pipeline order and attain it. -/
  otherwise : (∃ m, 1 ≤ m ∧ m ≤ order.length ∧
      ∃ split : Split m model.layers.toNat, SplitFits order model quant context split) →
    IsLeast
        { time | ∃ m, 1 ≤ m ∧ m ≤ order.length ∧
          ∃ split : Split m model.layers.toNat,
            SplitFits order model quant context split ∧
              time = slowestStage (split.stageCosts (plainCost order links model quant context)) }
        (dpPartition order links model quant context).2 ∧
      IsContiguousCover (dpPartition order links model quant context).1 model.layers ∧
      (∀ (k : ℕ) shard, (dpPartition order links model quant context).1[k]? = some shard →
          ∃ node, order[k]? = some node ∧ shard.nodeID = node.id) ∧
      slowestStage
          ((dpPartition order links model quant context).1.mapIdx fun k shard =>
              stageTimeAt order (k + 1) shard.layerStart
                (shard.layerEnd + 1) links model quant context) =
        (dpPartition order links model quant context).2

theorem dpPartition_exact (order : List Node) (links : List Link)
    (model : ModelSpec) (quant : Quantization) (context : ℤ)
    (layersPos : 1 ≤ model.layers) (sizeNonneg : 0 ≤ quant.sizeGB)
    (linksNodup : (links.map fun link => (link.source, link.target)).Nodup) :
    PartitionIsExact order links model quant context := by
  have costEq : indexedCost order links model quant context = _ := indexedCost_eq_plainCost linksNodup
  have layersCast : ((model.layers.toNat : ℕ) : ℤ) = model.layers :=
    Int.toNat_of_nonneg (by omega)
  have finiteIff : ∀ m i j : ℕ,
      plainCost order links model quant context m i j ≠ ⊤ ↔ ∃ node, order[m - 1]? = some node ∧
          stageFits node model quant i j context = true :=
    fun m i j => stageTimeAt_ne_top_iff order m i j links model quant context
  -- the tables are filled over the indexed cost, the splits scored by the plain one
  let table := DpTables.bellmanTable (plainCost order links model quant context)
    model.layers.toNat order.length (plainCost_prunes sizeNonneg)
  have tablesEq : (partitionTables order links model quant context).dp = table.value := by
    rw [partitionTables, costEq]
    rfl
  rcases dpPartition_cases order links model quant context with
    ⟨nothing, allTop⟩ | ⟨m, split, chosen, _, partitionEq⟩
  · have noneFits : ∀ m, 1 ≤ m → m ≤ order.length →
        ∀ split : Split m model.layers.toNat, ¬ SplitFits order model quant context split := by
      intro m low high split fits
      have entryTop := allTop m low high
      rw [tablesEq, table.value_eq_top_iff m _ high le_rfl] at entryTop
      exact (bottleneck_ne_top_iff_splitFits finiteIff split).mpr fits (entryTop split)
    refine ⟨⟨fun _ => noneFits, fun _ => nothing⟩, ?_⟩
    rintro ⟨m, low, high, split, fits⟩
    exact absurd fits (noneFits m low high split)
  · rw [costEq] at partitionEq
    have finite := chosen.finite
    have least := chosen.least
    rw [costEq] at finite least
    rw [tablesEq] at least
    refine ⟨⟨?_, ?_⟩, ?_⟩
    · intro nothing
      rw [partitionEq] at nothing
      exact absurd (congrArg Prod.snd nothing) finite
    · intro noneFits
      exact absurd chosen.fits (noneFits m chosen.m_pos chosen.m_le split)
    · intro _
      rw [partitionEq]
      refine ⟨⟨?_, ?_⟩, ?_, ?_, ?_⟩
      · exact ⟨m, chosen.m_pos, chosen.m_le, split, chosen.fits,
          bottleneck_eq_slowestStage sizeNonneg split⟩
      · rintro time ⟨m', low, high, split', -, rfl⟩
        rw [← bottleneck_eq_slowestStage sizeNonneg split']
        exact (least m' low high).trans (table.value_le_bottleneck split' high le_rfl)
      · have cover := splitAssignments_cover order split
        rwa [layersCast] at cover
      · intro k shard shardAt
        exact exists_node_of_splitAssignments chosen.m_le shardAt
      · rw [mapIdx_splitAssignments, bottleneck_eq_slowestStage sizeNonneg split]

/-- Two equal nodes that can only hold a model of two layers together. -/
theorem dpPartition_exact_two_nodes : PartitionIsExact
      [{ id := "a", ramAvailableGB := 20, unifiedMemory := true },
        { id := "b", ramAvailableGB := 20, unifiedMemory := true }]
      [{ source := "a", target := "b", rttMs := 3, bandwidthGBs := 1 }]
      { id := "m", layers := 2, hiddenSize := 4096,
        quantizations := [{ name := "q", sizeGB := 30, quality := 1 }] }
      { name := "q", sizeGB := 30, quality := 1 } 0 :=
  dpPartition_exact _ _ _ _ _ (by decide) (by norm_num) (by decide)

end Purser.Planner
