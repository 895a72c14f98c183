import Purser.PlannerFeasibility

/-!
# Planning without overrides

The checks of phase B and the memory check are stated over the ranking: phase B
counts the resident KV cache, the memory check and the stages the full one.
-/

namespace Purser.Planner

open List

variable {nodes : List Node} {kMin : ℕ}

theorem findKMin_bounds {ramNeeded : ℚ} {used : ℕ} {aggMem : ℚ}
    (found : findKMin ramNeeded used aggMem nodes = some kMin) :
    used < kMin ∧ kMin ≤ used + nodes.length := by
  induction nodes generalizing used aggMem with
  | nil => cases found
  | cons _ _ induction =>
    rw [findKMin] at found
    simp only [length_cons]
    split at found
    · obtain rfl := Option.some.inj found
      omega
    · have bounds := induction found
      omega

theorem findKMin_append {ramNeeded : ℚ} {used : ℕ} {aggMem : ℚ}
    (found : findKMin ramNeeded used aggMem nodes = some kMin) (more : List Node) :
    findKMin ramNeeded used aggMem (nodes ++ more) = some kMin := by
  induction nodes generalizing used aggMem with
  | nil => cases found
  | cons _ _ induction =>
    rw [findKMin] at found
    rw [cons_append, findKMin]
    split at found
    · rename_i enough
      rw [if_pos enough]
      exact found
    · rename_i short
      rw [if_neg short]
      exact induction found

theorem findKMin_eq_one_iff (ramNeeded : ℚ) (top : Node) (rest : List Node) :
    findKMin ramNeeded 0 0 (top :: rest) = some 1 ↔
      ramNeeded + overheadOSRuntimeGB ≤ usefulMemoryForFit top := by
  rw [findKMin]
  simp only [zero_add, Nat.cast_one, mul_one]
  constructor
  · intro found
    by_contra short
    rw [if_neg short] at found
    have bounds := findKMin_bounds found
    omega
  · intro enough
    rw [if_pos enough]

/-- The checks over the ranking: the first node holds the model with its full KV
cache when phase B settles for one node, and otherwise one of the explored
prefixes can be partitioned. -/
def RankingFits (rt : Runtime) (nodes : List Node) (links : List Link)
    (model : ModelSpec) (quant : Quantization) (kv : ℚ) : Prop :=
  ∃ kMin, findKMin (quant.sizeGB + kv) 0 0 (rankNodes nodes) = some kMin ∧
    (kMin = 1 →
      ∃ top, (rankNodes nodes).head? = some top ∧
        quant.sizeGB + estimateKVCache model model.contextMax +
          overheadOSRuntimeGB ≤ usefulMemoryForFit top) ∧
    (kMin ≠ 1 →
      ∃ k, kMin ≤ k ∧ k ≤ kMin + planDelta ∧ k ≤ nodes.length ∧
        (dpPartition (orderNodes rt ((rankNodes nodes).take k) model links {})
          links model quant model.contextMax).1 ≠ [])

theorem candidatesFit_of_several (rt : Runtime) (links : List Link) (model : ModelSpec)
    (quant : Quantization) (c : Constraints) {smallest : List Node} (several : 2 ≤ smallest.length)
    (larger : List (List Node)) :
    CandidatesFit rt links model quant c (smallest :: larger) ↔
      ∃ subset ∈ smallest :: larger, 2 ≤ subset.length ∧
        (dpPartition (orderNodes rt subset model links c) links model quant
          model.contextMax).1 ≠ [] := by
  rcases smallest with _ | ⟨first, _ | ⟨second, others⟩⟩
  · simp at several
  · simp at several
  · rfl

@[simp]
theorem rankNodes_length (nodes : List Node) : (rankNodes nodes).length = nodes.length :=
  length_insertionSort _ nodes

theorem mem_candidateSubsets_zero {quant : Quantization} {kv : ℚ}
    (found : findKMin (quant.sizeGB + kv) 0 0 (rankNodes nodes) = some kMin) (subset : List Node) :
    subset ∈ candidateSubsets nodes quant kv {} ↔
      ∃ k, kMin ≤ k ∧ k ≤ kMin + planDelta ∧ k ≤ nodes.length ∧
        (rankNodes nodes).take k = subset := by
  unfold candidateSubsets
  simp only [found, mem_map, mem_filter, mem_range'_1, rankNodes_length, decide_eq_true_eq]
  constructor
  · rintro ⟨k, ⟨⟨low, window⟩, high⟩, subsetEq⟩
    exact ⟨k, low, by omega, high, subsetEq⟩
  · rintro ⟨k, low, window, high, subsetEq⟩
    exact ⟨k, ⟨⟨low, by omega⟩, high⟩, subsetEq⟩

theorem exists_candidateSubsets_zero {quant : Quantization} {kv : ℚ}
    (found : findKMin (quant.sizeGB + kv) 0 0 (rankNodes nodes) = some kMin) :
    ∃ larger, candidateSubsets nodes quant kv {} = (rankNodes nodes).take kMin :: larger := by
  have bounds := findKMin_bounds found
  have inFleet : kMin ≤ (rankNodes nodes).length := by omega
  unfold candidateSubsets
  simp only [found, range'_succ, filter_cons, inFleet, decide_true, if_true, map_cons]
  exact ⟨_, rfl⟩

theorem length_take_rankNodes {k : ℕ} (high : k ≤ nodes.length) :
    ((rankNodes nodes).take k).length = k := by
  rw [length_take, rankNodes_length, min_eq_left high]

theorem candidatesFit_iff_rankingFits (rt : Runtime) (nodes : List Node) (links : List Link)
    (model : ModelSpec) (quant : Quantization) (kv : ℚ) :
    CandidatesFit rt links model quant {} (candidateSubsets nodes quant kv {}) ↔
      RankingFits rt nodes links model quant kv := by
  unfold RankingFits
  cases found : findKMin (quant.sizeGB + kv) 0 0 (rankNodes nodes) with
  | none => simp [candidateSubsets, found, CandidatesFit]
  | some kMin =>
    obtain ⟨kPos, kLe⟩ := findKMin_bounds found
    rw [rankNodes_length] at kLe
    have members := mem_candidateSubsets_zero found
    obtain ⟨larger, subsetsEq⟩ := exists_candidateSubsets_zero found
    rw [subsetsEq] at members ⊢
    simp only [Option.some.injEq, exists_eq_left']
    by_cases one : kMin = 1
    · subst one
      obtain ⟨top, rest, rankedEq⟩ : ∃ top rest, rankNodes nodes = top :: rest := by
        apply exists_cons_of_ne_nil
        apply ne_nil_of_length_pos
        rw [rankNodes_length]
        omega
      rw [rankedEq]
      simp [CandidatesFit]
    · have smallest : ((rankNodes nodes).take kMin).length = kMin :=
        length_take_rankNodes (by omega)
      rw [candidatesFit_of_several rt links model quant {} (by omega) larger]
      simp only [one, false_implies, true_and, ne_eq, not_false_eq_true, true_implies]
      constructor
      · rintro ⟨subset, member, _, feasible⟩
        obtain ⟨k, low, window, high, rfl⟩ := (members subset).mp member
        exact ⟨k, low, window, high, feasible⟩
      · rintro ⟨k, low, window, high, feasible⟩
        have length := length_take_rankNodes high
        exact ⟨_, (members _).mpr ⟨k, low, window, high, rfl⟩, by omega, feasible⟩

@[simp]
theorem applyNodeFilter_zero (nodes : List Node) : applyNodeFilter nodes {} = nodes := by
  simp [applyNodeFilter]

theorem admittedNodes_zero (nodes admitted : List Node) :
    admittedNodes nodes {} = .ok admitted ↔ nodes ≠ [] ∧ admitted = nodes := by
  unfold admittedNodes
  by_cases empty : nodes = []
  · simp [empty]
  · simp [empty, eq_comm]

/-- Without overrides planning succeeds exactly when phase A picks a quantization
and the checks over the ranking pass for it. -/
theorem plan_zero_isOk_iff {rt : Runtime} {ctx : Context} (never : ctx.NeverCancelled)
    (distinct : (nodes.map Node.id).Nodup) (links : List Link) {model : ModelSpec}
    (sizesNonneg : ∀ quant ∈ model.quantizations, 0 ≤ quant.sizeGB) :
    (plan rt ctx nodes links model {}).isOk = true ↔ nodes ≠ [] ∧ 0 < model.layers ∧ ∃ quant,
        phaseAPick nodes model (residentKV nodes model) = some quant ∧
          RankingFits rt nodes links model quant (residentKV nodes model) := by
  rw [plan_isOk_iff never]
  simp only [admittedNodes_zero]
  constructor
  · rintro ⟨_, ⟨nonempty, rfl⟩, planned⟩
    obtain ⟨layersPos, quant, selected, fits⟩ :=
      (planAdmitted_isOk_iff never distinct sizesNonneg rfl).mp planned
    obtain ⟨declared, picked, rfl⟩ := (selectQuantization_auto rfl _ model _ quant).mp selected
    rw [candidatesFit_iff_rankingFits] at fits
    exact ⟨nonempty, layersPos, declared, picked, fits⟩
  · rintro ⟨nonempty, layersPos, declared, picked, fits⟩
    refine ⟨nodes, ⟨nonempty, rfl⟩, ?_⟩
    rw [planAdmitted_isOk_iff never distinct sizesNonneg rfl]
    refine ⟨layersPos, flagFP4 nodes declared,
      (selectQuantization_auto rfl _ model _ _).mpr ⟨declared, picked, rfl⟩, ?_⟩
    rw [candidatesFit_iff_rankingFits]
    exact fits

end Purser.Planner
