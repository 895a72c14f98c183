import Mathlib.Data.List.Perm.Basic
import Purser.PlannerValidity

/-!
# The cost of pipeline orders

Above its threshold the Held-Karp program gives way to a path that is refined
until no reversal helps, except that a path of three nodes is returned as it is.
-/

namespace Purser.Planner

open HamiltonianPaths List

variable {nodes : List Node} {model : ModelSpec} {links : List Link}

theorem orderCost_map_positions {path : List ℕ} (nodup : path.Nodup) :
    orderCost model links (path.map fun i => nodes.getD i default) =
      pathCost (fun i j => if i ≠ j then positionCost nodes model links i j else 0) path := by
  induction path with
  | nil => rfl
  | cons first rest induction =>
    cases rest with
    | nil => rfl
    | cons second =>
      rw [nodup_cons] at nodup
      have different : first ≠ second := fun same => nodup.1 (same ▸ mem_cons_self)
      rw [pathCost, ← induction nodup.2, if_pos different]
      rfl

/-- Every route comes from a path through the positions of the nodes. -/
theorem IsRoute.exists_positions {route : List Node} (isRoute : IsRoute nodes route)
    (nonempty : nodes ≠ []) :
    ∃ path : List ℕ, path.head? = some 0 ∧ path.Perm (List.range nodes.length) ∧
      path.map (fun i => nodes.getD i default) = route := by
  obtain ⟨host, others, rfl⟩ := exists_cons_of_ne_nil nonempty
  obtain ⟨rest, rfl⟩ := head?_eq_some_iff.mp isRoute.head_eq
  have positions : (List.range' 1 others.length).map (fun i => (host :: others).getD i default) =
      others := by
    have whole := map_getD_range (host :: others)
    rw [range_eq_range'] at whole
    exact (List.cons.inj whole).2
  have perm : rest.Perm ((List.range' 1 others.length).map fun i =>
      (host :: others).getD i default) := positions.symm ▸ isRoute.perm.cons_inv
  obtain ⟨tail, rfl, tailPerm⟩ := (congrFun₂ (eq_map_comp_perm _) _ _).mpr perm
  refine ⟨0 :: tail, rfl, ?_, rfl⟩
  rw [range_eq_range']
  exact tailPerm.cons 0

/-- Held-Karp is exact: its route is a cheapest one from the host. -/
theorem heldKarpPath_exact (nonempty : nodes ≠ []) (few : nodes.length ≤ orderingThresholdMax)
    (model : ModelSpec) (links : List Link) :
    IsRoute nodes (heldKarpPath nodes model links) ∧ ∀ route, IsRoute nodes route →
      orderCost model links (heldKarpPath nodes model links) ≤ orderCost model links route := by
  refine ⟨isRoute_heldKarpPath nonempty model links, fun route isRoute => ?_⟩
  obtain ⟨path, starts, perm, rfl⟩ := isRoute.exists_positions nonempty
  obtain ⟨_, foundPerm, least⟩ := walkParents_fill
    (fun i j => if i ≠ j then positionCost nodes model links i j else 0)
    (length_pos_iff.mpr nonempty)
  rw [heldKarpPath]
  simp only [if_neg (not_lt.mpr few)]
  rw [orderCost_map_positions (foundPerm.nodup_iff.mpr nodup_range),
    orderCost_map_positions (perm.nodup_iff.mpr nodup_range)]
  exact least path starts perm

def triangle : List Node := [{ id := "a" }, { id := "b" }, { id := "c" }]

def triangleLinks (back : ℚ) : List Link :=
  [{ source := "a", target := "b", rttMs := 1 }, { source := "a", target := "c", rttMs := 2 },
    { source := "b", target := "c", rttMs := back }, { source := "c", target := "b", rttMs := 1 }]

theorem heldKarpPath_exact_triangle : heldKarpPath triangle fourLayers (triangleLinks 100) =
      [{ id := "a" }, { id := "c" }, { id := "b" }] ∧
    ∀ route, IsRoute triangle route → orderCost fourLayers (triangleLinks 100)
      (heldKarpPath triangle fourLayers (triangleLinks 100)) ≤
        orderCost fourLayers (triangleLinks 100) route :=
  ⟨by decide +kernel, (heldKarpPath_exact (by decide) (by decide) _ _).2⟩

/-- Every one of the passes accepts a reversal. -/
def EveryPassImproves (model : ModelSpec) (links : List Link) (count : ℕ) :
    (passes : ℕ) → TwoOptState → Prop
  | 0, _ => True
  | passes + 1, state =>
    let swept := twoOptPass model links count state
    swept.improved = true ∧ EveryPassImproves model links count passes swept

/-- The search stops because its passes are used up. -/
def PassesExhausted (route : List Node) (model : ModelSpec) (links : List Link) : Prop :=
  4 ≤ route.length ∧ EveryPassImproves model links route.length twoOptMaxPasses
    ⟨route, orderCost model links route, false⟩

/-- No reversal of one segment behind the host makes the route cheaper by more
than the tolerance. -/
def ReversalFree (model : ModelSpec) (links : List Link) (route : List Node) : Prop :=
  ∀ i k, 1 ≤ i → i < k → k < route.length →
    orderCost model links route ≤ orderCost model links (reverseSegment route i k) +
      twoOptImproveEps

def pairsToTry (count : ℕ) : List (ℕ × ℕ) :=
  (List.range' 1 (count - 2)).flatMap fun i =>
    (List.range' (i + 1) (count - 1 - i)).map fun k => (i, k)

theorem twoOptPass_eq (count : ℕ) (state : TwoOptState) : twoOptPass model links count state =
    (pairsToTry count).foldl (fun state pair => tryReversal model links pair.1 state pair.2)
      { state with improved := false } := by
  simp only [twoOptPass, pairsToTry, foldl_flatMap, foldl_map]

theorem mem_pairsToTry {count i k : ℕ} : (i, k) ∈ pairsToTry count ↔ 1 ≤ i ∧ i < k ∧ k < count := by
  simp only [pairsToTry, mem_flatMap, mem_map, mem_range'_1, Prod.mk.injEq]
  constructor
  · omega
  · intro bounds
    exact ⟨i, by omega, k, by omega, rfl, rfl⟩

/-- The incumbent is never replaced by a dearer one, and when nothing was
accepted every reversal was tried on the very route that remains. -/
theorem sweep_spec (pairs : List (ℕ × ℕ)) {state swept : TwoOptState}
    (costEq : state.bestCost = orderCost model links state.best)
    (sweeps : pairs.foldl (fun state pair => tryReversal model links pair.1 state pair.2) state =
      swept) :
    swept.bestCost = orderCost model links swept.best ∧ swept.bestCost ≤ state.bestCost ∧
      (swept.improved = false → swept = state ∧ ∀ pair ∈ pairs, state.bestCost ≤
        orderCost model links (reverseSegment state.best pair.1 pair.2) + twoOptImproveEps) := by
  induction pairs generalizing state with
  | nil =>
    obtain rfl : state = swept := sweeps
    exact ⟨costEq, le_rfl, fun _ => ⟨rfl, forall_mem_nil _⟩⟩
  | cons pair pairs induction =>
    rw [foldl_cons] at sweeps
    by_cases better : orderCost model links (reverseSegment state.best pair.1 pair.2) <
        state.bestCost - twoOptImproveEps
    · rw [tryReversal, if_pos better] at sweeps
      obtain ⟨finalCost, le, unimproved⟩ := induction rfl sweeps
      have epsNonneg : 0 ≤ twoOptImproveEps := by norm_num [twoOptImproveEps]
      refine ⟨finalCost, by linarith, fun none => ?_⟩
      rw [(unimproved none).1] at none
      cases none
    · rw [tryReversal, if_neg better] at sweeps
      obtain ⟨finalCost, le, unimproved⟩ := induction costEq sweeps
      refine ⟨finalCost, le, fun none => ⟨(unimproved none).1, forall_mem_cons.mpr
        ⟨by linarith, (unimproved none).2⟩⟩⟩

theorem twoOptPasses_spec (passes : ℕ) {state : TwoOptState}
    (costEq : state.bestCost = orderCost model links state.best) :
    orderCost model links (twoOptPasses model links state.best.length passes state).best ≤
        state.bestCost ∧
      (EveryPassImproves model links state.best.length passes state ∨ ReversalFree model links
        (twoOptPasses model links state.best.length passes state).best) := by
  induction passes generalizing state with
  | zero => exact ⟨costEq.ge, Or.inl trivial⟩
  | succ passes induction =>
    have startCost : ({ state with improved := false } : TwoOptState).bestCost =
        orderCost model links state.best := costEq
    obtain ⟨sweptCost, le, unimproved⟩ := sweep_spec (pairsToTry state.best.length) startCost
      (twoOptPass_eq _ state).symm
    have sameLength := (isRoute_twoOptPass model links state.best.length state).perm.length_eq
    rw [twoOptPasses, EveryPassImproves]
    cases improved : (twoOptPass model links state.best.length state).improved with
    | true =>
      have later := induction sweptCost
      rw [sameLength] at later
      exact ⟨later.1.trans le, later.2.imp_left fun improves => ⟨rfl, improves⟩⟩
    | false =>
      obtain ⟨unchanged, tried⟩ := unimproved improved
      refine ⟨sweptCost ▸ le, Or.inr fun i k iPos less kLt => ?_⟩
      rw [unchanged] at kLt ⊢
      exact costEq ▸ tried (i, k) (mem_pairsToTry.mpr ⟨iPos, less, kLt⟩)

/-- Of the two orders of three nodes the one in which the nearer node comes first
is not the dearer one. -/
def GreedyOfThreeSettled (model : ModelSpec) (links : List Link) : List Node → Prop
  | [host, second, third] =>
    let forth := orderCost model links [host, second, third]
    let back := orderCost model links [host, third, second]
    if edgeCost host.id third.id model links < edgeCost host.id second.id model links then
      back ≤ forth + twoOptImproveEps
    else forth ≤ back + twoOptImproveEps
  | _ => True

theorem nearestNeighborOrder_three (host second third : Node) :
    nearestNeighborOrder [host, second, third] model links =
      if edgeCost host.id third.id model links < edgeCost host.id second.id model links then
        [host, third, second]
      else [host, second, third] := by
  have nearest : nearestUnvisited (positionCost [host, second, third] model links) 3
      (Function.update (fun _ => false) 0 true) 0 =
        if edgeCost host.id third.id model links < edgeCost host.id second.id model links then
          some 2 else some 1 := by
    simp [nearestUnvisited, range_succ, positionCost, apply_ite]
  change (0 :: nearestRoute (positionCost [host, second, third] model links) 3 2
    (Function.update (fun _ => false) 0 true) 0).map _ = _
  rw [nearestRoute, nearest]
  split_ifs <;> simp [nearestRoute, nearestUnvisited, range_succ]

theorem reversalFree_three (host second third : Node) :
    ReversalFree model links [host, second, third] ↔
      orderCost model links [host, second, third] ≤
        orderCost model links [host, third, second] + twoOptImproveEps := by
  constructor
  · intro free
    exact free 1 2 le_rfl one_lt_two (by simp)
  · intro le i k iPos less kLt
    obtain rfl : k = 2 := by simp at kLt; omega
    obtain rfl : i = 1 := by omega
    exact le

theorem nearestNeighbor2Opt_settled_iff (nonempty : nodes ≠ []) (model : ModelSpec)
    (links : List Link) :
    IsRoute nodes (nearestNeighbor2Opt nodes model links) ∧
      orderCost model links (nearestNeighbor2Opt nodes model links) ≤
        orderCost model links (nearestNeighborOrder nodes model links) ∧
      (PassesExhausted (nearestNeighborOrder nodes model links) model links ∨
          ReversalFree model links (nearestNeighbor2Opt nodes model links) ↔
        GreedyOfThreeSettled model links nodes) := by
  refine ⟨isRoute_nearestNeighbor2Opt nonempty model links, ?_⟩
  have sameLength := (isRoute_nearestNeighborOrder nonempty model links).perm.length_eq
  rw [nearestNeighbor2Opt, twoOptImprove, PassesExhausted, sameLength]
  by_cases small : nodes.length < 4
  · rw [if_pos small]
    refine ⟨le_rfl, ?_⟩
    rw [or_iff_right fun exhausted => absurd exhausted.1 (not_le.mpr small)]
    rcases nodes with _ | ⟨host, _ | ⟨second, _ | ⟨third, _ | _⟩⟩⟩
    · exact absurd rfl nonempty
    · simp [ReversalFree, GreedyOfThreeSettled, sameLength]
      omega
    · simp [ReversalFree, GreedyOfThreeSettled, sameLength]
      omega
    · rw [nearestNeighborOrder_three, GreedyOfThreeSettled]
      split
      · exact reversalFree_three host third second
      · exact reversalFree_three host second third
    · simp at small
      omega
  · rw [if_neg small]
    have spec := twoOptPasses_spec twoOptMaxPasses
      (show (⟨nearestNeighborOrder nodes model links, orderCost model links _, false⟩ :
        TwoOptState).bestCost = _ from rfl)
    rw [sameLength] at spec
    refine ⟨spec.1, ?_⟩
    have settled : GreedyOfThreeSettled model links nodes := by
      unfold GreedyOfThreeSettled
      split
      · simp at small
      · trivial
    exact iff_of_true (spec.2.imp_left fun improves => ⟨not_lt.mp small, improves⟩) settled

/-- The greedy path goes to the nearer node first and is left as it is, although
the other way round it would cost 3 instead of 101. -/
theorem nearestNeighbor2Opt_triangle_not_settled :
    nearestNeighbor2Opt triangle fourLayers (triangleLinks 100) = triangle ∧
      ¬ PassesExhausted (nearestNeighborOrder triangle fourLayers (triangleLinks 100))
        fourLayers (triangleLinks 100) ∧
      orderCost fourLayers (triangleLinks 100) triangle = 101 ∧
      orderCost fourLayers (triangleLinks 100) (reverseSegment triangle 1 2) = 3 ∧
      ¬ ReversalFree fourLayers (triangleLinks 100)
        (nearestNeighbor2Opt triangle fourLayers (triangleLinks 100)) := by
  have unchanged : nearestNeighbor2Opt triangle fourLayers (triangleLinks 100) = triangle := by
    decide +kernel
  refine ⟨unchanged, fun exhausted => absurd exhausted.1 (by decide +kernel), by decide +kernel,
    by decide +kernel, ?_⟩
  rw [unchanged, triangle, reversalFree_three]
  decide +kernel

theorem nearestNeighbor2Opt_triangle_settled :
    PassesExhausted (nearestNeighborOrder triangle fourLayers (triangleLinks 1))
        fourLayers (triangleLinks 1) ∨
      ReversalFree fourLayers (triangleLinks 1)
        (nearestNeighbor2Opt triangle fourLayers (triangleLinks 1)) :=
  (nearestNeighbor2Opt_settled_iff (by decide) _ _).2.2.mpr
    (by simp only [triangle, GreedyOfThreeSettled]; decide +kernel)

theorem orderNodes_canonical (rt : Runtime) {nodes' : List Node}
    (distinct : (nodes.map Node.id).Nodup) (perm : nodes.Perm nodes') (model : ModelSpec)
    (links : List Link) (c : Constraints) :
    orderNodes rt nodes model links c = orderNodes rt nodes' model links c ∧
      orderNodes rt (orderNodes rt nodes model links c) model links c =
        orderNodes rt nodes model links c ∧
      ∀ quant, coOptimise rt nodes links model quant c =
          partitionOrder links model quant (orderNodes rt nodes model links c) 1 ∧
        (coOptimise rt nodes links model quant c).rounds = 1 := by
  refine ⟨orderNodes_eq_of_perm rt distinct perm model links c, ?_, fun quant => ?_⟩
  · exact (orderNodes_eq_of_perm rt distinct (orderNodes_perm rt nodes model links c).symm
      model links c).symm
  · rw [coOptimise_eq rt distinct]
    exact ⟨rfl, rfl⟩

theorem orderNodes_triangle_canonical :
    orderNodes Runtime.default triangle fourLayers (triangleLinks 1) {} =
      orderNodes Runtime.default triangle.reverse fourLayers (triangleLinks 1) {} :=
  (orderNodes_canonical Runtime.default (by decide) (by decide) fourLayers (triangleLinks 1) {}).1

end Purser.Planner
