import Purser.PlannerHeldKarp

/-!
# Pipeline orders are routes

Both solvers return every node of the set once, the host first, and depend on
the set of nodes only.
-/

namespace Purser.Planner

open RangeLoops HamiltonianPaths List
open Function (update)

structure IsRoute (nodes route : List Node) : Prop where
  perm : route.Perm nodes
  head_eq : route.head? = nodes.head?

namespace IsRoute

theorem refl (nodes : List Node) : IsRoute nodes nodes := ⟨List.Perm.refl nodes, rfl⟩

theorem trans {nodes route route' : List Node} (first : IsRoute nodes route)
    (second : IsRoute route route') : IsRoute nodes route' :=
  ⟨second.perm.trans first.perm, second.head_eq.trans first.head_eq⟩

end IsRoute

theorem map_getD_range (nodes : List Node) :
    (List.range nodes.length).map (fun i => nodes.getD i default) = nodes := by
  apply ext_getElem
  · simp
  · intro i _ iLt
    simp [iLt]

variable {nodes : List Node} {i : ℕ}

theorem isRoute_map_positions {path : List ℕ} (headEq : path.head? = some 0)
    (perm : path.Perm (List.range nodes.length)) :
    IsRoute nodes (path.map fun i => nodes.getD i default) where
  perm := by
    have mapped := perm.map fun i => nodes.getD i default
    rwa [map_getD_range] at mapped
  head_eq := by
    have zeroMem : 0 ∈ List.range nodes.length := perm.mem_iff.mp (mem_of_mem_head? headEq)
    rw [mem_range] at zeroMem
    rw [head?_map, headEq, Option.map_some, head?_eq_getElem?,
      getD_eq_getElem?_getD, getElem?_eq_getElem zeroMem]
    rfl

variable (cost : ℕ → ℕ → ℚ) (count steps : ℕ) (visited : ℕ → Bool) (current : ℕ)

theorem nearestUnvisited_spec :
    match nearestUnvisited cost count visited current with
    | some next => next < count ∧ visited next = false
    | none => ∀ k, k < count → visited k = true := by
  let value : ℕ → WithTop ℚ := fun k => if visited k then ⊤ else cost current k
  have selects := foldl_selectsBelow value ⊤ 0 count
  have bestEq : nearestUnvisited cost count visited current =
      (List.range' 0 count).foldl (fun best k =>
        if value k < best.elim ⊤ value then some k else best) none := by
    rw [← range_eq_range']
    refine congrArg Prod.fst (foldl_hom (fun best : Option ℕ => (best, best.elim ⊤ value)) ?_)
    intro best k
    cases seen : visited k with
    | true => simp [value, seen]
    | false =>
      simp only [value, seen, Bool.false_eq_true, if_false]
      split <;> simp [seen]
  rw [← bestEq, Nat.zero_add] at selects
  cases chosen : nearestUnvisited cost count visited current with
  | some next =>
    rw [chosen] at selects
    refine ⟨(selects.inside next rfl).2, ?_⟩
    -- a visited vertex has no cost below the bound
    have below := selects.below next rfl
    by_contra seen
    rw [Bool.not_eq_false] at seen
    simp [value, seen] at below
  | none =>
    rw [chosen] at selects
    intro k kLt
    by_contra unvisited
    have unreachable := selects.least k (Nat.zero_le k) kLt
    simp [value, unvisited] at unreachable

theorem filter_update_visited (next count : ℕ) :
    (List.range count).filter (fun k => !update visited next true k) =
      ((List.range count).filter fun k => !visited k).erase next := by
  rw [(nodup_range.filter _).erase_eq_filter, filter_filter]
  apply filter_congr
  intro k _
  by_cases same : k = next
  · subst same
    simp
  · simp [same]

theorem nearestRoute_perm (stepsEq : steps = ((List.range count).filter fun k => !visited k).length) :
    (nearestRoute cost count steps visited current).Perm
      ((List.range count).filter fun k => !visited k) := by
  induction steps generalizing visited current with
  | zero =>
    rw [length_eq_zero_iff.mp stepsEq.symm]
    rfl
  | succ steps induction =>
    have spec := nearestUnvisited_spec cost count visited current
    rw [nearestRoute]
    cases chosen : nearestUnvisited cost count visited current with
    | none =>
      rw [chosen] at spec
      have empty : ((List.range count).filter fun k => !visited k) = [] := by
        rw [filter_eq_nil_iff]
        intro k kMem
        simp [spec k (mem_range.mp kMem)]
      rw [empty] at stepsEq
      exact absurd stepsEq (Nat.succ_ne_zero steps)
    | some next =>
      rw [chosen] at spec
      have nextMem : next ∈ (List.range count).filter fun k => !visited k := by
        rw [mem_filter, mem_range]
        exact ⟨spec.1, by simp [spec.2]⟩
      have remaining : steps = ((List.range count).filter fun k =>
          !update visited next true k).length := by
        rw [filter_update_visited, length_erase_of_mem nextMem, ← stepsEq]
        rfl
      have rest := induction (update visited next true) next remaining
      rw [filter_update_visited] at rest
      exact (rest.cons next).trans (perm_cons_erase nextMem).symm

theorem isRoute_nearestNeighborOrder (nonempty : nodes ≠ []) (model : ModelSpec)
    (links : List Link) : IsRoute nodes (nearestNeighborOrder nodes model links) := by
  have lengthPos : 0 < nodes.length := length_pos_iff.mpr nonempty
  have zeroMem : 0 ∈ List.range nodes.length := mem_range.mpr lengthPos
  have unvisited : (List.range nodes.length).filter
      (fun k => !update (fun _ => false) 0 true k) = (List.range nodes.length).erase 0 := by
    rw [filter_update_visited]
    simp
  have route := nearestRoute_perm (positionCost nodes model links) nodes.length
    (nodes.length - 1) (update (fun _ => false) 0 true) 0 (by
      rw [unvisited, length_erase_of_mem zeroMem, length_range])
  rw [unvisited] at route
  exact isRoute_map_positions rfl ((route.cons 0).trans (perm_cons_erase zeroMem).symm)

theorem isRoute_reverseSegment (route : List Node) {k : ℕ} (iPos : 0 < i) (iLe : i ≤ k + 1) :
    IsRoute route (reverseSegment route i k) := by
  have parts : route.take i ++ (route.take (k + 1)).drop i ++ route.drop (k + 1) =
      route := by
    have front : route.take i = (route.take (k + 1)).take i := by
      rw [take_take, min_eq_left iLe]
    rw [front, take_append_drop, take_append_drop]
  constructor
  · have reversed := ((reverse_perm ((route.take (k + 1)).drop i)).append_left
      (route.take i)).append_right (route.drop (k + 1))
    rwa [parts] at reversed
  · cases route with
    | nil => simp [reverseSegment]
    | cons =>
      obtain ⟨i, rfl⟩ := Nat.exists_eq_succ_of_ne_zero iPos.ne'
      simp [reverseSegment]

section

variable (model : ModelSpec) (links : List Link)

include model links

theorem isRoute_tryReversal {k : ℕ} (iPos : 0 < i) (iLe : i ≤ k + 1) (state : TwoOptState) :
    IsRoute state.best (tryReversal model links i state k).best := by
  unfold tryReversal
  simp only
  split
  · exact isRoute_reverseSegment state.best iPos iLe
  · exact IsRoute.refl state.best

theorem isRoute_twoOptPass (count : ℕ) (state : TwoOptState) :
    IsRoute state.best (twoOptPass model links count state).best := by
  have start : IsRoute state.best { state with improved := false }.best := IsRoute.refl state.best
  refine List.foldlRecOn (motive := (IsRoute state.best <| TwoOptState.best ·)) _ _ start ?_
  intro outer outerRoute i iMem
  refine List.foldlRecOn (motive := (IsRoute state.best <| TwoOptState.best ·)) _ _ outerRoute ?_
  intro inner innerRoute k kMem
  rw [mem_range'_1] at iMem kMem
  exact innerRoute.trans (isRoute_tryReversal model links (by omega) (by omega) inner)

theorem isRoute_twoOptPasses (count passes : ℕ) (state : TwoOptState) :
    IsRoute state.best (twoOptPasses model links count passes state).best := by
  induction passes generalizing state with
  | zero => exact IsRoute.refl state.best
  | succ _ induction =>
    have swept := isRoute_twoOptPass model links count state
    rw [twoOptPasses]
    split
    · exact swept.trans (induction _)
    · exact swept

end

theorem isRoute_nearestNeighbor2Opt (nonempty : nodes ≠ []) (model : ModelSpec)
    (links : List Link) : IsRoute nodes (nearestNeighbor2Opt nodes model links) := by
  have greedy := isRoute_nearestNeighborOrder nonempty model links
  unfold nearestNeighbor2Opt twoOptImprove
  split
  · exact greedy
  · exact greedy.trans (isRoute_twoOptPasses model links _ _ ⟨_, _, false⟩)

theorem isRoute_heldKarpPath (nonempty : nodes ≠ []) (model : ModelSpec) (links : List Link) :
    IsRoute nodes (heldKarpPath nodes model links) := by
  unfold heldKarpPath
  simp only
  split
  · exact isRoute_nearestNeighbor2Opt nonempty model links
  · obtain ⟨headEq, perm, _⟩ := walkParents_fill
      (fun i j => if i ≠ j then positionCost nodes model links i j else 0)
      (length_pos_iff.mpr nonempty)
    exact isRoute_map_positions headEq perm

theorem mostCapable_spec (nonempty : nodes ≠ []) : ∃ best, best < nodes.length ∧
      (List.range' 1 (nodes.length - 1)).foldl (fun (best : ℕ × ℚ) i =>
          if best.2 < usefulCapacity (nodes.getD i default) then
            (i, usefulCapacity (nodes.getD i default))
          else best)
        (0, usefulCapacity (nodes.getD 0 default)) =
          (best, usefulCapacity (nodes.getD best default)) ∧
      ∀ node ∈ nodes, usefulCapacity node ≤ usefulCapacity (nodes.getD best default) := by
  obtain ⟨bestLt, greatest, _⟩ := foldl_selects_first
    (fun first second : ℚ => second < first)
    (fun i => usefulCapacity (nodes.getD i default)) nodes.length
    (fun first second less => less.asymm)
    (fun first second third less => (lt_or_ge second first).imp_right
      fun le => less.trans_le le) (length_pos_iff.mpr nonempty)
  refine ⟨_, bestLt, foldl_selects_pair (fun first second : ℚ => second < first)
    (fun i => usefulCapacity (nodes.getD i default)) _ 0, ?_⟩
  intro node member
  obtain ⟨i, iLt, rfl⟩ := mem_iff_getElem.mp member
  have notGreater := not_lt.mp (greatest i iLt)
  rwa [getD_eq_getElem _ _ iLt] at notGreater

theorem chooseHostIndex_lt (nonempty : nodes ≠ []) (c : Constraints) :
    chooseHostIndex nodes c < nodes.length := by
  obtain ⟨best, bestLt, scanned, _⟩ := mostCapable_spec nonempty
  unfold chooseHostIndex
  rw [scanned]
  cases c.forceHost with
  | none => exact bestLt
  | some host =>
    cases found : nodes.findIdx? fun node => node.id = host with
    | none => simpa [found] using bestLt
    | some =>
      obtain ⟨indexLt, _⟩ := findIdx?_eq_some_iff_getElem.mp found
      simpa [found] using indexLt

/-- Without a forced host the most capable node is chosen. -/
theorem usefulCapacity_le_chooseHostIndex {c : Constraints} (noHost : c.forceHost = none)
    {node : Node} (member : node ∈ nodes) :
    usefulCapacity node ≤ usefulCapacity (nodes.getD (chooseHostIndex nodes c) default) := by
  obtain ⟨best, _, scanned, greatest⟩ := mostCapable_spec (ne_nil_of_mem member)
  unfold chooseHostIndex
  rw [noHost]
  rw [scanned]
  exact greatest node member

theorem swapAt_perm {j : ℕ} (iLt : i < nodes.length) (jLt : j < nodes.length) :
    (swapAt nodes i j).Perm nodes := by
  unfold swapAt
  rw [getD_eq_getElem _ _ iLt, getD_eq_getElem _ _ jLt]
  exact set_set_perm iLt jLt

theorem head?_swapAt {j : ℕ} (jLt : j < nodes.length) :
    (swapAt nodes 0 j).head? = some (nodes.getD j default) := by
  have zeroLt : 0 < nodes.length := by omega
  unfold swapAt
  rw [head?_eq_getElem?]
  by_cases zero : j = 0
  · subst zero
    simp [getElem?_eq_getElem zeroLt]
  · rw [getElem?_set_ne zero, getElem?_set_self zeroLt]

variable (rt : Runtime)

def canonicalOrder (nodes : List Node) (c : Constraints) : List Node :=
  let ordered := rt.sortSlice (fun first second => first.id < second.id) nodes
  swapAt ordered 0 (chooseHostIndex ordered c)

theorem sortSlice_ne_nil (less : Node → Node → Bool) (nonempty : nodes ≠ []) :
    rt.sortSlice less nodes ≠ [] := by
  intro empty
  have lengths := (rt.sortSlice_perm less nodes).length_eq
  rw [empty] at lengths
  exact nonempty (length_eq_zero_iff.mp lengths.symm)

theorem canonicalOrder_perm (nonempty : nodes ≠ []) (c : Constraints) :
    (canonicalOrder rt nodes c).Perm nodes := by
  have sorted := sortSlice_ne_nil rt (fun first second => first.id < second.id) nonempty
  exact (swapAt_perm (length_pos_iff.mpr sorted)
    (chooseHostIndex_lt sorted c)).trans (rt.sortSlice_perm _ nodes)

theorem isRoute_orderNodes (several : 1 < nodes.length) (model : ModelSpec)
    (links : List Link) (c : Constraints) :
    IsRoute (canonicalOrder rt nodes c) (orderNodes rt nodes model links c) := by
  have nonempty : nodes ≠ [] := ne_nil_of_length_pos (by omega)
  have canonicalNonempty : canonicalOrder rt nodes c ≠ [] := by
    intro empty
    have lengths := (canonicalOrder_perm rt nonempty c).length_eq
    rw [empty] at lengths
    simp only [length_nil] at lengths
    omega
  unfold orderNodes
  rw [if_neg (by omega)]
  split
  · exact isRoute_heldKarpPath canonicalNonempty model links
  · exact isRoute_nearestNeighbor2Opt canonicalNonempty model links

theorem orderNodes_perm (nodes : List Node) (model : ModelSpec) (links : List Link)
    (c : Constraints) : (orderNodes rt nodes model links c).Perm nodes := by
  by_cases several : 1 < nodes.length
  · have nonempty : nodes ≠ [] := ne_nil_of_length_pos (by omega)
    exact (isRoute_orderNodes rt several model links c).perm.trans
      (canonicalOrder_perm rt nonempty c)
  · unfold orderNodes
    rw [if_pos (by omega)]

/-- Without a forced host the pipeline starts at a node of largest capacity. -/
theorem exists_host_orderNodes (nonempty : nodes ≠ []) (model : ModelSpec)
    (links : List Link) {c : Constraints} (noHost : c.forceHost = none) :
    ∃ host, (orderNodes rt nodes model links c).head? = some host ∧
      ∀ node ∈ nodes, usefulCapacity node ≤ usefulCapacity host := by
  by_cases several : 1 < nodes.length
  · have sortedNonempty := sortSlice_ne_nil rt (fun first second => first.id < second.id) nonempty
    refine ⟨_, (isRoute_orderNodes rt several model links c).head_eq.trans
      (head?_swapAt (chooseHostIndex_lt sortedNonempty c)), ?_⟩
    intro node member
    exact usefulCapacity_le_chooseHostIndex noHost ((rt.sortSlice_perm _ nodes).mem_iff.mpr member)
  · obtain ⟨host, rfl⟩ : ∃ host, nodes = [host] := by
      have lengthPos := length_pos_iff.mpr nonempty
      exact length_eq_one_iff.mp (by omega)
    refine ⟨host, rfl, ?_⟩
    intro node member
    rw [mem_singleton.mp member]

theorem idLess_isStrictWeakOrder :
    IsStrictWeakOrder fun first second : Node => first.id < second.id where
  asymm first second less := by
    simp only [decide_eq_true_eq, decide_eq_false_iff_not] at less ⊢
    exact String.lt_asymm less
  trans first second third firstLe secondLe := by
    simp only [decide_eq_false_iff_not, String.not_lt] at firstLe secondLe ⊢
    exact String.le_trans firstLe secondLe

theorem sortSlice_eq_of_perm {nodes' : List Node}
    (distinct : (nodes.map Node.id).Nodup) (perm : nodes.Perm nodes') :
    rt.sortSlice (fun first second => first.id < second.id) nodes =
      rt.sortSlice (fun first second => first.id < second.id) nodes' := by
  have sortedPerm := rt.sortSlice_perm (fun first second => first.id < second.id) nodes
  have sortedPerm' := rt.sortSlice_perm (fun first second => first.id < second.id) nodes'
  refine List.Perm.eq_of_pairwise ?_
    (rt.sortSlice_sorted _ nodes idLess_isStrictWeakOrder)
    (rt.sortSlice_sorted _ nodes' idLess_isStrictWeakOrder)
    (sortedPerm.trans (perm.trans sortedPerm'.symm))
  intro first second firstMem secondMem firstLe secondLe
  simp only [decide_eq_false_iff_not, String.not_lt] at firstLe secondLe
  exact inj_on_of_nodup_map distinct
    (sortedPerm.mem_iff.mp firstMem)
    (perm.mem_iff.mpr (sortedPerm'.mem_iff.mp secondMem))
    (String.le_antisymm firstLe secondLe)

/-- The route depends on the set of nodes only. -/
theorem orderNodes_eq_of_perm {nodes' : List Node}
    (distinct : (nodes.map Node.id).Nodup) (perm : nodes.Perm nodes') (model : ModelSpec)
    (links : List Link) (c : Constraints) :
    orderNodes rt nodes model links c = orderNodes rt nodes' model links c := by
  by_cases several : nodes.length ≤ 1
  · unfold orderNodes
    rw [if_pos several, if_pos (perm.length_eq ▸ several)]
    rcases nodes with _ | ⟨first, _ | ⟨second, rest⟩⟩
    · exact perm.symm.eq_nil.symm
    · exact (perm_singleton.mp perm.symm).symm
    · simp at several
  · have several' : ¬ nodes'.length ≤ 1 := perm.length_eq ▸ several
    unfold orderNodes
    rw [if_neg several, if_neg several', sortSlice_eq_of_perm rt distinct perm, perm.length_eq]

end Purser.Planner
