import Purser.HamiltonianPaths
import Purser.PlannerOrdering

/-!
# The Held-Karp program

Masks are extended in increasing order and an extension only touches larger
masks, so the row that is being extended is final.
-/

namespace Purser.Planner

open RangeLoops HamiltonianPaths KeyedTables

namespace PathTables

structure Consistent (cost : ℕ → ℕ → ℚ) (mask : ℕ) (tables : PathTables) :
    Prop where
  start : tables.dp 1 0 = 0
  parents : ∀ visited last, tables.dp visited last ≠ ⊤ →
    visited = 1 ∧ last = 0 ∨
      ∃ front, front ≤ mask ∧ front.testBit last = false ∧
        visited = front ||| 1 <<< last ∧
          tables.dp visited last = tables.dp front (tables.parent visited last).toNat +
              (cost (tables.parent visited last).toNat last : WithTop ℚ)

def Settled (cost : ℕ → ℕ → ℚ) (front before last : ℕ) (tables : PathTables) :
    Prop :=
  front.testBit last = false →
    tables.dp (front ||| 1 <<< last) last ≤ tables.dp front before + (cost before last : WithTop ℚ)

/-- The tables may only improve, and rows up to `mask` stay. -/
structure Improves (cost : ℕ → ℕ → ℚ) (mask : ℕ) (before after : PathTables) :
    Prop where
  frame : ∀ visited, visited ≤ mask → after.dp visited = before.dp visited
  le : ∀ visited last, after.dp visited last ≤ before.dp visited last
  consistent : Consistent cost mask before → Consistent cost mask after

namespace Improves

variable {cost : ℕ → ℕ → ℚ} {mask : ℕ}

theorem refl (tables : PathTables) : Improves cost mask tables tables :=
  ⟨fun _ _ => rfl, fun _ _ => le_rfl, id⟩

theorem trans {first second third : PathTables} (earlier : Improves cost mask first second)
    (later : Improves cost mask second third) :
    Improves cost mask first third where
  frame visited le := (later.frame visited le).trans (earlier.frame visited le)
  le visited last := (later.le visited last).trans (earlier.le visited last)
  consistent holds := later.consistent (earlier.consistent holds)

theorem settled {before after : PathTables} {front previous last : ℕ}
    (improves : Improves cost mask before after) (frontLe : front ≤ mask)
    (settled : Settled cost front previous last before) :
    Settled cost front previous last after := by
  intro absent
  rw [improves.frame front frontLe]
  exact (improves.le _ _).trans (settled absent)

/-- A loop of improvements is an improvement, and keeps what each of its
iterations settles. -/
theorem foldl_range (body : PathTables → ℕ → PathTables) (count : ℕ) (init : PathTables)
    (property : ℕ → PathTables → Prop) (step : ∀ tables index, index < count →
      Improves cost mask tables (body tables index) ∧ property index (body tables index))
    (keep : ∀ index before after, Improves cost mask before after →
      property index before → property index after) :
    Improves cost mask init ((List.range count).foldl body init) ∧
      ∀ index, index < count → property index ((List.range count).foldl body init) := by
  apply foldl_range_invariant body (fun next tables => Improves cost mask init tables ∧
      ∀ index, index < next → property index tables) count init
  · exact ⟨refl init, fun index impossible => absurd impossible (by omega)⟩
  · intro next tables nextLt ⟨improves, settledBefore⟩
    obtain ⟨stepImproves, stepSettles⟩ := step tables next nextLt
    refine ⟨improves.trans stepImproves, ?_⟩
    intro index indexLt
    rcases Nat.lt_succ_iff_lt_or_eq.mp indexLt with before | rfl
    · exact keep index _ _ stepImproves (settledBefore index before)
    · exact stepSettles

end Improves

variable {mask : ℕ}

section

variable (cost : ℕ → ℕ → ℚ) (count : ℕ)

theorem improves_extend (hasStart : mask.testBit 0 = true) (j : ℕ)
    (tables : PathTables) (k : ℕ) : Improves cost mask tables (extend cost mask j tables k) := by
  unfold extend
  by_cases present : mask.testBit k = true
  · rw [if_pos present]
    exact Improves.refl tables
  rw [if_neg present]
  have absent : mask.testBit k = false := by simpa using present
  by_cases improves : tables.dp mask j + (cost j k : WithTop ℚ) < tables.dp (mask ||| 1 <<< k) k
  swap
  · rw [if_neg improves]
    exact Improves.refl tables
  rw [if_pos improves]
  have larger : mask < mask ||| 1 <<< k := lt_insert absent
  have frame : ∀ visited, visited ≤ mask → Function.update tables.dp (mask ||| 1 <<< k)
        (Function.update (tables.dp (mask ||| 1 <<< k)) k
          (tables.dp mask j + (cost j k : WithTop ℚ))) visited =
        tables.dp visited := by
    intro visited le
    exact Function.update_of_ne (by omega) _ _
  refine ⟨frame, ?_, ?_⟩
  · intro visited last
    by_cases target : visited = mask ||| 1 <<< k ∧ last = k
    · obtain ⟨rfl, rfl⟩ := target
      simpa using improves.le
    · exact (update_entry_of_ne _ _ target).le
  · intro consistent
    have startNe : (1 : ℕ) ≠ mask ||| 1 <<< k := by
      have one : 1 ≤ mask := by
        by_contra zero
        obtain rfl : mask = 0 := by omega
        simp at hasStart
      omega
    refine ⟨?_, ?_⟩
    · simpa [Function.update_of_ne startNe] using consistent.start
    · intro visited last possible
      by_cases target : visited = mask ||| 1 <<< k ∧ last = k
      · obtain ⟨rfl, rfl⟩ := target
        right
        refine ⟨mask, le_rfl, absent, rfl, ?_⟩
        simp [Function.update_of_ne larger.ne]
      · simp only [update_entry_of_ne _ _ target] at possible ⊢
        rcases consistent.parents visited last possible with
          isStart | ⟨front, frontLe, frontAbsent, visitedEq, valueEq⟩
        · exact Or.inl isStart
        · right
          refine ⟨front, frontLe, frontAbsent, visitedEq, ?_⟩
          rw [frame front frontLe]
          exact valueEq

theorem settled_extend (mask j : ℕ) (tables : PathTables) (k : ℕ) :
    Settled cost mask j k (extend cost mask j tables k) := by
  intro absent
  unfold extend
  rw [if_neg (by simp [absent])]
  have larger : mask < mask ||| 1 <<< k := lt_insert absent
  simp only
  split
  · simp [Function.update_of_ne larger.ne]
  · rename_i notBetter
    exact not_lt.mp notBetter

theorem extendEnd_spec (hasStart : mask.testBit 0 = true) (tables : PathTables) (j : ℕ) :
    Improves cost mask tables (extendEnd cost count mask tables j) ∧
      (mask.testBit j = true → ∀ k, k < count →
        Settled cost mask j k (extendEnd cost count mask tables j)) := by
  unfold extendEnd
  split
  · rename_i skipped
    refine ⟨Improves.refl tables, ?_⟩
    intro present k _ _
    have impossible : tables.dp mask j = ⊤ := by
      rcases skipped with absent | impossible
      · simp [present] at absent
      · exact impossible
    rw [impossible]
    exact le_top
  · obtain ⟨improves, settled⟩ := Improves.foldl_range (extend cost mask j)
      count tables (fun k => Settled cost mask j k)
      (fun tables k _ => ⟨improves_extend cost hasStart j tables k,
        settled_extend cost mask j tables k⟩)
      (fun k before after improves => improves.settled le_rfl)
    exact ⟨improves, fun _ => settled⟩

theorem extendMask_spec (count mask : ℕ) (tables : PathTables) :
    Improves cost mask tables (extendMask cost count tables mask) ∧
      (mask.testBit 0 = true → ∀ j, j < count → mask.testBit j = true →
        ∀ k, k < count → Settled cost mask j k (extendMask cost count tables mask)) := by
  unfold extendMask
  split
  · rename_i noStart
    refine ⟨Improves.refl tables, ?_⟩
    intro hasStart
    simp [hasStart] at noStart
  · rename_i hasStart
    have hasStart' : mask.testBit 0 = true := by simpa using hasStart
    obtain ⟨improves, settled⟩ := Improves.foldl_range
      (extendEnd cost count mask) count tables
      (fun j tables => mask.testBit j = true → ∀ k, k < count → Settled cost mask j k tables)
      (fun tables j _ => extendEnd_spec cost count hasStart' tables j)
      (fun j before after improves settled present k kLt =>
        improves.settled le_rfl (settled present k kLt))
    exact ⟨improves, fun _ => settled⟩

theorem consistent_initial : Consistent cost 0 initial where
  start := rfl
  parents visited last possible := by
    left
    by_contra other
    exact possible (if_neg other)

theorem Consistent.mono {cost : ℕ → ℕ → ℚ} {mask' : ℕ} {tables : PathTables}
    (consistent : Consistent cost mask tables) (le : mask ≤ mask') :
    Consistent cost mask' tables := by
  refine ⟨consistent.start, ?_⟩
  intro visited last possible
  rcases consistent.parents visited last possible with
    isStart | ⟨front, frontLe, rest⟩
  · exact Or.inl isStart
  · exact Or.inr ⟨front, frontLe.trans le, rest⟩

theorem fill_spec : Consistent cost (2 ^ count) (fill cost count) ∧
      ∀ front, front < 2 ^ count → front.testBit 0 = true →
        ∀ j, j < count → front.testBit j = true → ∀ k, k < count →
          Settled cost front j k (fill cost count) := by
  apply foldl_range_invariant (extendMask cost count)
    (fun next tables => Consistent cost next tables ∧
      ∀ front, front < next → front.testBit 0 = true →
        ∀ j, j < count → front.testBit j = true → ∀ k, k < count →
          Settled cost front j k tables) (2 ^ count) initial
  · exact ⟨consistent_initial cost, fun front impossible => absurd impossible (by omega)⟩
  · intro mask tables _ ⟨consistent, settledBefore⟩
    obtain ⟨improves, settles⟩ := extendMask_spec cost count mask tables
    refine ⟨(improves.consistent consistent).mono (Nat.le_succ mask), ?_⟩
    intro front frontLt hasStart j jLt jPresent k kLt
    rcases Nat.lt_succ_iff_lt_or_eq.mp frontLt with before | rfl
    · exact improves.settled before.le (settledBefore front before hasStart j jLt jPresent k kLt)
    · exact settles hasStart j jLt jPresent k kLt

def pathTable : PathTable cost count where
  value := (fill cost count).dp
  parent mask last := ((fill cost count).parent mask last).toNat
  value_start := (fill_spec cost count).1.start
  parent_spec mask last possible := by
    rcases (fill_spec cost count).1.parents mask last possible with
      isStart | ⟨front, _, rest⟩
    · exact Or.inl isStart
    · exact Or.inr ⟨front, rest⟩
  value_le front before last frontLt hasStart present lastLt := by
    have beforeLt : before < count := by
      by_contra large
      have small : front < 2 ^ before :=
        frontLt.trans_le (Nat.pow_le_pow_right (by omega) (by omega))
      rw [Nat.testBit_lt_two_pow small] at present
      cases present
    exact (fill_spec cost count).2 front frontLt hasStart before beforeLt present last lastLt

theorem bestEnd_le (tables : PathTables) {count j : ℕ} (jLt : j < count) :
    tables.dp (2 ^ count - 1) (tables.bestEnd count) ≤ tables.dp (2 ^ count - 1) j := by
  obtain ⟨_, least, _⟩ := foldl_selects_first
    (fun first second : WithTop ℚ => first < second)
    (tables.dp (2 ^ count - 1)) count
    (fun first second less => less.asymm)
    (fun first second third less => (lt_or_ge first second).imp_right fun le => le.trans_lt less)
    (by omega)
  have scanned := foldl_selects_pair
    (fun first second : WithTop ℚ => first < second)
    (tables.dp (2 ^ count - 1)) (List.range' 1 (count - 1)) 0
  unfold bestEnd
  simp only
  rw [scanned]
  exact not_lt.mp (least j jLt)

/-- Every path through all vertices bounds the entry at the chosen end. -/
theorem bestEnd_le_pathCost {count : ℕ} {path : List ℕ}
    (headEq : path.head? = some 0) (perm : path.Perm (List.range count)) :
    (fill cost count).dp (2 ^ count - 1) ((fill cost count).bestEnd count) ≤
      ((pathCost cost path : ℚ) : WithTop ℚ) := by
  have nonempty : path ≠ [] := by
    rintro rfl
    cases headEq
  have lastLt : path.getLast nonempty < count :=
    List.mem_range.mp (perm.mem_iff.mp (List.getLast_mem nonempty))
  have isPath := isPath_of_perm_range perm headEq (List.getLast?_eq_some_getLast nonempty)
  have fullLt : 2 ^ count - 1 < 2 ^ count := Nat.sub_lt (Nat.two_pow_pos count) Nat.one_pos
  calc (fill cost count).dp (2 ^ count - 1) ((fill cost count).bestEnd count)
      ≤ (fill cost count).dp (2 ^ count - 1) (path.getLast nonempty) := bestEnd_le _ lastLt
    _ ≤ ((pathCost cost path : ℚ) : WithTop ℚ) :=
        (pathTable cost count).value_le_pathCost _ _ path isPath fullLt

end

end PathTables

theorem walkParents_eq_walkBack (parent : ℕ → ℕ → ℤ) (steps mask j : ℕ) :
    walkParents parent steps mask j =
      walkBack (fun mask last => (parent mask last).toNat) steps mask j := by
  induction steps generalizing mask j with
  | zero => rfl
  | succ _ induction => rw [walkParents, walkBack, induction]

/-- The path of the tables visits every vertex once, from vertex zero on, and no
such path is cheaper. -/
theorem walkParents_fill (cost : ℕ → ℕ → ℚ) {count : ℕ} (nonempty : 0 < count) :
    let tables := PathTables.fill cost count
    let path := walkParents tables.parent count (2 ^ count - 1) (tables.bestEnd count)
    path.head? = some 0 ∧ path.Perm (List.range count) ∧
      ∀ other : List ℕ, other.head? = some 0 → other.Perm (List.range count) →
        pathCost cost path ≤ pathCost cost other := by
  intro tables path
  have possible : tables.dp (2 ^ count - 1) (tables.bestEnd count) ≠ ⊤ := by
    have inOrder := PathTables.bestEnd_le_pathCost cost
      (show (List.range count).head? = some 0 by
        simp [List.head?_range, nonempty.ne']) (List.Perm.refl _)
    exact ne_top_of_le_ne_top WithTop.coe_ne_top inOrder
  obtain ⟨found, isPath, walked, valueEq⟩ :=
    (PathTables.pathTable cost count).exists_path _ _ possible
  have foundPerm := isPath.perm_range
  have lengthEq : found.length = count := by
    rw [foundPerm.length_eq, List.length_range]
  have pathEq : path = found := by
    rw [lengthEq] at walked
    exact (walkParents_eq_walkBack _ _ _ _).trans walked
  rw [pathEq]
  refine ⟨isPath.head_eq, foundPerm, ?_⟩
  intro other headEq perm
  have least := PathTables.bestEnd_le_pathCost cost headEq perm
  change (PathTables.pathTable cost count).value _ _ ≤ _ at least
  rw [valueEq] at least
  exact WithTop.coe_le_coe.mp least

end Purser.Planner
