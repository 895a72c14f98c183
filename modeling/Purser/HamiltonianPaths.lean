import Mathlib.Algebra.Order.Monoid.Unbundled.WithTop
import Mathlib.Algebra.Order.Monoid.WithTop
import Mathlib.Data.Nat.Bitwise
import Mathlib.Data.List.Induction
import Mathlib.Data.List.Nodup
import Mathlib.Data.List.Perm.Lattice
import Mathlib.Tactic.Ring

/-!
# Least-cost paths through sets of vertices

A table over masks and ends that satisfies the subset recurrence holds the least
cost over all paths from vertex zero, and its parent table rebuilds a path that
attains it.
-/

namespace Purser.HamiltonianPaths

open List

theorem testBit_insert (mask k v : ℕ) :
    (mask ||| 1 <<< k).testBit v = (mask.testBit v || decide (v = k)) := by
  rw [Nat.testBit_or, Nat.one_shiftLeft, Nat.testBit_two_pow]
  simp [eq_comm]

variable {mask k last : ℕ} {path : List ℕ}

theorem testBit_toggle (mask k v : ℕ) :
    (mask ^^^ 1 <<< k).testBit v = (mask.testBit v ^^ decide (v = k)) := by
  rw [Nat.testBit_xor, Nat.one_shiftLeft, Nat.testBit_two_pow]
  simp [eq_comm]

theorem testBit_erase (mask k v : ℕ) (present : mask.testBit k = true) :
    (mask ^^^ 1 <<< k).testBit v = (mask.testBit v && decide (v ≠ k)) := by
  rw [testBit_toggle]
  by_cases same : v = k
  · simp [same, present]
  · simp [same]

theorem erase_insert (absent : mask.testBit k = false) : (mask ||| 1 <<< k) ^^^ 1 <<< k = mask := by
  apply Nat.eq_of_testBit_eq
  intro v
  rw [testBit_toggle, testBit_insert]
  by_cases same : v = k
  · simp [same, absent]
  · simp [same]

theorem insert_erase (present : mask.testBit k = true) : (mask ^^^ 1 <<< k) ||| 1 <<< k = mask := by
  apply Nat.eq_of_testBit_eq
  intro v
  rw [testBit_insert, testBit_erase mask k v present]
  by_cases same : v = k
  · simp [same, present]
  · simp [same]

theorem lt_insert (absent : mask.testBit k = false) : mask < mask ||| 1 <<< k := by
  apply lt_of_le_of_ne Nat.left_le_or
  intro equal
  have bit := congrArg (fun m => m.testBit k) equal
  simp [absent] at bit

structure IsPath (mask last : ℕ) (path : List ℕ) : Prop where
  head_eq : path.head? = some 0
  last_eq : path.getLast? = some last
  nodup : path.Nodup
  mem_iff : ∀ v, v ∈ path ↔ mask.testBit v = true

theorem isPath_start : IsPath 1 0 [0] where
  head_eq := rfl
  last_eq := rfl
  nodup := nodup_singleton 0
  mem_iff v := by
    rw [mem_singleton, Nat.testBit_one_eq_true_iff_self_eq_zero]

theorem IsPath.append (isPath : IsPath mask last path) (absent : mask.testBit k = false) :
    IsPath (mask ||| 1 <<< k) k (path ++ [k]) where
  head_eq := by
    rw [head?_append, isPath.head_eq]
    rfl
  last_eq := by simp
  nodup := by
    have notMem : k ∉ path := by
      intro member
      rw [isPath.mem_iff, absent] at member
      cases member
    rw [nodup_append]
    refine ⟨isPath.nodup, nodup_singleton k, ?_⟩
    intro first firstMem second secondMem equal
    rw [mem_singleton] at secondMem
    exact notMem (secondMem ▸ equal ▸ firstMem)
  mem_iff v := by
    simp only [mem_append, mem_singleton, testBit_insert,
      Bool.or_eq_true, decide_eq_true_eq, isPath.mem_iff]

theorem IsPath.exists_front (isPath : IsPath mask last path) : (mask = 1 ∧ last = 0 ∧ path = [0]) ∨
      ∃ front before, path = front ++ [last] ∧ mask.testBit last = true ∧
        IsPath (mask ^^^ 1 <<< last) before front := by
  obtain ⟨front, pathEq⟩ := getLast?_eq_some_iff.mp isPath.last_eq
  have lastMem : mask.testBit last = true := (isPath.mem_iff last).mp (pathEq ▸ by simp)
  cases frontEq : front with
  | nil =>
    left
    rw [frontEq, nil_append] at pathEq
    have lastZero : last = 0 := by
      have head := isPath.head_eq
      rw [pathEq] at head
      exact Option.some.inj head
    subst lastZero
    refine ⟨?_, rfl, pathEq⟩
    apply Nat.eq_of_testBit_eq
    intro v
    rw [Bool.eq_iff_iff, ← isPath.mem_iff, pathEq, mem_singleton,
      Nat.testBit_one_eq_true_iff_self_eq_zero]
  | cons =>
    right
    have frontLast : ∃ before, front.getLast? = some before := by
      rw [frontEq]
      exact ⟨_, getLast?_eq_some_getLast (by simp)⟩
    obtain ⟨before, beforeEq⟩ := frontLast
    have nodup := isPath.nodup
    rw [pathEq, nodup_append] at nodup
    refine ⟨front, before, pathEq, lastMem, ?_, beforeEq, nodup.1, ?_⟩
    · have head := isPath.head_eq
      rw [pathEq, frontEq] at head
      rw [frontEq]
      exact head
    · intro v
      have memWhole := isPath.mem_iff v
      rw [pathEq, mem_append, mem_singleton] at memWhole
      rw [testBit_erase mask last v lastMem, Bool.and_eq_true, decide_eq_true_eq, ← memWhole]
      constructor
      · intro member
        refine ⟨Or.inl member, ?_⟩
        intro equal
        exact nodup.2.2 v member last (mem_singleton_self last) equal
      · rintro ⟨member | equal, different⟩
        · exact member
        · exact absurd equal different

section Costs

variable {α : Type*} [AddCommMonoid α] (cost : ℕ → ℕ → α)

/-- The sum of the edge costs along a path. -/
def pathCost : List ℕ → α
  | first :: second :: rest => cost first second + pathCost (second :: rest)
  | _ => 0

theorem pathCost_append {path : List ℕ} {last : ℕ} (lastEq : path.getLast? = some last) (k : ℕ) :
    pathCost cost (path ++ [k]) = pathCost cost path + cost last k := by
  induction path with
  | nil => cases lastEq
  | cons _ rest induction =>
    cases rest with
    | nil =>
      simp only [getLast?_singleton, Option.some.injEq] at lastEq
      subst lastEq
      simp [pathCost]
    | cons =>
      have tailCost := induction lastEq
      simp only [cons_append, pathCost] at tailCost ⊢
      rw [tailCost, add_assoc]

end Costs

def walkBack (parent : ℕ → ℕ → ℕ) : (steps mask last : ℕ) → List ℕ
  | 0, _, _ => []
  | steps + 1, mask, last =>
    walkBack parent steps (mask ^^^ 1 <<< last) (parent mask last) ++ [last]

/-- A table of path costs over the masks of `count` vertices: every possible entry
is the start or extends a possible entry by one edge, and no extension is cheaper
than its entry. -/
structure PathTable {α : Type*} [AddCommMonoid α] [LinearOrder α]
    (cost : ℕ → ℕ → α) (count : ℕ) where
  value : ℕ → ℕ → WithTop α
  parent : ℕ → ℕ → ℕ
  value_start : value 1 0 = 0
  parent_spec : ∀ mask last, value mask last ≠ ⊤ →
    mask = 1 ∧ last = 0 ∨
      ∃ front, front.testBit last = false ∧ mask = front ||| 1 <<< last ∧
        value mask last =
          value front (parent mask last) + (cost (parent mask last) last : WithTop α)
  value_le : ∀ front before last, front < 2 ^ count → front.testBit 0 = true →
    front.testBit before = true → last < count → front.testBit last = false →
      value (front ||| 1 <<< last) last ≤ value front before + (cost before last : WithTop α)

namespace PathTable

variable {α : Type*} [AddCommMonoid α] [LinearOrder α] {cost : ℕ → ℕ → α} {count : ℕ}
  (table : PathTable cost count)

/-- A possible entry is attained by the path its parents describe. -/
theorem exists_path (mask last : ℕ) (possible : table.value mask last ≠ ⊤) :
    ∃ path, IsPath mask last path ∧
      walkBack table.parent path.length mask last = path ∧
        table.value mask last = ((pathCost cost path : α) : WithTop α) := by
  induction mask using Nat.strong_induction_on generalizing last with
  | _ mask induction =>
    rcases table.parent_spec mask last possible with
      ⟨rfl, rfl⟩ | ⟨front, absent, rfl, valueEq⟩
    · exact ⟨[0], isPath_start, rfl, table.value_start⟩
    · have frontPossible : table.value front (table.parent (front ||| 1 <<< last) last) ≠ ⊤ := by
        intro impossible
        apply possible
        rw [valueEq, impossible, WithTop.top_add]
      obtain ⟨path, isPath, walked, pathValue⟩ :=
        induction front (lt_insert absent) _ frontPossible
      refine ⟨path ++ [last], isPath.append absent, ?_, ?_⟩
      · rw [length_append, length_singleton, walkBack, erase_insert absent, walked]
      · rw [valueEq, pathValue, pathCost_append cost isPath.last_eq, WithTop.coe_add]

/-- No path is cheaper than the table says. -/
theorem value_le_pathCost [IsOrderedAddMonoid α] (mask last : ℕ) (path : List ℕ)
    (isPath : IsPath mask last path) (maskLt : mask < 2 ^ count) :
    table.value mask last ≤ ((pathCost cost path : α) : WithTop α) := by
  induction path using List.reverseRecOn generalizing mask last with
  | nil => exact absurd isPath.head_eq (by simp)
  | append_singleton front final induction =>
    rcases isPath.exists_front with
      ⟨rfl, rfl, pathEq⟩ | ⟨front', before, pathEq, present, frontPath⟩
    · rw [pathEq, table.value_start]
      exact le_rfl
    · obtain ⟨rfl, rfl⟩ : front = front' ∧ final = last := by
        have parts := append_inj' pathEq rfl
        exact ⟨parts.1, singleton_inj.mp parts.2⟩
      have finalLt : final < count := by
        by_contra large
        have small : mask < 2 ^ final :=
          maskLt.trans_le (Nat.pow_le_pow_right (by omega) (by omega))
        rw [Nat.testBit_lt_two_pow small] at present
        cases present
      have absent : (mask ^^^ 1 <<< final).testBit final = false := by
        rw [testBit_erase mask final final present]
        simp
      have startMem : (mask ^^^ 1 <<< final).testBit 0 = true :=
        (frontPath.mem_iff 0).mp (mem_of_mem_head? frontPath.head_eq)
      have beforeMem : (mask ^^^ 1 <<< final).testBit before = true := (frontPath.mem_iff before).mp
          (mem_of_getLast? frontPath.last_eq)
      have frontLt : mask ^^^ 1 <<< final < 2 ^ count := by
        have smaller := lt_insert absent
        rw [insert_erase present] at smaller
        exact smaller.trans maskLt
      have bounded := induction _ before frontPath frontLt
      have extended := table.value_le _ before final frontLt startMem beforeMem finalLt absent
      rw [insert_erase present] at extended
      rw [pathCost_append cost frontPath.last_eq]
      exact extended.trans (add_le_add_left bounded _)

end PathTable

theorem IsPath.perm_range {count : ℕ} (isPath : IsPath (2 ^ count - 1) last path) :
    path.Perm (List.range count) := by
  rw [perm_ext_iff_of_nodup isPath.nodup nodup_range]
  intro v
  rw [isPath.mem_iff, mem_range, Nat.testBit_two_pow_sub_one, decide_eq_true_eq]

theorem isPath_of_perm_range {count : ℕ} (perm : path.Perm (List.range count))
    (headEq : path.head? = some 0) (lastEq : path.getLast? = some last) :
    IsPath (2 ^ count - 1) last path where
  head_eq := headEq
  last_eq := lastEq
  nodup := perm.nodup_iff.mpr nodup_range
  mem_iff v := by
    rw [perm.mem_iff, mem_range, Nat.testBit_two_pow_sub_one, decide_eq_true_eq]

end Purser.HamiltonianPaths
