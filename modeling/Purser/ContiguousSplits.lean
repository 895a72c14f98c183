import Mathlib.Order.BoundedOrder.Lattice
import Mathlib.Order.MinMax
import Mathlib.Data.List.Basic

/-!
# Min-max partitions of a chain

A table that satisfies the Bellman recurrence holds the least cost of a slowest
stage over all splits, and its cut table rebuilds a split that attains it.
-/

namespace Purser.ContiguousSplits

open List

inductive Split : (stages length : ℕ) → Type
  | nil : Split 0 0
  | snoc {stages start stop : ℕ} (front : Split stages start)
      (nonempty : start < stop) : Split (stages + 1) stop

variable {stages length : ℕ} {β : Type*}

namespace Split

def bounds : {stages length : ℕ} → Split stages length → List ℕ
  | _, _, nil => [0]
  | _, length, snoc front _ => front.bounds ++ [length]

def segments : {stages length : ℕ} → Split stages length → List (ℕ × ℕ)
  | _, _, nil => []
  | _, length, @snoc _ start _ front _ => front.segments ++ [(start, length)]

section

variable (split : Split stages length)

include split

@[simp]
theorem bounds_length : split.bounds.length = stages + 1 := by
  induction split with
  | nil => rfl
  | snoc _ _ induction => simp [bounds, induction]

@[simp]
theorem segments_length : split.segments.length = stages := by
  induction split with
  | nil => rfl
  | snoc _ _ induction => simp [segments, induction]

theorem getLast?_bounds : split.bounds.getLast? = some length := by
  cases split with
  | nil => rfl
  | snoc => simp [bounds]

theorem segment_lt : ∀ segment ∈ split.segments, segment.1 < segment.2 ∧ segment.2 ≤ length := by
  induction split with
  | nil => simp [segments]
  | @snoc _ _ _ _ nonempty induction =>
    intro segment member
    simp only [segments, mem_append, mem_singleton] at member
    rcases member with earlier | last
    · have bounded := induction segment earlier
      exact ⟨bounded.1, bounded.2.trans nonempty.le⟩
    · rw [last]
      exact ⟨nonempty, le_rfl⟩

theorem getElem?_segments (stage : ℕ) (stageLt : stage < stages) :
    ∃ start stop, split.bounds[stage]? = some start ∧
      split.bounds[stage + 1]? = some stop ∧ split.segments[stage]? = some (start, stop) := by
  induction split with
  | nil => omega
  | @snoc _ start stop front _ induction =>
    have boundsLength := front.bounds_length
    have segmentsLength := front.segments_length
    rcases Nat.lt_succ_iff_lt_or_eq.mp stageLt with earlier | last
    · obtain ⟨first, second, firstEq, secondEq, segmentEq⟩ :=
        induction earlier
      refine ⟨first, second, ?_, ?_, ?_⟩
      · rw [bounds, getElem?_append_left (by omega), firstEq]
      · rw [bounds, getElem?_append_left (by omega), secondEq]
      · rw [segments, getElem?_append_left (by omega), segmentEq]
    · subst last
      have lastBound := front.getLast?_bounds
      rw [getLast?_eq_getElem?, boundsLength] at lastBound
      refine ⟨start, stop, ?_, ?_, ?_⟩
      · rw [bounds, getElem?_append_left (by omega)]
        exact lastBound
      · rw [bounds]
        simp
      · rw [segments]
        simp

end

section Bottleneck

variable (cost : ℕ → ℕ → ℕ → β)

def stageCosts : {stages length : ℕ} → Split stages length → List β
  | _, _, nil => []
  | _, length, @snoc stages start _ front _ =>
    front.stageCosts ++ [cost (stages + 1) start length]

@[simp]
theorem stageCosts_length {stages length : ℕ} (split : Split stages length) :
    (split.stageCosts cost).length = stages := by
  induction split with
  | nil => rfl
  | snoc _ _ induction => simp [stageCosts, induction]

variable [LinearOrder β] (base : β)

def bottleneck : {stages length : ℕ} → Split stages length → β
  | _, _, nil => base
  | _, length, @snoc stages start _ front _ =>
    max front.bottleneck (cost (stages + 1) start length)

theorem bottleneck_eq_foldl {stages length : ℕ} (split : Split stages length) :
    split.bottleneck cost base = (split.stageCosts cost).foldl max base := by
  induction split with
  | nil => rfl
  | snoc _ _ induction =>
    simp [bottleneck, stageCosts, induction]

end Bottleneck

end Split

section Tables

variable [LinearOrder β] [OrderTop β]

/-- The split points read off a cut table from the last stage back. -/
def walkCuts (cut : ℕ → ℕ → ℕ) : (stages stop : ℕ) → List ℕ
  | 0, stop => [stop]
  | stages + 1, stop => walkCuts cut stages (cut stop (stages + 1)) ++ [stop]

structure CutTable (cost : ℕ → ℕ → ℕ → β) (base : β)
    (length stages : ℕ) where
  value : ℕ → ℕ → β
  cut : ℕ → ℕ → ℕ
  value_zero : value 0 0 = base
  value_no_stage : ∀ stop, 0 < stop → value stop 0 = ⊤
  cut_spec : ∀ stage stop, stage < stages → stop ≤ length →
    value stop (stage + 1) ≠ ⊤ →
      cut stop (stage + 1) < stop ∧
        value stop (stage + 1) = max (value (cut stop (stage + 1)) stage)
            (cost (stage + 1) (cut stop (stage + 1)) stop)

/-- A cut table that no choice of the last segment improves: the min-max
recurrence. -/
structure BellmanTable (cost : ℕ → ℕ → ℕ → β) (base : β)
    (length stages : ℕ) extends CutTable cost base length stages where
  value_le : ∀ stage start stop, stage < stages → start < stop →
    stop ≤ length → value stop (stage + 1) ≤ max (value start stage) (cost (stage + 1) start stop)

variable {cost : ℕ → ℕ → ℕ → β} {base : β}

/-- A possible entry is attained by the split its cut table describes. -/
theorem CutTable.exists_split (table : CutTable cost base length stages) (stage stop : ℕ)
    (stageLe : stage ≤ stages) (stopLe : stop ≤ length) (possible : table.value stop stage ≠ ⊤) :
    ∃ split : Split stage stop,
      split.bounds = walkCuts table.cut stage stop ∧
        split.bottleneck cost base = table.value stop stage := by
  induction stage generalizing stop with
  | zero =>
    have stopZero : stop = 0 := by
      by_contra stopPos
      exact possible (table.value_no_stage stop (Nat.pos_of_ne_zero stopPos))
    subst stopZero
    exact ⟨.nil, rfl, table.value_zero.symm⟩
  | succ stage induction =>
    obtain ⟨cutLt, valueEq⟩ := table.cut_spec stage stop (by omega) stopLe possible
    have frontPossible : table.value (table.cut stop (stage + 1)) stage ≠ ⊤ := by
      intro impossible
      apply possible
      rw [valueEq, impossible]
      exact max_eq_left le_top
    obtain ⟨front, frontBounds, frontValue⟩ :=
      induction (table.cut stop (stage + 1)) (by omega) (by omega) frontPossible
    refine ⟨.snoc front cutLt, ?_, ?_⟩
    · rw [Split.bounds, frontBounds, walkCuts]
    · rw [Split.bottleneck, frontValue, ← valueEq]

namespace BellmanTable

variable (table : BellmanTable cost base length stages)

/-- No split is cheaper than the table says. -/
theorem value_le_bottleneck {stage stop : ℕ} (split : Split stage stop) (stageLe : stage ≤ stages)
    (stopLe : stop ≤ length) : table.value stop stage ≤ split.bottleneck cost base := by
  induction split with
  | nil => exact table.value_zero.le
  | @snoc stage start stop front nonempty induction =>
    have frontLe := induction (by omega) (by omega)
    calc
      table.value stop (stage + 1) ≤ max (table.value start stage) (cost (stage + 1) start stop) :=
        table.value_le stage start stop (by omega) nonempty stopLe
      _ ≤ max (front.bottleneck cost base) (cost (stage + 1) start stop) :=
        max_le_max_right _ frontLe

theorem value_eq_top_iff (stage stop : ℕ) (stageLe : stage ≤ stages) (stopLe : stop ≤ length) :
    table.value stop stage = ⊤ ↔ ∀ split : Split stage stop, split.bottleneck cost base = ⊤ := by
  constructor
  · intro impossible split
    have bounded := table.value_le_bottleneck split stageLe stopLe
    rw [impossible] at bounded
    exact top_le_iff.mp bounded
  · intro allTop
    by_contra possible
    obtain ⟨split, -, value⟩ := table.exists_split stage stop stageLe stopLe possible
    exact possible (value ▸ allTop split)

end BellmanTable

end Tables

end Purser.ContiguousSplits
