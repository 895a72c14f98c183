import Purser.PlannerPartition
import Purser.ContiguousSplits

/-!
# The partition tables satisfy the min-max recurrence

One relaxation preserves a column invariant indexed by the pairs relaxed so far,
and the loops extend these to all the pairs they reach before the early exit.
-/

namespace Purser.Planner.DpTables

open RangeLoops ContiguousSplits KeyedTables

variable {stage : ℕ → ℕ → ℕ → WithTop ℚ} {m : ℕ}

theorem relax_of_ne (tables : DpTables) {m' : ℕ} (i j j' : ℕ) (bottleneck : WithTop ℚ)
    (other : m' ≠ m) : (tables.relax m i j bottleneck).dp j' m' = tables.dp j' m' ∧
      (tables.relax m i j bottleneck).cut j' m' = tables.cut j' m' := by
  unfold relax
  split
  · exact ⟨update_entry_of_ne _ _ fun same => other same.2,
      update_entry_of_ne _ _ fun same => other same.2⟩
  · exact ⟨rfl, rfl⟩

theorem relax_column (tables : DpTables) (m i j j' : ℕ) (bottleneck : WithTop ℚ) :
    (tables.relax m i j bottleneck).dp j' m = tables.dp j' m ∧
        (tables.relax m i j bottleneck).cut j' m = tables.cut j' m ∧
          (j' = j → tables.dp j' m ≤ bottleneck) ∨
      j' = j ∧ bottleneck < tables.dp j m ∧
        (tables.relax m i j bottleneck).dp j' m = bottleneck ∧
          (tables.relax m i j bottleneck).cut j' m = i := by
  unfold relax
  split
  · rename_i improves
    by_cases same : j' = j
    · subst same
      simp [improves]
    · simp [same]
  · rename_i keeps
    left
    refine ⟨rfl, rfl, ?_⟩
    intro same
    rw [same]
    exact not_lt.mp keeps

/-- The inner loop that starts at `i` gets as far as `j`: no earlier shard makes
it break. -/
structure Reached (stage : ℕ → ℕ → ℕ → WithTop ℚ) (layers m i j : ℕ) : Prop where
  nonempty : i < j
  stop_le : j ≤ layers
  fits : ∀ j', i < j' → j' ≤ j → stage m i j' ≠ ⊤

structure ColumnInvariant (stage : ℕ → ℕ → ℕ → WithTop ℚ) (before : DpTables)
    (m : ℕ) (relaxed : ℕ → ℕ → Prop) (tables : DpTables) : Prop where
  dp_frame : ∀ j m', m' ≠ m + 1 → tables.dp j m' = before.dp j m'
  cut_frame : ∀ j m', m' ≠ m + 1 → tables.cut j m' = before.cut j m'
  dp_le : ∀ i j, relaxed i j → tables.dp j (m + 1) ≤ max (before.dp i m) (stage (m + 1) i j)
  attained : ∀ j, tables.dp j (m + 1) ≠ ⊤ →
    ∃ i, i < j ∧ tables.cut j (m + 1) = i ∧
      tables.dp j (m + 1) = max (before.dp i m) (stage (m + 1) i j)

namespace ColumnInvariant

variable {before tables : DpTables} {m : ℕ} {relaxed : ℕ → ℕ → Prop}

theorem weaken {fewer : ℕ → ℕ → Prop} (invariant : ColumnInvariant stage before m relaxed tables)
    (subset : ∀ i j, fewer i j → relaxed i j ∨ max (before.dp i m) (stage (m + 1) i j) = ⊤) :
    ColumnInvariant stage before m fewer tables where
  dp_frame := invariant.dp_frame
  cut_frame := invariant.cut_frame
  dp_le i j wanted := by
    rcases subset i j wanted with done | impossible
    · exact invariant.dp_le i j done
    · rw [impossible]
      exact le_top
  attained := invariant.attained

theorem relax {i j : ℕ} (invariant : ColumnInvariant stage before m relaxed tables)
    (nonempty : i < j) :
    ColumnInvariant stage before m
      (fun i' j' => relaxed i' j' ∨ i' = i ∧ j' = j)
      (tables.relax (m + 1) i j (max (before.dp i m) (stage (m + 1) i j))) where
  dp_frame j' m' other := by
    rw [(relax_of_ne tables i j j' _ other).1, invariant.dp_frame j' m' other]
  cut_frame j' m' other := by
    rw [(relax_of_ne tables i j j' _ other).2, invariant.cut_frame j' m' other]
  dp_le i' j' wanted := by
    rcases relax_column tables (m + 1) i j j'
        (max (before.dp i m) (stage (m + 1) i j)) with kept | changed
    · obtain ⟨sameValue, -, bounded⟩ := kept
      rw [sameValue]
      rcases wanted with earlier | ⟨rfl, rfl⟩
      · exact invariant.dp_le i' j' earlier
      · exact bounded rfl
    · obtain ⟨rfl, improves, newValue, -⟩ := changed
      rw [newValue]
      rcases wanted with earlier | ⟨rfl, -⟩
      · exact improves.le.trans (invariant.dp_le i' j' earlier)
      · exact le_rfl
  attained j' possible := by
    rcases relax_column tables (m + 1) i j j'
        (max (before.dp i m) (stage (m + 1) i j)) with kept | changed
    · obtain ⟨sameValue, sameCut, -⟩ := kept
      rw [sameValue] at possible ⊢
      rw [sameCut]
      exact invariant.attained j' possible
    · obtain ⟨rfl, -, newValue, newCut⟩ := changed
      exact ⟨i, nonempty, newCut, newValue⟩

/-- The inner loop relaxes every pair that starts at `i` and that it reaches. -/
theorem relaxFrom {i : ℕ} (layers : ℕ) (invariant : ColumnInvariant stage before m relaxed tables) :
    ColumnInvariant stage before m
      (fun i' j' => relaxed i' j' ∨ i' = i ∧ Reached stage layers (m + 1) i j')
      (tables.relaxFrom stage layers (m + 1) i) := by
  apply foldlBreak_range'_invariant (fun next => ColumnInvariant stage before m
      (fun i' j' => relaxed i' j' ∨ i' = i ∧ i < j' ∧ j' < next))
  · apply invariant.weaken
    rintro i' j' (earlier | ⟨-, low, high⟩)
    · exact Or.inl earlier
    · omega
  · intro j state next low high holds continues
    simp only [Nat.add_sub_cancel] at continues
    split at continues
    · cases continues
    · cases continues
      rw [holds.dp_frame i m (by omega)]
      apply (holds.relax (show i < j by omega)).weaken
      rintro i' j' (earlier | ⟨rfl, startLt, stopLt⟩)
      · exact Or.inl (Or.inl (Or.inl earlier))
      · rcases Nat.lt_succ_iff_lt_or_eq.mp stopLt with before | last
        · exact Or.inl (Or.inl (Or.inr ⟨rfl, startLt, before⟩))
        · exact Or.inl (Or.inr ⟨rfl, last⟩)
  · intro j state low high holds stops
    have overflow : stage (m + 1) i j = ⊤ := by
      by_contra fits
      simp [fits] at stops
    apply holds.weaken
    rintro i' j' (earlier | ⟨rfl, reached⟩)
    · exact Or.inl (Or.inl earlier)
    · -- a pair past the early exit is not reached
      have before : j' < j := by
        by_contra past
        exact reached.fits j (by omega) (by omega) overflow
      exact Or.inl (Or.inr ⟨rfl, reached.nonempty, before⟩)
  · intro state holds
    apply holds.weaken
    rintro i' j' (earlier | ⟨rfl, reached⟩)
    · exact Or.inl (Or.inl earlier)
    · have stopLe := reached.stop_le
      have startLt := reached.nonempty
      exact Or.inl (Or.inr ⟨rfl, startLt, by omega⟩)

/-- The middle loop relaxes every pair that its inner loops reach. -/
theorem fillColumn (layers : ℕ)
    (invariant : ColumnInvariant stage before m (fun _ _ => False) tables) :
    ColumnInvariant stage before m (Reached stage layers (m + 1))
      (tables.fillColumn stage layers (m + 1)) := by
  have filled := foldl_range_invariant
    (fun tables i =>
      if tables.dp i (m + 1 - 1) = ⊤ then tables
      else DpTables.relaxFrom stage layers (m + 1) tables i)
    (fun next => ColumnInvariant stage before m
      (fun i j => i < next ∧ Reached stage layers (m + 1) i j))
    (layers + 1) tables
    (invariant.weaken fun i j wanted => absurd wanted.1 (Nat.not_lt_zero i))
    (by
      intro i state _ holds
      simp only [Nat.add_sub_cancel]
      have sameEntry := holds.dp_frame i m (by omega)
      split
      · rename_i impossible
        rw [sameEntry] at impossible
        apply holds.weaken
        rintro i' j' ⟨startLt, reached⟩
        rcases Nat.lt_succ_iff_lt_or_eq.mp startLt with earlier | last
        · exact Or.inl ⟨earlier, reached⟩
        · right
          rw [last, impossible]
          exact max_eq_left le_top
      · apply (holds.relaxFrom layers).weaken
        rintro i' j' ⟨startLt, reached⟩
        rcases Nat.lt_succ_iff_lt_or_eq.mp startLt with earlier | last
        · exact Or.inl (Or.inl ⟨earlier, reached⟩)
        · subst last
          exact Or.inl (Or.inr ⟨rfl, reached⟩))
  apply filled.weaken
  intro i j reached
  have startLt := reached.nonempty
  have stopLe := reached.stop_le
  exact Or.inl ⟨by omega, reached⟩

end ColumnInvariant

/-- The columns up to `m` satisfy the recurrence, the later ones are empty. -/
structure FilledTo (stage : ℕ → ℕ → ℕ → WithTop ℚ) (layers m : ℕ)
    (tables : DpTables) : Prop where
  dp_zero : tables.dp 0 0 = 0
  dp_no_node : ∀ j, 0 < j → tables.dp j 0 = ⊤
  dp_le : ∀ m' i j, m' < m → Reached stage layers (m' + 1) i j →
    tables.dp j (m' + 1) ≤ max (tables.dp i m') (stage (m' + 1) i j)
  attained : ∀ m' j, m' < m → tables.dp j (m' + 1) ≠ ⊤ →
    ∃ i, i < j ∧ tables.cut j (m' + 1) = i ∧
      tables.dp j (m' + 1) = max (tables.dp i m') (stage (m' + 1) i j)
  dp_later : ∀ m' j, m < m' → tables.dp j m' = ⊤

theorem filledTo_initial (layers : ℕ) : FilledTo stage layers 0 initial where
  dp_zero := rfl
  dp_no_node j stopPos := by simp [initial, stopPos.ne']
  dp_le m' i j lt := by omega
  attained m' j lt := by omega
  dp_later m' j lt := by
    have notZero : m' ≠ 0 := by omega
    simp [initial, notZero]

theorem FilledTo.fillColumn {layers : ℕ} {tables : DpTables}
    (filled : FilledTo stage layers m tables) :
    FilledTo stage layers (m + 1) (tables.fillColumn stage layers (m + 1)) := by
  have start : ColumnInvariant stage tables m (fun _ _ => False) tables :=
    { dp_frame := fun _ _ _ => rfl
      cut_frame := fun _ _ _ => rfl
      dp_le := fun _ _ impossible => impossible.elim
      attained := fun j possible =>
        absurd (filled.dp_later (m + 1) j (by omega)) possible }
  have column := start.fillColumn layers
  constructor
  · rw [column.dp_frame 0 0 (by omega), filled.dp_zero]
  · intro j stopPos
    rw [column.dp_frame j 0 (by omega), filled.dp_no_node j stopPos]
  · intro m' i j lt reached
    rw [column.dp_frame i m' (by omega)]
    rcases Nat.lt_succ_iff_lt_or_eq.mp lt with earlier | rfl
    · rw [column.dp_frame j (m' + 1) (by omega)]
      exact filled.dp_le m' i j earlier reached
    · exact column.dp_le i j reached
  · intro m' j lt possible
    simp only [fun i => column.dp_frame i m' (by omega)]
    rcases Nat.lt_succ_iff_lt_or_eq.mp lt with earlier | rfl
    · rw [column.dp_frame j (m' + 1) (by omega)] at possible ⊢
      rw [column.cut_frame j (m' + 1) (by omega)]
      exact filled.attained m' j earlier possible
    · exact column.attained j possible
  · intro m' j later
    rw [column.dp_frame j m' (by omega)]
    exact filled.dp_later m' j (by omega)

section

variable (stage : ℕ → ℕ → ℕ → WithTop ℚ) (layers nodes : ℕ)

theorem filledTo_fill : FilledTo stage layers nodes (fill stage layers nodes) := by
  have filled := foldl_range'_invariant (DpTables.fillColumn stage layers)
    (fun next tables => FilledTo stage layers (next - 1) tables) 1 nodes
    initial (filledTo_initial layers)
    (by
      intro m tables low _ holds
      have extended := holds.fillColumn
      have column : m - 1 + 1 = m := by omega
      rw [column] at extended
      exact extended)
  have lastColumn : 1 + nodes - 1 = nodes := by omega
  rwa [lastColumn] at filled

def cutTable : CutTable stage 0 layers nodes where
  value := (fill stage layers nodes).dp
  cut j m := ((fill stage layers nodes).cut j m).toNat
  value_zero := (filledTo_fill stage layers nodes).dp_zero
  value_no_stage := (filledTo_fill stage layers nodes).dp_no_node
  cut_spec m j lt _ possible := by
    obtain ⟨i, startLt, cutEq, valueEq⟩ :=
      (filledTo_fill stage layers nodes).attained m j lt possible
    rw [cutEq]
    exact ⟨by simpa using startLt, by simpa using valueEq⟩

/-- When an overflowing stage stays overflowing for longer shards, the early
exit loses nothing and the filled tables satisfy the recurrence. -/
def bellmanTable (prunes : ∀ m i j j', stage m i j = ⊤ → j ≤ j' → stage m i j' = ⊤) :
    BellmanTable stage 0 layers nodes where
  toCutTable := cutTable stage layers nodes
  value_le m i j lt nonempty stopLe := by
    by_cases overflow : stage (m + 1) i j = ⊤
    · rw [overflow, max_eq_right le_top]
      exact le_top
    · apply (filledTo_fill stage layers nodes).dp_le m i j lt
      refine ⟨nonempty, stopLe, ?_⟩
      intro j' _ stopLe' overflow'
      exact overflow (prunes (m + 1) i j' j overflow' stopLe')

end

end Purser.Planner.DpTables
