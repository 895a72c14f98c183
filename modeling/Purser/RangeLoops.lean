import Mathlib.Data.List.Basic
import Mathlib.Data.Nat.Init
import Mathlib.Order.Lattice

/-!
# Counting loops

Each loop comes with the rule that derives what holds after it from what one
iteration preserves.
-/

namespace Purser.RangeLoops

variable {σ ι : Type*} {α : Type*}

def foldlBreak (body : σ → ι → Option σ) : σ → List ι → σ
  | state, [] => state
  | state, index :: indices =>
    match body state index with
    | none => state
    | some next => foldlBreak body next indices

variable (body : σ → ℕ → σ) (motive : ℕ → σ → Prop) (start length : ℕ) (init : σ)

/-- A counting loop preserves an invariant indexed by its counter. -/
theorem foldl_range'_invariant (base : motive start init)
    (step : ∀ index state, start ≤ index → index < start + length →
      motive index state → motive (index + 1) (body state index)) :
    motive (start + length) ((List.range' start length).foldl body init) := by
  induction length generalizing start init with
  | zero => simpa using base
  | succ length induction =>
    have next := step start init (Nat.le_refl start) (by omega) base
    have rest := induction (start + 1) _ next
      fun index state low high holds =>
        step index state (by omega) (by omega) holds
    have counter : start + 1 + length = start + (length + 1) := by omega
    rwa [counter] at rest

theorem foldl_range_invariant
    (base : motive 0 init) (step : ∀ index state, index < length →
      motive index state → motive (index + 1) (body state index)) :
    motive length ((List.range length).foldl body init) := by
  rw [List.range_eq_range']
  have whole := foldl_range'_invariant body motive 0 length init base
    fun index state _ high holds => step index state (by omega) holds
  rwa [Nat.zero_add] at whole

/-- A loop with early exit establishes its postcondition when both leaving
early and running to the end do. -/
theorem foldlBreak_range'_invariant {body : σ → ℕ → Option σ}
    (post : σ → Prop) (start length : ℕ) {init : σ} (base : motive start init)
    (step : ∀ index state next, start ≤ index → index < start + length →
      motive index state → body state index = some next →
        motive (index + 1) next) (leave : ∀ index state, start ≤ index → index < start + length →
      motive index state → body state index = none → post state)
    (finish : ∀ state, motive (start + length) state → post state) :
    post (foldlBreak body init (List.range' start length)) := by
  induction length generalizing start init with
  | zero => exact finish init (by simpa using base)
  | succ length induction =>
    rw [List.range'_succ, foldlBreak]
    cases outcome : body init start with
    | none => exact leave start init (Nat.le_refl start) (by omega) base outcome
    | some next =>
      have counter : start + 1 + length = start + (length + 1) := by omega
      apply induction (start + 1) (step start init next (Nat.le_refl start) (by omega) base outcome)
      · intro index state next low high holds continues
        exact step index state next (by omega) (by omega) holds continues
      · intro index state low high holds stops
        exact leave index state (by omega) (by omega) holds stops
      · intro state holds
        rw [counter] at holds
        exact finish state holds

/-- A loop that keeps the best index seen so far ends at the first of the best
indices. -/
theorem foldl_selects_first (better : α → α → Prop) [DecidableRel better] (value : ℕ → α)
    (count : ℕ) (asymm : ∀ first second, better first second → ¬ better second first)
    (split : ∀ first second third, better first third →
      better first second ∨ better second third) (nonempty : 0 < count) :
    let best := (List.range' 1 (count - 1)).foldl (fun best index =>
      if better (value index) (value best) then index else best) 0
    best < count ∧
      (∀ index, index < count → ¬ better (value index) (value best)) ∧
        ∀ index, index < best → better (value best) (value index) := by
  have scanned := foldl_range'_invariant
    (fun best index => if better (value index) (value best) then index else best)
    (fun next best => best < next ∧
      (∀ index, index < next → ¬ better (value index) (value best)) ∧
        ∀ index, index < best → better (value best) (value index))
    1 (count - 1) 0
    (by
      refine ⟨Nat.zero_lt_one, ?_, fun index low => by omega⟩
      intro index low itself
      obtain rfl : index = 0 := by omega
      exact asymm _ _ itself itself)
    (by
      rintro next best low high ⟨bestLt, least, first⟩
      by_cases improves : better (value next) (value best)
      · rw [if_pos improves]
        refine ⟨Nat.lt_succ_self next, ?_, ?_⟩
        · intro index indexLt earlier
          rcases Nat.lt_succ_iff_lt_or_eq.mp indexLt with before | rfl
          · rcases split _ (value best) _ earlier with beats | beaten
            · exact least index before beats
            · exact asymm _ _ improves beaten
          · exact asymm _ _ earlier earlier
        · intro index before
          rcases split _ (value index) _ improves with beats | beaten
          · exact beats
          · exact absurd beaten (least index before)
      · rw [if_neg improves]
        refine ⟨by omega, ?_, first⟩
        intro index indexLt
        rcases Nat.lt_succ_iff_lt_or_eq.mp indexLt with before | rfl
        · exact least index before
        · exact improves)
  have counter : 1 + (count - 1) = count := by omega
  rwa [counter] at scanned

theorem foldl_selects_pair (better : α → α → Prop) [DecidableRel better] (value : ℕ → α)
    (indices : List ℕ) (start : ℕ) :
    indices.foldl (fun (state : ℕ × α) index =>
        if better (value index) state.2 then (index, value index) else state)
      (start, value start) = (indices.foldl (fun best index =>
          if better (value index) (value best) then index else best) start,
        value (indices.foldl (fun best index =>
          if better (value index) (value best) then index else best) start)) := by
  induction indices generalizing start with
  | nil => rfl
  | cons index _ induction =>
    simp only [List.foldl_cons]
    by_cases improves : better (value index) (value start)
    · simp only [improves, if_true]
      exact induction index
    · simp only [improves, if_false]
      exact induction start

structure SelectsBelow {α : Type*} [LinearOrder α] (value : ℕ → α) (bound : α)
    (start stop : ℕ) (best : Option ℕ) : Prop where
  inside : ∀ chosen ∈ best, start ≤ chosen ∧ chosen < stop
  below : ∀ chosen ∈ best, value chosen < bound
  least : ∀ index, start ≤ index → index < stop → best.elim bound value ≤ value index
  first : ∀ chosen ∈ best, ∀ index, start ≤ index → index < chosen → value chosen < value index

theorem SelectsBelow.step [LinearOrder α] {value : ℕ → α} {bound : α} {start next : ℕ}
    {best : Option ℕ} (startLe : start ≤ next)
    (selects : SelectsBelow value bound start next best) :
    SelectsBelow value bound start (next + 1)
      (if value next < best.elim bound value then some next else best) := by
  have atMost : best.elim bound value ≤ bound := by
    cases best with
    | none => exact le_rfl
    | some chosen => exact (selects.below chosen rfl).le
  by_cases improves : value next < best.elim bound value
  · rw [if_pos improves]
    constructor
    · rintro _ ⟨⟩
      exact ⟨startLe, Nat.lt_succ_self next⟩
    · rintro _ ⟨⟩
      exact improves.trans_le atMost
    · intro index low high
      rcases Nat.lt_succ_iff_lt_or_eq.mp high with before | rfl
      · exact improves.le.trans (selects.least index low before)
      · exact le_rfl
    · rintro _ ⟨⟩ index low before
      exact improves.trans_le (selects.least index low before)
  · rw [if_neg improves]
    constructor
    · intro chosen isChosen
      obtain ⟨low, high⟩ := selects.inside chosen isChosen
      exact ⟨low, by omega⟩
    · exact selects.below
    · intro index low high
      rcases Nat.lt_succ_iff_lt_or_eq.mp high with before | rfl
      · exact selects.least index low before
      · exact not_lt.mp improves
    · exact selects.first

/-- A loop that starts with no index and keeps the least value below the bound. -/
theorem foldl_selectsBelow [LinearOrder α] (value : ℕ → α) (bound : α) (start count : ℕ) :
    SelectsBelow value bound start (start + count)
      ((List.range' start count).foldl (fun best index =>
        if value index < best.elim bound value then some index else best) none) := by
  apply foldl_range'_invariant _ (SelectsBelow value bound start)
  · constructor
    · rintro _ ⟨⟩
    · rintro _ ⟨⟩
    · omega
    · rintro _ ⟨⟩
  · intro index best low _ selects
    exact selects.step low

end Purser.RangeLoops
