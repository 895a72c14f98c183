import Mathlib.Data.List.Induction
import Mathlib.Data.List.Forall2

/-!
# Chains of digests

Every row is valid after the digest of the row in front of it.  When digests
tell what they were computed from, the last digest of a chain tells the whole
chain.
-/

namespace Purser.HashChains

open List

variable {Digest Row : Type*}

def Chained (valid : ℕ → Digest → Row → Prop) (digest : Row → Digest) : ℕ → Digest → List Row → Prop
  | _, _, [] => True
  | position, previous, row :: rows =>
    valid position previous row ∧ Chained valid digest (position + 1) (digest row) rows

def tip (digest : Row → Digest) (previous : Digest) : List Row → Digest
  | [] => previous
  | row :: rows => tip digest (digest row) rows

variable {valid : ℕ → Digest → Row → Prop} {digest : Row → Digest}

@[simp]
theorem tip_concat (previous : Digest) (rows : List Row) (row : Row) :
    tip digest previous (rows ++ [row]) = digest row := by
  induction rows generalizing previous with
  | nil => rfl
  | cons first rows induction => exact induction (digest first)

variable {position : ℕ} {previous : Digest} {rows : List Row} {row : Row}

theorem chained_append_iff {others : List Row} :
    Chained valid digest position previous (rows ++ others) ↔
      Chained valid digest position previous rows ∧
        Chained valid digest (position + rows.length) (tip digest previous rows) others := by
  induction rows generalizing position previous with
  | nil => simp [Chained, tip]
  | cons row rows induction =>
    have place : position + 1 + rows.length = position + (rows.length + 1) := by omega
    simp only [cons_append, Chained, tip, length_cons, induction, place, and_assoc]

theorem chained_concat_iff : Chained valid digest position previous (rows ++ [row]) ↔
      Chained valid digest position previous rows ∧
        valid (position + rows.length) (tip digest previous rows) row := by
  rw [chained_append_iff]
  simp [Chained]

theorem Chained.valid_of_getElem? (chained : Chained valid digest position previous rows)
    {place : ℕ} (found : rows[place]? = some row) :
    valid (position + place) (tip digest previous (rows.take place)) row := by
  obtain ⟨inside, rfl⟩ := List.getElem?_eq_some_iff.mp found
  have split : rows = rows.take place ++ rows[place] :: rows.drop (place + 1) := by
    rw [getElem_cons_drop, take_append_drop]
  rw [split] at chained
  have here := (chained_append_iff.mp chained).2.1
  rwa [length_take, Nat.min_eq_left (Nat.le_of_lt inside)] at here

/-- Only a changed row is checked anew, after the same rows. -/
theorem Chained.set_iff (chained : Chained valid digest position previous rows) {place : ℕ}
    {changed : Row} (found : rows[place]? = some row) (sameDigest : digest changed = digest row) :
    Chained valid digest position previous (rows.set place changed) ↔
      valid (position + place) (tip digest previous (rows.take place)) changed := by
  obtain ⟨inside, rfl⟩ := List.getElem?_eq_some_iff.mp found
  have front : (rows.take place).length = place := by
    rw [length_take]
    omega
  have split : rows = rows.take place ++ rows[place] :: rows.drop (place + 1) := by
    rw [getElem_cons_drop, take_append_drop]
  have splitSet : rows.set place changed = rows.take place ++ changed :: rows.drop (place + 1) :=
    set_eq_take_append_cons_drop.trans (if_pos inside)
  rw [split, chained_append_iff] at chained
  rw [splitSet, chained_append_iff]
  simp only [Chained, front, sameDigest] at chained ⊢
  exact ⟨fun chained => chained.2.1, fun here => ⟨chained.1, here, chained.2.2⟩⟩

section Heads

variable {same : Row → Row → Prop} {firsts seconds : List Row}
  (determined : ∀ {place other : ℕ} {before otherBefore : Digest} {first second : Row}, first ∈ firsts → second ∈ seconds → valid place before first → valid other otherBefore second → digest first = digest second → place = other ∧ before = otherBefore ∧ same first second)
  (firstChained : Chained valid digest position previous firsts)
  (secondChained : Chained valid digest position previous seconds)

include determined firstChained secondChained

theorem forall₂_of_tip_eq (sameLength : firsts.length = seconds.length)
    (sameTip : tip digest previous firsts = tip digest previous seconds) :
    List.Forall₂ same firsts seconds := by
  induction firsts using List.reverseRecOn generalizing seconds with
  | nil =>
    rw [eq_nil_of_length_eq_zero sameLength.symm]
    exact List.Forall₂.nil
  | append_singleton firsts _ induction =>
    have nonempty : seconds ≠ [] := by
      rintro rfl
      simp at sameLength
    obtain ⟨seconds, second, rfl⟩ : ∃ others last, seconds = others ++ [last] :=
      ⟨_, _, (dropLast_append_getLast nonempty).symm⟩
    rw [tip_concat, tip_concat] at sameTip
    rw [chained_concat_iff] at firstChained secondChained
    obtain ⟨-, sameBefore, sameRow⟩ := determined (by simp) (by simp) firstChained.2
      secondChained.2 sameTip
    have rest : List.Forall₂ same firsts seconds :=
      induction
        (fun firstMember secondMember =>
          determined (mem_append_left _ firstMember) (mem_append_left _ secondMember))
        firstChained.1 secondChained.1 (by simpa using sameLength) sameBefore
    exact rel_append rest (List.Forall₂.cons sameRow List.Forall₂.nil)

/-- Two chains that end in one digest are of one length and agree row by row. -/
theorem forall₂_of_getLast_eq {first second : Row}
    (firstLast : firsts.getLast? = some first) (secondLast : seconds.getLast? = some second)
    (sameDigest : digest first = digest second) : List.Forall₂ same firsts seconds := by
  obtain ⟨firsts, rfl⟩ := getLast?_eq_some_iff.mp firstLast
  obtain ⟨seconds, rfl⟩ := getLast?_eq_some_iff.mp secondLast
  have firstValid := (chained_concat_iff.mp firstChained).2
  have secondValid := (chained_concat_iff.mp secondChained).2
  obtain ⟨samePlace, -, -⟩ := determined (by simp) (by simp) firstValid secondValid sameDigest
  refine forall₂_of_tip_eq determined firstChained secondChained ?_ ?_
  · simp only [length_append, length_singleton]
    omega
  · rw [tip_concat, tip_concat, sameDigest]

end Heads

end Purser.HashChains
