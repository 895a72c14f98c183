import Mathlib.Data.List.Sort
import Mathlib.Order.Lattice

/-!
# Stable sorts by decreasing score

Items ranked by a score stand in descending order.  The first item of a ranking
that passes a test has the greatest score of all that pass it, and an item that
scores no more than the others is ranked behind them.
-/

namespace Purser.DescendingSorts

open List

variable {Item Score : Type*} [LinearOrder Score] {score : Item → Score}
variable [DecidableRel fun first second : Item => score second ≤ score first]

variable (score) in
theorem pairwise_ranking (items : List Item) :
    (items.insertionSort fun first second => score second ≤ score first).Pairwise
      fun first second => score second ≤ score first := by
  have total : Std.Total fun first second : Item => score second ≤ score first :=
    ⟨fun first second => le_total (score second) (score first)⟩
  have transitive : IsTrans Item fun first second => score second ≤ score first :=
    ⟨fun first second third firstLe secondLe => secondLe.trans firstLe⟩
  exact pairwise_insertionSort _ items

theorem find?_ranking {items : List Item} {test : Item → Bool} {best : Item}
    (found : (items.insertionSort fun first second =>
      score second ≤ score first).find? test = some best) :
    best ∈ items ∧ test best = true ∧
      ∀ other ∈ items, test other = true → score other ≤ score best := by
  obtain ⟨passes, better, worse, rankedEq, noneBefore⟩ := find?_eq_some_iff_append.mp found
  have mem_ranking : ∀ item, item ∈ items ↔ item ∈ better ++ best :: worse := by
    intro item
    rw [← rankedEq]
    exact (mem_insertionSort _).symm
  have sorted := pairwise_ranking score items
  rw [rankedEq, pairwise_append, pairwise_cons] at sorted
  refine ⟨(mem_ranking best).mpr (by simp), passes, ?_⟩
  intro other member otherPasses
  rcases mem_append.mp ((mem_ranking other).mp member) with before | after
  · have rejected := noneBefore other before
    simp [otherPasses] at rejected
  · rcases mem_cons.mp after with rfl | later
    · exact le_rfl
    · exact sorted.2.1.1 other later

theorem score_le_head {items rest : List Item} {top : Item}
    (rankedEq : (items.insertionSort fun first second =>
      score second ≤ score first) = top :: rest) {item : Item} (member : item ∈ items) :
    score item ≤ score top := by
  have found : (items.insertionSort fun first second =>
      score second ≤ score first).find? (fun _ => true) = some top := by
    rw [rankedEq]
    rfl
  exact (find?_ranking found).2.2 item member rfl

section AppendLast

variable {before : Item → Item → Prop} [DecidableRel before] {last : Item}

theorem orderedInsert_append_last {item : Item} (beforeLast : before item last)
    (sorted : List Item) :
    (sorted ++ [last]).orderedInsert before item = sorted.orderedInsert before item ++ [last] := by
  induction sorted with
  | nil => simp [beforeLast]
  | cons head tail induction =>
    by_cases first : before item head
    · simp [first]
    · simp [first, induction]

theorem insertionSort_append_last {items : List Item}
    (afterAll : ∀ item ∈ items, before item last) :
    (items ++ [last]).insertionSort before = items.insertionSort before ++ [last] := by
  induction items with
  | nil => rfl
  | cons item items induction =>
    have afterTail : ∀ other ∈ items, before other last :=
      fun other member => afterAll other (mem_cons_of_mem item member)
    rw [cons_append, insertionSort_cons, insertionSort_cons, induction afterTail,
      orderedInsert_append_last (afterAll item mem_cons_self)]

end AppendLast

end Purser.DescendingSorts
