import Mathlib.Data.List.Sort

/-!
# Ordered queries over the rows of a table

Rows stand in a list in the order in which they were added.  A query may sort
them by a column, leave out those in which the column is empty, or ask for the
greatest value only.
-/

namespace Purser.RowQueries

open List

variable {Row : Type*}

def newestFirst (identifier : Row → ℕ) (rows : List Row) : List Row :=
  rows.insertionSort fun first second => identifier second ≤ identifier first

def ascending (column : Row → Option ℤ) (rows : List Row) : List Row :=
  (rows.filter fun row => (column row).isSome).insertionSort
    fun first second => (column first).getD 0 ≤ (column second).getD 0

def latest (column : Row → Option ℤ) (rows : List Row) : Option Row :=
  (ascending column rows).getLast?

/-- A column that is filled is told apart from an empty one. -/
theorem eq_of_getD_eq {Value : Type*} {value other : Option Value} {default : Value}
    (filled : other.getD default ≠ default) (same : value.getD default = other.getD default) :
    value = other := by
  cases other with
  | none => exact absurd rfl filled
  | some =>
    cases value with
    | none => exact absurd same.symm filled
    | some => exact congrArg some same

variable {rows : List Row} {place : ℕ} {row : Row} {column : Row → Option ℤ}

theorem injOn_of_increasing {Key : Type*} [Preorder Key] {key : Row → Key}
    (increasing : rows.Pairwise fun first second => key first < key second) {first second : Row}
    (firstMember : first ∈ rows) (secondMember : second ∈ rows) (same : key first = key second) :
    first = second := by
  have distinct : (rows.map key).Nodup := by
    rw [List.Nodup, pairwise_map]
    exact increasing.imp fun below => below.ne
  exact inj_on_of_nodup_map distinct firstMember secondMember same

theorem increasing_set {Key : Type*} [Preorder Key] {key : Row → Key}
    (increasing : rows.Pairwise fun first second => key first < key second) {changed : Row}
    (found : rows[place]? = some row) (sameKey : key changed = key row) :
    (rows.set place changed).Pairwise fun first second => key first < key second := by
  have keys : (rows.set place changed).map key = rows.map key := by
    obtain ⟨inside, rfl⟩ := List.getElem?_eq_some_iff.mp found
    rw [map_set, sameKey]
    apply ext_getElem (by simp)
    intro other _ _
    rw [getElem_set]
    split
    next same => simp [same]
    next => rfl
  rw [← pairwise_map (f := key), keys, pairwise_map]
  exact increasing

theorem perm_cons_eraseIdx (found : rows[place]? = some row) (changed : Row) :
    rows.Perm (row :: rows.eraseIdx place) ∧
      (rows.set place changed).Perm (changed :: rows.eraseIdx place) := by
  obtain ⟨inside, rfl⟩ := List.getElem?_eq_some_iff.mp found
  rw [set_eq_take_append_cons_drop, if_pos inside, eraseIdx_eq_take_drop_succ]
  refine ⟨?_, perm_middle⟩
  have split : rows = rows.take place ++ rows[place] :: rows.drop (place + 1) := by
    rw [getElem_cons_drop, take_append_drop]
  nth_rewrite 1 [split]
  exact perm_middle

theorem place_lt_of_increasing {key : Row → ℕ}
    (increasing : rows.Pairwise fun first second => key first < key second)
    (positive : ∀ row ∈ rows, 1 ≤ key row) (found : rows[place]? = some row) : place < key row := by
  induction place generalizing row with
  | zero => exact positive row (mem_of_getElem? found)
  | succ place induction =>
    obtain ⟨inside, rfl⟩ := List.getElem?_eq_some_iff.mp found
    have before := induction (getElem?_eq_getElem (by omega))
    have grows := pairwise_iff_getElem.mp increasing place (place + 1) (by omega) inside (by omega)
    omega

/-- Rows that were added with growing identifiers come back in reverse. -/
theorem newestFirst_of_increasing {identifier : Row → ℕ}
    (increasing : rows.Pairwise fun first second => identifier first < identifier second) :
    newestFirst identifier rows = rows.reverse := by
  refine List.Perm.eq_of_pairwise ?_ (pairwise_insertionSort _ _) ?_
    ((perm_insertionSort _ _).trans (reverse_perm _).symm)
  · intro first second firstMember secondMember above below
    exact injOn_of_increasing increasing
      ((perm_insertionSort _ _).mem_iff.mp firstMember) (mem_reverse.mp secondMember)
      (le_antisymm below above)
  · rw [pairwise_reverse]
    exact increasing.imp fun below => below.le

/-- Where all values differ, there is one order of the rows. -/
theorem ascending_eq_of_perm {sorted : List Row}
    (perm : sorted.Perm (rows.filter fun row => (column row).isSome))
    (increasing : sorted.Pairwise fun first second =>
      (column first).getD 0 < (column second).getD 0) : ascending column rows = sorted := by
  have sortedPerm : (ascending column rows).Perm sorted :=
    (perm_insertionSort _ _).trans perm.symm
  refine List.Perm.eq_of_pairwise ?_ (pairwise_insertionSort _ _)
    (increasing.imp fun below => below.le) sortedPerm
  intro first second firstMember secondMember below above
  exact injOn_of_increasing increasing (sortedPerm.mem_iff.mp firstMember) secondMember
    (le_antisymm below above)

section

variable (filled : ∀ row ∈ rows, (column row).isSome = true)
  (increasing : rows.Pairwise fun first second => (column first).getD 0 < (column second).getD 0)

include filled increasing

theorem latest_of_increasing : latest column rows = rows.getLast? := by
  rw [latest, ascending_eq_of_perm (by rw [filter_eq_self.mpr filled]) increasing]

end

end Purser.RowQueries
