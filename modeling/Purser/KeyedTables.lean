import Mathlib.Data.List.Induction
import Mathlib.Data.List.Nodup
import Mathlib.Logic.Function.Basic

/-!
# Tables filled entry by entry

A table is a function that assignments update.  Assigning the items of a list
in order leaves the last item of each key in the table, and an assignment to one
entry of a two-dimensional table leaves all others alone.
-/

namespace Purser.KeyedTables

open List
open Function (update update_of_ne update_self)

section Tabulate

variable {Item Key Value : Type*} [DecidableEq Key] {key : Item → Key} {value : Item → Value}

def tabulate (key : Item → Key) (value : Item → Value) (items : List Item) : Key → Option Value :=
  items.foldl (fun table item =>
    update table (key item) (some (value item))) fun _ => none

theorem tabulate_append_singleton (items : List Item) (item : Item) :
    tabulate key value (items ++ [item]) = update (tabulate key value items) (key item)
        (some (value item)) := by
  rw [tabulate, foldl_append]
  rfl

variable {items : List Item}

/-- The last item of a key is the one in the table. -/
theorem tabulate_apply (entry : Key) : tabulate key value items entry =
      (items.reverse.find? fun item => key item = entry).map value := by
  induction items using List.reverseRecOn with
  | nil => rfl
  | append_singleton _ last induction =>
    rw [tabulate_append_singleton, reverse_concat]
    by_cases same : key last = entry
    · rw [← same, update_self]
      simp
    · rw [update_of_ne (Ne.symm same), induction]
      simp [same]

theorem exists_of_tabulate {entry : Key} {found : Value}
    (foundEq : tabulate key value items entry = some found) :
    ∃ item ∈ items, key item = entry ∧ value item = found := by
  rw [tabulate_apply] at foundEq
  obtain ⟨item, last, rfl⟩ := Option.map_eq_some_iff.mp foundEq
  exact ⟨item, mem_reverse.mp (mem_of_find?_eq_some last), by simpa using find?_some last, rfl⟩

theorem exists_tabulate_of_mem (key : Item → Key) (value : Item → Value) {item : Item}
    (member : item ∈ items) : ∃ found, tabulate key value items (key item) = some found := by
  rw [tabulate_apply]
  apply Option.isSome_iff_exists.mp
  rw [Option.isSome_map, find?_isSome]
  exact ⟨item, mem_reverse.mpr member, decide_eq_true rfl⟩

theorem tabulate_eq_some_iff (consistent : ∀ first ∈ items, ∀ second ∈ items,
      key first = key second → value first = value second) (entry : Key) (found : Value) :
    tabulate key value items entry = some found ↔
      ∃ item ∈ items, key item = entry ∧ value item = found := by
  constructor
  · exact exists_of_tabulate
  · rintro ⟨item, member, rfl, rfl⟩
    obtain ⟨other, otherEq⟩ := exists_tabulate_of_mem key value member
    obtain ⟨second, secondMember, sameKey, rfl⟩ := exists_of_tabulate otherEq
    rw [otherEq, consistent second secondMember item member sameKey]

theorem tabulate_of_mem (distinct : (items.map key).Nodup) {item : Item} (member : item ∈ items) :
    tabulate key value items (key item) = some (value item) := by
  have consistent : ∀ first ∈ items, ∀ second ∈ items,
      key first = key second → value first = value second := by
    intro first firstMember second secondMember same
    rw [inj_on_of_nodup_map distinct firstMember secondMember same]
  exact (tabulate_eq_some_iff consistent _ _).mpr ⟨item, member, rfl, rfl⟩

end Tabulate

section Entries

variable {Row Column Value : Type*} [DecidableEq Row] [DecidableEq Column]

theorem update_entry_of_ne (table : Row → Column → Value) {row other : Row}
    {column another : Column} (value : Value) (different : ¬ (other = row ∧ another = column)) :
    update table row (update (table row) column value)
      other another = table other another := by
  by_cases sameRow : other = row
  · subst sameRow
    have otherColumn : another ≠ column := fun same => different ⟨rfl, same⟩
    rw [update_self, update_of_ne otherColumn]
  · rw [update_of_ne sameRow]

end Entries

end Purser.KeyedTables
