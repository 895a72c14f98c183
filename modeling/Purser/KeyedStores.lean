import Mathlib.Data.List.Nodup

/-!
# Stores with one row for each key

A store holds rows in the order in which they were added, and no two of them
share a key.  Every operation keeps that, so a lookup determines the row.
-/

namespace Purser.KeyedStores

open List

structure Store {Key Row : Type*} (key : Row → Key) where
  rows : List Row
  unique : (rows.map key).Nodup

namespace Store

variable {Key Row : Type*} [DecidableEq Key] {key : Row → Key}

def empty : Store key := ⟨[], nodup_nil⟩

def find (store : Store key) (entry : Key) : Option Row :=
  store.rows.find? fun row => key row = entry

variable {store : Store key} {entry : Key} {row other : Row}

theorem find_eq_some_iff : store.find entry = some row ↔ row ∈ store.rows ∧ key row = entry := by
  constructor
  · intro found
    exact ⟨mem_of_find?_eq_some found, by simpa using find?_some found⟩
  · rintro ⟨member, rfl⟩
    cases found : store.find (key row) with
    | none =>
      have absent := find?_eq_none.mp found row member
      simp at absent
    | some other =>
      have sameKey : key other = key row := by
        simpa using find?_some found
      rw [inj_on_of_nodup_map store.unique (mem_of_find?_eq_some found) member sameKey]

theorem find_eq_none_iff : store.find entry = none ↔ entry ∉ store.rows.map key := by
  simp [find]

theorem key_of_find (found : store.find entry = some row) : key row = entry :=
  (find_eq_some_iff.mp found).2

section

variable (store : Store key)

def insert (row : Row) : Store key :=
  if absent : store.find (key row) = none then
    { rows := store.rows ++ [row]
      unique := by
        rw [map_append, nodup_append]
        refine ⟨store.unique, nodup_singleton _, ?_⟩
        rintro taken member _ (_ | ⟨_, ⟨⟩⟩) rfl
        exact find_eq_none_iff.mp absent member }
  else store

def replace (row : Row) : Store key where
  rows := store.rows.map fun old => if key old = key row then row else old
  unique := by
    have keys : (store.rows.map fun old =>
        if key old = key row then row else old).map key =
        store.rows.map key := by
      rw [map_map]
      apply map_congr_left
      intro old _
      by_cases same : key old = key row <;> simp [same]
    rw [keys]
    exact store.unique

def put (row : Row) : Store key := (store.replace row).insert row

def erase (entry : Key) : Store key where
  rows := store.rows.filter fun row => key row ≠ entry
  unique := store.unique.sublist (filter_sublist.map key)

theorem find_insert (row : Row) (entry : Key) : (store.insert row).find entry =
      (store.find entry).or (if key row = entry then some row else none) := by
  by_cases absent : store.find (key row) = none
  · rw [insert, dif_pos absent]
    simp only [find, find?_append, find?_singleton, decide_eq_true_eq]
  · rw [insert, dif_neg absent]
    by_cases same : key row = entry
    · obtain ⟨taken, found⟩ := Option.ne_none_iff_exists'.mp absent
      rw [← same, found]
      rfl
    · simp [same]

theorem find_replace (row : Row) (entry : Key) :
    (store.replace row).find entry =
      (store.find entry).map fun old => if key row = entry then row else old := by
  rw [replace, find, find?_map]
  have samePredicate :
      ((fun row => decide (key row = entry)) ∘ fun old =>
        if key old = key row then row else old) = fun old => decide (key old = entry) := by
    funext old
    by_cases same : key old = key row <;> simp [same]
  rw [samePredicate]
  cases found : store.rows.find? fun old => decide (key old = entry) with
  | none => simp [find, found]
  | some old =>
    have oldKey : key old = entry := by simpa using find?_some found
    simp only [find, found, Option.map_some, oldKey, Option.some.injEq]
    by_cases same : key row = entry
    · simp [same]
    · rw [if_neg same, if_neg (Ne.symm same)]

theorem find_put (row : Row) (entry : Key) : (store.put row).find entry =
      if key row = entry then some row else store.find entry := by
  rw [put, find_insert, find_replace]
  cases store.find entry <;> by_cases same : key row = entry <;> simp [same]

end

theorem insert_eq_put (absent : store.find (key row) = none) : store.insert row = store.put row := by
  have unchanged : store.replace row = store := by
    obtain ⟨rows, unique⟩ := store
    rw [replace, mk.injEq]
    refine (map_congr_left fun old member => if_neg ?_).trans (map_id' rows)
    intro same
    exact find_eq_none_iff.mp absent (same ▸ mem_map_of_mem member)
  rw [put, unchanged]

theorem replace_eq_put (present : store.find (key row) ≠ none) :
    store.replace row = store.put row := by
  rw [put, insert, dif_neg]
  rwa [find_replace, Option.map_eq_none_iff]

theorem find_erase (store : Store key) (erased entry : Key) : (store.erase erased).find entry =
      if entry = erased then none else store.find entry := by
  rw [erase, find, find?_filter]
  by_cases same : entry = erased
  · simp [same]
  · rw [if_neg same]
    congr 1
    funext row
    by_cases found : key row = entry
    · simp [found, same]
    · simp [found]

theorem mem_put_iff :
    other ∈ (store.put row).rows ↔ other = row ∨ (other ∈ store.rows ∧ key other ≠ key row) := by
  have held (any : Store key) : other ∈ any.rows ↔ any.find (key other) = some other := by
    rw [find_eq_some_iff, and_iff_left rfl]
  rw [held, find_put, held store]
  by_cases same : key row = key other
  · rw [if_pos same]
    constructor
    · intro equal
      exact .inl (Option.some.inj equal).symm
    · rintro (rfl | ⟨_, different⟩)
      · rfl
      · exact absurd same.symm different
  · rw [if_neg same]
    constructor
    · intro found
      exact .inr ⟨found, Ne.symm same⟩
    · rintro (rfl | ⟨found, _⟩)
      · exact absurd rfl same
      · exact found

theorem mem_of_mem_replace (member : other ∈ (store.replace row).rows) :
    other = row ∨ (other ∈ store.rows ∧ key other ≠ key row) := by
  obtain ⟨old, held, rfl⟩ := mem_map.mp member
  by_cases same : key old = key row
  · exact .inl (if_pos same)
  · rw [if_neg same]
    exact .inr ⟨held, same⟩

theorem mem_of_mem_insert (absent : store.find (key row) = none)
    (member : other ∈ (store.insert row).rows) :
    other = row ∨ (other ∈ store.rows ∧ key other ≠ key row) := by
  rw [insert, dif_pos absent] at member
  rcases mem_append.mp member with held | added
  · refine .inr ⟨held, ?_⟩
    intro same
    exact find_eq_none_iff.mp absent (same ▸ mem_map_of_mem held)
  · exact .inl (mem_singleton.mp added)

theorem mem_insert_iff : other ∈ (store.insert row).rows ↔
      other ∈ store.rows ∨ (other = row ∧ store.find (key row) = none) := by
  rw [insert]
  split
  next absent =>
    rw [mem_append, mem_singleton, and_iff_left absent]
  next taken =>
    rw [or_iff_left]
    exact fun added => taken added.2

theorem mem_erase_iff {erased : Key} :
    row ∈ (store.erase erased).rows ↔ row ∈ store.rows ∧ key row ≠ erased := by
  rw [erase, mem_filter, decide_eq_true_eq]

theorem filter_put {accepts : Row → Bool}
    (rejects : ∀ other, key other = key row → accepts other = false) :
    (store.put row).rows.filter accepts = store.rows.filter accepts := by
  have replaced : (store.replace row).rows.filter accepts = store.rows.filter accepts := by
    change (store.rows.map fun old => if key old = key row then row else old).filter accepts = _
    induction store.rows with
    | nil => rfl
    | cons old rows induction =>
      rw [map_cons, filter_cons, filter_cons, induction]
      by_cases same : key old = key row
      · rw [if_pos same, rejects row rfl, rejects old same]
        rfl
      · rw [if_neg same]
  rw [put, insert]
  split
  · rw [filter_append, replaced, filter_singleton, rejects row rfl]
    exact append_nil _
  · exact replaced

theorem filter_key_eq (found : store.find entry = some row) :
    store.rows.filter (fun other => key other = entry) = [row] := by
  obtain ⟨member, rfl⟩ := find_eq_some_iff.mp found
  clear found
  obtain ⟨rows, unique⟩ := store
  induction rows with
  | nil => cases member
  | cons first rows induction =>
    rw [map_cons, nodup_cons] at unique
    rcases mem_cons.mp member with rfl | later
    · rw [filter_cons_of_pos (by simp), filter_eq_nil_iff.mpr]
      intro other held
      rw [decide_eq_true_eq]
      intro same
      exact unique.1 (same ▸ mem_map_of_mem held)
    · have different : key first ≠ key row := fun same =>
        unique.1 (same ▸ mem_map_of_mem later)
      rw [filter_cons_of_neg (by simpa using different)]
      exact induction unique.2 later

theorem find_foldl_put (store : Store key) (rows : List Row) (entry : Key) :
    (rows.foldl put store).find entry = ((rows.filter fun row => key row = entry).getLast?).or
        (store.find entry) := by
  induction rows generalizing store with
  | nil => rfl
  | cons row rows induction =>
    rw [foldl_cons, induction, find_put]
    by_cases same : key row = entry
    · rw [if_pos same, filter_cons_of_pos (by simpa using same), getLast?_cons]
      cases (rows.filter fun row => key row = entry).getLast? <;> rfl
    · rw [if_neg same, filter_cons_of_neg (by simpa using same)]

end Store

end Purser.KeyedStores
