import Purser.PlannerPartition

/-!
# Pins on the shards of a pipeline

The pins are applied to the finished shards one after the other, so the last pin
that falls into a shard decides where the shard goes.
-/

namespace Purser.Planner

open List

variable {order : List Node} {shards assignments : List Assignment} {pin : LayerRange × String}

/-- What pins and drafts leave alone. -/
def Assignment.shape (shard : Assignment) : Role × ℤ × ℤ :=
  (shard.role, shard.layerStart, shard.layerEnd)

/-- The pins that an explanation reports as ignored or not applied. -/
def refusedPins (notes : List Note) : List (LayerRange × String) :=
  notes.filterMap fun note =>
    match note with
    | .pinOutsideSubset range target | .pinNotApplied range target => some (range, target)
    | _ => none

@[simp]
theorem refusedPins_append (first second : List Note) :
    refusedPins (first ++ second) = refusedPins first ++ refusedPins second :=
  filterMap_append

/-- The nodes whose loss the explanation reports as fatal. -/
def lostNodes (notes : List Note) : List String :=
  notes.filterMap fun note =>
    match note with
    | .losingNode dead => some dead
    | _ => none

@[simp]
theorem lostNodes_append (first second : List Note) :
    lostNodes (first ++ second) = lostNodes first ++ lostNodes second :=
  filterMap_append

/-- The position of the shard that a pin of the range moves. -/
def shardOf (shards : List Assignment) (range : LayerRange) : Option ℕ :=
  shards.findIdx? fun shard => shard.layerStart ≤ range.start ∧ range.stop ≤ shard.layerEnd

theorem shardOf_of_shapes (same : assignments.map Assignment.shape = shards.map Assignment.shape)
    (range : LayerRange) : shardOf assignments range = shardOf shards range := by
  let contains (shape : Role × ℤ × ℤ) : Bool := shape.2.1 ≤ range.start ∧ range.stop ≤ shape.2.2
  have byShape : ∀ shards, shardOf shards range =
      (shards.map Assignment.shape).findIdx? contains := by
    intro shards
    rw [findIdx?_map]
    rfl
  rw [byShape, byShape, same]

theorem applyPin_eq (range : LayerRange) (target : String) (shards : List Assignment) :
    applyPin range target shards = none ∧ shardOf shards range = none ∨
      ∃ i notes, shardOf shards range = some i ∧ refusedPins notes = [] ∧ lostNodes notes = [] ∧
        applyPin range target shards =
          some (shards.modify i fun shard => { shard with nodeID := target }, notes) := by
  induction shards with
  | nil => exact .inl ⟨rfl, rfl⟩
  | cons shard shards induction =>
    by_cases contains : shard.layerStart ≤ range.start ∧ range.stop ≤ shard.layerEnd
    · have first : shardOf (shard :: shards) range = some 0 := by
        rw [shardOf, findIdx?_cons, if_pos (decide_eq_true contains)]
      rw [applyPin, if_pos contains]
      by_cases there : shard.nodeID = target
      · rw [if_neg (not_not.mpr there), ← there]
        exact .inr ⟨0, [], first, rfl, rfl, rfl⟩
      · rw [if_pos there]
        exact .inr ⟨0, _, first, rfl, rfl, rfl⟩
    · have later : shardOf (shard :: shards) range = (shardOf shards range).map (· + 1) := by
        rw [shardOf, findIdx?_cons, if_neg (by simpa using contains), shardOf]
      rw [applyPin, if_neg contains, later]
      rcases induction with ⟨unapplied, nowhere⟩ | ⟨i, notes, at_i, silent, harmless, applied⟩
      · exact .inl ⟨by rw [unapplied, Option.map_none], by rw [nowhere, Option.map_none]⟩
      · refine .inr ⟨i + 1, notes, by rw [at_i, Option.map_some], silent, harmless, ?_⟩
        rw [applied]
        rfl

/-- The pin that decides about a shard: the first of a list of pins, latest
first, that names a node of the subset and moves the shard. -/
def decidingPin (shards : List Assignment) (order : List Node) (pins : List (LayerRange × String))
    (i : ℕ) : Option (LayerRange × String) :=
  pins.find? fun pin => pin.2 ∈ order.map Node.id ∧ shardOf shards pin.1 = some i

theorem decidingPin_cons (pin : LayerRange × String) (pins : List (LayerRange × String)) (i : ℕ) :
    decidingPin shards order (pin :: pins) i =
      if pin.2 ∈ order.map Node.id ∧ shardOf shards pin.1 = some i then some pin
      else decidingPin shards order pins i := by
  rw [decidingPin, find?_cons]
  by_cases decides : pin.2 ∈ order.map Node.id ∧ shardOf shards pin.1 = some i
  · rw [if_pos decides, decide_eq_true decides]
  · rw [if_neg decides, decide_eq_false decides]
    rfl

def relocate (shards : List Assignment) (order : List Node) (pins : List (LayerRange × String)) :
    List Assignment :=
  shards.mapIdx fun i shard =>
    { shard with nodeID := (decidingPin shards order pins i).elim shard.nodeID Prod.snd }

theorem relocate_shapes (shards : List Assignment) (order : List Node)
    (pins : List (LayerRange × String)) :
    (relocate shards order pins).map Assignment.shape = shards.map Assignment.shape := by
  apply ext_getElem
  · simp [relocate]
  · simp [relocate, Assignment.shape]

theorem relocate_cons {i : ℕ} (inside : pin.2 ∈ order.map Node.id)
    (moves : shardOf shards pin.1 = some i) (pins : List (LayerRange × String)) :
    relocate shards order (pin :: pins) =
      (relocate shards order pins).modify i fun shard => { shard with nodeID := pin.2 } := by
  apply ext_getElem
  · simp [relocate]
  · intro j _ _
    rw [getElem_modify]
    simp only [relocate, getElem_mapIdx, decidingPin_cons, inside, moves, Option.some.injEq,
      true_and]
    split <;> rfl

theorem relocate_cons_of_refused (refused : pin.2 ∉ order.map Node.id ∨ shardOf shards pin.1 = none)
    (pins : List (LayerRange × String)) :
    relocate shards order (pin :: pins) = relocate shards order pins := by
  have undecided : ∀ i, ¬ (pin.2 ∈ order.map Node.id ∧ shardOf shards pin.1 = some i) := by
    rintro i ⟨inside, moves⟩
    rcases refused with outside | nowhere
    · exact outside inside
    · cases nowhere.symm.trans moves
  simp only [relocate, decidingPin_cons, undecided, if_false]

def latestFirst (pinned : PinMap) : List (LayerRange × String) :=
  (pinned.entries.insertionSort pinBefore).reverse

/-- The shards after all pins, and what is reported about the pins. -/
theorem applyPinnedRanges_eq (shards : List Assignment) (order : List Node) (pinned : PinMap) :
    (applyPinnedRanges shards order pinned).1 = relocate shards order (latestFirst pinned) ∧
      refusedPins (applyPinnedRanges shards order pinned).2 = ((latestFirst pinned).filter fun pin =>
        pin.2 ∉ order.map Node.id ∨ shardOf shards pin.1 = none).reverse ∧
      lostNodes (applyPinnedRanges shards order pinned).2 = [] := by
  unfold applyPinnedRanges
  rw [foldl_eq_foldr_reverse, ← latestFirst]
  -- from the first pin applied to the last, which is the head of the list
  induction latestFirst pinned with
  | nil => exact ⟨ext_getElem (by simp [relocate]) (by simp [relocate, decidingPin]), rfl, rfl⟩
  | cons pin pins induction =>
    obtain ⟨moved, reported, harmless⟩ := induction
    rw [foldr_cons]
    generalize pins.foldr _ _ = state at moved reported harmless ⊢
    have sameShard := shardOf_of_shapes (moved ▸ relocate_shapes shards order pins) pin.1
    by_cases outside : pin.2 ∉ order.map Node.id
    · rw [if_pos outside, relocate_cons_of_refused (.inl outside), refusedPins_append, reported,
        filter_cons_of_pos (by simp [outside]), reverse_cons, lostNodes_append, harmless]
      exact ⟨moved, rfl, rfl⟩
    · rw [if_neg outside]
      rcases applyPin_eq pin.1 pin.2 state.1 with
        ⟨unapplied, nowhere⟩ | ⟨i, notes, moves, silent, quiet, applied⟩
      · rw [sameShard] at nowhere
        rw [unapplied, relocate_cons_of_refused (.inr nowhere), refusedPins_append, reported,
          filter_cons_of_pos (by simp [nowhere]), reverse_cons, lostNodes_append,
          harmless]
        exact ⟨moved, rfl, rfl⟩
      · rw [sameShard] at moves
        rw [applied, relocate_cons (not_not.mp outside) moves, ← moved, refusedPins_append, silent,
          reported, filter_cons_of_neg (by simpa [moves] using outside), append_nil,
          lostNodes_append, harmless, quiet]
        exact ⟨rfl, rfl, rfl⟩

theorem applyPinnedRanges_placed {pinned : PinMap}
    (placed : ∀ shard ∈ shards, shard.nodeID ∈ order.map Node.id) :
    ∀ shard ∈ (applyPinnedRanges shards order pinned).1, shard.nodeID ∈ order.map Node.id := by
  rw [(applyPinnedRanges_eq shards order pinned).1]
  intro shard member
  obtain ⟨i, inRange, rfl⟩ := mem_mapIdx.mp member
  cases decided : decidingPin shards order (latestFirst pinned) i with
  | none => exact placed _ (getElem_mem inRange)
  | some =>
    have decides := find?_some decided
    exact (of_decide_eq_true decides).1

theorem applyPinnedRanges_of_nil {pinned : PinMap} (noPins : pinned.entries = [])
    (assignments : List Assignment) (order : List Node) :
    applyPinnedRanges assignments order pinned = (assignments, []) := by
  rw [applyPinnedRanges, noPins]
  rfl

end Purser.Planner
