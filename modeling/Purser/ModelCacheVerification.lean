import Purser.ModelCacheStorage
import Mathlib.Algebra.Order.BigOperators.Group.List
import Mathlib.Algebra.Order.Group.Nat

/-!
# What the cache hands out

With one call at a time, the file that `get_or_fetch` returns has the digest
that was asked for, under three conditions on the index and the blobs.
-/

namespace Purser.ModelCache

open KeyedStores TransitionRuns List

variable {outcome : Outcome} {artifact : ModelArtifact} {action : Action} {answer : Answer}
  {present : Option String}

def World.Quiet (world : World) : Prop := ∀ call ∈ world.calls, call.pending = false

/-- Calls are made one at a time. -/
def World.Sequential (world : World) : Action → Prop
  | .perform _ _ | .resume _ | .reopen => True
  | _ => world.Quiet

def World.Alone (world : World) : Prop :=
  ∀ (first second : ℕ) (call other : Call), world.calls[first]? = some call →
    world.calls[second]? = some other → call.pending = true → other.pending = true → first = second

variable {hash : Bytes → String} {cache : Cache} {call : Call}

section Progress

variable {maxBytes : ℕ}

theorem pending_of_perform {result : Cache × Answer}
    (performed : call.stage.perform hash cache outcome = some result) : call.pending = true := by
  obtain ⟨artifact, stage, answer⟩ := call
  cases stage with
  | returned => cases performed
  | _ => rfl

theorem pending_of_resume {result : Cache × Call}
    (resumed : call.resume maxBytes cache = some result) : call.pending = true := by
  obtain ⟨artifact, stage, answer⟩ := call
  cases stage with
  | returned => cases resumed
  | _ => rfl

variable {address : String}

theorem removes_of_admits (admits : call.admits = some address) : call.removes = none := by
  obtain ⟨artifact, stage, answer⟩ := call
  cases stage with
  | removing => cases admits
  | _ => rfl

end Progress

namespace World.Alone

variable {maxBytes : ℕ} {world next : World}

theorem getOrFetch (quiet : world.Quiet) (begun : World.Begun world artifact next) :
    next.Alone := by
  have last {call new : Call} {index : ℕ}
      (found : (world.calls ++ [new])[index]? = some call) (pending : call.pending = true) :
      index = world.calls.length := by
    rw [getElem?_append] at found
    split at found
    · have idle := quiet call (mem_of_getElem? found)
      rw [pending] at idle
      cases idle
    · have within := (List.getElem?_eq_some_iff.mp found).1
      rw [length_singleton] at within
      omega
  intro first second call other atFirst atSecond pending otherPending
  cases begun with
  | hit touched | miss touched =>
    exact (last atFirst pending).trans (last atSecond otherPending).symm

theorem set (alone : world.Alone) {index : ℕ} {call after : Call} {cache : Cache}
    (found : world.calls[index]? = some call) (pending : call.pending = true) :
    World.Alone ⟨cache, world.calls.set index after⟩ := by
  have earlier {place : ℕ} {other : Call}
      (atPlace : (world.calls.set index after)[place]? = some other)
      (otherPending : other.pending = true) : place = index := by
    rcases eq_or_of_getElem?_set atPlace with ⟨same, _⟩ | ⟨_, unchanged⟩
    · exact same
    · exact alone place index other call unchanged found otherPending pending
  intro first second call other atFirst atSecond firstPending secondPending
  exact (earlier atFirst firstPending).trans (earlier atSecond secondPending).symm

theorem step (alone : world.Alone) (sequential : world.Sequential action)
    (stepped : world.step hash maxBytes action = some next) : next.Alone := by
  cases action with
  | getOrFetch =>
    exact getOrFetch sequential (World.begun_of_step stepped)
  | get modelRef | pin modelRef | unpin modelRef =>
    cases stepped
    exact alone
  | perform =>
    obtain ⟨call, cache, answer, found, suspended, performed, rfl⟩ :=
      World.exists_of_perform stepped
    exact alone.set found (pending_of_perform performed)
  | resume =>
    obtain ⟨call, cache, after, found, resumed, rfl⟩ := World.exists_of_resume stepped
    exact alone.set found (pending_of_resume resumed)
  | reopen =>
    cases stepped
    rintro _ _ _ _ ⟨⟩

/-- A call that is alone does not get in its own way. -/
theorem disjoint (alone : world.Alone) : Disjoint world := by
  intro call involved address admits other otherInvolved removes
  obtain ⟨first, atFirst⟩ := mem_iff_getElem?.mp involved
  obtain ⟨second, atSecond⟩ := mem_iff_getElem?.mp otherInvolved
  have same := alone first second call other atFirst atSecond (pending_of_use (.inl admits))
    (pending_of_use (.inr removes))
  subst same
  cases atFirst.symm.trans atSecond
  rw [removes_of_admits admits] at removes
  cases removes

end World.Alone

def Cache.Holds (cache : Cache) (hash : Bytes → String) (temp : TempName) (actual : String) :
    Prop :=
  ∃ file, cache.temp.find temp = some file ∧ hash file.content = actual

def Call.Checked (hash : Bytes → String) (cache : Cache) (call : Call) : Prop :=
  match call.stage, call.answer with
  | .hashing temp, some (.digest actual) => cache.Holds hash temp actual
  | .measuring temp actual, _ | .probing temp actual _, _ | .copying temp actual _, _ =>
    cache.Holds hash temp actual ∧ actual = call.artifact.expected
  | .moving temp actual _, answer =>
    (answer ≠ some .done → cache.Holds hash temp actual) ∧ actual = call.artifact.expected
  | .discarding _ (.insert actual _), _ | .sweeping actual, _ | .removing actual _, _ =>
    actual = call.artifact.expected
  | _, _ => True

namespace Call.Checked

variable {maxBytes : ℕ} {after : Cache} {next : Call}

theorem of_returned (returned : call.pending = false) : call.Checked hash cache := by
  obtain ⟨artifact, stage, answer⟩ := call
  cases stage with
  | returned => trivial
  | _ => cases returned

theorem perform (checked : call.Checked hash cache) (suspended : call.answer = none)
    (performed : call.stage.perform hash cache outcome = some (after, answer)) :
    { call with answer := some answer : Call }.Checked hash after := by
  have works := works_of_perform performed
  obtain ⟨artifact, stage, given⟩ := call
  cases suspended
  cases works with
  | fetches | tearsFetch | fetchesNothing => trivial
  | hashes found => exact ⟨_, found, rfl⟩
  | measures | probes | copies | tearsCopy | removes => exact checked
  | moves => exact ⟨fun unfinished => absurd rfl unfinished, checked.2⟩
  | discards following =>
    cases following with
    | fail => trivial
    | insert => exact checked
  | fails problem notSweeping notReturned =>
    cases stage with
    | sweeping actual => exact absurd rfl (notSweeping actual)
    | returned result => exact absurd rfl (notReturned result)
    | discarding temp following =>
      cases following with
      | fail => trivial
      | insert => exact checked
    | moving => exact ⟨fun _ => checked.1 (by rintro ⟨⟩), checked.2⟩
    | fetching | hashing => trivial
    | _ => exact checked

theorem resume (checked : call.Checked hash cache)
    (resumed : call.resume maxBytes cache = some (after, next)) : next.Checked hash after := by
  obtain ⟨following, rfl, continues⟩ := movesOn_of_resume resumed
  obtain ⟨artifact, stage, answer⟩ := call
  cases continues with
  | matching equal => exact ⟨checked, equal⟩
  | fitting | discarded | evictsShared | evictsLast | removed => exact checked
  | present | moved | copied => exact checked.2
  | absent => exact ⟨fun _ => checked.1, checked.2⟩
  | unmoved => exact ⟨checked.1 (by rintro ⟨⟩), checked.2⟩
  | _ => trivial

end Call.Checked

/-- A copy that fails leaves no incomplete blob behind. -/
def Stage.whole : Stage → Outcome → Bool
  | .copying _ _ _, .torn _ _ => false
  | _, _ => true

def World.Whole (world : World) : Action → Prop
  | .perform index outcome => ∀ call ∈ world.calls[index]?, call.stage.whole outcome = true
  | _ => True

/-- What holds while calls are made one at a time. -/
structure Sound (hash : Bytes → String) (world : World) : Prop where
  alone : world.Alone
  stored : Stored world
  hashed : ∀ blob ∈ world.cache.blobs.rows, hash blob.content = blob.address
  checked : ∀ call ∈ world.calls, call.Checked hash world.cache
  aged : ∀ entry ∈ world.cache.entries.rows, entry.lastAccess < world.cache.clock

theorem hashed_of_perform {hash : Bytes → String} {cache after : Cache} {call : Call}
    (hashed : ∀ blob ∈ cache.blobs.rows, hash blob.content = blob.address)
    (checked : call.Checked hash cache) (suspended : call.answer = none)
    (whole : call.stage.whole outcome = true)
    (performed : call.stage.perform hash cache outcome = some (after, answer)) :
    ∀ blob ∈ after.blobs.rows, hash blob.content = blob.address := by
  have writes {actual : String} {content : Bytes} (digest : hash content = actual) :
      ∀ blob ∈ (cache.writeBlob actual content).blobs.rows, hash blob.content = blob.address := by
    intro blob member
    rcases Store.mem_put_iff.mp member with rfl | ⟨earlier, _⟩
    · exact digest
    · exact hashed blob earlier
  have works := works_of_perform performed
  obtain ⟨artifact, stage, given⟩ := call
  cases suspended
  cases works with
  | moves _ _ found =>
    obtain ⟨held, foundHeld, digest⟩ := checked.1 (by rintro ⟨⟩)
    cases found.symm.trans foundHeld
    exact writes digest
  | copies _ _ found =>
    obtain ⟨held, foundHeld, digest⟩ := checked.1
    cases found.symm.trans foundHeld
    exact writes digest
  | tearsCopy => cases whole
  | removes => exact fun blob member => hashed blob (Store.mem_erase_iff.mp member).1
  | _ => exact hashed

theorem aged_of_touched {cache after : Cache} {modelRef : String}
    (aged : ∀ entry ∈ cache.entries.rows, entry.lastAccess < cache.clock)
    (touched : cache.Touched modelRef after present) :
    ∀ entry ∈ after.entries.rows, entry.lastAccess < after.clock := by
  cases touched with
  | absent => exact aged
  | stale => exact fun entry member => aged entry (Store.mem_erase_iff.mp member).1
  | present found =>
    intro entry member
    obtain ⟨row, held, rfl⟩ := mem_map.mp member
    split
    · exact Nat.lt_succ_self _
    · exact Nat.lt_succ_of_lt (aged row held)

namespace Sound

variable {maxBytes : ℕ} {world next : World}

theorem opened (cache : Cache)
    (hashed : ∀ blob ∈ cache.blobs.rows, hash blob.content = blob.address) :
    Sound hash { cache := cache.reopen } :=
  ⟨by rintro _ _ _ _ ⟨⟩, ⟨by rintro _ ⟨⟩, by rintro _ ⟨⟩, by rintro _ ⟨⟩⟩, hashed,
    by rintro _ ⟨⟩, by rintro _ ⟨⟩⟩

variable {index : ℕ}

section

variable (sound : Sound hash world)

include sound

/-- The calls next to the one in progress have returned. -/
theorem mem_set {after other : Call} (found : world.calls[index]? = some call)
    (pending : call.pending = true) (member : other ∈ world.calls.set index after) :
    other = after ∨ (other ∈ world.calls ∧ other.pending = false) := by
  obtain ⟨place, atPlace⟩ := mem_iff_getElem?.mp member
  rcases eq_or_of_getElem?_set atPlace with ⟨_, new⟩ | ⟨different, unchanged⟩
  · exact .inl new
  · refine .inr ⟨mem_of_getElem? unchanged, ?_⟩
    cases otherPending : other.pending with
    | false => rfl
    | true => exact absurd (sound.alone _ _ _ _ unchanged found otherPending pending) different

theorem look (quiet : world.Quiet) {modelRef : String} (looked : world.Looked modelRef next)
    (alone : next.Alone) : Sound hash next := by
  have stored := sound.stored.look looked
  obtain ⟨touched, later, _, new⟩ := looked
  refine ⟨alone, stored, fun blob member => ?_, fun call involved => ?_, fun entry member => ?_⟩
  · rw [blobs_of_touched touched] at member
    exact sound.hashed blob member
  · rcases new call involved with earlier | ⟨starts, _⟩
    · exact Call.Checked.of_returned (quiet call earlier)
    · cases starts <;> trivial
  · exact (aged_of_touched sound.aged touched entry member).trans_le later

theorem perform (found : world.calls[index]? = some call) (suspended : call.answer = none)
    (whole : call.stage.whole outcome = true)
    (performed : call.stage.perform hash world.cache outcome = some (cache, answer)) :
    Sound hash ⟨cache, world.calls.set index { call with answer := some answer }⟩ := by
  have pending := pending_of_perform performed
  have checked := sound.checked call (mem_of_getElem? found)
  obtain ⟨entries, _, clock⟩ := index_of_perform performed
  refine ⟨sound.alone.set found pending, ?_, ?_, fun other member => ?_, ?_⟩
  · exact sound.stored.perform sound.alone.disjoint found entries
      (performed_of_perform suspended performed)
  · exact hashed_of_perform sound.hashed checked suspended whole performed
  · rcases sound.mem_set found pending member with rfl | ⟨_, returned⟩
    · exact checked.perform suspended performed
    · exact Call.Checked.of_returned returned
  · intro entry member
    rw [entries] at member
    rw [clock]
    exact sound.aged entry member

theorem resume {after : Call} (found : world.calls[index]? = some call)
    (resumed : call.resume maxBytes world.cache = some (cache, after)) :
    Sound hash ⟨cache, world.calls.set index after⟩ := by
  have pending := pending_of_resume resumed
  have checked := sound.checked call (mem_of_getElem? found)
  have change := resumed_of_resume resumed
  refine ⟨sound.alone.set found pending, sound.stored.resume sound.alone.disjoint found change,
    ?_, fun other member => ?_, ?_⟩
  · cases change <;> exact sound.hashed
  · rcases sound.mem_set found pending member with rfl | ⟨_, returned⟩
    · exact checked.resume resumed
    · exact Call.Checked.of_returned returned
  · cases change with
    | keeps | ends => exact sound.aged
    | admits =>
      intro entry member
      rcases Store.mem_put_iff.mp member with rfl | ⟨earlier, _⟩
      · exact Nat.lt_succ_self _
      · exact Nat.lt_succ_of_lt (sound.aged entry earlier)
    | evicts => exact fun entry member => sound.aged entry (Store.mem_erase_iff.mp member).1

theorem step (sequential : world.Sequential action) (whole : world.Whole action)
    (stepped : world.step hash maxBytes action = some next) : Sound hash next := by
  have alone := sound.alone.step sequential stepped
  cases action with
  | getOrFetch => exact sound.look sequential (World.looked_of_getOrFetch stepped) alone
  | get => exact sound.look sequential (World.looked_of_get stepped) alone
  | pin modelRef | unpin modelRef =>
    cases stepped
    exact ⟨alone, ⟨sound.stored.entries, sound.stored.guarded, sound.stored.counted⟩,
      sound.hashed, fun call involved => Call.Checked.of_returned (sequential call involved),
      sound.aged⟩
  | perform =>
    obtain ⟨call, cache, answer, found, suspended, performed, rfl⟩ :=
      World.exists_of_perform stepped
    exact sound.perform found suspended (whole call found) performed
  | resume =>
    obtain ⟨call, cache, after, found, resumed, rfl⟩ := World.exists_of_resume stepped
    exact sound.resume found resumed
  | reopen =>
    cases stepped
    exact opened world.cache sound.hashed

end

end Sound

def Cache.pinnedBytes (cache : Cache) (modelRef : String) : ℕ :=
  ((cache.entries.rows.filter fun entry =>
    entry.modelRef ∈ cache.pinned ∧ entry.modelRef ≠ modelRef).map Entry.size).sum

structure Cache.Own (cache : Cache) (maxBytes : ℕ) (modelRef actual : String) (own : Entry) :
    Prop where
  found : cache.entries.find modelRef = some own
  digest : own.sha256 = actual
  newest : ∀ entry ∈ cache.entries.rows, entry.modelRef ≠ modelRef →
    entry.lastAccess < own.lastAccess
  room : cache.pinnedBytes modelRef + own.size ≤ maxBytes

namespace Cache.Own

variable {maxBytes : ℕ} {modelRef actual : String} {own : Entry}

theorem of_insertEntry {size : ℕ}
    (aged : ∀ entry ∈ cache.entries.rows, entry.lastAccess < cache.clock)
    (room : cache.pinnedBytes modelRef + size ≤ maxBytes) :
    (cache.insertEntry modelRef actual size).Own maxBytes modelRef actual
      ⟨modelRef, actual, size, cache.clock⟩ := by
  refine ⟨?_, rfl, fun entry member different => ?_, ?_⟩
  · rw [Cache.insertEntry, Store.find_put, if_pos rfl]
  · rcases Store.mem_put_iff.mp member with rfl | ⟨earlier, _⟩
    · exact absurd rfl different
    · exact aged entry earlier
  · have same : (cache.insertEntry modelRef actual size).pinnedBytes modelRef =
        cache.pinnedBytes modelRef := by
      unfold Cache.pinnedBytes Cache.insertEntry
      rw [Store.filter_put]
      intro entry equal
      exact decide_eq_false fun known => known.2 equal
    rw [same]
    exact room

/-- If all other models are pinned, they and the new one are all there is. -/
theorem totalBytes_le (holds : cache.Own maxBytes modelRef actual own)
    (pinned : ∀ entry ∈ cache.entries.rows, entry.modelRef ≠ modelRef →
      entry.modelRef ∈ cache.pinned) : cache.totalBytes ≤ maxBytes := by
  have split (rows : List Entry) : (rows.map Entry.size).sum =
      ((rows.filter fun entry => entry.modelRef = modelRef).map Entry.size).sum +
        ((rows.filter fun entry => entry.modelRef ≠ modelRef).map Entry.size).sum := by
    induction rows with
    | nil => rfl
    | cons entry rows induction =>
      by_cases same : entry.modelRef = modelRef <;> simp [same, induction] <;> omega
  have others : (cache.entries.rows.filter fun entry => entry.modelRef ≠ modelRef) =
      cache.entries.rows.filter fun entry =>
        entry.modelRef ∈ cache.pinned ∧ entry.modelRef ≠ modelRef := by
    refine filter_congr fun entry member => ?_
    by_cases same : entry.modelRef = modelRef
    · simp [same]
    · simp [same, pinned entry member same]
  have room := holds.room
  rw [Cache.totalBytes, split, others, Store.filter_key_eq holds.found]
  rw [Cache.pinnedBytes] at room
  simp only [map_cons, map_nil, sum_cons, sum_nil]
  omega

theorem evict (holds : cache.Own maxBytes modelRef actual own)
    (exceeded : maxBytes < cache.totalBytes) {victim : Entry}
    (chosen : cache.victim = some victim) :
    (cache.dropEntry victim.modelRef).Own maxBytes modelRef actual own := by
  have unpinned := mem_filter.mp (argmin_mem chosen)
  have different : victim.modelRef ≠ modelRef := by
    intro same
    have whole : victim = own :=
      Option.some.inj ((Store.find_eq_some_iff.mpr ⟨unpinned.1, same⟩).symm.trans holds.found)
    refine absurd (holds.totalBytes_le fun entry member other => ?_) (not_le.mpr exceeded)
    by_contra free
    have listed : entry ∈ cache.unpinned := mem_filter.mpr ⟨member, decide_eq_true free⟩
    have least := le_of_mem_argmin listed chosen
    rw [whole] at least
    exact absurd (holds.newest entry member other) (not_lt.mpr least)
  refine ⟨?_, holds.digest, fun entry member other => ?_, le_trans ?_ holds.room⟩
  · rw [Cache.dropEntry, Store.find_erase, if_neg (Ne.symm different)]
    exact holds.found
  · exact holds.newest entry (Store.mem_erase_iff.mp member).1 other
  · refine Nat.add_le_add_right ?_ _
    refine List.Sublist.sum_le_sum (List.Sublist.map _ (List.Sublist.filter _ ?_)) ?_
    · exact filter_sublist
    · exact fun _ _ => Nat.zero_le _

end Cache.Own

def Call.Keeps (maxBytes : ℕ) (cache : Cache) (call : Call) : Prop :=
  ∀ actual ∈ call.evicting, ∃ own, cache.Own maxBytes call.artifact.modelRef actual own

/-- The pinned models leave room for the one that is admitted. -/
def World.Fits (maxBytes : ℕ) (world : World) : Action → Prop
  | .resume index => ∀ call ∈ world.calls[index]?, ∀ admission ∈ call.admission,
      world.cache.pinnedBytes admission.1 + admission.2.2 ≤ maxBytes
  | _ => True

/-- A model that is in the index is asked for with the digest that it has there. -/
def World.SameDigest (world : World) : Action → Prop
  | .getOrFetch artifact => ∀ entry ∈ world.cache.entries.find artifact.modelRef,
      entry.sha256 = artifact.expected
  | _ => True

def Verifiable (maxBytes : ℕ) (world : World) (action : Action) : Prop :=
  world.Sequential action ∧ world.Whole action ∧ world.Fits maxBytes action ∧
    world.SameDigest action

/-- The step returns this path to a caller of `get_or_fetch`. -/
def HandsOut (world next : World) (artifact : ModelArtifact) (path : String) : Prop :=
  ∃ index : ℕ, (∀ call ∈ world.calls[index]?, call.pending = true) ∧
    ∃ call ∈ next.calls[index]?, call.artifact = artifact ∧ call.stage = .returned (.ok path)

section Verification

variable {maxBytes : ℕ} {world next : World} {path : String}

theorem keeps_of_returned (returned : call.pending = false) : call.Keeps maxBytes cache := by
  obtain ⟨artifact, stage, answer⟩ := call
  cases stage with
  | returned => rintro _ ⟨⟩
  | _ => cases returned

theorem keeps_of_step (sound : Sound hash world)
    (keeps : ∀ call ∈ world.calls, call.Keeps maxBytes world.cache)
    (sequential : world.Sequential action) (fits : world.Fits maxBytes action)
    (stepped : world.step hash maxBytes action = some next) :
    ∀ call ∈ next.calls, call.Keeps maxBytes next.cache := by
  cases action with
  | getOrFetch =>
    obtain ⟨_, _, _, new⟩ := World.looked_of_getOrFetch stepped
    intro call involved
    rcases new call involved with earlier | ⟨starts, _⟩
    · exact keeps_of_returned (sequential call earlier)
    · cases starts <;> rintro _ ⟨⟩
  | get modelRef | pin modelRef | unpin modelRef =>
    cases stepped
    exact fun call involved => keeps_of_returned (sequential call involved)
  | perform =>
    obtain ⟨call, cache, answer, found, suspended, performed, rfl⟩ :=
      World.exists_of_perform stepped
    intro other member
    rcases sound.mem_set found (pending_of_perform performed) member with rfl | ⟨_, returned⟩
    · have keeps := keeps call (mem_of_getElem? found)
      obtain ⟨entries, pinned, _⟩ := index_of_perform performed
      have moved {modelRef actual : String} {own : Entry}
          (holds : world.cache.Own maxBytes modelRef actual own) :
          cache.Own maxBytes modelRef actual own := by
        refine ⟨?_, holds.digest, ?_, ?_⟩
        · rw [entries]
          exact holds.found
        · rw [entries]
          exact holds.newest
        · rw [Cache.pinnedBytes, entries, pinned]
          exact holds.room
      intro actual evicting
      obtain ⟨own, holds⟩ := keeps actual evicting
      exact ⟨own, moved holds⟩
    · exact keeps_of_returned returned
  | resume =>
    obtain ⟨call, cache, after, found, resumed, rfl⟩ := World.exists_of_resume stepped
    intro other member
    rcases sound.mem_set found (pending_of_resume resumed) member with rfl | ⟨_, returned⟩
    · have keeps := keeps call (mem_of_getElem? found)
      have fits := fits call found
      have resumed := resumed_of_resume resumed
      cases resumed with
      | keeps _ evicting =>
        rw [Call.Keeps, evicting]
        exact keeps
      | admits admission =>
        rintro _ ⟨⟩
        exact ⟨_, Cache.Own.of_insertEntry sound.aged (fits _ admission)⟩
      | @evicts actual _ sweeps exceeded chosen =>
        obtain ⟨own, holds⟩ := keeps actual (by rw [Call.evicting, sweeps]; rfl)
        have kept := holds.evict exceeded chosen
        split
        all_goals
          rintro _ ⟨⟩
          exact ⟨own, kept⟩
      | ends => rintro _ ⟨⟩
    · exact keeps_of_returned returned
  | reopen =>
    cases stepped
    rintro _ ⟨⟩

theorem exists_blob (sound : Sound hash world) {address : String}
    (present : world.cache.hasBlob address = true) :
    ∃ blob, world.cache.blobs.find address = some blob ∧ hash blob.content = address := by
  obtain ⟨blob, found⟩ := Option.isSome_iff_exists.mp present
  obtain ⟨member, named⟩ := Store.find_eq_some_iff.mp found
  exact ⟨blob, found, (sound.hashed blob member).trans named⟩

/-- The call that returns the path is one that the step has changed or made. -/
theorem HandsOut.exists_call (handed : HandsOut world next artifact path) :
    ∃ (place : ℕ) (call : Call), next.calls[place]? = some call ∧
      world.calls[place]? ≠ some call ∧ call.artifact = artifact ∧
      call.stage = .returned (.ok path) := by
  obtain ⟨place, fresh, call, found, same, served⟩ := handed
  refine ⟨place, call, found, fun earlier => ?_, same, served⟩
  have pending := fresh call earlier
  rw [Call.pending, served] at pending
  cases pending

/-- The path that a step hands out is the one of a blob with the digest that was
asked for. -/
theorem handsOut_of_step (sound : Sound hash world)
    (keeps : ∀ call ∈ world.calls, call.Keeps maxBytes world.cache)
    (sameDigest : world.SameDigest action) (stepped : world.step hash maxBytes action = some next)
    (handed : HandsOut world next artifact path) :
    next.cache.hasBlob path = true ∧ path = artifact.expected := by
  obtain ⟨place, given, found, changed, rfl, served⟩ := handed.exists_call
  -- the call is the one at the place where the step has set one
  have at_set {index : ℕ} {after : Call}
      (found : (world.calls.set index after)[place]? = some given) : given = after := by
    rcases eq_or_of_getElem?_set found with ⟨_, new⟩ | ⟨_, unchanged⟩
    · exact new
    · exact absurd unchanged changed
  have at_end {new : Call} (found : (world.calls ++ [new])[place]? = some given) : given = new := by
    rw [getElem?_append] at found
    split at found
    · exact absurd found changed
    · exact mem_singleton.mp (mem_of_getElem? found)
  cases action with
  | getOrFetch =>
    cases World.begun_of_step stepped with
    | hit touched =>
      cases at_end found
      cases served
      cases touched with
      | present entry there => exact ⟨there, sameDigest _ entry⟩
    | miss =>
      cases at_end found
      cases served
  | get modelRef | pin modelRef | unpin modelRef =>
    cases stepped
    exact absurd found changed
  | perform =>
    obtain ⟨call, cache, answer, atIndex, suspended, performed, rfl⟩ :=
      World.exists_of_perform stepped
    cases at_set found
    rw [served] at performed
    cases performed
  | resume =>
    obtain ⟨call, cache, after, atIndex, resumed, rfl⟩ := World.exists_of_resume stepped
    cases at_set found
    have involved := mem_of_getElem? atIndex
    have keeps := keeps call involved
    have resumed := resumed_of_resume resumed
    cases resumed with
    | keeps unserved => exact absurd served (unserved path)
    | admits => cases served
    | evicts =>
      split at served <;> cases served
    | @ends _ sweeps =>
      cases served
      obtain ⟨entry, holds⟩ := keeps path (by rw [Call.evicting, sweeps]; rfl)
      have checked := sound.checked call involved
      simp only [Call.Checked, sweeps] at checked
      refine ⟨?_, checked⟩
      rw [← holds.digest]
      exact sound.stored.entries entry (Store.find_eq_some_iff.mp holds.found).1
  | reopen =>
    cases stepped
    cases found

/-- Whatever `get_or_fetch` hands out is a file with the digest that was asked
for. -/
theorem handed_out_verified {actions : List Action} {action : Action}
    {artifact : ModelArtifact} {path : String}
    (ran : run (World.step hash maxBytes) {} actions = some world)
    (stepped : world.step hash maxBytes action = some next)
    (verifiable : Conforms (World.step hash maxBytes) (Verifiable maxBytes) {}
      (actions ++ [action]))
    (handed : HandsOut world next artifact path) :
    ∃ blob, next.cache.blobs.find path = some blob ∧ hash blob.content = artifact.expected := by
  obtain ⟨before, last⟩ := (conforms_append_iff ran).mp verifiable
  obtain ⟨sound, keeps⟩ : Sound hash world ∧
      ∀ call ∈ world.calls, call.Keeps maxBytes world.cache := by
    refine run_induction (motive := fun _ world => Sound hash world ∧
      ∀ call ∈ world.calls, call.Keeps maxBytes world.cache) ?_ ?_ ran before
    · exact ⟨Sound.opened {} (by rintro _ ⟨⟩), by rintro _ ⟨⟩⟩
    · rintro _ state action after ⟨sound, keeps⟩ ⟨sequential, whole, fits, _⟩ stepped
      exact ⟨sound.step sequential whole stepped, keeps_of_step sound keeps sequential fits stepped⟩
  obtain ⟨sequential, whole, fits, sameDigest⟩ := last.1
  obtain ⟨present, expected⟩ := handsOut_of_step sound keeps sameDigest stepped handed
  have sound := sound.step sequential whole stepped
  obtain ⟨blob, found, digest⟩ := exists_blob sound present
  exact ⟨blob, found, digest.trans expected⟩

end Verification

section Decisions

variable (maxBytes : ℕ) (world : World)

instance : Decidable world.Quiet :=
  inferInstanceAs (Decidable (∀ call ∈ world.calls, call.pending = false))

instance decidableSequential : (action : Action) → Decidable (world.Sequential action)
  | .perform _ _ | .resume _ | .reopen => isTrue trivial
  | .getOrFetch _ | .get _ | .pin _ | .unpin _ => inferInstanceAs (Decidable world.Quiet)

instance decidableWhole : (action : Action) → Decidable (world.Whole action)
  | .perform index _ => inferInstanceAs (Decidable (∀ call ∈ world.calls[index]?, _))
  | .getOrFetch _ | .get _ | .pin _ | .unpin _ | .resume _ | .reopen => isTrue trivial

instance decidableFits : (action : Action) → Decidable (world.Fits maxBytes action)
  | .resume index => inferInstanceAs (Decidable (∀ call ∈ world.calls[index]?,
      ∀ admission ∈ call.admission, _))
  | .getOrFetch _ | .get _ | .pin _ | .unpin _ | .perform _ _ | .reopen => isTrue trivial

instance decidableSameDigest : (action : Action) → Decidable (world.SameDigest action)
  | .getOrFetch artifact => inferInstanceAs (Decidable (∀ entry ∈
      world.cache.entries.find artifact.modelRef, _))
  | .resume _ | .get _ | .pin _ | .unpin _ | .perform _ _ | .reopen => isTrue trivial

instance (action : Action) : Decidable (Verifiable maxBytes world action) :=
  inferInstanceAs (Decidable (_ ∧ _ ∧ _ ∧ _))

end Decisions

section Runs

open Sha256Digests

/-- One model is fetched under two digests, one after the other. -/
def askedAgain : List Action :=
  .getOrFetch (artifactOf "llama" [1]) :: downloads 0 [1] ++ admits 0 ++
    [.getOrFetch (artifactOf "llama" [2])]

/-- A pinned model fills the budget when another one is fetched. -/
def noRoom : List Action := .getOrFetch (artifactOf "llama" [1]) :: downloads 0 [1] ++ admits 0 ++
    .pin "llama" :: .getOrFetch (artifactOf "qwen" [2]) :: downloads 1 [2] ++ admits 1 ++ admits 1

/-- The second call returns the path of the file with the first digest, and in the
other run the path of a file that has just been removed. -/
theorem handed_out_unverified : (∃ world ∈ run (World.step sha256 8) {} askedAgain,
      ∃ call ∈ world.calls[1]?, call.stage = .returned (.ok (sha256 [1])) ∧
        ∃ blob ∈ world.cache.blobs.find (sha256 [1]),
          sha256 blob.content ≠ call.artifact.expected) ∧
    ∃ world ∈ run (World.step sha256 1) {} noRoom,
      ∃ call ∈ world.calls[1]?, call.stage = .returned (.ok (sha256 [2])) ∧
        world.cache.blobs.find (sha256 [2]) = none := by
  simp only [askedAgain, noRoom, artifactOf_eq_known, sha256_eq_known]
  decide +kernel

/-- The second fetch evicts the first model. -/
def fetchedInTurn : List Action :=
  .getOrFetch (artifactOf "llama" [1]) :: downloads 0 [1] ++ admits 0 ++
    .getOrFetch (artifactOf "qwen" [2]) :: downloads 1 [2] ++ admits 1 ++
    [.perform 1 .done, .resume 1]

theorem fetchedInTurn_verified : ∃ world ∈ run (World.step sha256 1) {} fetchedInTurn,
      ∃ next ∈ world.step sha256 1 (.resume 1), ∃ blob,
        next.cache.blobs.find (sha256 [2]) = some blob ∧
          sha256 blob.content = (artifactOf "qwen" [2]).expected := by
  have ends : Conforms (World.step sha256 1) (Verifiable 1) {} (fetchedInTurn ++ [.resume 1]) ∧
      ∃ world ∈ run (World.step sha256 1) {} fetchedInTurn,
        (∀ call ∈ world.calls[1]?, call.pending = true) ∧
        ∃ next ∈ world.step sha256 1 (.resume 1), ∃ call ∈ next.calls[1]?,
          call.artifact = artifactOf "qwen" [2] ∧ call.stage = .returned (.ok (sha256 [2])) := by
    simp only [fetchedInTurn, artifactOf_eq_known, sha256_eq_known]
    decide +kernel
  obtain ⟨verifiable, world, ran, fresh, next, stepped, returns⟩ := ends
  exact ⟨world, ran, next, stepped, handed_out_verified ran stepped verifiable ⟨1, fresh, returns⟩⟩

end Runs

end Purser.ModelCache
