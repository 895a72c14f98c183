import Purser.ModelCacheVerification

/-!
# The representation of the cache

With one call at a time, the blobs are those that the index names, and the index
keeps to the budget unless all models are pinned.  Taking a pin away is the
exception.
-/

namespace Purser.ModelCache

open KeyedStores TransitionRuns List
open Store (find_eq_some_iff mem_put_iff mem_erase_iff find_put find put find_erase)

variable {outcome : Outcome} {answer : Answer} {entry : Entry} {action : Action}

/-- The index keeps to the budget, or there is nothing to evict. -/
def Cache.Budget (maxBytes : ℕ) (cache : Cache) : Prop :=
  cache.totalBytes ≤ maxBytes ∨ ∀ entry ∈ cache.entries.rows, entry.modelRef ∈ cache.pinned

/-- The blob that a fetched file of this size is about to meet. -/
def Stage.target : Stage → Option (String × ℕ)
  | .probing _ actual size | .moving _ actual size | .copying _ actual size =>
    some (actual, size)
  | _ => none

/-- A file with the digest of a blob has the size of that blob, too. -/
def World.SameSize (world : World) : Action → Prop
  | .perform index _ => ∀ call ∈ world.calls[index]?, ∀ target ∈ call.stage.target,
      ∀ blob ∈ world.cache.blobs.find target.1, blob.content.length = target.2
  | _ => True

/-- A pin is taken away only within the budget, and a process opens a directory
only while there are no blobs in it. -/
def World.Releases (maxBytes : ℕ) (world : World) : Action → Prop
  | .unpin modelRef => world.cache.totalBytes ≤ maxBytes ∨ world.cache.entries.find modelRef = none
  | .reopen => world.cache.blobs.rows = []
  | _ => True

def Accountable (maxBytes : ℕ) (world : World) (action : Action) : Prop :=
  world.Sequential action ∧ world.Tidy action ∧ world.SameSize action ∧
    world.Releases maxBytes action

def Cache.FileSize (cache : Cache) (temp : TempName) (size : ℕ) : Prop :=
  ∃ file, cache.temp.find temp = some file ∧ file.content.length = size

def Cache.BlobSize (cache : Cache) (address : String) (size : ℕ) : Prop :=
  ∀ blob ∈ cache.blobs.find address, blob.content.length = size

def Call.Sized (cache : Cache) (call : Call) : Prop :=
  match call.stage, call.answer with
  | .measuring temp _, some (.length size) => cache.FileSize temp size
  | .probing temp actual size, answer =>
    cache.FileSize temp size ∧ (answer = some (.found true) → cache.BlobSize actual size)
  | .moving temp actual size, answer =>
    (answer ≠ some .done → cache.FileSize temp size) ∧
      (answer = some .done → cache.BlobSize actual size)
  | .copying temp actual size, answer =>
    cache.FileSize temp size ∧ (answer = some .done → cache.BlobSize actual size)
  | .discarding _ (.insert actual size), _ => cache.BlobSize actual size
  | _, _ => True

variable {hash : Bytes → String} {cache : Cache} {call : Call}

namespace Call.Sized

variable {maxBytes : ℕ} {after : Cache} {next : Call}

theorem of_returned (returned : call.pending = false) : call.Sized cache := by
  obtain ⟨artifact, stage, answer⟩ := call
  cases stage with
  | returned => trivial
  | _ => cases returned

theorem blobSize (sized : call.Sized cache) {modelRef actual : String} {size : ℕ}
    (admission : call.admission = some (modelRef, actual, size)) : cache.BlobSize actual size := by
  revert admission
  fun_cases Call.admission call with
  | case1 _ _ _ answer stage =>
    rintro ⟨⟩
    simp only [Sized, stage] at sized
    exact sized.2 answer
  | case2 _ _ _ _ _ stage =>
    rintro ⟨⟩
    simp only [Sized, stage] at sized
    exact sized
  | case3 => rintro ⟨⟩

theorem writeBlob (address : String) {content : Bytes} {size : ℕ} (length : content.length = size) :
    (cache.writeBlob address content).BlobSize address size := by
  intro blob found
  rw [Cache.writeBlob, find_put, if_pos rfl] at found
  cases found
  exact length

theorem perform (sized : call.Sized cache) (suspended : call.answer = none)
    (same : ∀ target ∈ call.stage.target, cache.BlobSize target.1 target.2)
    (performed : call.stage.perform hash cache outcome = some (after, answer)) :
    { call with answer := some answer : Call }.Sized after := by
  have works := works_of_perform performed
  obtain ⟨artifact, stage, given⟩ := call
  cases suspended
  cases works with
  | fetches | tearsFetch | fetchesNothing | hashes | removes => trivial
  | measures _ found => exact ⟨_, found, rfl⟩
  | probes => exact ⟨sized.1, fun _ => same _ rfl⟩
  | moves actual size found =>
    obtain ⟨held, foundHeld, length⟩ := sized.1 (by rintro ⟨⟩)
    cases found.symm.trans foundHeld
    exact ⟨fun unfinished => absurd rfl unfinished, fun _ => writeBlob actual length⟩
  | copies actual size found =>
    obtain ⟨held, foundHeld, length⟩ := sized.1
    cases found.symm.trans foundHeld
    exact ⟨sized.1, fun _ => writeBlob actual length⟩
  | tearsCopy => exact ⟨sized.1, by rintro ⟨⟩⟩
  | discards following =>
    cases following with
    | fail => trivial
    | insert => exact sized
  | fails =>
    cases stage with
    | discarding temp following =>
      cases following with
      | fail => trivial
      | insert => exact sized
    | probing | copying => exact ⟨sized.1, by rintro ⟨⟩⟩
    | moving => exact ⟨fun _ => sized.1 (by rintro ⟨⟩), by rintro ⟨⟩⟩
    | _ => trivial

theorem resume (sized : call.Sized cache)
    (resumed : call.resume maxBytes cache = some (after, next)) : next.Sized after := by
  obtain ⟨following, rfl, continues⟩ := movesOn_of_resume resumed
  obtain ⟨artifact, stage, answer⟩ := call
  cases continues with
  | fitting => exact ⟨sized, by rintro ⟨⟩⟩
  | present | copied => exact sized.2 rfl
  | absent => exact ⟨fun _ => sized.1, by rintro ⟨⟩⟩
  | unmoved => exact ⟨sized.1 (by rintro ⟨⟩), by rintro ⟨⟩⟩
  | _ => trivial

end Call.Sized

section Touches

variable {after : Cache} {modelRef : String} {present : Option String}

section

variable (touched : cache.Touched modelRef after present)

include touched

theorem mem_of_touched (member : entry ∈ after.entries.rows) :
    ∃ row ∈ cache.entries.rows, entry = row ∨
      (row.modelRef = modelRef ∧ entry = { row with lastAccess := cache.clock }) := by
  cases touched with
  | absent => exact ⟨entry, member, .inl rfl⟩
  | stale => exact ⟨entry, (mem_erase_iff.mp member).1, .inl rfl⟩
  | present found =>
    rw [Cache.rows_replace_lastAccess found] at member
    obtain ⟨row, held, rfl⟩ := mem_map.mp member
    refine ⟨row, held, ?_⟩
    split
    next named => exact .inr ⟨named, rfl⟩
    next => exact .inl rfl

theorem totalBytes_of_touched : after.totalBytes ≤ cache.totalBytes := by
  cases touched with
  | absent => exact le_rfl
  | stale =>
    refine List.Sublist.sum_le_sum (List.Sublist.map _ filter_sublist) ?_
    exact fun _ _ => Nat.zero_le _
  | present found =>
    refine le_of_eq ?_
    change ((cache.entries.replace _).rows.map Entry.size).sum = _
    rw [Cache.rows_replace_lastAccess found, map_map]
    congr 1
    refine map_congr_left fun row _ => ?_
    rw [Function.comp_apply]
    split <;> rfl

theorem pinned_of_touched : after.pinned = cache.pinned := by
  cases touched <;> rfl

end

theorem find_touched_isSome (touched : cache.Touched modelRef after present)
    (entries : ∀ entry ∈ cache.entries.rows, cache.hasBlob entry.sha256 = true)
    (member : entry ∈ cache.entries.rows) : (after.entries.find entry.modelRef).isSome = true := by
  have found := find_eq_some_iff.mpr ⟨member, rfl⟩
  cases touched with
  | absent =>
    rw [found]
    rfl
  | stale gone missing =>
    rw [entries _ (find_eq_some_iff.mp gone).1] at missing
    cases missing
  | present =>
    rw [Store.find_replace, found]
    rfl

theorem budget_of_touched {maxBytes : ℕ} (budget : cache.Budget maxBytes)
    (touched : cache.Touched modelRef after present) : after.Budget maxBytes := by
  rcases budget with within | pinned
  · exact .inl ((totalBytes_of_touched touched).trans within)
  · refine .inr fun entry member => ?_
    rw [pinned_of_touched touched]
    obtain ⟨row, held, rfl | ⟨_, rfl⟩⟩ := mem_of_touched touched member
    · exact pinned _ held
    · exact pinned row held

theorem distinct_of_touched (aged : ∀ entry ∈ cache.entries.rows, entry.lastAccess < cache.clock)
    (distinct : ∀ first ∈ cache.entries.rows, ∀ second ∈ cache.entries.rows,
      first.lastAccess = second.lastAccess → first = second)
    (touched : cache.Touched modelRef after present) :
    ∀ first ∈ after.entries.rows, ∀ second ∈ after.entries.rows,
      first.lastAccess = second.lastAccess → first = second := by
  intro first member second otherMember equal
  obtain ⟨row, held, rfl | ⟨named, rfl⟩⟩ := mem_of_touched touched member
  · obtain ⟨other, otherHeld, rfl | ⟨_, rfl⟩⟩ := mem_of_touched touched otherMember
    · exact distinct _ held _ otherHeld equal
    · exact absurd equal (aged _ held).ne
  · obtain ⟨other, otherHeld, rfl | ⟨otherNamed, rfl⟩⟩ := mem_of_touched touched otherMember
    · exact absurd equal.symm (aged _ otherHeld).ne
    · rw [inj_on_of_nodup_map cache.entries.unique held otherHeld (named.trans otherNamed.symm)]

end Touches

/-- What holds of the index, the blobs and the call in progress. -/
structure Accounted (hash : Bytes → String) (maxBytes : ℕ) (world : World) : Prop where
  sound : Sound hash world
  named : Named world
  missing : ∀ call ∈ world.calls, call.pending = true → call.evicting = none →
    world.cache.entries.find call.artifact.modelRef = none
  sized : ∀ call ∈ world.calls, call.Sized world.cache
  sizes : ∀ entry ∈ world.cache.entries.rows, world.cache.BlobSize entry.sha256 entry.size
  distinct : ∀ first ∈ world.cache.entries.rows, ∀ second ∈ world.cache.entries.rows,
    first.lastAccess = second.lastAccess → first = second
  budget : (∃ call ∈ world.calls, call.evicting.isSome = true) ∨ world.cache.Budget maxBytes

theorem whole_of_tidy {world : World} (tidy : world.Tidy action) : world.Whole action := by
  have each {stage : Stage} {outcome : Outcome} (tidy : stage.tidy outcome = true) :
      stage.whole outcome = true := by
    cases stage with
    | copying =>
      cases outcome with
      | torn => cases tidy
      | _ => rfl
    | _ => rfl
  cases action with
  | perform => exact fun call found => each (tidy call found)
  | _ => trivial

theorem evicting_of_admission {call : Call} {admission : String × String × ℕ}
    (admitted : call.admission = some admission) :
    call.evicting = none ∧ call.pending = true ∧ admission.1 = call.artifact.modelRef := by
  revert admitted
  fun_cases Call.admission call with
  | case1 temp actual size answer stage | case2 temp actual size given answer stage =>
    rintro ⟨⟩
    simp only [Call.evicting, Call.pending, stage, and_self]
  | case3 => rintro ⟨⟩

theorem sizes_of_perform {hash : Bytes → String} {world : World} {call : Call} {cache : Cache}
    (stored : Stored world)
    (sizes : ∀ entry ∈ world.cache.entries.rows, world.cache.BlobSize entry.sha256 entry.size)
    (sized : call.Sized world.cache) (suspended : call.answer = none)
    (same : ∀ target ∈ call.stage.target, world.cache.BlobSize target.1 target.2)
    (tidy : call.stage.tidy outcome = true)
    (performed : call.stage.perform hash world.cache outcome = some (cache, answer)) :
    ∀ entry ∈ cache.entries.rows, cache.BlobSize entry.sha256 entry.size := by
  obtain ⟨entries, _, _⟩ := index_of_perform performed
  rw [entries]
  -- a file that takes the place of a blob has its size
  have writes {address : String} {content : Bytes} (length : ∀ blob ∈
      world.cache.blobs.find address, blob.content.length = content.length) :
      ∀ entry ∈ world.cache.entries.rows,
        (world.cache.writeBlob address content).BlobSize entry.sha256 entry.size := by
    intro entry member blob found
    rw [Cache.writeBlob, find_put] at found
    split at found
    next named =>
      cases found
      cases show address = entry.sha256 from named
      obtain ⟨old, foundOld⟩ := Option.isSome_iff_exists.mp (stored.entries entry member)
      rw [← sizes entry member old foundOld]
      exact (length old foundOld).symm
    next => exact sizes entry member blob found
  have works := works_of_perform performed
  obtain ⟨artifact, stage, given⟩ := call
  cases suspended
  dsimp only at works
  cases works with
  | moves _ _ found =>
    obtain ⟨held, foundHeld, length⟩ := sized.1 (by rintro ⟨⟩)
    cases found.symm.trans foundHeld
    exact writes fun blob there => (same _ rfl blob there).trans length.symm
  | copies _ _ found =>
    obtain ⟨held, foundHeld, length⟩ := sized.1
    cases found.symm.trans foundHeld
    exact writes fun blob there => (same _ rfl blob there).trans length.symm
  | tearsCopy => cases tidy
  | removes =>
    intro entry member blob found
    rw [Cache.dropBlob, find_erase] at found
    split at found
    · cases found
    · exact sizes entry member blob found
  | _ => exact sizes

namespace Accounted

variable {maxBytes : ℕ} {world next : World}

theorem opened (cache : Cache) (empty : cache.blobs.rows = []) :
    Accounted hash maxBytes { cache := cache.reopen } := by
  have none (address : String) : cache.reopen.hasBlob address = false := by
    rw [Cache.hasBlob, find, Cache.reopen, empty]
    rfl
  refine ⟨Sound.opened cache ?_, ?_, ?_, ?_, ?_, ?_, .inr (.inl (Nat.zero_le _))⟩
  · rw [empty]
    rintro _ ⟨⟩
  · intro address present
    rw [none] at present
    cases present
  · rintro _ ⟨⟩
  · rintro _ ⟨⟩
  · rintro _ ⟨⟩
  · rintro _ ⟨⟩

/-- Without a call in progress the budget is kept. -/
theorem budget_of_quiet (accounted : Accounted hash maxBytes world) (quiet : world.Quiet) :
    world.cache.Budget maxBytes := by
  rcases accounted.budget with ⟨call, involved, evicting⟩ | budget
  · have returned := quiet call involved
    obtain ⟨artifact, stage, answer⟩ := call
    cases stage with
    | returned => cases evicting
    | _ => cases returned
  · exact budget

variable {index : ℕ} {after : Call}

section

variable (accounted : Accounted hash maxBytes world)

include accounted

theorem look (quiet : world.Quiet) {modelRef : String} (looked : world.Looked modelRef next)
    (sound : Sound hash next) (named : Named next) : Accounted hash maxBytes next := by
  obtain ⟨touched, _, _, new⟩ := looked
  refine ⟨sound, named, fun call involved pending _ => ?_, fun call involved => ?_,
    fun entry member blob found => ?_, ?_, ?_⟩
  · rcases new call involved with earlier | ⟨_, missing⟩
    · rw [quiet call earlier] at pending
      cases pending
    · exact missing pending
  · rcases new call involved with earlier | ⟨starts, _⟩
    · exact Call.Sized.of_returned (quiet call earlier)
    · cases starts <;> trivial
  · rw [blobs_of_touched touched] at found
    obtain ⟨row, held, rfl | ⟨_, rfl⟩⟩ := mem_of_touched touched member
    · exact accounted.sizes _ held blob found
    · exact accounted.sizes row held blob found
  · have distinct := distinct_of_touched accounted.sound.aged accounted.distinct touched
    exact distinct
  · have budget := budget_of_touched (accounted.budget_of_quiet quiet) touched
    exact .inr budget

/-- In a sequence of calls a model is admitted only while it is not in the index. -/
theorem steady (action : Action) : world.Steady action := by
  cases action with
  | resume =>
    intro call found admission admitted entry present
    obtain ⟨idle, pending, same⟩ := evicting_of_admission admitted
    have missing := accounted.missing call (mem_of_getElem? found) pending idle
    rw [same, missing] at present
    cases present
  | _ => trivial

theorem perform (found : world.calls[index]? = some call) (suspended : call.answer = none)
    (tidy : call.stage.tidy outcome = true)
    (same : ∀ target ∈ call.stage.target, world.cache.BlobSize target.1 target.2)
    (performed : call.stage.perform hash world.cache outcome = some (cache, answer))
    (sound : Sound hash ⟨cache, world.calls.set index { call with answer := some answer }⟩)
    (named : Named ⟨cache, world.calls.set index { call with answer := some answer }⟩) :
    Accounted hash maxBytes ⟨cache, world.calls.set index { call with answer := some answer }⟩ := by
  have involved := mem_of_getElem? found
  have pending := pending_of_perform performed
  have sized := accounted.sized call involved
  obtain ⟨entries, pinned, _⟩ := index_of_perform performed
  refine ⟨sound, named, fun other member otherPending idle => ?_, fun other member => ?_, ?_, ?_,
    ?_⟩
  · rw [entries]
    rcases accounted.sound.mem_set found pending member with rfl | ⟨earlier, _⟩
    · exact accounted.missing call involved pending idle
    · exact accounted.missing other earlier otherPending idle
  · rcases accounted.sound.mem_set found pending member with rfl | ⟨_, returned⟩
    · exact sized.perform suspended same performed
    · exact Call.Sized.of_returned returned
  · exact sizes_of_perform accounted.sound.stored accounted.sizes sized suspended same tidy
      performed
  · rw [entries]
    exact accounted.distinct
  · rcases accounted.budget with ⟨other, member, evicting⟩ | budget
    · rcases Named.mem_set_or_eq found member with rfl | kept
      · exact .inl ⟨_, Named.mem_set_self found, evicting⟩
      · exact .inl ⟨other, kept, evicting⟩
    · refine .inr ?_
      rw [Cache.Budget, Cache.totalBytes, entries, pinned]
      exact budget

theorem sizes_of_resumed (involved : call ∈ world.calls)
    (resumed : Resumed maxBytes world.cache call cache after) :
    ∀ entry ∈ cache.entries.rows, cache.BlobSize entry.sha256 entry.size := by
  cases resumed with
  | keeps | ends => exact accounted.sizes
  | admits admission =>
    intro entry member
    rcases mem_put_iff.mp member with rfl | ⟨earlier, _⟩
    · exact (accounted.sized call involved).blobSize admission
    · exact accounted.sizes entry earlier
  | evicts => exact fun entry member => accounted.sizes entry (mem_erase_iff.mp member).1

theorem distinct_of_resumed (resumed : Resumed maxBytes world.cache call cache after) :
    ∀ first ∈ cache.entries.rows, ∀ second ∈ cache.entries.rows,
      first.lastAccess = second.lastAccess → first = second := by
  cases resumed with
  | keeps | ends => exact accounted.distinct
  | admits =>
    intro first member second otherMember equal
    have aged := accounted.sound.aged
    rcases mem_put_iff.mp member with rfl | ⟨earlier, _⟩
    · rcases mem_put_iff.mp otherMember with rfl | ⟨otherEarlier, _⟩
      · rfl
      · exact absurd equal.symm (aged second otherEarlier).ne
    · rcases mem_put_iff.mp otherMember with rfl | ⟨otherEarlier, _⟩
      · exact absurd equal (aged first earlier).ne
      · exact accounted.distinct first earlier second otherEarlier equal
  | evicts =>
    intro first member second otherMember
    exact accounted.distinct first (mem_erase_iff.mp member).1 second
      (mem_erase_iff.mp otherMember).1

/-- The eviction loop ends within the budget or with nothing left to evict. -/
theorem budget_of_resumed (found : world.calls[index]? = some call)
    (resumed : Resumed maxBytes world.cache call cache after) :
    (∃ other ∈ world.calls.set index after, other.evicting.isSome = true) ∨
      cache.Budget maxBytes := by
  cases resumed with
  | keeps _ evicting =>
    rcases accounted.budget with ⟨other, member, running⟩ | budget
    · rcases Named.mem_set_or_eq found member with rfl | kept
      · refine .inl ⟨_, Named.mem_set_self found, ?_⟩
        rw [evicting]
        exact running
      · exact .inl ⟨other, kept, running⟩
    · exact .inr budget
  | admits => exact .inl ⟨_, Named.mem_set_self found, rfl⟩
  | evicts =>
    refine .inl ⟨_, Named.mem_set_self found, ?_⟩
    split <;> rfl
  | ends _ within =>
    refine .inr (within.imp_right fun none entry member => ?_)
    by_contra free
    have empty := argmin_eq_none.mp none
    have listed : entry ∈ world.cache.unpinned := mem_filter.mpr ⟨member, decide_eq_true free⟩
    rw [empty] at listed
    cases listed

theorem resume (found : world.calls[index]? = some call)
    (resumed : call.resume maxBytes world.cache = some (cache, after))
    (sound : Sound hash ⟨cache, world.calls.set index after⟩)
    (named : Named ⟨cache, world.calls.set index after⟩) :
    Accounted hash maxBytes ⟨cache, world.calls.set index after⟩ := by
  have involved := mem_of_getElem? found
  have pending := pending_of_resume resumed
  have change := resumed_of_resume resumed
  refine ⟨sound, named, fun other member otherPending idle => ?_, fun other member => ?_,
    accounted.sizes_of_resumed involved change, accounted.distinct_of_resumed change,
    accounted.budget_of_resumed found change⟩
  · -- only the call in progress is pending
    rcases accounted.sound.mem_set found pending member with rfl | ⟨_, returned⟩
    · cases change with
      | keeps _ evicting =>
        rw [evicting] at idle
        exact accounted.missing call involved pending idle
      | admits => cases idle
      | evicts => split at idle <;> cases idle
      | ends => cases otherPending
    · rw [returned] at otherPending
      cases otherPending
  · rcases accounted.sound.mem_set found pending member with rfl | ⟨_, returned⟩
    · exact (accounted.sized call involved).resume resumed
    · exact Call.Sized.of_returned returned

theorem step (accountable : Accountable maxBytes world action)
    (stepped : world.step hash maxBytes action = some next) : Accounted hash maxBytes next := by
  obtain ⟨sequential, tidy, same, releases⟩ := accountable
  have sound := accounted.sound.step sequential (whole_of_tidy tidy) stepped
  by_cases stays : action = .reopen
  · subst stays
    cases stepped
    exact opened world.cache releases
  have named := accounted.named.step accounted.sound.stored tidy (accounted.steady action) stays
    stepped
  cases action with
  | getOrFetch =>
    exact accounted.look sequential (World.looked_of_getOrFetch stepped) sound named
  | get => exact accounted.look sequential (World.looked_of_get stepped) sound named
  | pin =>
    cases stepped
    refine ⟨sound, named, accounted.missing, accounted.sized, accounted.sizes,
      accounted.distinct, .inr ?_⟩
    rcases accounted.budget_of_quiet sequential with within | pinned
    · exact .inl within
    · exact .inr fun entry member => mem_insert_of_mem (pinned entry member)
  | unpin modelRef =>
    cases stepped
    refine ⟨sound, named, accounted.missing, accounted.sized, accounted.sizes,
      accounted.distinct, .inr ?_⟩
    rcases releases with within | absent
    · exact .inl within
    · rcases accounted.budget_of_quiet sequential with within | pinned
      · exact .inl within
      · refine .inr fun entry member => mem_filter.mpr ⟨pinned entry member, ?_⟩
        refine decide_eq_true fun same => ?_
        have present : world.cache.entries.find modelRef = some entry :=
          find_eq_some_iff.mpr ⟨member, same⟩
        rw [absent] at present
        cases present
  | perform =>
    obtain ⟨call, cache, answer, found, suspended, performed, rfl⟩ :=
      World.exists_of_perform stepped
    exact accounted.perform found suspended (tidy call found) (same call found) performed sound
      named
  | resume =>
    obtain ⟨call, cache, after, found, resumed, rfl⟩ := World.exists_of_resume stepped
    exact accounted.resume found resumed sound named
  | reopen => exact absurd rfl stays

end

end Accounted

/-- The files are the ones that the index names, with the sizes and digests that
it says, and the budget is kept unless everything is pinned. -/
structure Represented (hash : Bytes → String) (maxBytes : ℕ) (cache : Cache) : Prop where
  agree : Agree cache
  contents : ∀ entry ∈ cache.entries.rows, ∀ blob ∈ cache.blobs.find entry.sha256,
    blob.content.length = entry.size ∧ hash blob.content = entry.sha256
  budget : cache.Budget maxBytes

def World.evicts (maxBytes : ℕ) (world : World) : Action → Option Entry
  | .resume index => do
      let call ← world.calls[index]?
      match call.stage with
      | .sweeping _ => if maxBytes < world.cache.totalBytes then world.cache.victim else none
      | _ => none
  | _ => none

def Cache.LeastRecent (cache : Cache) (entry : Entry) : Prop := entry.modelRef ∉ cache.pinned ∧
    ∀ other ∈ cache.unpinned, other ≠ entry → entry.lastAccess < other.lastAccess

namespace Accounted

variable {maxBytes : ℕ} {world next : World}

section

variable (accounted : Accounted hash maxBytes world)

include accounted

theorem represented (quiet : world.Quiet) : Represented hash maxBytes world.cache := by
  refine ⟨accounted.named.agree accounted.sound.stored quiet, fun entry member blob found => ?_,
    accounted.budget_of_quiet quiet⟩
  obtain ⟨held, address⟩ := find_eq_some_iff.mp found
  exact ⟨accounted.sizes entry member blob found, (accounted.sound.hashed blob held).trans address⟩

theorem leastRecent_of_victim {victim : Entry} (chosen : world.cache.victim = some victim) :
    world.cache.LeastRecent victim := by
  have unpinned := mem_filter.mp (argmin_mem chosen)
  refine ⟨of_decide_eq_true unpinned.2, fun other listed different => ?_⟩
  refine lt_of_le_of_ne (le_of_mem_argmin listed chosen) fun equal => different ?_
  exact accounted.distinct other (mem_of_mem_filter listed) victim unpinned.1 equal.symm

/-- A model leaves the index only by an eviction. -/
theorem evicts_of_step (accountable : Accountable maxBytes world action)
    (stepped : world.step hash maxBytes action = some next)
    (member : entry ∈ world.cache.entries.rows)
    (gone : next.cache.entries.find entry.modelRef = none) :
    world.evicts maxBytes action = some entry := by
  have stored := accounted.sound.stored.entries
  have found : world.cache.entries.find entry.modelRef = some entry :=
    find_eq_some_iff.mpr ⟨member, rfl⟩
  have look {modelRef : String} : ¬ world.Looked modelRef next := by
    rintro ⟨touched⟩
    have kept := find_touched_isSome touched stored member
    rw [gone] at kept
    cases kept
  cases action with
  | getOrFetch => exact absurd (World.looked_of_getOrFetch stepped) look
  | get => exact absurd (World.looked_of_get stepped) look
  | pin modelRef | unpin modelRef =>
    cases stepped
    cases found.symm.trans gone
  | perform =>
    obtain ⟨call, cache, answer, _, _, performed, rfl⟩ := World.exists_of_perform stepped
    rw [(index_of_perform performed).1, found] at gone
    cases gone
  | resume =>
    obtain ⟨call, cache, after, atIndex, resumed, rfl⟩ := World.exists_of_resume stepped
    cases resumed_of_resume resumed with
    | keeps | ends => cases found.symm.trans gone
    | admits =>
      change (put _ _).find _ = none at gone
      rw [find_put, found] at gone
      split at gone <;> cases gone
    | @evicts _ victim sweeps exceeded chosen =>
      change (Store.erase _ _).find _ = none at gone
      rw [find_erase, found] at gone
      split at gone
      next same =>
        have whole : entry = victim := inj_on_of_nodup_map world.cache.entries.unique member
            (mem_of_mem_filter (argmin_mem chosen)) same
        simp only [World.evicts, atIndex, Option.bind_eq_bind, Option.bind_some, sweeps,
          exceeded, if_true, chosen, whole]
      next => cases gone
  | reopen =>
    have present := stored entry member
    rw [Cache.hasBlob, find, accountable.2.2.2] at present
    cases present

end

theorem victim_of_evicts (evicts : world.evicts maxBytes action = some entry) :
    world.cache.victim = some entry := by
  cases action with
  | resume =>
    obtain ⟨call, _, evicted⟩ := Option.bind_eq_some_iff.mp evicts
    split at evicted
    · split at evicted
      · exact evicted
      · cases evicted
    · cases evicted
  | _ => cases evicts

theorem of_run {actions : List Action}
    (ran : run (World.step hash maxBytes) {} actions = some world)
    (accountable : Conforms (World.step hash maxBytes) (Accountable maxBytes) {} actions) :
    Accounted hash maxBytes world :=
  run_induction (motive := fun _ world => Accounted hash maxBytes world) (opened {} rfl)
    (fun accounted accountable stepped => accounted.step accountable stepped) ran accountable

end Accounted

/-- After every sequence of calls the cache is represented on disk as its index
says, and a model leaves the index only as the least recently used one that is not
pinned. -/
theorem represented_of_accountable {hash : Bytes → String} {maxBytes : ℕ}
    {actions : List Action} {world : World}
    (ran : run (World.step hash maxBytes) {} actions = some world)
    (accountable : Conforms (World.step hash maxBytes) (Accountable maxBytes) {} actions) :
    (world.Quiet → Represented hash maxBytes world.cache) ∧
      ∀ action next, Accountable maxBytes world action →
        world.step hash maxBytes action = some next →
          ∀ entry ∈ world.cache.entries.rows,
            next.cache.entries.find entry.modelRef = none → world.cache.LeastRecent entry := by
  have accounted := Accounted.of_run ran accountable
  refine ⟨accounted.represented, fun action next allowed stepped entry member gone => ?_⟩
  exact accounted.leastRecent_of_victim
    (Accounted.victim_of_evicts (accounted.evicts_of_step allowed stepped member gone))

section Decisions

variable (maxBytes : ℕ) (world : World)

instance decidableSameSize : (action : Action) → Decidable (world.SameSize action)
  | .perform index _ => inferInstanceAs (Decidable (∀ call ∈ world.calls[index]?,
      ∀ target ∈ call.stage.target, ∀ blob ∈ world.cache.blobs.find target.1, _))
  | .getOrFetch _ | .get _ | .pin _ | .unpin _ | .resume _ | .reopen => isTrue trivial

instance decidableReleases : (action : Action) → Decidable (world.Releases maxBytes action)
  | .unpin _ => inferInstanceAs (Decidable (_ ∨ _))
  | .reopen => inferInstanceAs (Decidable (world.cache.blobs.rows = []))
  | .getOrFetch _ | .get _ | .pin _ | .perform _ _ | .resume _ => isTrue trivial

instance (action : Action) : Decidable (Accountable maxBytes world action) :=
  inferInstanceAs (Decidable (_ ∧ _ ∧ _ ∧ _))

instance (cache : Cache) : Decidable (cache.Budget maxBytes) := inferInstanceAs (Decidable (_ ∨ _))

end Decisions

section Runs

open Sha256Digests

/-- Two pinned models exceed the budget.  One of the pins is taken away, and the
other model is looked up. -/
def unpinnedOverBudget : List Action :=
  .pin "llama" :: .pin "qwen" :: .getOrFetch (artifactOf "llama" [1]) :: downloads 0 [1] ++
    admits 0 ++ .getOrFetch (artifactOf "qwen" [2]) :: downloads 1 [2] ++ admits 1 ++
    [.unpin "qwen", .getOrFetch (artifactOf "llama" [1])]

theorem over_budget_after_unpin : ∃ world ∈ run (World.step sha256 1) {} unpinnedOverBudget,
      world.Quiet ∧ ¬ world.cache.Budget 1 := by
  simp only [unpinnedOverBudget, artifactOf_eq_known, sha256_eq_known]
  decide +kernel

/-- The second fetch evicts the first model. -/
theorem represented_after_eviction :
    ∃ world ∈ run (World.step sha256 1) {} (fetchedInTurn ++ [.resume 1]),
      Represented sha256 1 world.cache := by
  have ends : Conforms (World.step sha256 1) (Accountable 1) {} (fetchedInTurn ++ [.resume 1]) ∧
      ∃ world ∈ run (World.step sha256 1) {} (fetchedInTurn ++ [.resume 1]), world.Quiet := by
    simp only [fetchedInTurn, artifactOf_eq_known, sha256_eq_known]
    decide +kernel
  obtain ⟨accountable, world, ran, quiet⟩ := ends
  exact ⟨world, ran, (represented_of_accountable ran accountable).1 quiet⟩

end Runs

end Purser.ModelCache
