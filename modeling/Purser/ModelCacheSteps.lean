import Purser.ModelCache

/-!
# The steps of a fetch

The file system changes the directories and leaves the index alone; the call
itself changes the index and leaves the directories alone.
-/

namespace Purser.ModelCache

open KeyedStores List

def Call.admits (call : Call) : Option String :=
  match call.stage, call.answer with
  | .probing _ actual _, some (.found true) => some actual
  | .moving _ actual _, some .done => some actual
  | .copying _ actual _, some .done => some actual
  | .discarding _ (.insert actual _), _ => some actual
  | _, _ => none

def Call.removes (call : Call) : Option String :=
  match call.stage, call.answer with
  | .removing _ evicted, none => some evicted
  | _, _ => none

def Call.evicting (call : Call) : Option String :=
  match call.stage with
  | .sweeping actual | .removing actual _ => some actual
  | _ => none

def Stage.tidy : Stage → Outcome → Bool
  | .copying _ _ _, .torn _ _ => false
  | .removing _ _, .failed _ => false
  | _, _ => true

def Call.admission (call : Call) : Option (String × String × ℕ) :=
  match call.stage, call.answer with
  | .moving _ actual size, some .done => some (call.artifact.modelRef, actual, size)
  | .discarding _ (.insert actual size), some _ =>
    some (call.artifact.modelRef, actual, size)
  | _, _ => none

variable {cache : Cache}

namespace Cache

theorem hasBlob_writeBlob (address : String) (content : Bytes) (other : String) :
    (cache.writeBlob address content).hasBlob other =
      (decide (address = other) || cache.hasBlob other) := by
  rw [hasBlob, writeBlob, Store.find_put]
  by_cases same : address = other
  · simp [same]
  · simp [same, hasBlob]

theorem hasBlob_dropBlob (address other : String) :
    (cache.dropBlob address).hasBlob other = (decide (other ≠ address) && cache.hasBlob other) := by
  rw [hasBlob, dropBlob, Store.find_erase]
  by_cases same : other = address
  · simp [same]
  · simp [same, hasBlob]

/-- What looking a model up does: it notes the time of the access, or drops an entry
whose blob is gone. -/
inductive Touched (cache : Cache) (modelRef : String) : Cache → Option String → Prop
  | absent (missing : cache.entries.find modelRef = none) : Touched cache modelRef cache none
  | stale {entry : Entry} (found : cache.entries.find modelRef = some entry)
      (gone : cache.hasBlob entry.sha256 = false) :
      Touched cache modelRef (cache.dropEntry modelRef) none
  | present {entry : Entry} (found : cache.entries.find modelRef = some entry)
      (there : cache.hasBlob entry.sha256 = true) :
      Touched cache modelRef
        { cache with
          clock := cache.clock + 1
          entries := cache.entries.replace { entry with lastAccess := cache.clock } }
        (some entry.sha256)

theorem touched (cache : Cache) (modelRef : String) :
    Touched cache modelRef (cache.touchIfPresent modelRef).1 (cache.touchIfPresent modelRef).2 := by
  unfold touchIfPresent
  split
  next missing => exact .absent missing
  next entry found =>
    split
    next gone => exact .stale found gone
    next there => exact .present found (Bool.eq_true_of_not_eq_false there)

theorem Touched.find_eq_none {after : Cache} {modelRef : String}
    (touched : cache.Touched modelRef after none) : after.entries.find modelRef = none := by
  cases touched with
  | absent missing => exact missing
  | stale => rw [Cache.dropEntry, Store.find_erase, if_pos rfl]

/-- Only the time of the access changes. -/
theorem rows_replace_lastAccess {entry : Entry} {modelRef : String}
    (found : cache.entries.find modelRef = some entry) (time : ℕ) :
    (cache.entries.replace { entry with lastAccess := time }).rows =
      cache.entries.rows.map fun row =>
        if row.modelRef = modelRef then { row with lastAccess := time } else row := by
  obtain ⟨member, named⟩ := Store.find_eq_some_iff.mp found
  refine map_congr_left fun row held => ?_
  by_cases same : row.modelRef = modelRef
  · have whole : row = entry :=
      inj_on_of_nodup_map cache.entries.unique held member (same.trans named.symm)
    rw [if_pos same, whole]
    exact if_pos rfl
  · rw [if_neg same]
    exact if_neg fun equal => same (equal.trans named)

theorem exists_sha256_replace {entry : Entry} {modelRef : String}
    (found : cache.entries.find modelRef = some entry) (time : ℕ) (sha256 : String) :
    (∃ row ∈ (cache.entries.replace { entry with lastAccess := time }).rows,
      row.sha256 = sha256) ↔ ∃ row ∈ cache.entries.rows, row.sha256 = sha256 := by
  rw [rows_replace_lastAccess found]
  constructor
  · rintro ⟨_, member, rfl⟩
    obtain ⟨row, held, rfl⟩ := mem_map.mp member
    refine ⟨row, held, ?_⟩
    split <;> rfl
  · rintro ⟨row, held, rfl⟩
    refine ⟨_, mem_map.mpr ⟨row, held, rfl⟩, ?_⟩
    split <;> rfl

end Cache

/-- The ways in which the file system and the fetcher work for a call. -/
inductive Stage.Works (hash : Bytes → String) (cache : Cache) :
    Stage → Outcome → Cache → Answer → Prop
  | fetches (temp : TempName) (content : Bytes) :
      Works hash cache (.fetching temp) (.fetched content) (cache.writeTemp temp content) .done
  | tearsFetch (temp : TempName) (problem : String) (left : Bytes) :
      Works hash cache (.fetching temp) (.torn problem left) (cache.writeTemp temp left)
        (.failed problem)
  | fetchesNothing (temp : TempName) : Works hash cache (.fetching temp) .done cache .done
  | hashes {temp : TempName} {file : TempFile} (found : cache.temp.find temp = some file) :
      Works hash cache (.hashing temp) .done cache (.digest (hash file.content))
  | measures {temp : TempName} {file : TempFile} (actual : String)
      (found : cache.temp.find temp = some file) :
      Works hash cache (.measuring temp actual) .done cache (.length file.content.length)
  | probes (temp : TempName) (actual : String) (size : ℕ) :
      Works hash cache (.probing temp actual size) .done cache (.found (cache.hasBlob actual))
  | moves {temp : TempName} {file : TempFile} (actual : String) (size : ℕ)
      (found : cache.temp.find temp = some file) :
      Works hash cache (.moving temp actual size) .done
        ((cache.writeBlob actual file.content).dropTemp temp) .done
  | copies {temp : TempName} {file : TempFile} (actual : String) (size : ℕ)
      (found : cache.temp.find temp = some file) :
      Works hash cache (.copying temp actual size) .done (cache.writeBlob actual file.content) .done
  | tearsCopy (temp : TempName) (actual : String) (size : ℕ) (problem : String)
      (left : Bytes) :
      Works hash cache (.copying temp actual size) (.torn problem left)
        (cache.writeBlob actual left) (.failed problem)
  | discards {temp : TempName} {file : TempFile} (next : AfterDiscard)
      (found : cache.temp.find temp = some file) :
      Works hash cache (.discarding temp next) .done (cache.dropTemp temp) .done
  | removes {evicted : String} {blob : Blob} (actual : String)
      (found : cache.blobs.find evicted = some blob) :
      Works hash cache (.removing actual evicted) .done (cache.dropBlob evicted) .done
  | fails {stage : Stage} (problem : String) (notSweeping : ∀ actual, stage ≠ .sweeping actual)
      (notReturned : ∀ result, stage ≠ .returned result) :
      Works hash cache stage (.failed problem) cache (.failed problem)

theorem works_of_perform {hash : Bytes → String} {cache after : Cache} {stage : Stage}
    {outcome : Outcome} {answer : Answer}
    (performed : stage.perform hash cache outcome = some (after, answer)) :
    stage.Works hash cache outcome after answer := by
  -- the file or the blob that the work is done on exists
  have exists_file {Row : Type} {row : Option Row} {result : Row → Cache × Answer}
      (performed : row.map result = some (after, answer)) :
      ∃ file, row = some file ∧ result file = (after, answer) :=
    Option.map_eq_some_iff.mp performed
  revert performed
  fun_cases Stage.perform hash cache stage outcome with
  | case3 temp content =>
    rintro ⟨⟩
    exact .fetches temp content
  | case4 temp problem left =>
    rintro ⟨⟩
    exact .tearsFetch temp problem left
  | case5 temp =>
    rintro ⟨⟩
    exact .fetchesNothing temp
  | case6 =>
    intro performed
    obtain ⟨file, found, ⟨⟩⟩ := exists_file performed
    exact .hashes found
  | case7 temp actual =>
    intro performed
    obtain ⟨file, found, ⟨⟩⟩ := exists_file performed
    exact .measures actual found
  | case8 temp actual size =>
    rintro ⟨⟩
    exact .probes temp actual size
  | case9 temp actual size =>
    intro performed
    obtain ⟨file, found, ⟨⟩⟩ := exists_file performed
    exact .moves actual size found
  | case10 temp actual size =>
    intro performed
    obtain ⟨file, found, ⟨⟩⟩ := exists_file performed
    exact .copies actual size found
  | case11 temp actual size problem left =>
    rintro ⟨⟩
    exact .tearsCopy temp actual size problem left
  | case12 temp next =>
    intro performed
    obtain ⟨file, found, ⟨⟩⟩ := exists_file performed
    exact .discards next found
  | case13 actual =>
    intro performed
    obtain ⟨blob, found, ⟨⟩⟩ := exists_file performed
    exact .removes actual found
  | case14 _ problem notSweeping notReturned =>
    rintro ⟨⟩
    exact .fails problem notSweeping notReturned
  | _ => rintro ⟨⟩

inductive Performed (cache : Cache) (call : Call) (tidy : Bool) : Cache → Call → Prop
  | keeps {after : Cache} {next : Call} (blobs : after.blobs = cache.blobs)
      (counted : ∀ address ∈ call.admits, address ∈ next.admits)
      (admits : ∀ address ∈ next.admits, address ∈ call.admits ∨ cache.hasBlob address = true)
      (removes : tidy = true → call.removes = none)
      (removed : next.removes = none) : Performed cache call tidy after next
  | writes {after : Cache} {next : Call} (address : String) (content : Bytes)
      (blobs : after.blobs = cache.blobs.put ⟨address, content⟩)
      (fresh : call.admits = none) (counted : tidy = true → next.admits = some address)
      (admits : ∀ other ∈ next.admits, other = address)
      (removes : call.removes = none) (removed : next.removes = none) :
      Performed cache call tidy after next
  | removes {after : Cache} {next : Call} (address : String)
      (blobs : after.blobs = cache.blobs.erase address)
      (fresh : call.admits = none) (admits : next.admits = none)
      (removes : call.removes = some address) (removed : next.removes = none) :
      Performed cache call tidy after next

variable {hash : Bytes → String} {after : Cache} {call : Call}

section Perform

variable {outcome : Outcome} {answer : Answer}

theorem index_of_perform
    (performed : call.stage.perform hash cache outcome = some (after, answer)) :
    after.entries = cache.entries ∧ after.pinned = cache.pinned ∧ after.clock = cache.clock := by
  have works := works_of_perform performed
  generalize call.stage = stage at works
  cases works <;> exact ⟨rfl, rfl, rfl⟩

theorem performed_of_perform (suspended : call.answer = none)
    (performed : call.stage.perform hash cache outcome = some (after, answer)) :
    Performed cache call (call.stage.tidy outcome) after { call with answer := some answer } := by
  have works := works_of_perform performed
  obtain ⟨artifact, stage, given⟩ := call
  cases suspended
  cases works with
  | fetches | tearsFetch | fetchesNothing | hashes | measures =>
    exact .keeps rfl (by rintro _ ⟨⟩) (by rintro _ ⟨⟩) (fun _ => rfl) rfl
  | probes _ actual =>
    refine .keeps rfl (by rintro _ ⟨⟩) (fun address counted => ?_) (fun _ => rfl) rfl
    cases present : cache.hasBlob actual with
    | false =>
      rw [present] at counted
      cases counted
    | true =>
      rw [present] at counted
      cases counted
      exact .inr present
  | @moves _ file actual | @copies _ file actual =>
    exact .writes actual file.content rfl rfl (fun _ => rfl) (by rintro _ ⟨⟩; rfl) rfl rfl
  | tearsCopy _ actual _ _ left =>
    exact .writes actual left rfl rfl (by rintro ⟨⟩) (by rintro _ ⟨⟩) rfl rfl
  | discards next =>
    refine .keeps rfl ?_ ?_ (fun _ => rfl) rfl
    · cases next <;> exact fun _ counted => counted
    · cases next <;> exact fun _ counted => .inl counted
  | @removes evicted => exact .removes evicted rfl rfl rfl rfl rfl
  | fails _ notSweeping notReturned =>
    cases stage with
    | sweeping actual => exact absurd rfl (notSweeping actual)
    | returned result => exact absurd rfl (notReturned result)
    | discarding temp next =>
      refine .keeps rfl ?_ ?_ (fun _ => rfl) rfl
      · cases next <;> exact fun _ counted => counted
      · cases next <;> exact fun _ counted => .inl counted
    | removing =>
      exact .keeps rfl (by rintro _ ⟨⟩) (by rintro _ ⟨⟩) (by rintro ⟨⟩) rfl
    | _ => exact .keeps rfl (by rintro _ ⟨⟩) (by rintro _ ⟨⟩) (fun _ => rfl) rfl

end Perform

variable (maxBytes : ℕ)

inductive Call.Continues (cache : Cache) (artifact : ModelArtifact) :
    Stage → Option Answer → Cache → Stage → Prop
  | fetched (temp : TempName) :
      Continues cache artifact (.fetching temp) (some .done) cache (.hashing temp)
  | unfetched (temp : TempName) (problem : String) :
      Continues cache artifact (.fetching temp) (some (.failed problem)) cache
        (.returned (.error problem))
  | matching {temp : TempName} {actual : String} (equal : actual = artifact.expected) :
      Continues cache artifact (.hashing temp) (some (.digest actual)) cache
        (.measuring temp actual)
  | mismatching {temp : TempName} {actual : String} (different : actual ≠ artifact.expected) :
      Continues cache artifact (.hashing temp) (some (.digest actual)) cache
        (.discarding temp (.fail (CacheError.checksumMismatch artifact.expected actual).text))
  | unhashed (temp : TempName) (problem : String) :
      Continues cache artifact (.hashing temp) (some (.failed problem)) cache
        (.discarding temp (.fail (CacheError.io problem).text))
  | tooLarge {temp : TempName} {actual : String} {size : ℕ} (exceeded : maxBytes < size) :
      Continues cache artifact (.measuring temp actual) (some (.length size)) cache
        (.discarding temp (.fail (CacheError.tooLarge size maxBytes).text))
  | fitting {temp : TempName} {actual : String} {size : ℕ} (within : size ≤ maxBytes) :
      Continues cache artifact (.measuring temp actual) (some (.length size)) cache
        (.probing temp actual size)
  | unmeasured (temp : TempName) (actual problem : String) :
      Continues cache artifact (.measuring temp actual) (some (.failed problem)) cache
        (.returned (.error problem))
  | present (temp : TempName) (actual : String) (size : ℕ) :
      Continues cache artifact (.probing temp actual size) (some (.found true)) cache
        (.discarding temp (.insert actual size))
  | absent {temp : TempName} {actual : String} {size : ℕ} {answer : Answer}
      (missing : answer ≠ .found true) :
      Continues cache artifact (.probing temp actual size) (some answer) cache
        (.moving temp actual size)
  | moved (temp : TempName) (actual : String) (size : ℕ) :
      Continues cache artifact (.moving temp actual size) (some .done)
        (cache.insertEntry artifact.modelRef actual size) (.sweeping actual)
  | unmoved (temp : TempName) (actual : String) (size : ℕ) (problem : String) :
      Continues cache artifact (.moving temp actual size) (some (.failed problem)) cache
        (.copying temp actual size)
  | copied (temp : TempName) (actual : String) (size : ℕ) :
      Continues cache artifact (.copying temp actual size) (some .done) cache
        (.discarding temp (.insert actual size))
  | uncopied (temp : TempName) (actual : String) (size : ℕ) (problem : String) :
      Continues cache artifact (.copying temp actual size) (some (.failed problem))
        cache (.returned (.error problem))
  | givenUp (temp : TempName) (problem : String) (answer : Answer) :
      Continues cache artifact (.discarding temp (.fail problem)) (some answer) cache
        (.returned (.error problem))
  | discarded (temp : TempName) (actual : String) (size : ℕ) (answer : Answer) :
      Continues cache artifact (.discarding temp (.insert actual size)) (some answer)
        (cache.insertEntry artifact.modelRef actual size) (.sweeping actual)
  | ends {actual : String} (within : cache.totalBytes ≤ maxBytes ∨ cache.victim = none) :
      Continues cache artifact (.sweeping actual) none cache (.returned (.ok actual))
  | evictsShared {actual : String} {victim : Entry} (exceeded : maxBytes < cache.totalBytes)
      (chosen : cache.victim = some victim)
      (shared : (cache.dropEntry victim.modelRef).entries.rows.any
        (·.sha256 = victim.sha256) = true) :
      Continues cache artifact (.sweeping actual) none
        (cache.dropEntry victim.modelRef) (.sweeping actual)
  | evictsLast {actual : String} {victim : Entry} (exceeded : maxBytes < cache.totalBytes)
      (chosen : cache.victim = some victim)
      (last : ¬ (cache.dropEntry victim.modelRef).entries.rows.any
        (·.sha256 = victim.sha256) = true) :
      Continues cache artifact (.sweeping actual) none
        (cache.dropEntry victim.modelRef) (.removing actual victim.sha256)
  | removed (actual evicted : String) (answer : Answer) :
      Continues cache artifact (.removing actual evicted) (some answer) cache (.sweeping actual)

inductive Resumed (cache : Cache) (call : Call) : Cache → Call → Prop
  | keeps {stage : Stage} (unserved : ∀ path, stage ≠ .returned (.ok path))
      (evicting : (call.moveTo stage).evicting = call.evicting)
      (admits : (call.moveTo stage).admits = call.admits) (removes : call.removes = none)
      (removed : (call.moveTo stage).removes = none) :
      Resumed cache call cache (call.moveTo stage)
  | admits {actual : String} {size : ℕ}
      (admission : call.admission = some (call.artifact.modelRef, actual, size))
      (admits : call.admits = some actual) (removes : call.removes = none) :
      Resumed cache call (cache.insertEntry call.artifact.modelRef actual size)
        (call.moveTo (.sweeping actual))
  | evicts {actual : String} {victim : Entry} (sweeps : call.stage = .sweeping actual)
      (exceeded : maxBytes < cache.totalBytes) (chosen : cache.victim = some victim) :
      Resumed cache call (cache.dropEntry victim.modelRef) (call.moveTo
          (if (cache.dropEntry victim.modelRef).entries.rows.any (·.sha256 = victim.sha256) then
            .sweeping actual
          else .removing actual victim.sha256))
  | ends {actual : String} (sweeps : call.stage = .sweeping actual)
      (within : cache.totalBytes ≤ maxBytes ∨ cache.victim = none) :
      Resumed cache call cache (call.moveTo (.returned (.ok actual)))

variable {maxBytes : ℕ}

section Resume

variable {next : Call}

def Call.MovesOn (maxBytes : ℕ) (cache : Cache) (call : Call) (after : Cache) (next : Call) :
    Prop :=
  ∃ stage, next = call.moveTo stage ∧
    Call.Continues maxBytes cache call.artifact call.stage call.answer after stage

theorem movesOn_of_resume (resumed : call.resume maxBytes cache = some (after, next)) :
    call.MovesOn maxBytes cache after next := by
  revert resumed
  fun_cases Call.resume maxBytes cache call with
  | case3 _ _ answer stage =>
    rintro ⟨⟩
    rw [Call.MovesOn, stage, answer, Call.checked]
    split
    next equal => exact ⟨_, rfl, .matching equal⟩
    next different => exact ⟨_, rfl, .mismatching different⟩
  | case5 _ _ _ answer stage =>
    rintro ⟨⟩
    rw [Call.MovesOn, stage, answer, Call.measured]
    split
    next exceeded => exact ⟨_, rfl, .tooLarge exceeded⟩
    next within => exact ⟨_, rfl, .fitting (not_lt.mp within)⟩
  | case8 _ _ _ _ notFound answer stage =>
    rintro ⟨⟩
    rw [Call.MovesOn, stage, answer]
    exact ⟨_, rfl, .absent notFound⟩
  | case15 _ answer stage =>
    intro resumed
    have swept := Option.some.inj resumed
    rw [Call.MovesOn, stage, answer]
    rw [Call.sweep] at swept
    split at swept
    next within =>
      cases swept
      exact ⟨_, rfl, .ends (.inl within)⟩
    next exceeded =>
      split at swept
      next pinned =>
        cases swept
        exact ⟨_, rfl, .ends (.inr pinned)⟩
      next victim chosen =>
        dsimp only at swept
        split at swept
        next shared =>
          cases swept
          exact ⟨_, rfl, .evictsShared (not_le.mp exceeded) chosen shared⟩
        next last =>
          cases swept
          exact ⟨_, rfl, .evictsLast (not_le.mp exceeded) chosen last⟩
  | case17 => rintro ⟨⟩
  | _ =>
    rintro ⟨⟩
    simp only [Call.MovesOn, *]
    exact ⟨_, rfl, by constructor⟩

theorem resumed_of_resume (resumed : call.resume maxBytes cache = some (after, next)) :
    Resumed maxBytes cache call after next := by
  obtain ⟨following, rfl, continues⟩ := movesOn_of_resume resumed
  obtain ⟨artifact, stage, answer⟩ := call
  cases continues with
  | moved | discarded => exact .admits rfl rfl rfl
  | ends within => exact .ends rfl within
  | @evictsShared actual victim exceeded chosen shared =>
    have evicted := @Resumed.evicts maxBytes cache ⟨artifact, .sweeping actual, none⟩ actual
      victim rfl exceeded chosen
    rwa [if_pos shared] at evicted
  | @evictsLast actual victim exceeded chosen last =>
    have evicted := @Resumed.evicts maxBytes cache ⟨artifact, .sweeping actual, none⟩ actual
      victim rfl exceeded chosen
    rwa [if_neg last] at evicted
  | @absent _ _ _ answer missing =>
    refine .keeps (by rintro _ ⟨⟩) rfl ?_ rfl rfl
    cases answer with
    | found present =>
      cases present with
      | false => rfl
      | true => exact absurd rfl missing
    | _ => rfl
  | _ => exact .keeps (by rintro _ ⟨⟩) rfl rfl rfl rfl

end Resume

inductive Call.Starts : Call → Prop
  | served (artifact : ModelArtifact) (path : String) : Starts ⟨artifact, .returned (.ok path), none⟩
  | fetches (artifact : ModelArtifact) (temp : TempName) : Starts ⟨artifact, .fetching temp, none⟩

namespace World

variable {world next : World} {index : ℕ}

theorem exists_of_perform {outcome : Outcome}
    (stepped : world.step hash maxBytes (.perform index outcome) = some next) :
    ∃ call cache answer, world.calls[index]? = some call ∧ call.answer = none ∧
      call.stage.perform hash world.cache outcome = some (cache, answer) ∧
      next = ⟨cache, world.calls.set index { call with answer := some answer }⟩ := by
  obtain ⟨call, found, stepped⟩ := Option.bind_eq_some_iff.mp stepped
  split at stepped
  · cases stepped
  next suspended =>
    obtain ⟨⟨cache, answer⟩, performed, same⟩ := Option.bind_eq_some_iff.mp stepped
    refine ⟨call, cache, answer, found, ?_, performed, (Option.some.inj same).symm⟩
    exact Option.not_isSome_iff_eq_none.mp suspended

theorem exists_of_resume (stepped : world.step hash maxBytes (.resume index) = some next) :
    ∃ call cache after, world.calls[index]? = some call ∧
      call.resume maxBytes world.cache = some (cache, after) ∧
      next = ⟨cache, world.calls.set index after⟩ := by
  obtain ⟨call, found, stepped⟩ := Option.bind_eq_some_iff.mp stepped
  obtain ⟨⟨cache, after⟩, resumed, same⟩ := Option.bind_eq_some_iff.mp stepped
  exact ⟨call, cache, after, found, resumed, (Option.some.inj same).symm⟩

/-- A call up to its first suspension, by what the lookup finds. -/
inductive Begun (world : World) (artifact : ModelArtifact) : World → Prop
  | hit {cache : Cache} {sha256 : String}
      (touched : world.cache.Touched artifact.modelRef cache (some sha256)) :
      Begun world artifact
        ⟨cache, world.calls ++ [{ artifact := artifact, stage := .returned (.ok sha256) }]⟩
  | miss {cache : Cache} (touched : world.cache.Touched artifact.modelRef cache none) :
      Begun world artifact ⟨{ cache with clock := cache.clock + 1 }, world.calls ++
          [{ artifact := artifact
             stage := .fetching ⟨sanitize artifact.modelRef, cache.clock⟩ }]⟩

theorem begun_of_step {artifact : ModelArtifact}
    (stepped : world.step hash maxBytes (.getOrFetch artifact) = some next) :
    Begun world artifact next := by
  cases stepped
  have touched := world.cache.touched artifact.modelRef
  unfold getOrFetch
  generalize world.cache.touchIfPresent artifact.modelRef = result at touched
  obtain ⟨cache, present⟩ := result
  cases present with
  | some => exact .hit touched
  | none => exact .miss touched

/-- A lookup, and the call that it may start. -/
inductive Looked (world : World) (modelRef : String) : World → Prop
  | intro {cache : Cache} {present : Option String} {clock : ℕ} {calls : List Call}
      (touched : world.cache.Touched modelRef cache present) (later : cache.clock ≤ clock)
      (old : ∀ call ∈ world.calls, call ∈ calls)
      (new : ∀ call ∈ calls, call ∈ world.calls ∨ (call.Starts ∧
        (call.pending = true → cache.entries.find call.artifact.modelRef = none))) :
      Looked world modelRef ⟨{ cache with clock := clock }, calls⟩

theorem looked_of_getOrFetch {artifact : ModelArtifact}
    (stepped : world.step hash maxBytes (.getOrFetch artifact) = some next) :
    world.Looked artifact.modelRef next := by
  cases begun_of_step stepped with
  | hit touched =>
    refine .intro touched le_rfl (fun _ => mem_append_left _) fun call involved => ?_
    refine (mem_append.mp involved).imp_right fun new => ?_
    cases mem_singleton.mp new
    exact ⟨.served _ _, by rintro ⟨⟩⟩
  | miss touched =>
    refine .intro touched (Nat.le_succ _) (fun _ => mem_append_left _) fun call involved => ?_
    refine (mem_append.mp involved).imp_right fun new => ?_
    cases mem_singleton.mp new
    exact ⟨.fetches _ _, fun _ => touched.find_eq_none⟩

theorem looked_of_get {modelRef : String}
    (stepped : world.step hash maxBytes (.get modelRef) = some next) :
    world.Looked modelRef next := by
  cases stepped
  exact .intro (world.cache.touched modelRef) le_rfl (fun _ involved => involved)
    fun _ involved => .inl involved

end World

end Purser.ModelCache
