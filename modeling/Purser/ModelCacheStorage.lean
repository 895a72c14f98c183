import Purser.ModelCacheSteps

/-!
# The index and the blobs

An eviction may remove a blob that another call is about to enter in the
index.  Apart from that the entries and the blobs correspond to each other once
all calls have returned.
-/

namespace Purser.ModelCache

open KeyedStores TransitionRuns List

structure Stored (world : World) : Prop where
  entries : ∀ entry ∈ world.cache.entries.rows, world.cache.hasBlob entry.sha256 = true
  guarded : ∀ entry ∈ world.cache.entries.rows, ∀ call ∈ world.calls,
    call.removes ≠ some entry.sha256
  counted : ∀ call ∈ world.calls, ∀ address ∈ call.admits, world.cache.hasBlob address = true

/-- No call is about to remove a blob that another one counts on. -/
def Disjoint (world : World) : Prop :=
  ∀ call ∈ world.calls, ∀ address ∈ call.admits, ∀ other ∈ world.calls, other.removes ≠ some address

def Named (world : World) : Prop := ∀ address, world.cache.hasBlob address = true →
    (∃ entry ∈ world.cache.entries.rows, entry.sha256 = address) ∨
      ∃ call ∈ world.calls, call.admits = some address ∨ call.removes = some address

section Touches

variable {cache after : Cache} {modelRef : String} {present : Option String}

section

variable (touched : cache.Touched modelRef after present)

include touched

theorem blobs_of_touched : after.blobs = cache.blobs := by
  cases touched <;> rfl

theorem exists_entry_of_touched {entry : Entry} (member : entry ∈ after.entries.rows) :
    ∃ row ∈ cache.entries.rows, row.sha256 = entry.sha256 := by
  cases touched with
  | absent => exact ⟨entry, member, rfl⟩
  | stale => exact ⟨entry, mem_of_mem_filter member, rfl⟩
  | present found =>
    exact (Cache.exists_sha256_replace found _ _).mp ⟨entry, member, rfl⟩

theorem exists_entry_touched
    (entries : ∀ entry ∈ cache.entries.rows, cache.hasBlob entry.sha256 = true) {entry : Entry}
    (member : entry ∈ cache.entries.rows) :
    ∃ row ∈ after.entries.rows, row.sha256 = entry.sha256 := by
  cases touched with
  | absent => exact ⟨entry, member, rfl⟩
  | stale found gone =>
    rw [entries _ (Store.find_eq_some_iff.mp found).1] at gone
    cases gone
  | present found =>
    exact (Cache.exists_sha256_replace found _ _).mpr ⟨entry, member, rfl⟩

end

end Touches

variable {hash : Bytes → String} {maxBytes : ℕ} {next : World}

namespace Stored

variable {world : World}

section

variable (stored : Stored world)

include stored

/-- The blobs are the same, the index names no other ones, and a new call has
nothing to do with blobs. -/
theorem look {modelRef : String} (looked : world.Looked modelRef next) : Stored next := by
  obtain ⟨touched, _, _, new⟩ := looked
  have same (address : String) : _ = world.cache.hasBlob address :=
    congrArg (fun blobs => (Store.find blobs address).isSome) (blobs_of_touched touched)
  refine ⟨fun entry member => ?_, fun entry member call involved => ?_,
    fun call involved address counted => ?_⟩
  · obtain ⟨row, held, equal⟩ := exists_entry_of_touched touched member
    rw [← equal]
    exact (same _).trans (stored.entries row held)
  · obtain ⟨row, held, equal⟩ := exists_entry_of_touched touched member
    rcases new call involved with earlier | ⟨starts, _⟩
    · rw [← equal]
      exact stored.guarded row held call earlier
    · cases starts <;> exact (Option.some_ne_none _).symm
  · rcases new call involved with earlier | ⟨starts, _⟩
    · exact (same _).trans (stored.counted call earlier address counted)
    · cases starts <;> cases counted

omit stored in
theorem of_set {index : ℕ} {after : Call} {cache : Cache}
    (entries : ∀ entry ∈ cache.entries.rows, cache.hasBlob entry.sha256 = true)
    (guarded : ∀ entry ∈ cache.entries.rows, after.removes ≠ some entry.sha256 ∧
      ∀ call ∈ world.calls, call.removes ≠ some entry.sha256)
    (own : ∀ address ∈ after.admits, cache.hasBlob address = true)
    (counted : ∀ call ∈ world.calls, ∀ address ∈ call.admits, cache.hasBlob address = true) :
    Stored ⟨cache, world.calls.set index after⟩ := by
  refine ⟨entries, fun entry member call set => ?_, fun call set => ?_⟩
  · rcases mem_or_eq_of_mem_set set with earlier | rfl
    · exact (guarded entry member).2 call earlier
    · exact (guarded entry member).1
  · rcases mem_or_eq_of_mem_set set with earlier | rfl
    · exact counted call earlier
    · exact own

theorem guarded_of_idle {after : Call} (removed : after.removes = none) :
    ∀ entry ∈ world.cache.entries.rows, after.removes ≠ some entry.sha256 ∧
      ∀ call ∈ world.calls, call.removes ≠ some entry.sha256 := by
  intro entry member
  rw [removed]
  exact ⟨(Option.some_ne_none _).symm, stored.guarded entry member⟩

theorem perform (disjoint : Disjoint world) {index : ℕ} {call after : Call} {cache : Cache}
    {tidy : Bool} (found : world.calls[index]? = some call)
    (entries : cache.entries = world.cache.entries)
    (performed : Performed world.cache call tidy cache after) :
    Stored ⟨cache, world.calls.set index after⟩ := by
  have involved := mem_of_getElem? found
  have guarded (removed : after.removes = none) := entries ▸ stored.guarded_of_idle removed
  cases performed with
  | keeps blobs _ admits _ removed =>
    have same (address : String) : cache.hasBlob address = world.cache.hasBlob address := by
      rw [Cache.hasBlob, blobs]
      rfl
    refine of_set ?_ (guarded removed) (fun address counted => ?_) ?_
    · simp only [entries, same]
      exact stored.entries
    · rw [same]
      rcases admits address counted with before | there
      · exact stored.counted call involved address before
      · exact there
    · simp only [same]
      exact stored.counted
  | writes written content blobs _ _ admits _ removed =>
    have written' (address : String) : cache.hasBlob address =
        (decide (written = address) || world.cache.hasBlob address) := by
      rw [← Cache.hasBlob_writeBlob written content, Cache.hasBlob, blobs]
      rfl
    refine of_set (fun entry member => ?_) (guarded removed) (fun address counted => ?_)
      fun other earlier address counted => ?_
    · rw [entries] at member
      rw [written', stored.entries entry member, Bool.or_true]
    · rw [written', admits address counted, decide_eq_true rfl, Bool.true_or]
    · rw [written', stored.counted other earlier address counted, Bool.or_true]
  | removes gone blobs _ admits removes removed =>
    have rest {address : String} (different : address ≠ gone) :
        cache.hasBlob address = world.cache.hasBlob address := by
      rw [← Bool.true_and (world.cache.hasBlob address), ← decide_eq_true different,
        ← Cache.hasBlob_dropBlob gone, Cache.hasBlob, blobs]
      rfl
    refine of_set (fun entry member => ?_) (guarded removed) (by rw [admits]; rintro _ ⟨⟩)
      fun other earlier address counted => ?_
    · rw [entries] at member
      rw [rest]
      · exact stored.entries entry member
      · rintro rfl
        exact stored.guarded entry member call involved removes
    · rw [rest]
      · exact stored.counted other earlier address counted
      · rintro rfl
        exact disjoint other earlier address counted call involved removes

theorem resume (disjoint : Disjoint world) {index : ℕ} {call after : Call} {cache : Cache}
    (found : world.calls[index]? = some call)
    (resumed : Resumed maxBytes world.cache call cache after) :
    Stored ⟨cache, world.calls.set index after⟩ := by
  have involved := mem_of_getElem? found
  cases resumed with
  | keeps _ _ admits _ removed =>
    refine of_set stored.entries (stored.guarded_of_idle removed) ?_ stored.counted
    rw [admits]
    exact stored.counted call involved
  | admits _ admits =>
    -- the new entry names the blob that the call counted on
    refine of_set (fun entry member => ?_) (fun entry member => ?_) (by rintro _ ⟨⟩) stored.counted
    · rcases Store.mem_put_iff.mp member with rfl | ⟨earlier, _⟩
      · exact stored.counted call involved _ admits
      · exact stored.entries entry earlier
    · refine ⟨(Option.some_ne_none _).symm, fun other before => ?_⟩
      rcases Store.mem_put_iff.mp member with rfl | ⟨earlier, _⟩
      · exact disjoint call involved _ admits other before
      · exact stored.guarded entry earlier other before
  | evicts =>
    refine of_set (fun entry member => ?_) (fun entry member => ⟨?_, ?_⟩) ?_ stored.counted
    · exact stored.entries entry (mem_of_mem_filter member)
    · split
      next => exact (Option.some_ne_none _).symm
      next last =>
        rintro equal
        refine last (any_eq_true.mpr ⟨entry, member, ?_⟩)
        exact decide_eq_true (Option.some.inj equal).symm
    · exact stored.guarded entry (mem_of_mem_filter member)
    · split <;> rintro _ ⟨⟩
  | ends =>
    exact of_set stored.entries (stored.guarded_of_idle rfl) (by rintro _ ⟨⟩) stored.counted

/-- A step keeps the blobs that are in use. -/
theorem step (disjoint : Disjoint world) {action : Action}
    (stepped : world.step hash maxBytes action = some next) : Stored next := by
  cases action with
  | getOrFetch => exact stored.look (World.looked_of_getOrFetch stepped)
  | get => exact stored.look (World.looked_of_get stepped)
  | pin modelRef | unpin modelRef =>
    cases stepped
    exact ⟨stored.entries, stored.guarded, stored.counted⟩
  | perform =>
    obtain ⟨call, cache, answer, found, suspended, performed, rfl⟩ :=
      World.exists_of_perform stepped
    exact stored.perform disjoint found (index_of_perform performed).1
      (performed_of_perform suspended performed)
  | resume =>
    obtain ⟨call, cache, after, found, resumed, rfl⟩ := World.exists_of_resume stepped
    exact stored.resume disjoint found (resumed_of_resume resumed)
  | reopen =>
    cases stepped
    exact ⟨by rintro _ ⟨⟩, by rintro _ ⟨⟩, by rintro _ ⟨⟩⟩

end

end Stored

/-- The file system does its work for the action. -/
def World.Tidy (world : World) : Action → Prop
  | .perform index outcome => ∀ call ∈ world.calls[index]?, call.stage.tidy outcome = true
  | _ => True

/-- A model that is in the index is admitted again only under the same digest. -/
def World.Steady (world : World) : Action → Prop
  | .resume index => ∀ call ∈ world.calls[index]?, ∀ admission ∈ call.admission,
      ∀ entry ∈ world.cache.entries.find admission.1, entry.sha256 = admission.2.1
  | _ => True

namespace Named

variable {world : World} {index : ℕ} {call after : Call}

theorem mem_set_or_eq {calls : List Call} {other : Call} (found : calls[index]? = some call)
    (member : other ∈ calls) : other = call ∨ other ∈ calls.set index after := by
  obtain ⟨place, atPlace⟩ := mem_iff_getElem?.mp member
  by_cases same : index = place
  · subst same
    exact .inl (Option.some.inj (atPlace.symm.trans found))
  · refine .inr (mem_iff_getElem?.mpr ⟨place, ?_⟩)
    rwa [getElem?_set_ne same]

theorem mem_set_self {calls : List Call} (found : calls[index]? = some call) :
    after ∈ calls.set index after :=
  List.mem_set (List.getElem?_eq_some_iff.mp found).1 _

theorem look (named : Named world) (stored : Stored world) {modelRef : String}
    (looked : world.Looked modelRef next) : Named next := by
  obtain ⟨touched, _, old, _⟩ := looked
  intro address present
  rw [Cache.hasBlob, blobs_of_touched touched] at present
  rcases named address present with ⟨entry, member, rfl⟩ | ⟨call, involved, use⟩
  · exact .inl (exists_entry_touched touched stored.entries member)
  · exact .inr ⟨call, old call involved, use⟩

/-- A blob is named by an entry, or the call at this place uses it, or another
call does. -/
theorem exists_use (named : Named world) (found : world.calls[index]? = some call) (after : Call)
    {address : String} (present : world.cache.hasBlob address = true) :
    (∃ entry ∈ world.cache.entries.rows, entry.sha256 = address) ∨
      (call.admits = some address ∨ call.removes = some address) ∨
      ∃ other ∈ world.calls.set index after,
        other.admits = some address ∨ other.removes = some address := by
  rcases named address present with entry | ⟨other, involved, use⟩
  · exact .inl entry
  · rcases mem_set_or_eq found involved with rfl | kept
    · exact .inr (.inl use)
    · exact .inr (.inr ⟨other, kept, use⟩)

theorem unused_of_idle {address : String} (admits : call.admits = none)
    (removes : call.removes = none) :
    ¬ (call.admits = some address ∨ call.removes = some address) := by
  rw [admits, removes]
  rintro (⟨⟨⟩⟩ | ⟨⟨⟩⟩)

theorem perform (named : Named world) {cache : Cache} (found : world.calls[index]? = some call)
    (entries : cache.entries = world.cache.entries)
    (performed : Performed world.cache call true cache after) :
    Named ⟨cache, world.calls.set index after⟩ := by
  -- a blob that was in use, unless by this call, still is
  have still {address : String} (present : world.cache.hasBlob address = true)
      (unused : call.admits = some address ∨ call.removes = some address →
        after.admits = some address) :
      (∃ entry ∈ cache.entries.rows, entry.sha256 = address) ∨
        ∃ other ∈ world.calls.set index after,
          other.admits = some address ∨ other.removes = some address := by
    rw [entries]
    rcases named.exists_use found after present with entry | use | others
    · exact .inl entry
    · exact .inr ⟨after, mem_set_self found, .inl (unused use)⟩
    · exact .inr others
  intro address present
  cases performed with
  | keeps blobs counted _ removes _ =>
    rw [Cache.hasBlob, blobs] at present
    refine still present fun use => ?_
    rcases use with admits | removing
    · exact counted address admits
    · rw [removes rfl] at removing
      cases removing
  | writes written content blobs fresh counted _ removes _ =>
    have there : (world.cache.writeBlob written content).hasBlob address = true := by
      rw [Cache.writeBlob, ← blobs]
      exact present
    rw [Cache.hasBlob_writeBlob, Bool.or_eq_true, decide_eq_true_eq] at there
    rcases there with rfl | before
    · exact .inr ⟨after, mem_set_self found, .inl (counted rfl)⟩
    · exact still before fun use => absurd use (unused_of_idle fresh removes)
  | removes gone blobs fresh _ removes _ =>
    have there : (world.cache.dropBlob gone).hasBlob address = true := by
      rw [Cache.dropBlob, ← blobs]
      exact present
    rw [Cache.hasBlob_dropBlob, Bool.and_eq_true, decide_eq_true_eq] at there
    refine still there.2 fun use => ?_
    rw [fresh, removes] at use
    rcases use with impossible | same
    · cases impossible
    · exact absurd (Option.some.inj same).symm there.1

theorem resume (named : Named world) {cache : Cache} (found : world.calls[index]? = some call)
    (steady : ∀ admission ∈ call.admission, ∀ entry ∈ world.cache.entries.find admission.1,
      entry.sha256 = admission.2.1) (resumed : Resumed maxBytes world.cache call cache after) :
    Named ⟨cache, world.calls.set index after⟩ := by
  -- at the head of the eviction loop the call uses no blob
  have idle {actual address : String} (sweeps : call.stage = .sweeping actual) :
      ¬ (call.admits = some address ∨ call.removes = some address) := by
    refine unused_of_idle ?_ ?_
    · rw [Call.admits, sweeps]
    · rw [Call.removes, sweeps]
  intro address present
  have used := named.exists_use found after
    (show world.cache.hasBlob address = true by cases resumed <;> exact present)
  cases resumed with
  | keeps _ _ admits removes _ =>
    rcases used with entry | use | others
    · exact .inl entry
    · refine .inr ⟨_, mem_set_self found, .inl ?_⟩
      rw [removes] at use
      rcases use with counted | impossible
      · rwa [admits]
      · cases impossible
    · exact .inr others
  | @admits actual size admission admits removes =>
    have new : ∃ entry ∈ (world.cache.insertEntry call.artifact.modelRef actual size).entries.rows,
        entry.sha256 = actual := by
      exact ⟨_, Store.mem_put_iff.mpr (.inl rfl), rfl⟩
    rcases used with ⟨entry, member, rfl⟩ | use | others
    · by_cases same : entry.modelRef = call.artifact.modelRef
      · -- the entry of the model is replaced by one of the same digest
        have digest := steady _ admission entry (Store.find_eq_some_iff.mpr ⟨member, same⟩)
        rw [digest]
        exact .inl new
      · exact .inl ⟨entry, Store.mem_put_iff.mpr (.inr ⟨member, same⟩), rfl⟩
    · rw [admits, removes] at use
      rcases use with same | impossible
      · rw [← Option.some.inj same]
        exact .inl new
      · cases impossible
    · exact .inr others
  | @evicts actual victim sweeps _ chosen =>
    rcases used with ⟨entry, member, rfl⟩ | use | others
    · by_cases same : entry.modelRef = victim.modelRef
      · have whole : entry = victim := by
          have chosenRow := mem_of_mem_filter (argmin_mem chosen)
          exact inj_on_of_nodup_map world.cache.entries.unique member chosenRow same
        rw [whole]
        split
        next shared =>
          obtain ⟨row, kept, equal⟩ := any_eq_true.mp shared
          exact .inl ⟨row, kept, of_decide_eq_true equal⟩
        next => exact .inr ⟨_, mem_set_self found, .inr rfl⟩
      · exact .inl ⟨entry, Store.mem_erase_iff.mpr ⟨member, same⟩, rfl⟩
    · exact absurd use (idle sweeps)
    · exact .inr others
  | @ends _ sweeps =>
    rcases used with entry | use | others
    · exact .inl entry
    · exact absurd use (idle sweeps)
    · exact .inr others

theorem step (named : Named world) (stored : Stored world) {action : Action}
    (tidy : world.Tidy action) (steady : world.Steady action) (stays : action ≠ .reopen)
    (stepped : world.step hash maxBytes action = some next) : Named next := by
  cases action with
  | getOrFetch => exact named.look stored (World.looked_of_getOrFetch stepped)
  | get => exact named.look stored (World.looked_of_get stepped)
  | pin modelRef | unpin modelRef =>
    cases stepped
    exact named
  | perform =>
    obtain ⟨call, cache, answer, found, suspended, performed, rfl⟩ :=
      World.exists_of_perform stepped
    have work := performed_of_perform suspended performed
    rw [tidy call found] at work
    exact named.perform found (index_of_perform performed).1 work
  | resume =>
    obtain ⟨call, cache, after, found, resumed, rfl⟩ := World.exists_of_resume stepped
    exact named.resume found (steady call found) (resumed_of_resume resumed)
  | reopen => exact absurd rfl stays

end Named

/-- No call counts on a blob that another one is about to remove, models keep
their digests, and the file system does its work. -/
def Apart (world : World) (action : Action) : Prop :=
  Disjoint world ∧ world.Tidy action ∧ world.Steady action ∧ action ≠ .reopen

structure Agree (cache : Cache) : Prop where
  stored : ∀ entry ∈ cache.entries.rows, cache.hasBlob entry.sha256 = true
  named : ∀ blob ∈ cache.blobs.rows, ∃ entry ∈ cache.entries.rows, entry.sha256 = blob.address

section Decisions

variable (world : World)

instance decidableTidy : (action : Action) → Decidable (world.Tidy action)
  | .perform index _ => inferInstanceAs (Decidable (∀ call ∈ world.calls[index]?, _))
  | .getOrFetch _ | .get _ | .pin _ | .unpin _ | .resume _ | .reopen => isTrue trivial

instance decidableSteady : (action : Action) → Decidable (world.Steady action)
  | .resume index => inferInstanceAs (Decidable (∀ call ∈ world.calls[index]?,
      ∀ admission ∈ call.admission, ∀ entry ∈ world.cache.entries.find admission.1, _))
  | .getOrFetch _ | .get _ | .pin _ | .unpin _ | .perform _ _ | .reopen => isTrue trivial

instance : Decidable (Disjoint world) :=
  inferInstanceAs (Decidable (∀ call ∈ world.calls, ∀ address ∈ call.admits,
    ∀ other ∈ world.calls, other.removes ≠ some address))

instance (action : Action) : Decidable (Apart world action) :=
  inferInstanceAs (Decidable (_ ∧ _ ∧ _ ∧ _))

instance (cache : Cache) : Decidable (Agree cache) :=
  decidable_of_iff (_ ∧ _) ⟨fun both => ⟨both.1, both.2⟩, fun agree => ⟨agree.1, agree.2⟩⟩

end Decisions

theorem idle_of_returned {call : Call} (returned : call.pending = false) :
    call.admits = none ∧ call.removes = none := by
  obtain ⟨artifact, stage, answer⟩ := call
  cases stage with
  | returned => exact ⟨rfl, rfl⟩
  | _ => cases returned

theorem pending_of_use {call : Call} {address : String}
    (use : call.admits = some address ∨ call.removes = some address) : call.pending = true := by
  by_contra returned
  obtain ⟨idle, calm⟩ := idle_of_returned (Bool.eq_false_iff.mpr returned)
  rw [idle, calm] at use
  rcases use with impossible | impossible <;> cases impossible

theorem Named.agree {world : World} (named : Named world) (stored : Stored world)
    (returned : ∀ call ∈ world.calls, call.pending = false) : Agree world.cache := by
  refine ⟨stored.entries, fun blob member => ?_⟩
  have present : world.cache.hasBlob blob.address = true := by
    rw [Cache.hasBlob, Store.find_eq_some_iff.mpr ⟨member, rfl⟩]
    rfl
  rcases named blob.address present with named | ⟨call, involved, use⟩
  · exact named
  · have idle := returned call involved
    rw [pending_of_use use] at idle
    cases idle

/-- When all calls have returned, the index and the blobs agree. -/
theorem agree_of_apart {hash : Bytes → String} {maxBytes : ℕ} {actions : List Action}
    {world : World} (ran : run (World.step hash maxBytes) {} actions = some world)
    (apart : Conforms (World.step hash maxBytes) Apart {} actions)
    (returned : ∀ call ∈ world.calls, call.pending = false) : Agree world.cache := by
  have kept : Stored world ∧ Named world := by
    refine run_induction (motive := fun _ world => Stored world ∧ Named world) ?_ ?_ ran apart
    · exact ⟨⟨by rintro _ ⟨⟩, by rintro _ ⟨⟩, by rintro _ ⟨⟩⟩, by rintro _ ⟨⟩⟩
    · rintro _ state action after ⟨stored, named⟩ ⟨disjoint, tidy, steady, stays⟩ stepped
      exact ⟨stored.step disjoint stepped, named.step stored tidy steady stays stepped⟩
  exact kept.2.agree kept.1 returned

section Runs

open Sha256Digests

def artifactOf (modelRef : String) (content : Bytes) : ModelArtifact :=
  ⟨modelRef, "", sha256 content⟩

/-- SHA-256 with the digests of the samples looked up. -/
def knownSha256 (content : Bytes) : String :=
  if content = [1] then "4bf5122f344554c53bde2ebb8cd2b7e3d1600ad631c385a5d7cce23c7785459a"
  else if content = [2] then "dbc1b4c900ffe48d575b5da5c638040125f65db0fe3e24494b76ea986457d986"
  else if content = [2, 2] then
    "50cff72c8e550546d661ec235431888fb2f9f7bada40c17020d47f6ccc117aae"
  else sha256 content

/-- Runs are evaluated with the digests looked up. -/
theorem sha256_eq_known : sha256 = knownSha256 := by
  have digests : sha256 [1] = knownSha256 [1] ∧ sha256 [2] = knownSha256 [2] ∧
      sha256 [2, 2] = knownSha256 [2, 2] := by
    decide +kernel
  funext content
  by_cases one : content = [1]
  · rw [one, digests.1]
  by_cases two : content = [2]
  · rw [two, digests.2.1]
  by_cases twice : content = [2, 2]
  · rw [twice, digests.2.2]
  rw [knownSha256, if_neg one, if_neg two, if_neg twice]

theorem artifactOf_eq_known (modelRef : String) (content : Bytes) :
    artifactOf modelRef content = ⟨modelRef, "", knownSha256 content⟩ := by
  rw [artifactOf, sha256_eq_known]

/-- A fetch up to the check whether the blob is there. -/
def downloads (index : ℕ) (content : Bytes) : List Action :=
  [.perform index (.fetched content), .resume index, .perform index .done, .resume index,
    .perform index .done, .resume index, .perform index .done, .resume index]

/-- The rest of a fetch, up to the first round of the eviction loop. -/
def admits (index : ℕ) : List Action := [.perform index .done, .resume index, .resume index]

/-- Of two fetches of the same weights, the second one finds the blob of the
first.  Before it gets to the index, a third fetch evicts the first model. -/
def evictedWhileAdmitting : List Action :=
  .getOrFetch (artifactOf "llama" [1]) :: downloads 0 [1] ++ admits 0 ++
    .getOrFetch (artifactOf "llama-copy" [1]) :: downloads 1 [1] ++
    .getOrFetch (artifactOf "qwen" [2]) :: downloads 2 [2] ++ admits 2 ++ admits 2 ++
    admits 1 ++ admits 1

def twoDigests : List Action :=
  .getOrFetch (artifactOf "llama" [1]) :: .getOrFetch (artifactOf "llama" [2]) ::
    downloads 0 [1] ++ admits 0 ++ downloads 1 [2] ++ admits 1

/-- The first run leaves an entry without its blob, the second one a blob without
an entry. -/
theorem index_and_blobs_disagree : (∃ world ∈ run (World.step sha256 1) {} evictedWhileAdmitting,
      (∀ call ∈ world.calls, call.pending = false) ∧
      ∃ entry ∈ world.cache.entries.rows, world.cache.hasBlob entry.sha256 = false) ∧
    ∃ world ∈ run (World.step sha256 8) {} twoDigests,
      (∀ call ∈ world.calls, call.pending = false) ∧
      ∃ blob ∈ world.cache.blobs.rows, ∀ entry ∈ world.cache.entries.rows,
        entry.sha256 ≠ blob.address := by
  simp only [evictedWhileAdmitting, twoDigests, artifactOf_eq_known, sha256_eq_known]
  decide +kernel

def interleavedFetches : List Action :=
  .getOrFetch (artifactOf "llama" [1]) :: .getOrFetch (artifactOf "llama-copy" [1]) ::
    downloads 0 [1] ++ admits 0 ++ .getOrFetch (artifactOf "qwen" [2, 2]) ::
    downloads 1 [1] ++ admits 1 ++ downloads 2 [2, 2] ++ admits 2 ++ .resume 2 :: admits 2

theorem agree_of_interleavedFetches :
    ∃ world ∈ run (World.step sha256 2) {} interleavedFetches, Agree world.cache := by
  have ends : ∃ world ∈ run (World.step sha256 2) {} interleavedFetches,
      (∀ call ∈ world.calls, call.pending = false) ∧
        Conforms (World.step sha256 2) Apart {} interleavedFetches := by
    simp only [interleavedFetches, artifactOf_eq_known, sha256_eq_known]
    decide +kernel
  obtain ⟨world, ran, returned, apart⟩ := ends
  exact ⟨world, ran, agree_of_apart ran apart returned⟩

end Runs

end Purser.ModelCache
