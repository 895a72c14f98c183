import Purser.ModelCacheBudget

/-!
# The cache in several processes

The bytes outlive the process, the index does not, and error exits leave
temporary files.  Without both, the disk keeps to the budget.
-/

namespace Purser.ModelCache

open KeyedStores TransitionRuns List
open World (step)

def Cache.diskBytes (cache : Cache) : ℕ :=
  (cache.blobs.rows.map fun blob => blob.content.length).sum +
    (cache.temp.rows.map fun file => file.content.length).sum

def Cache.pinnedTotal (cache : Cache) : ℕ :=
  ((cache.entries.rows.filter fun entry => entry.modelRef ∈ cache.pinned).map Entry.size).sum

/-- The outcome leads to no exit that leaves the temporary file where it is. -/
def Stage.clears : Stage → Outcome → Bool
  | .fetching _, .torn _ _ => false
  | .measuring _ _, .failed _ => false
  | .copying _ _ _, .failed _ => false
  | .discarding _ _, .failed _ => false
  | _, _ => true

def World.Clears (world : World) : Action → Prop
  | .perform index outcome => ∀ call ∈ world.calls[index]?, call.stage.clears outcome = true
  | .reopen => world.cache.temp.rows = []
  | _ => True

def Durable (maxBytes : ℕ) (world : World) (action : Action) : Prop :=
  Accountable maxBytes world action ∧ world.Clears action

/-- The temporary file that the call will still move or remove. -/
def Call.temp (call : Call) : Option TempName :=
  match call.stage, call.answer with
  | .fetching temp, some .done => some temp
  | .hashing temp, _ => some temp
  | .measuring _ _, some (.failed _) => none
  | .measuring temp _, _ => some temp
  | .probing temp _ _, _ => some temp
  | .moving _ _ _, some .done => none
  | .moving temp _ _, _ => some temp
  | .copying _ _ _, some (.failed _) => none
  | .copying temp _ _, _ => some temp
  | .discarding temp _, none => some temp
  | _, _ => none

def Cleared (world : World) : Prop :=
  ∀ file ∈ world.cache.temp.rows, ∃ call ∈ world.calls, call.temp = some file.name

variable {hash : Bytes → String} {cache : Cache}

section Temporary

variable {maxBytes : ℕ} {after : Cache} {call next : Call}

/-- The file system adds only the file of the call, and takes only that away. -/
theorem temp_of_perform (suspended : call.answer = none) {outcome : Outcome} {answer : Answer}
    (clears : call.stage.clears outcome = true) (tidy : call.stage.tidy outcome = true)
    (performed : call.stage.perform hash cache outcome = some (after, answer)) {file : TempFile}
    (member : file ∈ after.temp.rows) :
    { call with answer := some answer : Call }.temp = some file.name ∨
      (file ∈ cache.temp.rows ∧ call.temp ≠ some file.name) := by
  -- the call keeps its file, or it has none
  have keeps {waiting answered : Call} (same : answered.temp = waiting.temp)
      (held : file ∈ cache.temp.rows) : answered.temp = some file.name ∨
        (file ∈ cache.temp.rows ∧ waiting.temp ≠ some file.name) := by
    by_cases own : waiting.temp = some file.name
    · exact .inl (same.trans own)
    · exact .inr ⟨held, own⟩
  have works := works_of_perform performed
  obtain ⟨artifact, stage, given⟩ := call
  cases suspended
  cases works with
  | fetches =>
    rcases Store.mem_put_iff.mp member with rfl | ⟨earlier, _⟩
    · exact .inl rfl
    · exact .inr ⟨earlier, by rintro ⟨⟩⟩
  | tearsFetch => cases clears
  | fetchesNothing | removes => exact .inr ⟨member, by rintro ⟨⟩⟩
  | hashes | measures | probes | copies => exact keeps rfl member
  | moves | discards =>
    obtain ⟨held, different⟩ := Store.mem_erase_iff.mp member
    refine .inr ⟨held, fun same => different ?_⟩
    exact (Option.some.inj same).symm
  | tearsCopy => cases tidy
  | fails =>
    cases stage with
    | measuring | copying | discarding => cases clears
    | hashing | probing | moving => exact keeps rfl member
    | _ => exact .inr ⟨member, by rintro ⟨⟩⟩

theorem temp_of_resume (resumed : call.resume maxBytes cache = some (after, next)) {temp : TempName}
    (owned : call.temp = some temp) : next.temp = some temp := by
  obtain ⟨following, rfl, continues⟩ := movesOn_of_resume resumed
  obtain ⟨artifact, stage, answer⟩ := call
  cases continues with
  | fetched | matching | mismatching | unhashed | tooLarge | fitting | present | absent | unmoved
  | copied => exact owned
  | _ => cases owned

theorem temp_of_resumed (resumed : Resumed maxBytes cache call after next) :
    after.temp = cache.temp := by
  cases resumed <;> rfl

end Temporary

theorem Cleared.step {hash : Bytes → String} {maxBytes : ℕ} {world next : World}
    (cleared : Cleared world) {action : Action} (tidy : world.Tidy action)
    (clears : world.Clears action) (stepped : world.step hash maxBytes action = some next) :
    Cleared next := by
  have look {modelRef : String} (looked : world.Looked modelRef next) : Cleared next := by
    obtain ⟨touched, _, old, _⟩ := looked
    intro file member
    obtain ⟨owner, involved, owned⟩ := cleared file (by cases touched <;> exact member)
    exact ⟨owner, old owner involved, owned⟩
  cases action with
  | getOrFetch => exact look (World.looked_of_getOrFetch stepped)
  | get => exact look (World.looked_of_get stepped)
  | pin modelRef | unpin modelRef =>
    cases stepped
    exact cleared
  | perform =>
    obtain ⟨call, cache, answer, found, suspended, performed, rfl⟩ :=
      World.exists_of_perform stepped
    intro file member
    rcases temp_of_perform suspended (clears call found) (tidy call found) performed member with
      own | ⟨held, foreign⟩
    · exact ⟨_, Named.mem_set_self found, own⟩
    · obtain ⟨owner, involved, owned⟩ := cleared file held
      rcases Named.mem_set_or_eq found involved with rfl | kept
      · exact absurd owned foreign
      · exact ⟨owner, kept, owned⟩
  | resume =>
    obtain ⟨call, cache, after, found, resumed, rfl⟩ := World.exists_of_resume stepped
    intro file member
    rw [temp_of_resumed (resumed_of_resume resumed)] at member
    obtain ⟨owner, involved, owned⟩ := cleared file member
    rcases Named.mem_set_or_eq found involved with rfl | kept
    · exact ⟨after, Named.mem_set_self found, temp_of_resume resumed owned⟩
    · exact ⟨owner, kept, owned⟩
  | reopen =>
    cases stepped
    intro file member
    change file ∈ world.cache.temp.rows at member
    rw [show world.cache.temp.rows = [] from clears] at member
    cases member

theorem Cleared.empty_of_quiet {world : World} (cleared : Cleared world) (quiet : world.Quiet) :
    world.cache.temp.rows = [] := by
  refine eq_nil_iff_forall_not_mem.mpr fun file member => ?_
  obtain ⟨call, involved, owned⟩ := cleared file member
  have returned := quiet call involved
  obtain ⟨artifact, stage, answer⟩ := call
  cases stage with
  | returned => cases owned
  | _ => cases returned

namespace Represented

variable {maxBytes : ℕ}

theorem blobBytes_le (represented : Represented hash maxBytes cache) :
    (cache.blobs.rows.map fun blob => blob.content.length).sum ≤ cache.totalBytes := by
  let files := cache.blobs.rows.map fun blob => (blob.address, blob.content.length)
  let named := cache.entries.rows.map fun entry => (entry.sha256, entry.size)
  have distinct : files.Nodup := by
    refine List.Nodup.of_map Prod.fst ?_
    rw [map_map]
    exact cache.blobs.unique
  have within : files ⊆ named := by
    intro pair member
    obtain ⟨blob, held, rfl⟩ := mem_map.mp member
    obtain ⟨entry, listed, same⟩ := represented.agree.named blob held
    have found := Store.find_eq_some_iff.mpr ⟨held, same.symm⟩
    refine mem_map.mpr ⟨entry, listed, ?_⟩
    rw [same, (represented.contents entry listed blob found).1]
  obtain ⟨chosen, rearranged, sublist⟩ := subperm_of_subset distinct within
  calc (cache.blobs.rows.map fun blob => blob.content.length).sum
      = (files.map Prod.snd).sum := by rw [map_map]; rfl
    _ = (chosen.map Prod.snd).sum := (rearranged.map Prod.snd).sum_eq.symm
    _ ≤ (named.map Prod.snd).sum :=
        List.Sublist.sum_le_sum (sublist.map Prod.snd) fun _ _ => Nat.zero_le _
    _ = cache.totalBytes := by rw [map_map]; rfl

theorem diskBytes_le (represented : Represented hash maxBytes cache)
    (cleared : cache.temp.rows = []) : cache.diskBytes ≤ maxBytes + cache.pinnedTotal := by
  have blobs := represented.blobBytes_le
  rw [Cache.diskBytes, cleared]
  change _ + 0 ≤ _
  rcases represented.budget with within | pinned
  · omega
  · have all : cache.pinnedTotal = cache.totalBytes := by
      rw [Cache.pinnedTotal, Cache.totalBytes, filter_eq_self.mpr]
      exact fun entry member => decide_eq_true (pinned entry member)
    omega

end Represented

section Restarts

variable {maxBytes : ℕ} {world final : World}

theorem accounted_of_durable {actions : List Action} (accounted : Accounted hash maxBytes world)
    (cleared : Cleared world) (ran : run (step hash maxBytes) world actions = some final)
    (durable : Conforms (step hash maxBytes) (Durable maxBytes) world actions) :
    Accounted hash maxBytes final ∧ Cleared final := by
  refine run_induction (motive := fun _ world => Accounted hash maxBytes world ∧ Cleared world)
    ⟨accounted, cleared⟩ ?_ ran durable
  rintro _ state action after ⟨accounted, cleared⟩ ⟨accountable, clears⟩ stepped
  exact ⟨accounted.step accountable stepped, cleared.step accountable.2.1 clears stepped⟩

theorem find_isSome_of_run {modelRef : String} {later : List Action}
    (accounted : Accounted hash maxBytes world)
    (present : (world.cache.entries.find modelRef).isSome = true)
    (ran : run (step hash maxBytes) world later = some final)
    (durable : Conforms (step hash maxBytes) (Durable maxBytes) world later)
    (unevicted : Conforms (step hash maxBytes) (fun state action =>
      ∀ entry ∈ state.evicts maxBytes action, entry.modelRef ≠ modelRef) world later) :
    (final.cache.entries.find modelRef).isSome = true := by
  induction later generalizing world with
  | nil =>
    cases ran
    exact present
  | cons _ _ induction =>
    obtain ⟨next, stepped, ranRest⟩ := run_cons_eq_some_iff.mp ran
    obtain ⟨⟨accountable, _⟩, durableRest⟩ := durable
    obtain ⟨kept, unevictedRest⟩ := unevicted
    refine induction (accounted.step accountable stepped) ?_ ranRest
      (durableRest next stepped) (unevictedRest next stepped)
    by_contra lost
    obtain ⟨entry, found⟩ := Option.isSome_iff_exists.mp present
    obtain ⟨member, rfl⟩ := Store.find_eq_some_iff.mp found
    have gone := Option.not_isSome_iff_eq_none.mp lost
    exact kept entry (accounted.evicts_of_step accountable stepped member gone) rfl

/-- After every completed call of every process the files keep to the budget and
the pinned models, and a model that was admitted is found until it is evicted. -/
theorem budget_survives_restarts {before later : List Action}
    (ranBefore : run (step hash maxBytes) {} before = some world)
    (ranLater : run (step hash maxBytes) world later = some final)
    (durable : Conforms (step hash maxBytes) (Durable maxBytes) {} (before ++ later))
    (quiet : final.Quiet) :
    final.cache.diskBytes ≤ maxBytes + final.cache.pinnedTotal ∧
      ∀ modelRef, (world.cache.entries.find modelRef).isSome = true →
        Conforms (step hash maxBytes) (fun state action =>
          ∀ entry ∈ state.evicts maxBytes action, entry.modelRef ≠ modelRef) world later →
          (final.cache.get modelRef).2.isSome = true := by
  obtain ⟨durableBefore, durableLater⟩ := (conforms_append_iff ranBefore).mp durable
  obtain ⟨accounted, cleared⟩ := accounted_of_durable (Accounted.opened {} rfl)
    (by rintro _ ⟨⟩) ranBefore durableBefore
  obtain ⟨atEnd, clearedAtEnd⟩ := accounted_of_durable accounted cleared ranLater durableLater
  refine ⟨(atEnd.represented quiet).diskBytes_le (clearedAtEnd.empty_of_quiet quiet),
    fun modelRef present unevicted => ?_⟩
  have present := find_isSome_of_run accounted present ranLater durableLater unevicted
  obtain ⟨entry, found⟩ := Option.isSome_iff_exists.mp present
  have there := atEnd.sound.stored.entries entry (Store.find_eq_some_iff.mp found).1
  rw [Cache.get, Cache.touchIfPresent, found]
  simp only [there, Bool.true_eq_false, if_false, Option.isSome_some]

end Restarts

section Decisions

variable (maxBytes : ℕ) (world : World)

instance decidableClears : (action : Action) → Decidable (world.Clears action)
  | .perform index _ => inferInstanceAs (Decidable (∀ call ∈ world.calls[index]?, _))
  | .reopen => inferInstanceAs (Decidable (world.cache.temp.rows = []))
  | .getOrFetch _ | .get _ | .pin _ | .unpin _ | .resume _ => isTrue trivial

instance (action : Action) : Decidable (Durable maxBytes world action) :=
  inferInstanceAs (Decidable (_ ∧ _))

end Decisions

section Runs

open Sha256Digests

def fetchedOnce : List Action := .getOrFetch (artifactOf "llama" [1]) :: downloads 0 [1] ++ admits 0

def tornFetch : List Action :=
  [.getOrFetch (artifactOf "llama" [1]), .perform 0 (.torn "connection reset" [1, 1]), .resume 0]

/-- The next process does not find the model that the first one has admitted, and
admits another one on top of its blob.  A fetch that fails leaves its file. -/
theorem budget_lost_by_restart : (∃ world ∈ run (step sha256 1) {} (fetchedOnce ++ [.reopen]),
      (world.cache.get "llama").2 = none) ∧
    (∃ world ∈ run (step sha256 1) {} (fetchedOnce ++
        .reopen :: .getOrFetch (artifactOf "qwen" [2]) :: downloads 0 [2] ++ admits 0),
      world.Quiet ∧ 1 + world.cache.pinnedTotal < world.cache.diskBytes) ∧
    ∃ world ∈ run (step sha256 1) {} tornFetch,
      world.Quiet ∧ 1 + world.cache.pinnedTotal < world.cache.diskBytes := by
  simp only [fetchedOnce, tornFetch, artifactOf_eq_known, sha256_eq_known]
  decide +kernel

/-- A second model, for which there is room. -/
def fetchedNext : List Action := .getOrFetch (artifactOf "qwen" [2]) :: downloads 1 [2] ++ admits 1

theorem budget_survives_second_fetch :
    ∃ world ∈ run (step sha256 2) {} (.reopen :: fetchedOnce),
      ∃ final ∈ run (step sha256 2) world fetchedNext,
        final.cache.diskBytes ≤ 2 + final.cache.pinnedTotal ∧
          (final.cache.get "llama").2.isSome = true := by
  have ends : Conforms (step sha256 2) (Durable 2) {} (.reopen :: fetchedOnce ++
        fetchedNext) ∧
      ∃ world ∈ run (step sha256 2) {} (.reopen :: fetchedOnce),
        (world.cache.entries.find "llama").isSome = true ∧
        Conforms (step sha256 2) (fun state action =>
          ∀ entry ∈ state.evicts 2 action, entry.modelRef ≠ "llama") world fetchedNext ∧
        ∃ final ∈ run (step sha256 2) world fetchedNext, final.Quiet := by
    simp only [fetchedOnce, fetchedNext, artifactOf_eq_known, sha256_eq_known]
    decide +kernel
  obtain ⟨durable, world, ranBefore, present, unevicted, final, ranLater, quiet⟩ := ends
  obtain ⟨disk, kept⟩ := budget_survives_restarts ranBefore ranLater durable quiet
  exact ⟨world, ranBefore, final, ranLater, disk, kept "llama" present unevicted⟩

end Runs

end Purser.ModelCache
