import Mathlib.Algebra.GroupWithZero.Nat
import Mathlib.Data.List.MinMax
import Purser.KeyedStores
import Purser.Sha256Digests
import Purser.TransitionRuns

/-!
# The model cache of an agent

Weights lie on disk under their digest, and an index in memory says which model
has which digest.  What the file system does for a call (`perform`) and how the
call goes on (`resume`) are separate steps, between which other calls can run.
-/

namespace Purser.ModelCache

open KeyedStores

abbrev Bytes := List UInt8

structure ModelArtifact where
  modelRef : String
  url : String
  sha256 : String
  deriving DecidableEq

/-- The digest that the fetched file has to have.  Lowering a letter outside of
ASCII never yields a hexadecimal digit. -/
def ModelArtifact.expected (artifact : ModelArtifact) : String := artifact.sha256.toLower

inductive CacheError where
  | checksumMismatch (expected actual : String)
  | tooLarge (size budget : ℕ)
  | io (problem : String)

def CacheError.text : CacheError → String
  | .checksumMismatch expected actual => s!"checksum mismatch: expected {expected}, got {actual}"
  | .tooLarge size budget => s!"artifact ({size} bytes) exceeds cache budget ({budget} bytes)"
  | .io problem => s!"cache io error: {problem}"

structure Entry where
  modelRef : String
  sha256 : String
  size : ℕ
  lastAccess : ℕ

/-- The two parts of the name of a temporary file, joined by a dot.  The first
one has no dot. -/
structure TempName where
  stem : String
  number : ℕ
  deriving DecidableEq

structure Blob where
  address : String
  content : Bytes

structure TempFile where
  name : TempName
  content : Bytes

def sanitize (modelRef : String) : String := modelRef.map fun c => if c.isAlphanum then c else '_'

/-- The index in memory, and the directories `blobs` and `tmp`. -/
structure Cache where
  entries : Store Entry.modelRef := .empty
  pinned : List String := []
  clock : ℕ := 1
  blobs : Store Blob.address := .empty
  temp : Store TempFile.name := .empty

namespace Cache

variable (cache : Cache)

def totalBytes : ℕ := (cache.entries.rows.map Entry.size).sum

def hasBlob (address : String) : Bool := (cache.blobs.find address).isSome

def writeBlob (address : String) (content : Bytes) : Cache :=
  { cache with blobs := cache.blobs.put ⟨address, content⟩ }

def writeTemp (name : TempName) (content : Bytes) : Cache :=
  { cache with temp := cache.temp.put ⟨name, content⟩ }

def dropTemp (name : TempName) : Cache := { cache with temp := cache.temp.erase name }

def dropBlob (address : String) : Cache := { cache with blobs := cache.blobs.erase address }

def dropEntry (modelRef : String) : Cache := { cache with entries := cache.entries.erase modelRef }

def touchIfPresent (modelRef : String) : Cache × Option String :=
  match cache.entries.find modelRef with
  | none => (cache, none)
  | some entry =>
    if cache.hasBlob entry.sha256 = false then (cache.dropEntry modelRef, none)
    else
      ({ cache with
        clock := cache.clock + 1
        entries := cache.entries.replace { entry with lastAccess := cache.clock } },
        some entry.sha256)

/-- The path is the one of the blob. -/
def get (modelRef : String) : Cache × Option String := cache.touchIfPresent modelRef

def pin (modelRef : String) : Cache := { cache with pinned := cache.pinned.insert modelRef }

def unpin (modelRef : String) : Cache := { cache with pinned := cache.pinned.filter (· ≠ modelRef) }

def unpinned : List Entry := cache.entries.rows.filter fun entry => entry.modelRef ∉ cache.pinned

/-- The entry that the eviction loop takes next. -/
def victim : Option Entry := cache.unpinned.argmin Entry.lastAccess

/-- The blob has its place: the model is entered in the index. -/
def insertEntry (modelRef sha256 : String) (size : ℕ) : Cache :=
  { cache with
    clock := cache.clock + 1
    entries := cache.entries.put ⟨modelRef, sha256, size, cache.clock⟩ }

/-- `ModelCache::open` in a new process: the directories are as they were left,
the index is empty. -/
def reopen : Cache := { cache with entries := .empty, pinned := [], clock := 1 }

end Cache

/-- What follows the removal of the temporary file. -/
inductive AfterDiscard where
  | fail (problem : String)
  | insert (actual : String) (size : ℕ)
  deriving DecidableEq

inductive Stage where
  | fetching (temp : TempName)
  | hashing (temp : TempName)
  | measuring (temp : TempName) (actual : String)
  | probing (temp : TempName) (actual : String) (size : ℕ)
  | moving (temp : TempName) (actual : String) (size : ℕ)
  | copying (temp : TempName) (actual : String) (size : ℕ)
  | discarding (temp : TempName) (next : AfterDiscard)
  /-- at the head of the eviction loop -/
  | sweeping (actual : String)
  /-- the eviction loop removes a blob that no entry names any more -/
  | removing (actual evicted : String)
  | returned (result : Except String String)
  deriving DecidableEq

inductive Outcome where
  | done
  | failed (problem : String)
  | fetched (content : Bytes)
  /-- a fetch or a copy fails and leaves an incomplete file -/
  | torn (problem : String) (left : Bytes)
  deriving DecidableEq

inductive Answer where
  | done
  | failed (problem : String)
  | digest (sha256 : String)
  | length (size : ℕ)
  | found (present : Bool)

/-- What the file system or the fetcher does for a call. -/
def Stage.perform (hash : Bytes → String) (cache : Cache) :
    Stage → Outcome → Option (Cache × Answer)
  | .sweeping _, _ | .returned _, _ => none
  | .fetching temp, .fetched content => some (cache.writeTemp temp content, .done)
  | .fetching temp, .torn problem left => some (cache.writeTemp temp left, .failed problem)
  | .fetching _, .done => some (cache, .done)
  | .hashing temp, .done =>
    (cache.temp.find temp).map fun file => (cache, .digest (hash file.content))
  | .measuring temp _, .done =>
    (cache.temp.find temp).map fun file => (cache, .length file.content.length)
  | .probing _ actual _, .done => some (cache, .found (cache.hasBlob actual))
  | .moving temp actual _, .done =>
    (cache.temp.find temp).map fun file =>
      ((cache.writeBlob actual file.content).dropTemp temp, .done)
  | .copying temp actual _, .done =>
    (cache.temp.find temp).map fun file => (cache.writeBlob actual file.content, .done)
  | .copying _ actual _, .torn problem left =>
    some (cache.writeBlob actual left, .failed problem)
  | .discarding temp _, .done =>
    (cache.temp.find temp).map fun _ => (cache.dropTemp temp, .done)
  | .removing _ evicted, .done =>
    (cache.blobs.find evicted).map fun _ => (cache.dropBlob evicted, .done)
  | _, .failed problem => some (cache, .failed problem)
  | _, _ => none

structure Call where
  artifact : ModelArtifact
  stage : Stage
  /-- the answer of the file system, until the call has gone on with it -/
  answer : Option Answer := none

namespace Call

variable (maxBytes : ℕ) (cache : Cache) (call : Call)

def pending : Bool :=
  match call.stage with
  | .returned _ => false
  | _ => true

def moveTo (stage : Stage) : Call := { call with stage := stage, answer := none }

/-- One round of `evict_to_budget`. -/
def sweep (actual : String) : Cache × Call :=
  if cache.totalBytes ≤ maxBytes then (cache, call.moveTo (.returned (.ok actual)))
  else match cache.victim with
    | none => (cache, call.moveTo (.returned (.ok actual)))
    | some victim =>
      let kept := cache.dropEntry victim.modelRef
      if kept.entries.rows.any (·.sha256 = victim.sha256) then
        (kept, call.moveTo (.sweeping actual))
      else (kept, call.moveTo (.removing actual victim.sha256))

def checked (temp : TempName) (actual : String) : Call :=
  if actual = call.artifact.expected then call.moveTo (.measuring temp actual)
  else call.moveTo (.discarding temp (.fail
    (CacheError.checksumMismatch call.artifact.expected actual).text))

def measured (temp : TempName) (actual : String) (size : ℕ) : Call :=
  if maxBytes < size then
    call.moveTo (.discarding temp (.fail (CacheError.tooLarge size maxBytes).text))
  else call.moveTo (.probing temp actual size)

def admitted (actual : String) (size : ℕ) : Cache × Call :=
  (cache.insertEntry call.artifact.modelRef actual size, call.moveTo (.sweeping actual))

def resume : Option (Cache × Call) :=
  match call.stage, call.answer with
  | .fetching temp, some .done => some (cache, call.moveTo (.hashing temp))
  | .fetching _, some (.failed problem) =>
    some (cache, call.moveTo (.returned (.error problem)))
  | .hashing temp, some (.digest actual) => some (cache, call.checked temp actual)
  | .hashing temp, some (.failed problem) =>
    some (cache, call.moveTo (.discarding temp (.fail (CacheError.io problem).text)))
  | .measuring temp actual, some (.length size) =>
    some (cache, call.measured maxBytes temp actual size)
  | .measuring _ _, some (.failed problem) =>
    -- the temporary file stays
    some (cache, call.moveTo (.returned (.error problem)))
  | .probing temp actual size, some (.found true) =>
    some (cache, call.moveTo (.discarding temp (.insert actual size)))
  | .probing temp actual size, some _ =>
    some (cache, call.moveTo (.moving temp actual size))
  | .moving _ actual size, some .done => some (call.admitted cache actual size)
  | .moving temp actual size, some (.failed _) =>
    some (cache, call.moveTo (.copying temp actual size))
  | .copying temp actual size, some .done =>
    some (cache, call.moveTo (.discarding temp (.insert actual size)))
  | .copying _ _ _, some (.failed problem) =>
    some (cache, call.moveTo (.returned (.error problem)))
  | .discarding _ (.fail problem), some _ =>
    some (cache, call.moveTo (.returned (.error problem)))
  | .discarding _ (.insert actual size), some _ => some (call.admitted cache actual size)
  | .sweeping actual, none => some (call.sweep maxBytes cache actual)
  | .removing actual _, some _ => some (cache, call.moveTo (.sweeping actual))
  | _, _ => none

end Call

structure World where
  cache : Cache := {}
  calls : List Call := []

inductive Action where
  | getOrFetch (artifact : ModelArtifact)
  | get (modelRef : String)
  | pin (modelRef : String)
  | unpin (modelRef : String)
  | perform (index : ℕ) (outcome : Outcome)
  | resume (index : ℕ)
  /-- the process ends, and a new one opens the same directory -/
  | reopen
  deriving DecidableEq

namespace World

variable (hash : Bytes → String) (maxBytes : ℕ) (world : World)

/-- A call up to its first suspension. -/
def getOrFetch (artifact : ModelArtifact) : World :=
  let (cache, present) := world.cache.touchIfPresent artifact.modelRef
  match present with
  | some sha256 =>
    ⟨cache, world.calls ++ [{ artifact := artifact, stage := .returned (.ok sha256) }]⟩
  | none =>
    let temp : TempName := ⟨sanitize artifact.modelRef, cache.clock⟩
    ⟨{ cache with clock := cache.clock + 1 },
      world.calls ++ [{ artifact := artifact, stage := .fetching temp }]⟩

def step : Action → Option World
  | .getOrFetch artifact => some (world.getOrFetch artifact)
  | .get modelRef => some { world with cache := (world.cache.get modelRef).1 }
  | .pin modelRef => some { world with cache := world.cache.pin modelRef }
  | .unpin modelRef => some { world with cache := world.cache.unpin modelRef }
  | .perform index outcome => do
      let call ← world.calls[index]?
      if call.answer.isSome then none
      else
        let (cache, answer) ← call.stage.perform hash world.cache outcome
        return ⟨cache, world.calls.set index { call with answer := some answer }⟩
  | .resume index => do
      let call ← world.calls[index]?
      let (cache, next) ← call.resume maxBytes world.cache
      return ⟨cache, world.calls.set index next⟩
  | .reopen => some { cache := world.cache.reopen }

end World

end Purser.ModelCache
