import Purser.AuditLog
import Purser.DescendingSorts

/-!
# The inference audit log

The chain is hashed over the event in memory and verified over the stored
columns.  Rows without a sequence number are older than the chain.
-/

namespace Purser.InferenceLog

open Audit AuditLog ByteEncodings CalendarTexts HashChains LockedSections RowQueries List
open Sha256Digests

variable {rows : List Row}

structure InferenceEvent where
  requestId : Text
  apiKeyHash : Text
  modelId : Text
  tenantId : Text
  timestamp : Time
  promptTokens : Int64
  completionTokens : Int64
  endpoint : Text
  clientIpPrefix : Text
  /-- The bits of a floating-point number. -/
  latencyMs : UInt64
  finishReason : Text
  modelRevision : Text
  modelQuantization : Text
  nodeId : Text
  inferenceEngine : Text

structure Row where
  id : ℕ
  requestId : Text
  apiKeyHash : Text
  modelId : Text
  tenantId : Text
  timestamp : Text
  promptTokens : Int64
  completionTokens : Int64
  endpoint : Text
  clientIpPrefix : Text
  latencyMs : UInt64
  finishReason : Text
  seq : Option Int64
  prevHash : Option Text
  hash : Option Text
  modelRevision : Text
  modelQuantization : Text
  nodeId : Text
  inferenceEngine : Text
deriving DecidableEq

def Row.texts (row : Row) : List Text :=
  [row.requestId, row.apiKeyHash, row.modelId, row.tenantId, row.timestamp, row.endpoint,
    row.clientIpPrefix, row.finishReason, row.modelRevision, row.modelQuantization, row.nodeId,
    row.inferenceEngine, row.prevHash.getD [], row.hash.getD []]

/-- SQLite holds no text of this length. -/
def Row.Storable (row : Row) : Prop := ∀ column ∈ row.texts, column.length < 2 ^ 31

theorem Row.storable_iff {row : Row} :
    row.Storable ↔ row.requestId.length < 2 ^ 31 ∧ row.apiKeyHash.length < 2 ^ 31 ∧
      row.modelId.length < 2 ^ 31 ∧ row.tenantId.length < 2 ^ 31 ∧
      row.timestamp.length < 2 ^ 31 ∧ row.endpoint.length < 2 ^ 31 ∧
      row.clientIpPrefix.length < 2 ^ 31 ∧ row.finishReason.length < 2 ^ 31 ∧
      row.modelRevision.length < 2 ^ 31 ∧ row.modelQuantization.length < 2 ^ 31 ∧
      row.nodeId.length < 2 ^ 31 ∧ row.inferenceEngine.length < 2 ^ 31 ∧
      (row.prevHash.getD []).length < 2 ^ 31 ∧ (row.hash.getD []).length < 2 ^ 31 := by
  simp only [Row.Storable, Row.texts, forall_mem_cons, not_mem_nil, false_implies,
    implies_true, and_true]

def inferenceFirstSeq : ℤ := 1

def inferenceGenesisPrevHash : Text := List.replicate 64 48

/-! ## Hashing -/

/-- What the canonical encoding reads of an event. -/
structure Hashed where
  requestId : Text
  apiKeyHash : Text
  modelId : Text
  tenantId : Text
  timestamp : Text
  endpoint : Text
  finishReason : Text

def InferenceEvent.hashed (event : InferenceEvent) : Hashed where
  requestId := event.requestId
  apiKeyHash := event.apiKeyHash
  modelId := event.modelId
  tenantId := event.tenantId
  timestamp := formatSeconds event.timestamp
  endpoint := event.endpoint
  finishReason := event.finishReason

def writeStr (value : Text) : Bytes := bigEndian 4 value.length ++ value

def writePrevHash (prevHash : Text) : Bytes :=
  let bytes := (hexRead prevHash).1
  if bytes = [] then List.replicate 32 0 else bytes

def canonicalInferenceEventBytes (event : Hashed) (seq : ℤ) (prevHash : Text) : Bytes :=
  writePrevHash prevHash ++ bigEndian 8 (seq % 2 ^ 64).toNat ++ writeStr event.requestId ++
    writeStr event.apiKeyHash ++ writeStr event.modelId ++ writeStr event.tenantId ++
    writeStr event.timestamp ++ writeStr event.endpoint ++ writeStr event.finishReason

def chainHash (event : Hashed) (seq : ℤ) (prevHash : Text) : Text :=
  hexEncode (digest (canonicalInferenceEventBytes event seq prevHash))

/-! ## Verifying -/

namespace Row

/-- The event as the verifier reads it back. -/
def hashed (row : Row) : Hashed where
  requestId := row.requestId
  apiKeyHash := row.apiKeyHash
  modelId := row.modelId
  tenantId := row.tenantId
  timestamp := formatSeconds (parseTime (some row.timestamp))
  endpoint := row.endpoint
  finishReason := row.finishReason

def seqColumn (row : Row) : Option ℤ := row.seq.map Int64.toInt

def seqValue (row : Row) : ℤ := row.seqColumn.getD 0

def storedPrevHash (row : Row) : Text := row.prevHash.getD []

def storedHash (row : Row) : Text := row.hash.getD []

def message (row : Row) : Bytes :=
  canonicalInferenceEventBytes row.hashed row.seqValue row.storedPrevHash

end Row

/-- The number of rows examined, whether they all fit, and where they do not. -/
structure Verdict where
  length : ℕ
  verified : Bool
  breakSeq : ℤ
deriving DecidableEq

def verifyFrom : ℤ → Text → ℕ → List Row → Verdict
  | _, _, length, [] => ⟨length, true, -1⟩
  | prevSeq, prevHash, length, row :: rows =>
    let seq := row.seqValue
    if 0 ≤ prevSeq ∧ seq ≠ prevSeq + 1 then ⟨length, false, seq⟩
    else if prevSeq < 0 ∧ seq ≠ inferenceFirstSeq then ⟨length, false, seq⟩
    else if row.storedPrevHash ≠ prevHash then ⟨length, false, seq⟩
    else if chainHash row.hashed seq row.storedPrevHash ≠ row.storedHash then
      ⟨length, false, seq⟩
    else verifyFrom seq row.storedHash (length + 1) rows

def chainRows (rows : List Row) : List Row := ascending Row.seqColumn rows

def verifyInferenceChain (rows : List Row) : Verdict :=
  verifyFrom (-1) inferenceGenesisPrevHash 0 (chainRows rows)

/-! ## Recording -/

structure Table where
  rows : List Row
  increasing : rows.Pairwise fun first second => first.id < second.id
  bounded : ∀ row ∈ rows, 1 ≤ row.id ∧ row.id < 2 ^ 63
  storable : ∀ row ∈ rows, row.Storable

def Table.empty : Table := ⟨[], List.Pairwise.nil, by simp, by simp⟩

structure Placed where
  event : InferenceEvent
  seq : Int64
  prevHash : Text
  hash : Text

def Placed.row (placed : Placed) (id : ℕ) : Row where
  id := id
  requestId := placed.event.requestId
  apiKeyHash := placed.event.apiKeyHash
  modelId := placed.event.modelId
  tenantId := placed.event.tenantId
  timestamp := fmtTime placed.event.timestamp
  promptTokens := placed.event.promptTokens
  completionTokens := placed.event.completionTokens
  endpoint := placed.event.endpoint
  clientIpPrefix := placed.event.clientIpPrefix
  latencyMs := placed.event.latencyMs
  finishReason := placed.event.finishReason
  seq := some placed.seq
  prevHash := some placed.prevHash
  hash := some placed.hash
  modelRevision := placed.event.modelRevision
  modelQuantization := placed.event.modelQuantization
  nodeId := placed.event.nodeId
  inferenceEngine := placed.event.inferenceEngine

def InferenceEvent.placed (event : InferenceEvent) (rows : List Row) : Placed :=
  let (seq, prevHash) : Int64 × Text :=
    match latest Row.seqColumn rows with
    | none => (1, inferenceGenesisPrevHash)
    | some last => (last.seq.getD 0 + 1, last.storedHash)
  ⟨event, seq, prevHash, chainHash event.hashed seq.toInt prevHash⟩

structure Call where
  event : InferenceEvent
  now : Time

def Call.stamped (call : Call) : InferenceEvent :=
  if call.event.timestamp.isZero then { call.event with timestamp := call.now.utc }
  else call.event

inductive Stage
  | beginning (event : InferenceEvent)
  | reading (event : InferenceEvent)
  | inserting (placed : Placed)
  | committing (requestId : Text) (row : Option Row)
  /-- The problem that is returned, if there is one. -/
  | returned (problem : Option String)

def failure (requestId : Text) (problem : String) : Stage :=
  .returned (some ("registry: record inference event " ++ RuneReading.quotedBytes requestId ++
    ": " ++ problem))

/-- The steps under the lock. -/
inductive Records : Stage → Table → Stage → Table → Prop
  | beginFails (event : InferenceEvent) (table : Table) (problem : String) :
      Records (.beginning event) table (failure event.requestId ("begin: " ++ problem)) table
  | begins (event : InferenceEvent) (table : Table) :
      Records (.beginning event) table (.reading event) table
  | readFails (event : InferenceEvent) (table : Table) (problem : String) :
      Records (.reading event) table (failure event.requestId ("read tail: " ++ problem)) table
  | reads (event : InferenceEvent) (table : Table) :
      Records (.reading event) table (.inserting (event.placed table.rows)) table
  | insertFails (placed : Placed) (table : Table) (problem : String) :
      Records (.inserting placed) table (failure placed.event.requestId problem) table
  | ignores (placed : Placed) (table : Table)
      (taken : ∃ row ∈ table.rows,
        row.requestId = placed.event.requestId ∨ row.seq = some placed.seq) :
      Records (.inserting placed) table (.committing placed.event.requestId none) table
  | inserts (placed : Placed) (table : Table) (id : ℕ)
      (free : ∀ row ∈ table.rows,
        row.requestId ≠ placed.event.requestId ∧ row.seq ≠ some placed.seq) :
      Records (.inserting placed) table
        (.committing placed.event.requestId (some (placed.row id))) table
  | commitFails (requestId : Text) (row : Option Row) (table : Table) (problem : String) :
      Records (.committing requestId row) table (failure requestId ("commit: " ++ problem)) table
  | commits (requestId : Text) (row : Option Row) (table later : Table)
      (added : later.rows = table.rows ++ row.toList) :
      Records (.committing requestId row) table (.returned none) later

/-- `RecordInferenceEvent`; without an event it returns before the lock. -/
def recordInferenceEvent : Routine (Option Call) Stage Table where
  Arrives _ call brought :=
    match call with
    | some call => brought = .beginning call.stamped
    | none => brought = .returned none
  Works := Records
  Finished stage := ∃ problem, stage = .returned problem
  Drifts := Eq

/-! ## What the verifier accepts -/

structure Fits (index : ℕ) (previous : Text) (row : Row) : Prop where
  seq : row.seqValue = index + 1
  prevHash : row.storedPrevHash = previous
  hash : chainHash row.hashed row.seqValue row.storedPrevHash = row.storedHash

def numberBefore (index : ℕ) : ℤ :=
  if index = 0 then -1 else index

theorem verifyFrom_of_chained :
    ∀ {index length : ℕ} {previous : Text}, Chained Fits Row.storedHash index previous rows →
      verifyFrom (numberBefore index) previous length rows = ⟨length + rows.length, true, -1⟩ := by
  induction rows with
  | nil =>
    intro index length previous chained
    rfl
  | cons row rows induction =>
    intro index length previous chained
    obtain ⟨fits, rest⟩ := chained
    have next : row.seqValue = numberBefore (index + 1) := by
      rw [fits.seq]
      rfl
    have contiguous : ¬ (0 ≤ numberBefore index ∧ row.seqValue ≠ numberBefore index + 1) := by
      rw [fits.seq, numberBefore]
      split <;> omega
    have first : ¬ (numberBefore index < 0 ∧ row.seqValue ≠ inferenceFirstSeq) := by
      rw [fits.seq, numberBefore, inferenceFirstSeq]
      split <;> omega
    simp only [verifyFrom]
    rw [if_neg contiguous, if_neg first, if_neg (not_not.mpr fits.prevHash),
      if_neg (not_not.mpr fits.hash), next, induction rest, length_cons]
    congr 1
    omega

theorem chained_of_verifyFrom : ∀ {index length : ℕ} {previous : Text},
      (verifyFrom (numberBefore index) previous length rows).verified = true →
      Chained Fits Row.storedHash index previous rows := by
  induction rows with
  | nil =>
    intro index length previous verified
    trivial
  | cons row rows induction =>
    intro index length previous verified
    simp only [verifyFrom] at verified
    split at verified
    · cases verified
    next contiguous =>
      split at verified
      · cases verified
      next first =>
        split at verified
        · cases verified
        next linked =>
          split at verified
          · cases verified
          next hashed =>
            have seq : row.seqValue = index + 1 := by
              rw [numberBefore] at contiguous first
              rw [inferenceFirstSeq] at first
              split at contiguous <;> omega
            have next : row.seqValue = numberBefore (index + 1) := by
              rw [seq]
              rfl
            rw [next] at verified
            exact ⟨⟨seq, not_not.mp linked, not_not.mp hashed⟩, induction verified⟩

def Intact (rows : List Row) : Prop :=
  Chained Fits Row.storedHash 0 inferenceGenesisPrevHash (chainRows rows)

theorem Intact.verdict (intact : Intact rows) :
    verifyInferenceChain rows = ⟨(chainRows rows).length, true, -1⟩ := by
  have verdict : verifyInferenceChain rows = ⟨0 + (chainRows rows).length, true, -1⟩ :=
    verifyFrom_of_chained intact
  rwa [Nat.zero_add] at verdict

theorem verified_iff_intact : (verifyInferenceChain rows).verified = true ↔ Intact rows := by
  constructor
  · intro verified
    have counted : (verifyFrom (numberBefore 0) inferenceGenesisPrevHash 0
        (chainRows rows)).verified = true := verified
    exact chained_of_verifyFrom counted
  · intro intact
    rw [intact.verdict]

theorem length_chainRows (rows : List Row) :
    (chainRows rows).length = (rows.filter fun row => row.seq.isSome).length := by
  rw [chainRows, ascending, length_insertionSort]
  simp only [Row.seqColumn, Option.isSome_map]

theorem mem_chainRows {row : Row} : row ∈ chainRows rows ↔ row ∈ rows ∧ row.seq.isSome = true := by
  rw [chainRows, ascending, mem_insertionSort, mem_filter]
  simp only [Row.seqColumn, Option.isSome_map]

theorem Intact.fits (intact : Intact rows) {place : ℕ} {row : Row}
    (found : (chainRows rows)[place]? = some row) :
    Fits place (tip Row.storedHash inferenceGenesisPrevHash ((chainRows rows).take place)) row := by
  have fits := Chained.valid_of_getElem? intact found
  rwa [Nat.zero_add] at fits

/-! ## Adding a row to an intact chain -/

/-- A time that is shown in universal time, in a year of four digits. -/
def Faithful (time : Time) : Prop := time.offset = 0 ∧ time.Readable

theorem parseTime_of_faithful {time : Time} (faithful : Faithful time) :
    parseTime (some (fmtTime time)) = time := by
  rw [parseTime_fmtTime faithful.2, Time.utc, ← faithful.1]

theorem Intact.seqValue_le (intact : Intact rows) :
    ∀ row ∈ rows, row.seq.isSome = true → row.seqValue ≤ (chainRows rows).length := by
  intro row member numbered
  obtain ⟨place, found⟩ := getElem?_of_mem (mem_chainRows.mpr ⟨member, numbered⟩)
  have inside := (List.getElem?_eq_some_iff.mp found).1
  rw [(intact.fits found).seq]
  omega

theorem chainRows_concat {row : Row} (numbered : row.seq.isSome = true)
    (last : ∀ other ∈ rows, other.seq.isSome = true → other.seqValue ≤ row.seqValue) :
    chainRows (rows ++ [row]) = chainRows rows ++ [row] := by
  have filled : row.seqColumn.isSome = true := by rwa [Row.seqColumn, Option.isSome_map]
  have kept : [row].filter (fun row => row.seqColumn.isSome) = [row] := by simp [filled]
  rw [chainRows, ascending, filter_append, kept]
  refine DescendingSorts.insertionSort_append_last fun other member => ?_
  rw [mem_filter, Row.seqColumn, Option.isSome_map] at member
  exact last other member.1 member.2

theorem placed_spec (event : InferenceEvent) (intact : Intact rows)
    (room : ((chainRows rows).length : ℤ) + 1 < 2 ^ 63) :
    (event.placed rows).seq.toInt = (chainRows rows).length + 1 ∧
      (event.placed rows).prevHash =
        tip Row.storedHash inferenceGenesisPrevHash (chainRows rows) := by
  have query : latest Row.seqColumn rows = (chainRows rows).getLast? := rfl
  simp only [InferenceEvent.placed, query]
  cases last : (chainRows rows).getLast? with
  | none =>
    rw [getLast?_eq_none_iff.mp last]
    exact ⟨rfl, rfl⟩
  | some row =>
    obtain ⟨front, split⟩ := getLast?_eq_some_iff.mp last
    have found : (chainRows rows)[front.length]? = some row := by
      rw [split]
      simp
    have seq := (intact.fits found).seq
    have numbered := (mem_chainRows.mp (mem_of_getElem? found)).2
    obtain ⟨value, stored⟩ := Option.isSome_iff_exists.mp numbered
    have whole : value.toInt = front.length + 1 := by
      rwa [Row.seqValue, Row.seqColumn, stored] at seq
    rw [split, length_append, length_singleton] at room
    refine ⟨?_, ?_⟩
    · have next : (value + 1).toInt = (value.toInt + 1).bmod (2 ^ 64) := Int64.toInt_add value 1
      dsimp only
      rw [stored, Option.getD_some, next, whole, Int.bmod_eq_of_le (by omega) (by omega), split,
        length_append]
      rfl
    · rw [split, tip_concat]

theorem Table.length_chainRows_lt {table : Table} {row : Row} (added : table.rows = rows ++ [row]) :
    ((chainRows rows).length : ℤ) + 1 < 2 ^ 63 := by
  have found : table.rows[rows.length]? = some row := by
    rw [added]
    simp
  have below := place_lt_of_increasing table.increasing
    (fun row member => (table.bounded row member).1) found
  have bounded := (table.bounded row (mem_of_getElem? found)).2
  have fewer := length_filter_le (fun row : Row => row.seq.isSome) rows
  rw [length_chainRows]
  omega

theorem Intact.concat {event : InferenceEvent} {table : Table} {id : ℕ}
    (faithful : Faithful event.timestamp) (intact : Intact rows)
    (added : table.rows = rows ++ [(event.placed rows).row id]) : Intact table.rows := by
  obtain ⟨seq, prevHash⟩ := placed_spec event intact (Table.length_chainRows_lt added)
  have hashed : ((event.placed rows).row id).hashed = event.hashed := by
    simp only [Row.hashed, Placed.row, InferenceEvent.placed, InferenceEvent.hashed,
      parseTime_of_faithful faithful]
  have fits : Fits (chainRows rows).length (tip Row.storedHash inferenceGenesisPrevHash
      (chainRows rows)) ((event.placed rows).row id) := by
    refine ⟨seq, prevHash, ?_⟩
    rw [hashed]
    rfl
  have last : ∀ other ∈ rows, other.seq.isSome = true →
      other.seqValue ≤ ((event.placed rows).row id).seqValue := by
    intro other member numbered
    have below := intact.seqValue_le other member numbered
    rw [fits.seq]
    omega
  rw [Intact, added, chainRows_concat rfl last, chained_concat_iff, Nat.zero_add]
  exact ⟨intact, fits⟩

/-! ## Every run keeps the chain verified -/

/-- The time that is hashed for a call is the time that is stored for it. -/
def FaithfulCall : Option Call → Prop
  | none => True
  | some call => Faithful call.stamped.timestamp

def Stage.Knows (rows : List Row) : Stage → Prop
  | .beginning event | .reading event => Faithful event.timestamp
  | .inserting placed => ∃ event : InferenceEvent,
      Faithful event.timestamp ∧ placed = event.placed rows
  | .committing _ row => ∀ added, row = some added →
      ∃ (event : InferenceEvent) (id : ℕ), Faithful event.timestamp ∧
        added = (event.placed rows).row id
  | .returned _ => True

theorem knows_of_records {stage next : Stage} {table later : Table} (intact : Intact table.rows)
    (knows : stage.Knows table.rows) (records : Records stage table next later) :
    Intact later.rows ∧ next.Knows later.rows := by
  cases records with
  | beginFails | readFails | insertFails | commitFails => exact ⟨intact, trivial⟩
  | begins => exact ⟨intact, knows⟩
  | reads event => exact ⟨intact, event, knows, rfl⟩
  | ignores =>
    refine ⟨intact, ?_⟩
    rintro added ⟨⟩
  | inserts _ _ id =>
    obtain ⟨event, faithful, rfl⟩ := knows
    refine ⟨intact, ?_⟩
    rintro added ⟨⟩
    exact ⟨event, id, faithful, rfl⟩
  | commits _ row _ _ added =>
    refine ⟨?_, trivial⟩
    cases row with
    | none =>
      rw [added, Option.toList_none, append_nil]
      exact intact
    | some row =>
      obtain ⟨event, id, faithful, rfl⟩ := knows row rfl
      exact Intact.concat faithful intact added

def recordOutline : Outline recordInferenceEvent FaithfulCall where
  Invariant table := Intact table.rows
  Brought _ stage := ∀ rows, stage.Knows rows
  Inside table stage := stage.Knows table.rows
  brings {_ call _} meets _ arrives := by
    cases call with
    | none =>
      rw [show _ = Stage.returned none from arrives]
      exact fun _ => trivial
    | some call =>
      rw [show _ = Stage.beginning call.stamped from arrives]
      exact fun _ => meets
  enters _ brought := brought _
  works intact knows records := knows_of_records intact knows records
  keeps _ _ _ brought := brought
  drifts intact drifts := drifts ▸ intact
  drifts_brought _ _ brought := brought
  drifts_inside _ drifts knows := drifts ▸ knows

/-- From a log that verifies, recording events whose times are shown in universal
time leads only to logs that verify. -/
theorem recording_verifies {start : Table} {calls : List (Option Call)} {state : State Stage Table}
    (starts : (verifyInferenceChain start.rows).verified = true)
    (runs : Runs recordInferenceEvent start calls state)
    (faithful : ∀ call ∈ calls, FaithfulCall call) :
    verifyInferenceChain state.shared.rows =
      ⟨(state.shared.rows.filter fun row => row.seq.isSome).length, true, -1⟩ := by
  have intactStart : recordOutline.Invariant start := verified_iff_intact.mp starts
  have intact : Intact state.shared.rows :=
    (recordOutline.holds_of_runs intactStart runs faithful).shared
  rw [intact.verdict, length_chainRows]

/-! ## Runs of one call -/

def Table.single (row : Row) (first : row.id = 1) (storable : row.Storable) : Table where
  rows := [row]
  increasing := pairwise_singleton _ _
  bounded := by simp [first]
  storable := by simpa using storable

def Call.first (call : Call) : Row := (call.stamped.placed []).row 1

theorem storable_first (call : Call)
    (short : ∀ column ∈ call.first.texts.take 12, column.length < 2 ^ 31) :
    call.first.Storable := by
  have hashes : ∀ column ∈ call.first.texts.drop 12, column.length = 64 := by
    have prevHash : (call.first.prevHash.getD []).length = 64 := rfl
    have hash : (call.first.hash.getD []).length = 64 := by
      simp only [Call.first, Placed.row, InferenceEvent.placed, chainHash, Option.getD_some,
        length_hexEncode, length_digest]
    simpa [Row.texts] using ⟨prevHash, hash⟩
  intro column member
  rw [← take_append_drop 12 call.first.texts, mem_append] at member
  rcases member with front | back
  · exact short column front
  · rw [hashes column back]
    decide

def Call.stored (call : Call) (storable : call.first.Storable) : State Stage Table :=
  ⟨[], some (.returned none), Table.single call.first rfl storable⟩

theorem runs_stored (call : Call) (storable : call.first.Storable) :
    Runs recordInferenceEvent Table.empty [some call] (call.stored storable) := by
  have arrived : Runs recordInferenceEvent Table.empty [some call]
      ⟨[.beginning call.stamped], none, Table.empty⟩ := Runs.start.arrive rfl
  have acquired := arrived.step (@Step.acquire _ _ _ recordInferenceEvent [] [] _ _)
  have begun := acquired.step (.work (.begins _ _))
  have read := begun.step (.work (.reads _ _))
  have inserted := read.step (.work (.inserts _ _ 1 (by rintro row ⟨⟩)))
  exact inserted.step (.work (.commits _ _ _ _ rfl))

/-- A completion on 16 November 2024 at noon, universal time, as a clock with
some offset shows it. -/
def completionCall (offset : ℤ) : Call :=
  ⟨⟨text "req-1", text "k1", text "m1", text "t1", ⟨1731758400, 0, Time.zero.subsecond, offset⟩, 5, 7,
    text "openai", text "10.0.0.0/24", 0, text "stop", [], [], [], []⟩, Time.zero⟩

theorem storable_completionCall :
    (completionCall 0).first.Storable ∧ (completionCall 7200).first.Storable :=
  ⟨storable_first _ (by decide +kernel), storable_first _ (by decide +kernel)⟩

theorem faithful_completionCall : ∀ call ∈ [some (completionCall 0)], FaithfulCall call := by
  intro call member
  rw [mem_singleton.mp member]
  exact ⟨rfl, by decide +kernel⟩

theorem recording_verifies_completion :
    Runs recordInferenceEvent Table.empty [some (completionCall 0)]
        ((completionCall 0).stored storable_completionCall.1) ∧
      verifyInferenceChain
          ((completionCall 0).stored storable_completionCall.1).shared.rows = ⟨1, true, -1⟩ := by
  have runs := runs_stored (completionCall 0) storable_completionCall.1
  exact ⟨runs, recording_verifies rfl runs faithful_completionCall⟩

/-- The hash is over two o'clock, two hours to the east, and the verifier reads noon. -/
theorem zoned_completion_breaks : Runs recordInferenceEvent Table.empty [some (completionCall 7200)]
        ((completionCall 7200).stored storable_completionCall.2) ∧
      verifyInferenceChain
          ((completionCall 7200).stored storable_completionCall.2).shared.rows = ⟨0, false, 1⟩ :=
  ⟨runs_stored (completionCall 7200) storable_completionCall.2, by decide +kernel⟩

end Purser.InferenceLog
