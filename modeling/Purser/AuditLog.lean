import Purser.AuditChain
import Purser.CalendarTexts
import Purser.JsonScanning
import Purser.LockedSections
import Purser.RowQueries

/-!
# The stored audit log

An entry is appended under a lock, in one transaction that any step may
fail.  Rows are read back newest first, and each is turned into the entry that
was hashed for it.
-/

namespace Purser.AuditLog

open Audit ByteEncodings CalendarTexts HashChains KeyedStores LockedSections RowQueries List

def fmtTime (time : Time) : Text := formatNano time.utc

/-- A column that is missing, empty or no time reads as the zero time. -/
def parseTime : Option Text → Time
  | none => Time.zero
  | some column => if column = [] then Time.zero else (parse column).getD Time.zero

def jsonOrEmpty (raw : Bytes) : Text :=
  if raw = [] then text "\x7b\x7d" else raw

/-- A string stands for its text; nothing reads as the empty string; any other
value stands for itself without blanks. -/
def fieldText : JsonScanning.Value → Text
  | .string raw => JsonScanning.unquote raw
  | value => if value.compact = text "null" then [] else value.compact

def detailsToMap (raw : Bytes) : Option StringMap :=
  if raw = [] then none
  else
    match JsonScanning.scan raw with
    | some (.object fields) =>
      if fields = [] then none
      else
        some (fields.foldl
          (fun built field => built.put (JsonScanning.unquote field.1, fieldText field.2))
          Store.empty)
    | _ => none

structure AuditEntry where
  id : ℕ
  actor : Text
  action : Text
  target : Text
  details : Bytes
  createdAt : Time
  seq : ℕ
  prevHash : Text
  hash : Text

def AuditEntry.chainEntry (entry : AuditEntry) : Entry :=
  ⟨entry.seq, entry.createdAt.unixNano, entry.actor, entry.action, entry.target,
    detailsToMap entry.details, entry.prevHash, entry.hash⟩

/-- A row of the table; the columns of the chain may be empty. -/
structure Row where
  id : ℕ
  actor : Text
  action : Text
  target : Text
  details : Text
  createdAt : Text
  seq : Option Int64
  prevHash : Option Text
  hash : Option Text

namespace Row

def scan (row : Row) : AuditEntry where
  id := row.id
  actor := row.actor
  action := row.action
  target := row.target
  details := row.details
  createdAt := parseTime (some row.createdAt)
  seq := (row.seq.map fun value => value.toUInt64.toNat).getD 0
  prevHash := row.prevHash.getD []
  hash := row.hash.getD []

def chainEntry (row : Row) : Entry := row.scan.chainEntry

def seqColumn (row : Row) : Option ℤ := row.seq.map Int64.toInt

end Row

structure Table where
  rows : List Row
  increasing : rows.Pairwise fun first second => first.id < second.id
  bounded : ∀ row ∈ rows, 1 ≤ row.id ∧ row.id < 2 ^ 63

def Table.empty : Table := ⟨[], List.Pairwise.nil, by simp⟩

variable (entry : AuditEntry) (rows : List Row)

def listAudit (limit : ℤ) : List AuditEntry :=
  let limit := if limit ≤ 0 then 100 else limit
  ((newestFirst Row.id rows).take limit.toNat).map Row.scan

def AuditEntry.row (id : ℕ) : Row where
  id := id
  actor := entry.actor
  action := entry.action
  target := entry.target
  details := jsonOrEmpty entry.details
  createdAt := fmtTime entry.createdAt
  seq := some (Int64.ofNat entry.seq)
  prevHash := some entry.prevHash
  hash := some entry.hash

def AuditEntry.placed : AuditEntry :=
  match latest Row.seqColumn rows with
  | none => { entry with seq := firstSeq, prevHash := genesisPrevHash }
  | some last =>
    { entry with
      seq := (last.scan.seq + 1) % 2 ^ 64
      prevHash := last.scan.hash }

structure Call where
  entry : AuditEntry
  now : Time

def Call.stamped (call : Call) : AuditEntry :=
  if call.entry.createdAt.isZero then { call.entry with createdAt := call.now.utc }
  else call.entry

inductive Stage
  | beginning
  | reading
  | inserting
  | committing
  | returned (result : Except String AuditEntry)

structure Section where
  entry : AuditEntry
  stage : Stage

def failure (problem : String) : Stage := .returned (.error ("registry: append audit: " ++ problem))

/-- The steps under the lock. -/
inductive Appends : Section → Table → Section → Table → Prop
  | beginFails (entry : AuditEntry) (table : Table) (problem : String) :
      Appends ⟨entry, .beginning⟩ table ⟨entry, failure ("begin: " ++ problem)⟩ table
  | begins (entry : AuditEntry) (table : Table) :
      Appends ⟨entry, .beginning⟩ table ⟨entry, .reading⟩ table
  | readFails (entry : AuditEntry) (table : Table) (problem : String) :
      Appends ⟨entry, .reading⟩ table ⟨entry, failure ("read tail: " ++ problem)⟩ table
  | hashFails (entry : AuditEntry) (table : Table) (problem : String)
      (computed : (entry.placed table.rows).chainEntry.computeHash = .error problem) :
      Appends ⟨entry, .reading⟩ table ⟨entry.placed table.rows, failure ("hash: " ++ problem)⟩ table
  | hashes (entry : AuditEntry) (table : Table) (hash : Text)
      (computed : (entry.placed table.rows).chainEntry.computeHash = .ok hash) :
      Appends ⟨entry, .reading⟩ table
        ⟨{ entry.placed table.rows with hash := hash }, .inserting⟩ table
  | insertFails (entry : AuditEntry) (table : Table) (problem : String) :
      Appends ⟨entry, .inserting⟩ table ⟨entry, failure problem⟩ table
  | inserts (entry : AuditEntry) (table : Table) (id : ℕ)
      (unique : ∀ row ∈ table.rows, row.seq ≠ some (Int64.ofNat entry.seq)) :
      Appends ⟨entry, .inserting⟩ table ⟨{ entry with id := id }, .committing⟩ table
  | commitFails (entry : AuditEntry) (table : Table) (problem : String) :
      Appends ⟨entry, .committing⟩ table ⟨entry, failure ("commit: " ++ problem)⟩ table
  | commits (entry : AuditEntry) (table later : Table)
      (added : later.rows = table.rows ++ [entry.row entry.id]) :
      Appends ⟨entry, .committing⟩ table ⟨entry, .returned (.ok entry)⟩ later

def Section.Returned (call : Section) : Prop := ∃ result, call.stage = .returned result

def appendAudit : Routine Call Section Table where
  Arrives _ call brought := brought = ⟨call.stamped, .beginning⟩
  Works := Appends
  Finished := Section.Returned
  Drifts := Eq

theorem detailsToMap_jsonOrEmpty (raw : Bytes) :
    detailsToMap (jsonOrEmpty raw) = detailsToMap raw := by
  unfold jsonOrEmpty
  split
  next empty =>
    have braces : JsonScanning.scan (text "\x7b\x7d") = some (.object []) := rfl
    have written : text "\x7b\x7d" ≠ [] := by decide
    simp [detailsToMap, empty, braces, written]
  next => rfl

theorem parseTime_fmtTime {time : Time} (readable : time.Readable) :
    parseTime (some (fmtTime time)) = time.utc := by
  have read := parse_formatNano readable
  have written : fmtTime time ≠ [] := by
    intro empty
    rw [fmtTime] at empty
    rw [empty] at read
    cases read
  rw [parseTime, if_neg written, fmtTime, read, Option.getD_some]

@[simp]
theorem unixNano_utc (time : Time) : time.utc.unixNano = time.unixNano := rfl

theorem toInt_of_toNat {value : Int64} {seq : ℕ} (small : seq < 2 ^ 63)
    (same : value.toUInt64.toNat = seq) : value.toInt = seq := by
  rw [← Int64.toInt_toBitVec, BitVec.toInt_eq_toNat_of_lt]
  · rw [Int64.toNat_toBitVec, same]
  · rw [Int64.toNat_toBitVec]
    omega

/-- The chain sees the row as it saw the entry. -/
theorem AuditEntry.chainEntry_row {entry : AuditEntry} {id : ℕ}
    (readable : entry.createdAt.Readable) (small : entry.seq < 2 ^ 63) :
    (entry.row id).chainEntry = entry.chainEntry := by
  have seq : (Int64.ofNat entry.seq).toUInt64.toNat = entry.seq := by
    simp only [Int64.toUInt64_ofNat', UInt64.toNat_ofNat']
    omega
  simp only [Row.chainEntry, Row.scan, AuditEntry.row, AuditEntry.chainEntry,
    detailsToMap_jsonOrEmpty, parseTime_fmtTime readable, seq, unixNano_utc, Option.map_some,
    Option.getD_some]

def Intact : Prop :=
  Chained Follows Entry.hash 0 genesisPrevHash (rows.map Row.chainEntry)

variable {place : ℕ} {row : Row} {table : Table}

theorem Table.lt_of_getElem? (table : Table) (found : table.rows[place]? = some row) :
    place + 1 < 2 ^ 63 := by
  have below := place_lt_of_increasing table.increasing
    (fun row member => (table.bounded row member).1) found
  have bounded := (table.bounded row (mem_of_getElem? found)).2
  omega

theorem Intact.follows {rows : List Row} (intact : Intact rows) (found : rows[place]? = some row) :
    Follows place (tip Entry.hash genesisPrevHash ((rows.take place).map Row.chainEntry))
      row.chainEntry := by
  have foundEntry : (rows.map Row.chainEntry)[place]? = some row.chainEntry := by
    rw [getElem?_map, found, Option.map_some]
  have follows := Chained.valid_of_getElem? intact foundEntry
  rwa [Nat.zero_add, ← map_take] at follows

theorem Intact.seqColumn (intact : Intact table.rows) (found : table.rows[place]? = some row) :
    row.seqColumn = some ((place : ℤ) + 1) := by
  have seq := (intact.follows found).seq
  have small := table.lt_of_getElem? found
  change (row.seq.map fun value => value.toUInt64.toNat).getD 0 = 1 + place at seq
  cases stored : row.seq with
  | none =>
    rw [stored, Option.map_none, Option.getD_none] at seq
    omega
  | some =>
    rw [stored] at seq
    have whole := toInt_of_toNat (by omega) seq
    rw [Row.seqColumn, stored, Option.map_some, whole]
    push_cast
    rw [add_comm]

theorem Intact.latest (intact : Intact table.rows) :
    latest Row.seqColumn table.rows = table.rows.getLast? := by
  refine latest_of_increasing ?_ ?_
  · intro row member
    obtain ⟨place, found⟩ := getElem?_of_mem member
    rw [intact.seqColumn found]
    rfl
  · rw [pairwise_iff_getElem]
    intro first second firstInside secondInside before
    rw [intact.seqColumn (getElem?_eq_getElem firstInside),
      intact.seqColumn (getElem?_eq_getElem secondInside)]
    simpa using before

theorem AuditEntry.placed_spec (intact : Intact table.rows) :
    (entry.placed table.rows).seq = firstSeq + table.rows.length ∧
      (entry.placed table.rows).prevHash =
        tip Entry.hash genesisPrevHash (table.rows.map Row.chainEntry) ∧
      (entry.placed table.rows).createdAt = entry.createdAt := by
  rw [AuditEntry.placed, intact.latest]
  cases last : table.rows.getLast? with
  | none =>
    rw [getLast?_eq_none_iff.mp last]
    exact ⟨rfl, rfl, rfl⟩
  | some row =>
    obtain ⟨front, rows⟩ := getLast?_eq_some_iff.mp last
    have found : table.rows[front.length]? = some row := by
      rw [rows]
      simp
    have small := table.lt_of_getElem? found
    have seq : row.scan.seq = firstSeq + front.length := (intact.follows found).seq
    refine ⟨?_, ?_, rfl⟩
    · simp only [seq, rows, length_append, length_singleton, firstSeq]
      omega
    · rw [rows, map_append, map_singleton, tip_concat]
      rfl

structure Ready : Prop where
  readable : entry.createdAt.Readable
  follows : Follows rows.length (tip Entry.hash genesisPrevHash (rows.map Row.chainEntry))
    entry.chainEntry

theorem Ready.intact {entry : AuditEntry} {later : Table} {id : ℕ} (ready : Ready entry table.rows)
    (intact : Intact table.rows) (added : later.rows = table.rows ++ [entry.row id]) :
    Intact later.rows := by
  have place : later.rows[table.rows.length]? = some (entry.row id) := by
    rw [added]
    simp
  have seq : entry.seq = firstSeq + table.rows.length := ready.follows.seq
  have small := later.lt_of_getElem? place
  have same : (entry.row id).chainEntry = entry.chainEntry :=
    AuditEntry.chainEntry_row ready.readable (by rw [seq, firstSeq]; omega)
  rw [Intact, added, map_append, map_singleton, chained_concat_iff, same, length_map, Nat.zero_add]
  exact ⟨intact, ready.follows⟩

def Section.Knows (call : Section) : Prop :=
  match call.stage with
  | .beginning | .reading => call.entry.createdAt.Readable
  | .inserting | .committing => Ready call.entry rows
  | .returned _ => True

/-- A call whose time can be read back. -/
def Call.Readable (call : Call) : Prop := call.stamped.createdAt.Readable

theorem knows_of_appends {call next : Section} {later : Table} (intact : Intact table.rows)
    (knows : call.Knows table.rows) (appends : Appends call table next later) :
    Intact later.rows ∧ next.Knows later.rows := by
  cases appends with
  | beginFails | readFails | hashFails | insertFails | commitFails => exact ⟨intact, trivial⟩
  | begins => exact ⟨intact, knows⟩
  | hashes entry _ hash computed =>
    obtain ⟨seq, prevHash, createdAt⟩ := entry.placed_spec intact
    refine ⟨intact, ?_, ⟨seq, prevHash, computed⟩⟩
    rw [createdAt]
    exact knows
  | inserts => exact ⟨intact, knows.readable, knows.follows⟩
  | commits _ _ _ added => exact ⟨Ready.intact knows intact added, trivial⟩

def appendOutline : Outline appendAudit Call.Readable where
  Invariant table := Intact table.rows
  Brought _ call := call.stage = .beginning ∧ call.entry.createdAt.Readable
  Inside table call := call.Knows table.rows
  brings meets _ arrives := by
    rw [arrives]
    exact ⟨rfl, meets⟩
  enters _ brought := by
    rw [Section.Knows, brought.1]
    exact brought.2
  works intact knows appends := knows_of_appends intact knows appends
  keeps _ _ _ brought := brought
  drifts intact drifts := drifts ▸ intact
  drifts_brought _ _ brought := brought
  drifts_inside _ drifts knows := drifts ▸ knows

theorem intact_of_runs {calls : List Call} {state : State Section Table}
    (runs : Runs appendAudit Table.empty calls state) (readable : ∀ call ∈ calls, call.Readable) :
    Intact state.shared.rows := by
  have starts : appendOutline.Invariant Table.empty := trivial
  exact (appendOutline.holds_of_runs starts runs readable).shared

end Purser.AuditLog
