import Purser.AuditLog

/-!
# Changed rows of the audit log

A change of one stored column is noticed exactly when the chain sees it: details
are hashed as the map they are read as, and times as their nanoseconds.
-/

namespace Purser.AuditLog

open Audit ByteEncodings CalendarTexts HashChains KeyedStores LockedSections RowQueries List
open Sha256Digests

/-- The entries of the chain, oldest first, as they are read back. -/
def storedChain (rows : List Row) (limit : ℤ) : List Entry :=
  (listAudit rows limit).reverse.map AuditEntry.chainEntry

inductive Change
  | actor (value : Text)
  | action (value : Text)
  | target (value : Text)
  | details (value : Text)
  | createdAt (value : Text)
  | seq (value : Option Int64)
  | prevHash (value : Option Text)
  | hash (value : Option Text)

namespace Change

def apply (row : Row) : Change → Row
  | .actor value => { row with actor := value }
  | .action value => { row with action := value }
  | .target value => { row with target := value }
  | .details value => { row with details := value }
  | .createdAt value => { row with createdAt := value }
  | .seq value => { row with seq := value }
  | .prevHash value => { row with prevHash := value }
  | .hash value => { row with hash := value }

def Visible (row : Row) : Change → Prop
  | .details value => ∃ key, ((Change.details value).apply row).chainEntry.detail key ≠
      row.chainEntry.detail key
  | .createdAt value => (parseTime (some value)).unixNano ≠
      (parseTime (some row.createdAt)).unixNano
  | change => change.apply row ≠ row

@[simp]
theorem id_apply (change : Change) (row : Row) : (change.apply row).id = row.id := by
  cases change <;> rfl

end Change

variable {rows : List Row} {place : ℕ} {row : Row}

theorem storedChain_of_increasing
    (increasing : rows.Pairwise fun first second => first.id < second.id) {limit : ℤ}
    (positive : 0 < limit) (whole : (rows.length : ℤ) ≤ limit) :
    storedChain rows limit = rows.map Row.chainEntry := by
  have count : rows.reverse.length ≤ limit.toNat := by
    rw [length_reverse]
    omega
  simp only [storedChain, listAudit, if_neg (not_le.mpr positive),
    newestFirst_of_increasing increasing, take_of_length_le count, map_reverse,
    reverse_reverse, map_map]
  rfl

theorem seq_map_of_intact (intact : Intact rows) :
    (rows.map Row.chainEntry).map Entry.seq = List.range' firstSeq rows.length := by
  apply ext_getElem?
  intro place
  rw [getElem?_map, getElem?_map]
  cases found : rows[place]? with
  | none =>
    have outside : rows.length ≤ place := List.getElem?_eq_none_iff.mp found
    simp [outside]
  | some =>
    have inside : place < rows.length := (List.getElem?_eq_some_iff.mp found).1
    rw [Option.map_some, Option.map_some, (intact.follows found).seq,
      getElem?_range' inside, Nat.one_mul]

/-- Only the changed row is checked anew, after the same rows. -/
theorem Intact.set_iff (intact : Intact rows) {changed : Row} (found : rows[place]? = some row)
    (sameHash : changed.chainEntry.hash = row.chainEntry.hash) :
    Intact (rows.set place changed) ↔
      Follows place (tip Entry.hash genesisPrevHash ((rows.take place).map Row.chainEntry))
        changed.chainEntry := by
  have foundEntry : (rows.map Row.chainEntry)[place]? = some row.chainEntry := by
    rw [getElem?_map, found, Option.map_some]
  rw [Intact, map_set, Chained.set_iff intact foundEntry sameHash, Nat.zero_add, map_take]

theorem isDigest_tip (intact : Intact rows) (place : ℕ) :
    IsDigest (tip Entry.hash genesisPrevHash ((rows.take place).map Row.chainEntry)) := by
  have front : Intact (rows.take place) := by
    rw [Intact, ← take_append_drop place rows, map_append, chained_append_iff] at intact
    exact intact.1
  cases last : (rows.take place).getLast? with
  | none =>
    rw [getLast?_eq_none_iff.mp last]
    exact isDigest_genesis
  | some =>
    obtain ⟨before, split⟩ := getLast?_eq_some_iff.mp last
    rw [split, map_append, map_singleton, tip_concat]
    rw [Intact, split, map_append, map_singleton, chained_concat_iff] at front
    exact (isDigest_of_computeHash front.2.hash).1

theorem same_of_follows {previous : Text} {first second : Entry} (digest : IsDigest previous)
    (free : CollisionFree [first.message, second.message])
    (firstFollows : Follows place previous first) (secondFollows : Follows place previous second)
    (sameHash : first.hash = second.hash) : first.Same second := by
  have firstHash := (isDigest_of_computeHash firstFollows.hash).2
  have secondHash := (isDigest_of_computeHash secondFollows.hash).2
  have sameMessage : first.message = second.message := by
    refine free _ (by simp) _ (by simp) (hexEncode_injective ?_)
    rw [← firstHash, ← secondHash, sameHash]
  refine Entry.same_of_message ?_ ?_ sameHash sameMessage
  · rwa [firstFollows.prevHash]
  · rwa [secondFollows.prevHash]

theorem ne_nil_of_isDigest {hash : Text} (digest : IsDigest hash) : hash ≠ [] := by
  obtain ⟨bytes, length, rfl⟩ := digest
  intro empty
  have counted := congrArg List.length empty
  rw [length_hexEncode, length] at counted
  simp at counted

theorem eq_of_seq_eq {value other : Option Int64}
    (filled : (other.map fun stored => stored.toUInt64.toNat).getD 0 ≠ 0)
    (same : (value.map fun stored => stored.toUInt64.toNat).getD 0 =
      (other.map fun stored => stored.toUInt64.toNat).getD 0) : value = other := by
  cases other with
  | none => simp at filled
  | some stored =>
    cases value with
    | none => exact absurd same.symm filled
    | some changed =>
      have bits : changed.toUInt64 = stored.toUInt64 := UInt64.toNat_inj.mp same
      have equal := congrArg UInt64.toInt64 bits
      rw [Int64.toInt64_toUInt64, Int64.toInt64_toUInt64] at equal
      rw [equal]

theorem Intact.not_intact_set (intact : Intact rows) (found : rows[place]? = some row)
    {change : Change} (visible : change.Visible row)
    (free : CollisionFree [(change.apply row).chainEntry.message, row.chainEntry.message]) :
    ¬ Intact (rows.set place (change.apply row)) := by
  intro changed
  have inside : place < rows.length := (List.getElem?_eq_some_iff.mp found).1
  have follows := intact.follows found
  have changedFollows := changed.follows (getElem?_set_self inside)
  rw [take_set_of_le (le_refl place)] at changedFollows
  have digest := isDigest_tip intact place
  have same (sameHash : (change.apply row).chainEntry.hash = row.chainEntry.hash) :
      (change.apply row).chainEntry.Same row.chainEntry :=
    same_of_follows digest free changedFollows follows sameHash
  cases change with
  | actor value =>
    have equal : value = row.actor := (same rfl).actor
    exact visible (by rw [Change.apply, equal])
  | action value =>
    have equal : value = row.action := (same rfl).action
    exact visible (by rw [Change.apply, equal])
  | target value =>
    have equal : value = row.target := (same rfl).target
    exact visible (by rw [Change.apply, equal])
  | details =>
    obtain ⟨key, differs⟩ := visible
    exact differs ((same rfl).detail key)
  | createdAt => exact visible (same rfl).timeUnixNano
  | seq value =>
    have filled : row.chainEntry.seq ≠ 0 := by
      rw [follows.seq, firstSeq]
      omega
    have equal : value = row.seq := eq_of_seq_eq filled (same rfl).seq
    exact visible (by rw [Change.apply, equal])
  | prevHash value =>
    have filled : row.chainEntry.prevHash ≠ [] := by
      rw [follows.prevHash]
      exact ne_nil_of_isDigest digest
    have equal : value = row.prevHash := eq_of_getD_eq filled (same rfl).prevHash
    exact visible (by rw [Change.apply, equal])
  | hash value =>
    -- The hash itself is not hashed, so the computed one stays.
    have computed : (((Change.hash value).apply row).chainEntry).computeHash =
        row.chainEntry.computeHash := rfl
    rw [changedFollows.hash, follows.hash] at computed
    have equal : value = row.hash :=
      eq_of_getD_eq (ne_nil_of_isDigest (isDigest_of_computeHash follows.hash).1)
        (Except.ok.inj computed)
    exact visible (by rw [Change.apply, equal])

theorem Entry.follows_of_content {previous : Text} {first : Entry}
    (follows : Follows place previous first) (second : Entry) (seq : second.seq = first.seq)
    (time : second.timeUnixNano = first.timeUnixNano) (actor : second.actor = first.actor)
    (action : second.action = first.action) (target : second.target = first.target)
    (detail : ∀ key, second.detail key = first.detail key)
    (prevHash : second.prevHash = first.prevHash) (hash : second.hash = first.hash) :
    Follows place previous second := by
  -- the order of the details does not show in the encoding
  have message : second.message = first.message := by
    have keys := Entry.sortedKeys_eq_of_detail detail
    have value (entry : Entry) (key : Text) :
        entry.fields.value key = (entry.detail key).getD [] := rfl
    simp only [Entry.message, Entry.canonicalBytes, seq, time, actor, action, target, keys,
      prevHash, value, detail]
  refine ⟨seq.trans follows.seq, prevHash.trans follows.prevHash, ?_⟩
  have computed := follows.hash
  rw [Entry.computeHash] at computed ⊢
  rw [prevHash, message, hash]
  exact computed

theorem Intact.intact_set (intact : Intact rows) (found : rows[place]? = some row) {change : Change}
    (hidden : ¬ change.Visible row) : Intact (rows.set place (change.apply row)) := by
  have follows := intact.follows found
  have unchanged (same : change.apply row = row) : Intact (rows.set place (change.apply row)) := by
    obtain ⟨inside, rfl⟩ := List.getElem?_eq_some_iff.mp found
    rwa [same, set_getElem_self]
  cases change with
  | details value =>
    have detail (key : Text) : ((Change.details value).apply row).chainEntry.detail key =
        row.chainEntry.detail key := by
      by_contra differs
      exact hidden ⟨key, differs⟩
    rw [intact.set_iff found (show ((Change.details value).apply row).chainEntry.hash = _ from rfl)]
    exact Entry.follows_of_content follows _ rfl rfl rfl rfl rfl detail rfl rfl
  | createdAt value =>
    have time : (parseTime (some value)).unixNano =
        (parseTime (some row.createdAt)).unixNano := not_not.mp hidden
    rw [intact.set_iff found (show ((Change.createdAt value).apply row).chainEntry.hash = _ from rfl)]
    exact Entry.follows_of_content follows _ rfl time rfl rfl rfl (fun _ => rfl) rfl rfl
  | actor | action | target | seq | prevHash | hash => exact unchanged (not_not.mp hidden)

/-- In every run of calls whose times can be read back, the log that is read back is
accepted and numbered from one, and of the changes of a stored value exactly those
are noticed that the chain sees. -/
theorem stored_log_verifies {calls : List Call} {state : State Section Table}
    (runs : Runs appendAudit Table.empty calls state)
    (readable : ∀ call ∈ calls, call.Readable) {limit : ℤ} (positive : 0 < limit)
    (whole : (state.shared.rows.length : ℤ) ≤ limit) :
    verify (storedChain state.shared.rows limit) = none ∧
      (storedChain state.shared.rows limit).map Entry.seq =
        List.range' firstSeq state.shared.rows.length ∧
      ∀ (place : ℕ) (row : Row) (change : Change), state.shared.rows[place]? = some row →
        CollisionFree [(change.apply row).chainEntry.message, row.chainEntry.message] →
        (verify (storedChain (state.shared.rows.set place (change.apply row)) limit) ≠ none ↔
          change.Visible row) := by
  have intact := intact_of_runs runs readable
  have increasing := state.shared.increasing
  refine ⟨?_, ?_, ?_⟩
  · rw [storedChain_of_increasing increasing positive whole, verify_eq_none_iff]
    exact intact
  · rw [storedChain_of_increasing increasing positive whole]
    exact seq_map_of_intact intact
  · intro place row change found free
    have changedIncreasing := increasing_set increasing found (change.id_apply row)
    have changedWhole : ((state.shared.rows.set place (change.apply row)).length : ℤ) ≤ limit := by
      rwa [length_set]
    rw [storedChain_of_increasing changedIncreasing positive changedWhole, ne_eq,
      verify_eq_none_iff]
    constructor
    · intro broken
      by_contra hidden
      exact broken (intact.intact_set found hidden)
    · intro visible
      exact intact.not_intact_set found visible free

def Call.first (call : Call) : AuditEntry :=
  { call.stamped.placed [] with
    id := 1
    hash := hexEncode (digest (call.stamped.placed []).chainEntry.message) }

def Table.single (row : Row) (first : row.id = 1) : Table where
  rows := [row]
  increasing := pairwise_singleton _ _
  bounded := by simp [first]

def Call.stored (call : Call) : State Section Table :=
  ⟨[], some ⟨call.first, .returned (.ok call.first)⟩, Table.single (call.first.row 1) rfl⟩

theorem runs_stored (call : Call) : Runs appendAudit Table.empty [call] call.stored := by
  have arrived : Runs appendAudit Table.empty [call]
      ⟨[⟨call.stamped, .beginning⟩], none, Table.empty⟩ := Runs.start.arrive rfl
  have acquired := arrived.step (@Step.acquire _ _ _ appendAudit [] [] _ _)
  have begun := acquired.step (.work (.begins _ _))
  have computed : (call.stamped.placed []).chainEntry.computeHash =
      .ok (hexEncode (digest (call.stamped.placed []).chainEntry.message)) :=
    Entry.computeHash_of_isDigest isDigest_genesis
  have hashed := begun.step (.work (.hashes _ _ _ computed))
  have inserted := hashed.step (.work (.inserts _ _ 1 (by rintro row ⟨⟩)))
  exact inserted.step (.work (.commits _ _ _ rfl))

def renewalCall : Call :=
  ⟨⟨0, text "fleet", text "fleet.cert.renewed", text "node-1", text "\x7b\"attempts\":3\x7d",
    ⟨1731758645, 0, Time.zero.subsecond, 0⟩, 0, [], []⟩, Time.zero⟩

theorem readable_renewalCall : renewalCall.Readable := by
  change (renewalCall.stamped.createdAt).Readable
  decide +kernel

theorem stored_log_verifies_renewal :
    Runs appendAudit Table.empty [renewalCall] renewalCall.stored ∧
      verify (storedChain renewalCall.stored.shared.rows 100) = none ∧
      (storedChain renewalCall.stored.shared.rows 100).map Entry.seq = [1] := by
  have verified := stored_log_verifies (runs_stored renewalCall)
    (fun call member => by
      rw [mem_singleton.mp member]
      exact readable_renewalCall) (show (0 : ℤ) < 100 by decide) (by decide)
  exact ⟨runs_stored renewalCall, verified.1, verified.2.1⟩

/-- The number three becomes the string of that digit. -/
def retyped : Change := .details (text "\x7b\"attempts\":\"3\"\x7d")

theorem retyped_detail_unnoticed : Runs appendAudit Table.empty [renewalCall] renewalCall.stored ∧
      renewalCall.stored.shared.rows[0]? = some (renewalCall.first.row 1) ∧
      retyped.apply (renewalCall.first.row 1) ≠ renewalCall.first.row 1 ∧
      verify (storedChain (renewalCall.stored.shared.rows.set 0
        (retyped.apply (renewalCall.first.row 1))) 100) = none := by
  have runs := runs_stored renewalCall
  have intact : Intact renewalCall.stored.shared.rows := intact_of_runs runs fun call member => by
    rw [mem_singleton.mp member]
    exact readable_renewalCall
  have found : renewalCall.stored.shared.rows[0]? = some (renewalCall.first.row 1) := rfl
  have sameMap : detailsToMap (text "\x7b\"attempts\":\"3\"\x7d") =
      detailsToMap (text "\x7b\"attempts\":3\x7d") := rfl
  have hidden : ¬ retyped.Visible (renewalCall.first.row 1) := by
    rintro ⟨key, differs⟩
    exact differs (congrArg
      (fun details => ((details.getD Store.empty).find key).map Prod.snd) sameMap)
  refine ⟨runs, found, ?_, ?_⟩
  · intro same
    have details := congrArg Row.details same
    exact absurd details (by decide)
  · have kept := intact.intact_set found hidden
    rw [verify_eq_none_iff]
    exact kept

end Purser.AuditLog
