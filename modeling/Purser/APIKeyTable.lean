import Mathlib.Data.List.Sort
import Purser.ManagementRegistry

/-!
# The table of API keys

The statements of the registry that read and write keys.  A new key is refused if
its identifier or its digest is taken; a rotation adds the successor and disables
the old key in one transaction.
-/

namespace Purser.Management

open KeyedStores List

variable (id : String) (change : APIKey → APIKey) (key : APIKey)

def amendRow : APIKey :=
  if key.id = id then { change key with id := key.id, keyHash := key.keyHash } else key

@[simp] theorem amendRow_id : (amendRow id change key).id = key.id := by
  rw [amendRow]
  split <;> rfl

@[simp] theorem amendRow_keyHash : (amendRow id change key).keyHash = key.keyHash := by
  rw [amendRow]
  split <;> rfl

theorem amendRow_of_ne {id : String} {key : APIKey} (different : key.id ≠ id)
    (change : APIKey → APIKey) : amendRow id change key = key :=
  if_neg different

namespace KeyTable

def amend (table : KeyTable) (id : String) (change : APIKey → APIKey) : KeyTable where
  keys :=
    { rows := table.rows.map (amendRow id change)
      unique := by
        rw [map_map]
        have same : APIKey.id ∘ amendRow id change = APIKey.id := by
          funext key
          exact amendRow_id id change key
        rw [same]
        exact table.keys.unique }
  uniqueHash := by
    rw [map_map]
    have same : APIKey.keyHash ∘ amendRow id change = APIKey.keyHash := by
      funext key
      exact amendRow_keyHash id change key
    rw [same]
    exact table.uniqueHash

variable {table after : KeyTable} {key : APIKey} {now : String}

theorem mem_amend_iff {id : String} {change : APIKey → APIKey} :
    key ∈ (table.amend id change).rows ↔ ∃ old ∈ table.rows, amendRow id change old = key :=
  mem_map

theorem getAPIKeyByHash_eq_some_iff {keyHash : String} :
    table.getAPIKeyByHash now keyHash = some key ↔
      key ∈ table.rows ∧ key.keyHash = keyHash ∧ key.usable now = true := by
  constructor
  · intro found
    have held := find?_some found
    simp only [decide_eq_true_eq] at held
    exact ⟨mem_of_find?_eq_some found, held⟩
  · rintro ⟨member, hash, usable⟩
    cases found : table.getAPIKeyByHash now keyHash with
    | none =>
      have absent := find?_eq_none.mp found key member
      simp [hash, usable] at absent
    | some =>
      have held := find?_some found
      simp only [decide_eq_true_eq] at held
      rw [inj_on_of_nodup_map table.uniqueHash (mem_of_find?_eq_some found) member
        (held.1.trans hash.symm)]

theorem hasAnyAPIKey_amend {change : APIKey → APIKey}
    (keeps : ∀ key, (change key).enabled = key.enabled) (table : KeyTable) (id : String) :
    (table.amend id change).hasAnyAPIKey = table.hasAnyAPIKey := by
  have same : APIKey.enabled ∘ amendRow id change = APIKey.enabled := by
    funext key
    rw [Function.comp_apply, amendRow]
    split
    · exact keeps key
    · rfl
  change (table.rows.map (amendRow id change)).any APIKey.enabled = _
  rw [any_map, same]
  rfl

theorem keyHash_inj {first second : APIKey} (firstMember : first ∈ table.rows)
    (secondMember : second ∈ table.rows) (same : first.keyHash = second.keyHash) : first = second :=
  inj_on_of_nodup_map table.uniqueHash firstMember secondMember same

/-- Add a row, unless its identifier or its digest is taken. -/
def insert (table : KeyTable) (key : APIKey) : Option KeyTable :=
  if fresh : key.id ∉ table.rows.map APIKey.id ∧ key.keyHash ∉ table.rows.map APIKey.keyHash then
    some
      { keys :=
          { rows := table.rows ++ [key]
            unique := by
              rw [map_append, nodup_append_comm]
              exact nodup_cons.mpr ⟨fresh.1, table.keys.unique⟩ }
        uniqueHash := by
          rw [map_append, nodup_append_comm]
          exact nodup_cons.mpr ⟨fresh.2, table.uniqueHash⟩ }
  else none

theorem mem_insert_iff {other : APIKey} (inserted : table.insert key = some after) :
    other ∈ after.rows ↔ other ∈ table.rows ∨ other = key := by
  rw [insert] at inserted
  split at inserted
  · cases inserted
    change other ∈ table.rows ++ [key] ↔ _
    rw [mem_append, mem_singleton]
  · cases inserted

theorem id_ne_of_insert {old : APIKey} (inserted : table.insert key = some after)
    (member : old ∈ table.rows) : old.id ≠ key.id := by
  rw [insert] at inserted
  split at inserted
  next fresh =>
    intro same
    exact fresh.1 (same ▸ mem_map_of_mem member)
  next => cases inserted

def defaultRole (role : String) : String :=
  if role = "" then "admin" else role

/-- The columns that a new key gets; it never expires. -/
def createAPIKey (now : String) (table : KeyTable) (key : APIKey) : Option KeyTable := table.insert
    { id := key.id
      name := key.name
      keyHash := key.keyHash
      tenant := key.tenant
      role := defaultRole key.role
      quota := key.quota
      enabled := key.enabled
      createdBy := key.createdBy
      createdAt := if key.createdAt = "" then now else key.createdAt }

/-- Add the successor of a key, and disable the key.  Who asked for it is not
recorded, and whether the key is still enabled is not looked at again. -/
def rotateAPIKey (now : String) (table : KeyTable) (oldID : String) (newKey : APIKey) :
    Option KeyTable :=
  (table.insert
    { id := newKey.id
      name := newKey.name
      keyHash := newKey.keyHash
      tenant := newKey.tenant
      role := defaultRole newKey.role
      quota := newKey.quota
      expiresAt := newKey.expiresAt
      predecessorID := oldID
      scopes := newKey.scopes
      createdAt := now }).map fun added =>
    added.amend oldID fun key => { key with enabled := false, rotatedAt := some now }

theorem exists_of_rotateAPIKey {oldID : String} {old : APIKey}
    (found : table.getAPIKey oldID = some old)
    (rotated : rotateAPIKey now table oldID key = some after) :
    ∃ row ∈ after.rows, row.id = key.id ∧ row.keyHash = key.keyHash ∧
      row.tenant = key.tenant ∧ row.role = defaultRole key.role ∧ row.quota = key.quota ∧
        row.scopes = key.scopes ∧ row.expiresAt = key.expiresAt := by
  obtain ⟨added, inserted, rfl⟩ := Option.map_eq_some_iff.mp rotated
  obtain ⟨member, same⟩ := Store.find_eq_some_iff.mp found
  have different : key.id ≠ oldID := by
    rw [← same]
    exact (id_ne_of_insert inserted member).symm
  have held := (mem_insert_iff inserted).mpr (.inr rfl)
  refine ⟨_, mem_amend_iff.mpr ⟨_, held, rfl⟩, ?_⟩
  rw [amendRow_of_ne]
  · exact ⟨rfl, rfl, rfl, rfl, rfl, rfl, rfl⟩
  · exact different

def deleteAPIKey (table : KeyTable) (id : String) : Option KeyTable :=
  (table.getAPIKey id).map fun _ =>
    { keys := table.keys.erase id
      uniqueHash := table.uniqueHash.sublist (filter_sublist.map APIKey.keyHash) }

/-- The columns that are read back. -/
def scanAPIKey (key : APIKey) : APIKey :=
  { key with expiresAt := none, predecessorID := "", rotatedAt := none, scopes := [] }

def listAPIKeys (table : KeyTable) : List APIKey :=
  (table.rows.map scanAPIKey).insertionSort fun first second => first.id ≤ second.id

/-- The empty tenant stands for all keys, disabled ones included. -/
def listAPIKeysByTenant (table : KeyTable) (tenant : String) : List APIKey :=
  if tenant = "" then table.listAPIKeys
  else
    ((table.rows.filter fun key => key.tenant = tenant ∧ key.enabled).map
      scanAPIKey).insertionSort fun first second => second.createdAt ≤ first.createdAt

/-- A row by the names of its columns, with the texts of their values. -/
abbrev Cells := String → Option String

def apiKeyCols : List String :=
  ["id", "name", "key_hash", "tenant", "role", "quota", "enabled", "created_at", "updated_at",
    "created_by"]

def apiKeyColsExt : List String :=
  apiKeyCols ++ ["expires_at", "last_used_at", "predecessor_id", "rotated_at", "scopes"]

/-- The columns that the destinations are meant for. -/
def scanAPIKeyExt : List String :=
  ["id", "name", "key_hash", "tenant", "role", "quota", "enabled", "created_at", "updated_at",
    "expires_at", "last_used_at", "predecessor_id", "rotated_at", "scopes"]

/-- Each destination takes the column at its place. -/
def scan (columns destinations : List String) (row : Cells) : Except String Cells :=
  if columns.length = destinations.length then
    .ok fun name => ((destinations.zip columns).find? (·.1 = name)).bind fun pair => row pair.2
  else
    .error s!"sql: expected {columns.length} destination arguments in Scan, not {destinations.length}"

def expiresBefore (before : String → Prop) [DecidablePred before] (row : Cells) : Bool :=
  row "enabled" = some "1" && (row "expires_at").any fun expiry => before expiry

def listAPIKeysExpiringBefore (table : List Cells) (before : String) : Except String (List Cells) :=
  let rows := (table.filter (expiresBefore (· < before))).insertionSort
    fun first second => (first "expires_at").getD "" ≤ (second "expires_at").getD ""
  (rows.mapM (scan apiKeyColsExt scanAPIKeyExt)).mapError
    ("registry: list_api_keys_expiring_before scan: " ++ ·)

/-- What is reported of a key. -/
def lifecycle (row : Cells) : List (Option String) :=
  ["id", "expires_at", "last_used_at", "predecessor_id", "rotated_at", "scopes"].map row

/-- The instants of the texts tell which keys belong into the report. -/
def IsReport (time : String → ℤ) (cutoff : ℤ) (table keys : List Cells) : Prop :=
  (keys.map lifecycle).Perm ((table.filter (expiresBefore (time · < cutoff))).map lifecycle) ∧
    keys.Pairwise fun first second =>
      time ((first "expires_at").getD "") ≤ time ((second "expires_at").getD "")

/-- The report fails unless it is empty. -/
theorem expiring_report_iff (time : String → ℤ) (cutoff : ℤ) (before : String)
    (table : List Cells) : (∃ keys, listAPIKeysExpiringBefore table before = .ok keys ∧
      IsReport time cutoff table keys) ↔ ∀ row ∈ table, expiresBefore (· < before) row = false ∧
        expiresBefore (time · < cutoff) row = false := by
  have unselected {due : String → Prop} [DecidablePred due] :
      table.filter (expiresBefore due) = [] ↔ ∀ row ∈ table, expiresBefore due row = false := by
    simp
  rw [forall₂_and, ← unselected, ← unselected]
  constructor
  · rintro ⟨keys, listed, same, -⟩
    unfold listAPIKeysExpiringBefore at listed
    cases rows : (table.filter (expiresBefore (· < before))).insertionSort
        fun first second => (first "expires_at").getD "" ≤ (second "expires_at").getD "" with
    | nil =>
      have selected := perm_insertionSort
        (fun first second : Cells => (first "expires_at").getD "" ≤ (second "expires_at").getD "")
        (table.filter (expiresBefore (· < before)))
      rw [rows] at listed selected
      cases listed
      exact ⟨selected.nil_eq.symm, map_eq_nil_iff.mp same.nil_eq.symm⟩
    | cons first rest =>
      -- the select list has one column more than there are destinations
      rw [rows] at listed
      cases listed
  · rintro ⟨none, due⟩
    refine ⟨[], ?_, by rw [due], .nil⟩
    rw [listAPIKeysExpiringBefore, none]
    rfl

/-- One enabled key that expires is enough. -/
theorem expiring_key_unread : listAPIKeysExpiringBefore
      [fun column => [("enabled", "1"), ("expires_at", "2026")].lookup column] "2027" =
    .error ("registry: list_api_keys_expiring_before scan: " ++
      "sql: expected 15 destination arguments in Scan, not 14") := rfl

end KeyTable

end Purser.Management
