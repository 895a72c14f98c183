import Purser.KeyDisclosure

/-!
# Rotations of one key

The statement that creates a key leaves out its scopes and its expiry, and the
query that reads a key back does not ask for them.
-/

namespace Purser.Management

open KeyedStores (Store)

/-- What a successor inherits. -/
structure KeyAttributes where
  role : String
  tenant : String
  quota : ℤ
  scopes : List String
  expiresAt : Option String

namespace APIKey

def attributes (key : APIKey) : KeyAttributes where
  role := key.role
  tenant := key.tenant
  quota := key.quota
  scopes := key.scopes
  expiresAt := key.expiresAt

/-- The key as its creator has it back, with the role filled in. -/
def original (key : APIKey) : APIKey := { key with role := KeyTable.defaultRole key.role }

end APIKey

/-- The keys of a lineage, the current one first. -/
inductive Lineage (start : Registry) (first : String) : Registry → List String → Prop
  | created : Lineage start first start [first]
  | rotated (registry : Registry) (call : Call) (identity : Identity) (current : String)
      (earlier : List String) (plaintext : String)
      (lineage : Lineage start first registry (current :: earlier))
      (shown : (registry.handleRotateAPIKey call identity current).1.disclosed = some plaintext) :
      Lineage start first (registry.handleRotateAPIKey call identity current).2
        (call.newID :: current :: earlier)

structure Inherited (attributes : KeyAttributes) (registry : Registry) (ids : List String) :
    Prop where
  current : ∃ row, ids.head?.bind registry.keys.getAPIKey = some row ∧
    row.attributes = attributes ∧ (KeyTable.scanAPIKey row).attributes = attributes
  expired : ∀ expiry ∈ attributes.expiresAt, ∀ now, ¬ now < expiry →
    ∀ row ∈ registry.keys.rows, row.id ∈ ids → registry.keys.getAPIKeyByHash now row.keyHash = none

variable {now : String} {table : KeyTable} {key : APIKey} {start : Registry}

theorem found_of_lineage (created : KeyTable.createAPIKey now table key = some start.keys)
    {registry : Registry} {ids : List String} (lineage : Lineage start key.id registry ids) :
    ∃ row, ids.head?.bind registry.keys.getAPIKey = some row ∧
      row.attributes = { key.original.attributes with scopes := [], expiresAt := none } := by
  induction lineage with
  | created =>
    have member := (KeyTable.mem_insert_iff created).mpr (.inr rfl)
    exact ⟨_, Store.find_eq_some_iff.mpr ⟨member, rfl⟩, rfl⟩
  | rotated _ call _ current _ _ _ shown induction =>
    obtain ⟨old, held, same⟩ := induction
    obtain ⟨-, found, keys, row, foundOld, handled, stores, quota, scopes, expiresAt⟩ :=
      Registry.stores_of_rotate shown
    obtain rfl : old = found := Option.some.inj (held.symm.trans foundOld)
    obtain ⟨role, tenant, oldQuota, -, -⟩ := KeyAttributes.mk.inj same
    rw [handled]
    refine ⟨row, Store.find_eq_some_iff.mpr ⟨stores.member, stores.id⟩, ?_⟩
    rw [APIKey.attributes, stores.role, stores.tenant, quota, scopes, expiresAt, role, tenant,
      oldQuota]
    exact congrArg (KeyAttributes.mk · _ _ _ _) (defaultRole_defaultRole key.role)

/-- The attributes last exactly if the key was given neither scopes nor an expiry. -/
theorem inherited_iff (created : KeyTable.createAPIKey now table key = some start.keys) :
    (∀ registry ids, Lineage start key.id registry ids →
      Inherited key.original.attributes registry ids) ↔ key.scopes = [] ∧ key.expiresAt = none := by
  constructor
  · intro inherited
    obtain ⟨row, -, -, returned⟩ := (inherited start [key.id] .created).current
    obtain ⟨-, -, -, scopes, expiresAt⟩ := KeyAttributes.mk.inj returned
    exact ⟨scopes.symm, expiresAt.symm⟩
  · rintro ⟨unscoped, lasting⟩ registry ids lineage
    have same : key.original.attributes =
        { key.original.attributes with scopes := [], expiresAt := none } := by
      rw [← unscoped, ← lasting]
      rfl
    obtain ⟨row, found, attributes⟩ := found_of_lineage created lineage
    rw [← same] at attributes
    refine ⟨⟨row, found, attributes, ?_⟩, fun expiry set => ?_⟩
    · rw [same, ← attributes]
      rfl
    · rw [same] at set
      cases set

def lasting : APIKey := { id := "k", keyHash := "digest", role := "", tenant := "team" }

theorem inherited_lasting : ∃ start : Registry,
    KeyTable.createAPIKey "2026" .empty lasting = some start.keys ∧
      Inherited lasting.original.attributes start ["k"] := by
  have made : (KeyTable.createAPIKey "2026" .empty lasting).isSome = true := rfl
  obtain ⟨keys, created⟩ := Option.isSome_iff_exists.mp made
  have inherited := (@inherited_iff "2026" .empty lasting { keys := keys } created).mpr ⟨rfl, rfl⟩
  exact ⟨{ keys := keys }, created, inherited _ _ .created⟩

/-- A key that expires in 2026 is accepted in 2027. -/
theorem expiry_lost : ∃ keys, KeyTable.createAPIKey "2026" .empty
      { lasting with expiresAt := some "2026", scopes := ["models:read"] } = some keys ∧
    (keys.getAPIKey "k").map APIKey.expiresAt = some none ∧
    (keys.getAPIKey "k").map APIKey.scopes = some [] ∧
    (keys.getAPIKeyByHash "2027" "digest").isSome = true :=
  ⟨_, rfl, rfl, rfl, rfl⟩

end Purser.Management
