import Purser.KeyManagement

/-!
# What the holder of a weak key can obtain

Whoever may create keys may create one of any role and tenant, and may rotate
every key that is enabled.  Only restrained requests obtain no more rights than
the caller has.
-/

namespace Purser.Management

open List
open KeyTable (defaultRole)

variable {registry : Registry}

def Platform.Unknown (platform : Platform) (id : String) : Prop :=
  (∀ member ∈ platform.orgMembers, member.userSub ≠ id) ∧
    ∀ member ∈ platform.teamMembers, member.userSub ≠ id

theorem Platform.permissions_of_unknown {platform : Platform} {id teamID : String}
    {effective : EffectivePermissions} (unknown : platform.Unknown id)
    (found : platform.getEffectivePermissions id teamID = some effective) :
    effective.permissions = [] := by
  obtain ⟨team, _, rfl⟩ := Option.map_eq_some_iff.mp found
  have noOrgMember : platform.getOrgMember team.orgID id = none := by
    rw [getOrgMember, find?_eq_none]
    intro member held
    simp [unknown.1 member held]
  have noTeamMember : platform.getTeamMember teamID id = none := by
    rw [getTeamMember, find?_eq_none]
    intro member held
    simp [unknown.2 member held]
  simp [noOrgMember, noTeamMember, sortStrings]

/-- The permissions of built-in roles are no wildcards. -/
theorem eq_of_grants_legacy {role permission required : String}
    (member : permission ∈ legacyRolePerms role) (granted : grants permission required = true) :
    permission = required := by
  have plain : ∀ role ∈ ["admin", "viewer", "inference"], ∀ permission ∈ legacyRolePerms role,
      ":*".toList.isSuffixOf permission.toList = false ∧ permission ≠ "inference:*" := by
    decide +kernel
  have known : role ∈ ["admin", "viewer", "inference"] := by
    by_contra unknown
    simp only [mem_cons, not_mem_nil, or_false, not_or] at unknown
    simp [legacyRolePerms, unknown] at member
  obtain ⟨noWildcard, noInference⟩ := plain role known permission member
  rw [grants, decide_eq_true_eq, noWildcard] at granted
  rcases granted with same | ⟨wildcard, _⟩ | ⟨inference, _⟩
  · exact same
  · cases wildcard
  · exact absurd inference noInference

namespace Server

/-- Permissions are read off the platform tables. -/
theorem checkPermission_of_platform {first second : Server}
    (same : first.registry.map Registry.platform = second.registry.map Registry.platform)
    (env : Environment) (identity : Identity) (required : String) :
    first.checkPermission env identity required = second.checkPermission env identity required := by
  obtain ⟨_, _, _, _, _, firstRegistry, _⟩ := first
  obtain ⟨_, _, _, _, _, secondRegistry, _⟩ := second
  cases firstRegistry with
  | none =>
    cases secondRegistry with
    | none => rfl
    | some => cases same
  | some =>
    cases secondRegistry with
    | none => cases same
    | some =>
      have platform := Option.some.inj same
      simp only [checkPermission, resolvePermissions, Option.bind_some, platform]

/-- A key that belongs to no member has the permissions of its role. -/
theorem resolvePermissions_of_unknown {server : Server} {key : APIKey}
    (registered : server.registry = some registry) (unknown : registry.platform.Unknown key.id)
    (env : Environment) :
    server.resolvePermissions env { apiKey := some key } = fromLegacyRole key.id key.role := by
  simp only [resolvePermissions, registered, Option.bind_some]
  split
  next effective found =>
    obtain ⟨lookup, filled⟩ := Option.filter_eq_some_iff.mp found
    split at lookup
    · cases lookup
    · rw [Platform.permissions_of_unknown unknown lookup] at filled
      simp at filled
  next => rfl

/-- The tenant is that of the caller, and the role is a weak one whose permissions
the caller has. -/
structure Within (server : Server) (env : Environment) (caller : APIKey)
    (tenant role : String) : Prop where
  sameTenant : tenant = caller.tenant
  weak : role ≠ "admin"
  held : ∀ permission ∈ legacyRolePerms role,
    server.checkPermission env { apiKey := some caller } permission = true

end Server

namespace Moment

inductive Asks (moment : Moment) : String → String → Prop
  | creation (body : CreateAPIKeyRequest) (endpoint : keyEndpoint moment.call.request = some .create)
      (decoded : moment.call.body.getD (.ok {}) = .ok body) : Asks moment body.tenant body.role
  | rotation (id : String) (registry : Registry) (old : APIKey)
      (endpoint : keyEndpoint moment.call.request = some (.rotate id))
      (registered : moment.before.registry = some registry)
      (found : registry.keys.getAPIKey id = some old) : Asks moment old.tenant old.role

end Moment

structure Stores (call : Call) (keys : KeyTable) (tenant role : String) (row : APIKey) : Prop where
  member : row ∈ keys.rows
  id : row.id = call.newID
  keyHash : row.keyHash = hashOf call.plaintext
  tenant : row.tenant = tenant
  role : row.role = defaultRole role

theorem defaultRole_defaultRole (role : String) :
    defaultRole (defaultRole role) = defaultRole role := by
  by_cases empty : role = ""
  · subst role
    rfl
  · have same : defaultRole role = role := if_neg empty
    rw [same, same]

namespace Registry

theorem stores_of_create {call : Call} {identity : Identity} {plaintext : String}
    (shown : (registry.handleCreateAPIKey call identity).1.disclosed = some plaintext) :
    plaintext = call.plaintext ∧ ∃ body keys row, call.body.getD (.ok {}) = .ok body ∧
      (registry.handleCreateAPIKey call identity).2 = registry.withKeys keys ∧
      Stores call keys body.tenant body.role row := by
  rw [handleCreateAPIKey] at shown ⊢
  cases decoded : call.body.getD (.ok {}) with
  | error =>
    rw [decoded] at shown
    cases shown
  | ok body =>
    simp only [decoded] at shown ⊢
    split at shown
    next valid =>
      rw [if_pos valid]
      cases faulty : call.faults.createAPIKey with
      | some =>
        rw [faulty] at shown
        cases shown
      | none =>
        simp only [faulty] at shown ⊢
        split at shown
        next => cases shown
        next keys inserted =>
          obtain rfl := Option.some.inj shown
          exact ⟨rfl, body, keys, _, rfl, rfl, (KeyTable.mem_insert_iff inserted).mpr (.inr rfl),
            rfl, rfl, rfl, defaultRole_defaultRole body.role⟩
    next => cases shown

theorem stores_of_rotate {call : Call} {identity : Identity} {oldID plaintext : String}
    (shown : (registry.handleRotateAPIKey call identity oldID).1.disclosed = some plaintext) :
    plaintext = call.plaintext ∧ ∃ old keys row, registry.keys.getAPIKey oldID = some old ∧
      (registry.handleRotateAPIKey call identity oldID).2 = registry.withKeys keys ∧
      Stores call keys old.tenant old.role row ∧ row.quota = old.quota ∧ row.scopes = [] ∧
        row.expiresAt = none := by
  rw [handleRotateAPIKey] at shown ⊢
  cases faultyGet : call.faults.getAPIKey with
  | some =>
    rw [faultyGet] at shown
    cases shown
  | none =>
    simp only [faultyGet] at shown ⊢
    cases found : registry.keys.getAPIKey oldID with
    | none =>
      rw [found] at shown
      cases shown
    | some old =>
      simp only [found, Option.map_some] at shown ⊢
      split at shown
      next => cases shown
      next enabled =>
        rw [if_neg enabled]
        cases faultyRotate : call.faults.rotateAPIKey with
        | some =>
          rw [faultyRotate] at shown
          cases shown
        | none =>
          simp only [faultyRotate] at shown ⊢
          split at shown
          next => cases shown
          next keys rotated =>
            obtain rfl := Option.some.inj shown
            obtain ⟨row, member, id, keyHash, tenant, role, others⟩ :=
              KeyTable.exists_of_rotateAPIKey found rotated
            exact ⟨rfl, old, keys, row, rfl, rfl, ⟨member, id, keyHash, tenant, role⟩, others⟩

end Registry

namespace Moment

variable {moment : Moment} {plaintext : String}

/-- An answer shows the plaintext of a key that was asked for, by a request that was
admitted. -/
theorem stores_of_disclosed (shown : moment.reply.disclosed = some plaintext) :
    moment.before.Admits moment.call.env moment.call.request ∧
      plaintext = moment.call.plaintext ∧ ∃ tenant role registry keys row,
        moment.Asks tenant role ∧ moment.before.registry = some registry ∧
        moment.after = { moment.before with registry := some (registry.withKeys keys) } ∧
        Stores moment.call keys tenant role row := by
  rw [reply, Server.serve] at shown
  rw [after, Server.serve]
  cases admitted : moment.before.admission moment.call.env moment.call.request with
  | answered | redirected =>
    rw [admitted] at shown
    cases shown
  | forwarded identity =>
    simp only [admitted, Server.dispatchKeys] at shown ⊢
    refine ⟨⟨identity, admitted⟩, ?_⟩
    cases endpointEq : keyEndpoint moment.call.request with
    | none =>
      rw [endpointEq] at shown
      cases shown
    | some endpoint =>
      cases registered : moment.before.registry with
      | none =>
        rw [endpointEq, registered] at shown
        cases shown
      | some registry =>
        simp only [endpointEq, registered] at shown ⊢
        cases endpoint with
        | create =>
          obtain ⟨same, body, keys, row, decoded, handled, stores⟩ :=
            Registry.stores_of_create shown
          refine ⟨same, _, _, registry, keys, row, .creation body endpointEq decoded,
            rfl, ?_, stores⟩
          rw [Registry.handleKeys, handled]
        | rotate id =>
          obtain ⟨same, old, keys, row, found, handled, stores, -⟩ :=
            Registry.stores_of_rotate shown
          refine ⟨same, _, _, registry, keys, row,
            .rotation id registry old endpointEq registered found, rfl, ?_, stores⟩
          rw [Registry.handleKeys, handled]
        | list =>
          rw [Registry.handleKeys, Registry.handleListAPIKeys] at shown
          split at shown <;> cases shown
        | delete id =>
          rw [Registry.handleKeys, Registry.handleDeleteAPIKey] at shown
          split at shown
          · cases shown
          · split at shown <;> cases shown

/-- The key of a plaintext that is shown is the one that was asked for. -/
theorem asks_of_disclosed {key : APIKey} (shown : moment.reply.disclosed = some plaintext)
    (registered : moment.after.registry = some registry) (held : key ∈ registry.keys.rows)
    (hash : key.keyHash = hashOf plaintext) :
    ∃ role, moment.Asks key.tenant role ∧ key.role = defaultRole role := by
  obtain ⟨_, rfl, tenant, role, before, keys, row, asks, _, stored, stores⟩ :=
    stores_of_disclosed shown
  rw [stored] at registered
  obtain rfl := Option.some.inj registered
  obtain rfl := KeyTable.keyHash_inj held stores.member (hash.trans stores.keyHash.symm)
  rw [← stores.tenant] at asks
  exact ⟨role, asks, stores.role⟩

/-- An admitted request asks for a key of the caller's own tenant, with a weak role
whose permissions the caller has, and the identifier that is drawn for it belongs
to no member. -/
def Restrained (moment : Moment) : Prop :=
  moment.before.Admits moment.call.env moment.call.request → ∀ tenant role,
    moment.Asks tenant role →
      (∀ registry, moment.before.registry = some registry →
        registry.platform.Unknown moment.call.newID) ∧
      ∃ caller,
        moment.before.matchedKey moment.call.env (bearerToken moment.call.request) = some caller ∧
          moment.before.Within moment.call.env caller tenant (defaultRole role)

/-- The key of this plaintext belongs to the tenant of the key that made the
request, and may do nothing that the latter may not do. -/
def Confined (moment : Moment) (plaintext : String) : Prop := ∃ caller registry key,
    moment.before.matchedKey moment.call.env (bearerToken moment.call.request) = some caller ∧
    moment.after.registry = some registry ∧ key ∈ registry.keys.rows ∧
    key.keyHash = hashOf plaintext ∧ key.tenant = caller.tenant ∧
    ∀ required,
      moment.after.checkPermission moment.call.env { apiKey := some key } required = true →
        moment.before.checkPermission moment.call.env { apiKey := some caller } required = true

theorem confined_of_disclosed (restrained : moment.Restrained)
    (shown : moment.reply.disclosed = some plaintext) : moment.Confined plaintext := by
  obtain ⟨admits, rfl, tenant, role, registry, keys, row, asks, registered, stored, stores⟩ :=
    stores_of_disclosed shown
  obtain ⟨unknown, caller, matched, within⟩ := restrained admits tenant role asks
  refine ⟨caller, registry.withKeys keys, row, matched, ?_, stores.member, stores.keyHash, ?_, ?_⟩
  · rw [stored]
  · rw [stores.tenant, within.sameTenant]
  · intro required allowed
    have samePlatform : moment.after.registry.map Registry.platform =
        moment.before.registry.map Registry.platform := by
      rw [stored, registered]
      rfl
    rw [Server.checkPermission_of_platform samePlatform] at allowed
    rw [← stores.role] at within
    have unlisted := unknown registry registered
    rw [← stores.id] at unlisted
    rw [Server.checkPermission, Server.resolvePermissions_of_unknown registered unlisted,
      Bool.or_eq_true] at allowed
    rcases allowed with admin | granted
    · exact absurd (of_decide_eq_true admin) within.weak
    · obtain ⟨permission, member, grantsIt⟩ := any_eq_true.mp granted
      rw [← eq_of_grants_legacy member grantsIt]
      exact within.held permission member

end Moment

/-- Every plaintext that a sequence of restrained requests obtains is that of a key
of the caller's tenant, with no more rights than the caller. -/
theorem Server.disclosures_confined (server : Server) (calls : List Call)
    (restrained : ∀ moment ∈ server.history calls, moment.Restrained) :
    ∀ moment ∈ server.history calls, ∀ plaintext,
      moment.reply.disclosed = some plaintext → moment.Confined plaintext := by
  induction calls generalizing server with
  | nil =>
    intro moment member
    cases member
  | cons _ _ induction =>
    intro moment member plaintext shown
    rw [history, forall_mem_cons] at restrained
    rcases mem_cons.mp member with rfl | later
    · exact Moment.confined_of_disclosed restrained.1 shown
    · exact induction _ restrained.2 moment later plaintext shown

def developerKey : APIKey where
  id := "dev"
  keyHash := hashOf "sk-1"
  tenant := "team-a"
  role := "viewer"

def developerServer : Server where
  registry := some
    { keys :=
        { keys :=
            { rows := [{ id := "root", keyHash := "r" }, developerKey]
              unique := by decide }
          uniqueHash := by decide +kernel }
      platform :=
        { teams := [⟨"team-a", "org"⟩]
          teamMembers := [⟨"team-a", "dev", "developer"⟩]
          customRoles :=
            [{ orgID := none, id := "developer", permissions := systemRolePermissions "developer" }] } }

def developerCall (path : String) (body : CreateAPIKeyRequest) : Call where
  request := { method := "POST", path := path, authorization := "Bearer sk-1" }
  body := some (.ok body)
  randID := "2"
  secret := "2"

theorem bearerToken_developerCall (path : String) (body : CreateAPIKeyRequest) :
    bearerToken (developerCall path body).request = "sk-1" := by
  change (afterLead "Bearer " "Bearer sk-1").getD "" = "sk-1"
  decide

theorem matchedKey_developerServer : developerServer.matchedKey {} "sk-1" = some developerKey := by
  simp only [Server.matchedKey, developerServer, Option.bind_some, Bool.false_eq_true, if_false,
    KeyTable.getAPIKeyByHash_eq_some_iff]
  refine ⟨mem_cons_of_mem _ (mem_singleton_self _), ?_, rfl⟩
  rw [developerKey]

theorem matchedKey_developer (path : String) (body : CreateAPIKeyRequest) :
    developerServer.matchedKey (developerCall path body).env
      (bearerToken (developerCall path body).request) = some developerKey := by
  rw [bearerToken_developerCall]
  exact matchedKey_developerServer

theorem keyEndpoint_create (body : CreateAPIKeyRequest) :
    keyEndpoint (developerCall "/api/v1/apikeys" body).request = some .create := by
  change keyEndpoint ⟨"POST", "/api/v1/apikeys", "Bearer sk-1", "", "", none⟩ = some .create
  decide

theorem Server.history_singleton (server : Server) (call : Call) :
    server.history [call] = [⟨server, call⟩] :=
  rfl

/-- The developer creates a key for inference. -/
theorem Server.disclosures_confined_inferenceKey : ∃ moment ∈ developerServer.history
        [developerCall "/api/v1/apikeys" { tenant := "team-a", role := "inference" }],
      moment.reply.disclosed = some "sk-2" ∧ moment.Confined "sk-2" := by
  have shown : (Moment.reply ⟨developerServer,
      developerCall "/api/v1/apikeys" { tenant := "team-a", role := "inference" }⟩).disclosed =
        some "sk-2" := by
    decide +kernel
  have member := mem_singleton_self (Moment.mk developerServer
    (developerCall "/api/v1/apikeys" { tenant := "team-a", role := "inference" }))
  rw [← Server.history_singleton] at member
  refine ⟨_, member, shown, Server.disclosures_confined developerServer _ ?_ _ member _ shown⟩
  intro moment only
  rw [Server.history_singleton, mem_singleton] at only
  subst moment
  intro _ tenant role asks
  refine ⟨?_, developerKey, matchedKey_developer _ _, ?_⟩
  · intro registry registered
    cases registered
    exact ⟨by decide, by decide⟩
  · cases asks with
    | creation _ _ decoded =>
      cases decoded
      exact ⟨rfl, by decide, by decide +kernel⟩
    | rotation _ _ _ endpoint =>
      rw [keyEndpoint_create] at endpoint
      cases endpoint

/-- A developer without any other right gets the plaintext of an administrator's key
of the own team, and that of the successor of a key outside of the team. -/
theorem Server.disclosures_escalate : developerServer.HoldsWeakKeys ["sk-1"] ∧
    ∀ call ∈ [developerCall "/api/v1/apikeys" { tenant := "team-a", role := "admin" },
        developerCall "/api/v1/apikeys/root/rotate" {}],
      developerServer.MadeWith ["sk-1"] [call] ∧ ∃ moment ∈ developerServer.history [call],
        moment.reply.disclosed = some "sk-2" ∧ ¬ moment.Confined "sk-2" := by
  refine ⟨⟨_, rfl, by decide +kernel⟩, ?_⟩
  intro call member
  have made : developerServer.MadeWith ["sk-1"] [call] := by
    refine ⟨?_, trivial⟩
    rcases mem_cons.mp member with rfl | later
    · rw [bearerToken_developerCall]
      exact mem_singleton_self _
    · rw [mem_singleton.mp later, bearerToken_developerCall]
      exact mem_singleton_self _
  have shown : (Moment.reply ⟨developerServer, call⟩).disclosed = some "sk-2" := by
    clear made
    revert call
    decide +kernel
  refine ⟨made, ⟨developerServer, call⟩, mem_singleton_self _, shown, ?_⟩
  rcases mem_cons.mp member with rfl | later
  · rintro ⟨caller, registry, key, matched, registered, held, hash, _, contained⟩
    obtain rfl := Option.some.inj (matched.symm.trans (matchedKey_developer _ _))
    obtain ⟨role, asks, keyRole⟩ := Moment.asks_of_disclosed shown registered held hash
    have admin : role = "admin" := by
      generalize key.tenant = tenant at asks
      cases asks with
      | creation _ _ decoded =>
        cases decoded
        rfl
      | rotation _ _ _ endpoint =>
        rw [keyEndpoint_create] at endpoint
        cases endpoint
    have refused : developerServer.checkPermission {} { apiKey := some developerKey }
        "platform:orgs:create" = false := by
      decide +kernel
    have allowed := contained "platform:orgs:create" (by
      rw [checkPermission, isPlatformAdmin_key, keyRole, admin]
      rfl)
    exact absurd (allowed.symm.trans refused) (by decide)
  · obtain rfl := mem_singleton.mp later
    rintro ⟨caller, registry, key, matched, registered, held, hash, sameTenant, _⟩
    obtain rfl := Option.some.inj (matched.symm.trans (matchedKey_developer _ _))
    obtain ⟨role, asks, _⟩ := Moment.asks_of_disclosed shown registered held hash
    have rotates : keyEndpoint (developerCall "/api/v1/apikeys/root/rotate" {}).request =
        some (.rotate "root") := by
      decide
    have outside : key.tenant = "" := by
      generalize key.tenant = tenant at asks
      cases asks with
      | creation body endpoint =>
        rw [rotates] at endpoint
        cases endpoint
      | rotation _ _ _ endpoint before found =>
        rw [rotates] at endpoint
        cases endpoint
        cases before
        cases found
        rfl
    rw [outside] at sameTenant
    exact absurd sameTenant (by decide)

end Purser.Management
