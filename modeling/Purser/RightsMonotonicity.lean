import Purser.AdmissionDecisions
import Purser.APIKeyTable

/-!
# Losing rights

A key is disabled, expires or gets a lower role, or a group disappears from the
claims of ID tokens.  Where the right was that of an administrator, nothing is
gained.
-/

namespace Purser.Management

open KeyedStores

namespace Server

def withKeys (server : Server) (change : KeyTable → KeyTable) : Server :=
  { server with registry := server.registry.map fun registry =>
      { registry with keys := change registry.keys } }

def keyRow (server : Server) (id : String) : Option APIKey :=
  server.registry.bind fun registry => registry.keys.getAPIKey id

end Server

def TokenVerifier.without (group : String) : TokenVerifier → TokenVerifier
  | basic verifyToken => basic verifyToken
  | groupClaims verifyClaims => groupClaims fun token =>
    (verifyClaims token).map fun claims =>
      { claims with groups := claims.groups.filter (· ≠ group) }

/-- The ways in which a caller loses a right. -/
inductive Loss
  | disabled (id : String)
  | expired (id expiry : String)
  | moved (id role : String)
  | ungrouped (group : String)

def Lower (role lower : String) : Prop :=
  (role = "admin" ∧ (lower = "viewer" ∨ lower = "inference")) ∨
    (role = "viewer" ∧ lower = "inference")

instance (role lower : String) : Decidable (Lower role lower) := inferInstanceAs (Decidable (_ ∨ _))

namespace Loss

def apply : Loss → Server → Server
  | disabled id, server =>
    server.withKeys fun table => table.amend id fun key => { key with enabled := false }
  | expired id expiry, server =>
    server.withKeys fun table => table.amend id fun key => { key with expiresAt := some expiry }
  | moved id role, server =>
    server.withKeys fun table => table.amend id fun key => { key with role := role }
  | ungrouped group, server =>
    { server with oidcVerifier := server.oidcVerifier.map (TokenVerifier.without group) }

/-- An expiry is over, and a role is lower than the one before. -/
def Genuine (env : Environment) (server : Server) : Loss → Prop
  | disabled _ => True
  | expired _ expiry => ¬ env.now < expiry
  | moved id role => ∀ key ∈ server.keyRow id, Lower key.role role
  | ungrouped _ => True

/-- The key is not the one of the request, or it belongs to an administrator. -/
def Privileged (server : Server) (request : Request) (id : String) : Prop :=
  ∀ key ∈ server.keyRow id, key.keyHash = hashOf (bearerToken request) → key.role = "admin"

/-- The loss does not open a way around a weak role. -/
def Harmless (env : Environment) (server : Server) (request : Request) : Loss → Prop
  | disabled id =>
    Privileged server request id ∧
      (bearerToken request = "" → server.knowsKeys env = true →
        ((disabled id).apply server).knowsKeys env = true)
  | expired id _ => Privileged server request id
  | moved id _ =>
    Privileged server request id ∨ Server.isManagement request = true ∨ request.method = "GET"
  | ungrouped group =>
    ∀ verifyClaims token claims, server.oidcVerifier = some (.groupClaims verifyClaims) →
      idToken request = some token → verifyClaims token = .ok claims →
      (server.identityOf { claims with groups := claims.groups.filter (· ≠ group) }).oidcRole =
          (server.identityOf claims).oidcRole ∨
        (server.identityOf claims).oidcRole ≠ "" ∧
          allowsRole (server.identityOf claims).oidcRole request = true

end Loss

namespace Server

section

variable (server : Server) (change : KeyTable → KeyTable) (env : Environment) (request : Request)

include server change env request

theorem oidcMiddleware_withKeys : (server.withKeys change).oidcMiddleware env request =
      server.oidcMiddleware env request := by
  obtain ⟨_, _, _, _, _, registry, _⟩ := server
  cases registry <;> rfl

theorem allowsKey_withKeys (key : APIKey) :
    (server.withKeys change).allowsKey env request key = server.allowsKey env request key := by
  obtain ⟨_, _, _, _, _, registry, _⟩ := server
  cases registry <;> rfl

end

variable {change : APIKey → APIKey} {server : Server} {env : Environment} {token id group : String}
  {key old : APIKey} {request : Request} {login : Identity}

theorem knowsKeys_amend (keeps : ∀ key, (change key).enabled = key.enabled) (server : Server)
    (id : String) (env : Environment) :
    (server.withKeys fun table => table.amend id change).knowsKeys env = server.knowsKeys env := by
  obtain ⟨_, _, _, _, _, registry, _⟩ := server
  cases registry with
  | none => rfl
  | some =>
    simp only [knowsKeys, withKeys, Option.map_some, KeyTable.hasAnyAPIKey_amend keeps]

theorem matchedKey_eq_some_iff : server.matchedKey env token = some key ↔
      env.getAPIKeyByHashFails = false ∧ ∃ registry, server.registry = some registry ∧
        key ∈ registry.keys.rows ∧ key.keyHash = hashOf token ∧ key.usable env.now = true := by
  rw [matchedKey, Option.bind_eq_some_iff]
  cases env.getAPIKeyByHashFails with
  | true => simp
  | false => simp [KeyTable.getAPIKeyByHash_eq_some_iff]

theorem matchedKey_amend (matched : server.matchedKey env token = some old)
    (usable : (amendRow id change old).usable env.now = true) :
    (server.withKeys fun table => table.amend id change).matchedKey env token =
      some (amendRow id change old) := by
  obtain ⟨succeeds, registry, registered, member, hash, _⟩ := matchedKey_eq_some_iff.mp matched
  rw [matchedKey_eq_some_iff]
  refine ⟨succeeds, { registry with keys := registry.keys.amend id change }, ?_, ?_, ?_, usable⟩
  · rw [withKeys, registered]
    rfl
  · exact KeyTable.mem_amend_iff.mpr ⟨old, member, rfl⟩
  · rw [amendRow_keyHash]
    exact hash

theorem keyRow_of_matchedKey (matched : server.matchedKey env token = some key) :
    key ∈ server.keyRow key.id ∧ key.keyHash = hashOf token := by
  obtain ⟨_, registry, registered, member, hash, _⟩ := matchedKey_eq_some_iff.mp matched
  refine ⟨?_, hash⟩
  rw [keyRow, registered]
  exact Store.find_eq_some_iff.mpr ⟨member, rfl⟩

theorem rbacAllows_mono {before after : Server}
    (allowed : after.rbacAllows env request login = true)
    (sameToken : after.internalToken = before.internalToken)
    (sameSecret : after.sessionSecret = before.sessionSecret)
    (anonymous : bearerToken request = "" → after.allowsAnonymous env request = true →
      before.allowsAnonymous env request = true)
    (bearer : after.allowsBearer env request = true → before.allowsBearer env request = true) :
    before.rbacAllows env request login = true := by
  have sameInternal (provided : String) :
      after.validateInternalToken provided = before.validateInternalToken provided := by
    rw [validateInternalToken, sameToken]
    rfl
  have sameAccount (token : String) :
      after.parseServiceAccountToken env token = before.parseServiceAccountToken env token := by
    rw [parseServiceAccountToken, sameSecret]
    rfl
  rw [rbacAllows, sameInternal, sameAccount, Bool.or_eq_true] at allowed
  rw [rbacAllows, Bool.or_eq_true]
  refine allowed.imp_right ?_
  split
  · exact id
  · cases before.parseServiceAccountToken env (bearerToken request) with
    | some => exact id
    | none =>
      simp only
      split
      next noToken => exact anonymous noToken
      next => exact bearer

theorem allowsAnonymous_mono {before after : Server}
    (allowed : after.allowsAnonymous env request = true)
    (sameToken : after.internalToken = before.internalToken)
    (sameProvider : after.oidcVerifier.isSome = before.oidcVerifier.isSome)
    (known : before.knowsKeys env = true → after.knowsKeys env = true) :
    before.allowsAnonymous env request = true := by
  have sameInternal : after.validateInternalToken request.internalToken =
        before.validateInternalToken request.internalToken := by
    rw [validateInternalToken, sameToken]
    rfl
  simp only [allowsAnonymous, sameInternal, sameProvider, Bool.or_eq_true, Bool.and_eq_true,
    Bool.not_eq_true'] at allowed ⊢
  refine allowed.imp_right ?_
  rintro ⟨noProvider, unknown⟩
  refine ⟨noProvider, ?_⟩
  cases knownBefore : before.knowsKeys env with
  | false => rfl
  | true =>
    rw [known knownBefore] at unknown
    cases unknown

theorem allowsKey_admin (admin : key.role = "admin") (server : Server) (env : Environment)
    (request : Request) : server.allowsKey env request key = true := by
  simp only [allowsKey]
  split
  · rw [checkPermission, isPlatformAdmin_key, admin]
    rfl
  · rw [allowsRole, if_pos admin]

/-- No route requires the permission of the inference role. -/
theorem hasPermission_inference {method path : String}
    (required : matchRoutePermission method path ≠ "") :
    hasPermission (legacyRolePerms "inference") (matchRoutePermission method path) = false := by
  obtain ⟨route, member, _, same⟩ := exists_route_of_required required
  rw [← same]
  have refused : ∀ route ∈ routePermission,
      hasPermission (legacyRolePerms "inference") route.permission = false := by
    decide +kernel
  exact refused route member

/-- A viewer may do what the same key may do with the inference role, apart from
requests that change something outside of the management API. -/
theorem allowsKey_of_inference (viewer : key.role = "viewer")
    (inside : isManagement request = true ∨ request.method = "GET")
    (allowed : server.allowsKey env request { key with role := "inference" } = true) :
    server.allowsKey env request key = true := by
  simp only [allowsKey] at allowed ⊢
  split
  next required =>
    rw [if_pos required] at allowed
    -- what the key has with the inference role comes from its team
    rw [checkPermission, isPlatformAdmin_key, Bool.or_eq_true] at allowed
    have granted := allowed.resolve_left (by simp)
    rw [checkPermission, Bool.or_eq_true]
    right
    simp only [resolvePermissions] at granted ⊢
    split at granted
    · exact granted
    · rw [fromLegacyRole, hasPermission_inference required] at granted
      cases granted
  next unmapped =>
    rw [if_neg unmapped] at allowed
    rcases inside with management | get
    · rw [allowsRole, management] at allowed
      cases allowed
    · rw [allowsRole, viewer, get]
      rfl

section

variable (changed : ∀ old, server.matchedKey env (bearerToken request) = some old → old.id = id →
  (server.withKeys fun table => table.amend id change).allowsBearer env request = true →
    server.allowsKey env request old = true)

include changed

/-- Other keys than the changed one may do what they did. -/
theorem allowsBearer_of_amend (allowed :
      (server.withKeys fun table => table.amend id change).allowsBearer env request = true) :
    server.allowsBearer env request = true := by
  cases matched : server.matchedKey env (bearerToken request) with
  | none => rw [allowsBearer, matched]
  | some old =>
    rw [allowsBearer, matched]
    by_cases same : old.id = id
    · exact changed old matched same allowed
    · have kept := amendRow_of_ne same change
      obtain ⟨_, _, _, _, _, usable⟩ := matchedKey_eq_some_iff.mp matched
      have matchedAfter := matchedKey_amend matched (by rw [kept]; exact usable)
      rw [allowsBearer, matchedAfter, kept] at allowed
      exact (allowsKey_withKeys server _ env request old).symm.trans allowed

/-- A change of one key admits nothing new if the request passes with the key as it
was whenever it passes with the change. -/
theorem admits_of_amend (known : bearerToken request = "" → server.knowsKeys env = true →
      (server.withKeys fun table => table.amend id change).knowsKeys env = true)
    (admits : (server.withKeys fun table => table.amend id change).Admits env request) :
    server.Admits env request := by
  rw [admits_iff] at admits ⊢
  obtain ⟨noPreflight, free, login, loggedIn, allowed⟩ := admits
  rw [oidcMiddleware_withKeys] at loggedIn
  refine ⟨noPreflight, free, login, loggedIn, rbacAllows_mono allowed rfl rfl ?_ ?_⟩
  · intro noToken passes
    exact allowsAnonymous_mono passes rfl rfl (known noToken)
  · exact allowsBearer_of_amend changed

end

theorem admin_of_privileged (privileged : Loss.Privileged server request id)
    (matched : server.matchedKey env (bearerToken request) = some old) (same : old.id = id) :
    server.allowsKey env request old = true := by
  obtain ⟨held, hash⟩ := keyRow_of_matchedKey matched
  rw [same] at held
  exact allowsKey_admin (privileged old held hash) server env request

theorem allowsKey_of_moved {role : String} (lower : ∀ key ∈ server.keyRow id, Lower key.role role)
    (harmless : (Loss.moved id role).Harmless env server request)
    (matched : server.matchedKey env (bearerToken request) = some old) (same : old.id = id)
    (allowed : ((Loss.moved id role).apply server).allowsBearer env request = true) :
    server.allowsKey env request old = true := by
  rcases harmless with privileged | inside
  · exact admin_of_privileged privileged matched same
  · have held := (keyRow_of_matchedKey matched).1
    rw [same] at held
    rcases lower old held with ⟨admin, _⟩ | ⟨viewer, inference⟩
    · exact allowsKey_admin admin server env request
    · have amended : amendRow id (fun key => { key with role := role }) old =
          { old with role := "inference" } := by
        rw [amendRow, if_pos same, inference]
      obtain ⟨_, _, _, _, _, usable⟩ := matchedKey_eq_some_iff.mp matched
      have matchedAfter := matchedKey_amend matched (by rw [amended]; exact usable)
      rw [amended] at matchedAfter
      rw [Loss.apply, allowsBearer, matchedAfter] at allowed
      refine allowsKey_of_inference viewer inside ?_
      exact (allowsKey_withKeys server _ env request _).symm.trans allowed

/-- Who a request passes the first check as, with and without the group. -/
theorem login_of_groupClaims {verifyClaims : String → Except String TokenClaims}
    (configured : server.oidcVerifier = some (.groupClaims verifyClaims))
    (loggedIn : ((Loss.ungrouped group).apply server).oidcMiddleware env request =
      .forwarded login) :
    server.oidcMiddleware env request = .forwarded login ∨
      ∃ token claims, idToken request = some token ∧ verifyClaims token = .ok claims ∧
        server.oidcMiddleware env request = .forwarded (server.identityOf claims) ∧
        login = server.identityOf { claims with groups := claims.groups.filter (· ≠ group) } := by
  have configuredAfter : ((Loss.ungrouped group).apply server).oidcVerifier =
      some ((TokenVerifier.groupClaims verifyClaims).without group) := by
    rw [Loss.apply, configured]
    rfl
  have sameInternal : ((Loss.ungrouped group).apply server).validateInternalToken
      request.internalToken = server.validateInternalToken request.internalToken := rfl
  rw [oidcMiddleware, configuredAfter, sameInternal] at loggedIn
  rw [oidcMiddleware, configured]
  simp only [TokenVerifier.without, verify] at loggedIn ⊢
  by_cases exempt : request.path ∈ authPaths
  · rw [if_pos exempt] at loggedIn ⊢
    exact .inl loggedIn
  · rw [if_neg exempt] at loggedIn ⊢
    by_cases trusted : server.validateInternalToken request.internalToken = true
    · rw [if_pos trusted] at loggedIn ⊢
      exact .inl loggedIn
    · rw [if_neg trusted] at loggedIn ⊢
      cases presented : idToken request with
      | none =>
        rw [presented] at loggedIn
        exact .inl loggedIn
      | some token =>
        rw [presented] at loggedIn
        cases verified : verifyClaims token with
        | error =>
          simp only [verified] at loggedIn
          cases loggedIn
        | ok claims =>
          simp only [verified] at loggedIn
          cases loggedIn
          refine .inr ⟨token, claims, rfl, verified, ?_, rfl⟩
          simp only [verified]
          rfl

theorem admits_of_ungrouped (harmless : (Loss.ungrouped group).Harmless env server request)
    (admits : ((Loss.ungrouped group).apply server).Admits env request) :
    server.Admits env request := by
  rw [admits_iff] at admits ⊢
  obtain ⟨noPreflight, free, login, loggedIn, allowed⟩ := admits
  have allowedBefore : server.rbacAllows env request login = true := by
    refine rbacAllows_mono allowed rfl rfl ?_ id
    intro _ passes
    exact allowsAnonymous_mono passes rfl (Option.isSome_map ..) id
  refine ⟨noPreflight, free, ?_⟩
  obtain ⟨internal, verifier, mappings, secret, redirects, registry, cache⟩ := server
  rcases verifier with _ | _ | verifyClaims
  · exact ⟨login, loggedIn, allowedBefore⟩
  · exact ⟨login, loggedIn, allowedBefore⟩
  · rcases login_of_groupClaims rfl loggedIn with
      same | ⟨token, claims, presented, verified, loggedInBefore, rfl⟩
    · exact ⟨login, same, allowedBefore⟩
    · refine ⟨_, loggedInBefore, ?_⟩
      rcases harmless verifyClaims token claims rfl presented verified with same | ⟨mapped, role⟩
      · rw [rbacAllows] at allowedBefore ⊢
        rwa [← same]
      · rw [rbacAllows, if_pos mapped, role, Bool.or_true]

def singleKeyServer (role : String) : Server where
  registry := some
    { keys :=
        { keys :=
            { rows := [{ id := "k", keyHash := hashOf "sk-1", role := role }]
              unique := List.nodup_singleton _ }
          uniqueHash := List.nodup_singleton _ } }

def asks (method path bearer : String) : Request where
  method := method
  path := path
  authorization := bearer

/-- An identity provider that puts everybody in these groups. -/
def groupServer (groups : List String) : Server where
  oidcVerifier := some (.groupClaims fun _ => .ok { sub := "alice", groups := groups })
  oidcGroupMappings := [("readers", "viewer"), ("callers", "inference")]

end Server

end Purser.Management
