import Purser.ManagementRegistry
import Purser.SignedTokens

/-!
# Roles, permissions and admission to the management API

A key may do what its role in its team grants, or else what its legacy role
grants.  A first check wants a login if an identity provider is configured, and
a second one enforces the role of the login, of a service account token or of
an API key.  Reading the JSON of a token and the rate limits are parameters.
-/

namespace Purser.Management

/-- A permission grants itself, and one that ends in a wildcard grants all that
start like it. -/
def grants (permission required : String) : Bool := permission = required ∨
    (":*".toList.isSuffixOf permission.toList ∧
      permission.toList.dropLast.isPrefixOf required.toList) ∨
    (permission = "inference:*" ∧ "inference:".toList.isPrefixOf required.toList)

def hasPermission (effective : List String) (required : String) : Bool :=
  effective.any fun permission => grants permission required

structure BuiltinRole where
  id : String
  name : String
  permissions : List String

def systemRoles : List BuiltinRole :=
  [ { id := "platform_admin"
      name := "Platform Administrator"
      permissions := ["platform:orgs:create", "platform:orgs:delete", "platform:pools:manage",
          "platform:users:invite", "org:teams:create", "org:teams:delete", "org:members:invite",
          "org:members:remove", "org:roles:create", "org:roles:delete", "org:pools:request",
          "team:models:deploy", "team:models:undeploy", "team:keys:create", "team:keys:revoke",
          "team:members:view", "team:members:invite", "team:members:remove", "team:metrics:view",
          "team:approvals:view", "team:approvals:review", "inference:call"] },
    { id := "org_admin"
      name := "Organization Administrator"
      permissions :=
        ["org:teams:create", "org:teams:delete", "org:members:invite", "org:members:remove",
          "org:roles:create", "org:roles:delete", "org:pools:request", "team:models:deploy",
          "team:models:undeploy", "team:keys:create", "team:keys:revoke", "team:members:view",
          "team:members:invite", "team:members:remove", "team:metrics:view",
          "team:approvals:view", "team:approvals:review", "inference:call"] },
    { id := "team_admin"
      name := "Team Administrator"
      permissions :=
        ["team:models:deploy", "team:models:undeploy", "team:keys:create", "team:keys:revoke",
          "team:members:view", "team:members:invite", "team:members:remove", "team:metrics:view",
          "team:approvals:view", "team:approvals:review", "inference:call"] },
    { id := "developer"
      name := "Developer"
      permissions :=
        ["team:models:deploy", "team:models:undeploy", "team:keys:create", "team:metrics:view",
          "inference:call"] },
    { id := "viewer"
      name := "Viewer"
      permissions := ["team:members:view", "team:metrics:view", "team:approvals:view"] },
    { id := "inference_only"
      name := "Inference Only"
      permissions := ["inference:call"] } ]

def systemRolePermissions (id : String) : List String :=
  ((systemRoles.find? fun role => role.id = id).map BuiltinRole.permissions).getD []

def legacyRolePerms (role : String) : List String :=
  if role = "admin" then systemRolePermissions "platform_admin"
  else if role = "viewer" then systemRolePermissions "viewer"
  else if role = "inference" then ["inference:call"]
  else []

structure PermissionContext where
  userID : String
  teamID : String := ""
  orgID : String := ""
  permissions : List String
  isOrgAdmin : Bool := false
  isPlatformAdmin : Bool
  legacyAPIKeyRole : String := ""

def fromLegacyRole (keyID role : String) : PermissionContext where
  userID := keyID
  legacyAPIKeyRole := role
  permissions := legacyRolePerms role
  isPlatformAdmin := role = "admin"

structure Route where
  method : String
  path : String
  permission : String

/-- The braces of a pattern stand around the name of a path parameter.  No two
patterns of a method match one path, so the order of the table does not
matter. -/
def routePermission : List Route := [ ⟨"GET", "/api/v1/nodes", "team:metrics:view"⟩,
    ⟨"POST", "/api/v1/nodes/\x7bid\x7d/drain", "team:models:deploy"⟩,
    ⟨"DELETE", "/api/v1/nodes/\x7bid\x7d", "org:pools:request"⟩,
    ⟨"GET", "/api/v1/models", "team:metrics:view"⟩,
    ⟨"POST", "/api/v1/models", "team:models:deploy"⟩,
    ⟨"DELETE", "/api/v1/models/\x7bid\x7d", "team:models:undeploy"⟩,
    ⟨"POST", "/api/v1/models/\x7bid\x7d/deploy", "team:models:deploy"⟩,
    ⟨"GET", "/api/v1/deployments", "team:metrics:view"⟩,
    ⟨"DELETE", "/api/v1/deployments/\x7bid\x7d", "team:models:undeploy"⟩,
    ⟨"GET", "/api/v1/apikeys", "team:metrics:view"⟩,
    ⟨"POST", "/api/v1/apikeys", "team:keys:create"⟩,
    ⟨"DELETE", "/api/v1/apikeys/\x7bid\x7d", "team:keys:revoke"⟩,
    ⟨"POST", "/api/v1/apikeys/\x7bid\x7d/rotate", "team:keys:create"⟩,
    ⟨"GET", "/api/v1/enterprise/audit-log", "team:metrics:view"⟩,
    ⟨"GET", "/api/v1/inference-audit", "team:metrics:view"⟩,
    ⟨"GET", "/api/v1/approvals", "team:approvals:view"⟩,
    ⟨"POST", "/api/v1/approvals/\x7bdeploymentId\x7d/approve", "team:approvals:review"⟩,
    ⟨"POST", "/api/v1/approvals/\x7bdeploymentId\x7d/reject", "team:approvals:review"⟩,
    ⟨"GET", "/api/v1/policies", "team:metrics:view"⟩,
    ⟨"PUT", "/api/v1/policies/\x7bname\x7d", "org:roles:create"⟩,
    ⟨"DELETE", "/api/v1/policies/\x7bname\x7d", "org:roles:delete"⟩,
    ⟨"POST", "/api/v1/config/apply", "team:models:deploy"⟩,
    ⟨"POST", "/api/v1/config/diff", "team:metrics:view"⟩,
    ⟨"POST", "/api/v1/platform/orgs", "platform:orgs:create"⟩,
    ⟨"DELETE", "/api/v1/platform/orgs/\x7bid\x7d", "platform:orgs:delete"⟩,
    ⟨"POST", "/api/v1/platform/pools", "platform:pools:manage"⟩ ]

def trimSlashes (text : List Char) : List Char :=
  ((text.dropWhile (· = '/')).reverse.dropWhile (· = '/')).reverse

def segments (path : String) : List (List Char) := (trimSlashes path.toList).splitOn '/'

/-- A segment in braces matches every segment, the empty one included. -/
def isWildcard (segment : List Char) : Bool :=
  segment.head? = some '\x7b' ∧ segment.getLast? = some '\x7d'

def matchSegments : List (List Char) → List (List Char) → Bool
  | [], [] => true
  | pattern :: patterns, part :: parts =>
    (isWildcard pattern || pattern = part) && matchSegments patterns parts
  | _, _ => false

def matchPattern (pattern urlPath : String) : Bool :=
  matchSegments (segments pattern) (segments urlPath)

/-- The permission that a table of routes requires: that of the route as it
stands, or else of the longest pattern that matches. -/
def matchRoute (table : List Route) (method urlPath : String) : String :=
  match table.find? fun route => route.method = method ∧ route.path = urlPath with
  | some route => route.permission
  | none =>
    ((table.filter fun route => route.method = method ∧ matchPattern route.path urlPath).foldl
      (fun best route =>
        if best.1 < route.path.length then (route.path.length, route.permission) else best)
      (0, "")).2

def matchRoutePermission : String → String → String := matchRoute routePermission

theorem exists_route_of_required {method urlPath : String}
    (required : matchRoutePermission method urlPath ≠ "") :
    ∃ route ∈ routePermission, route.method = method ∧
      route.permission = matchRoutePermission method urlPath := by
  have folded (routes : List Route) (best : ℕ × String) :
      (routes.foldl (fun best route =>
        if best.1 < route.path.length then (route.path.length, route.permission) else best)
          best).2 = best.2 ∨
      ∃ route ∈ routes, route.permission = (routes.foldl (fun best route =>
        if best.1 < route.path.length then (route.path.length, route.permission) else best)
          best).2 := by
    induction routes generalizing best with
    | nil => exact .inl rfl
    | cons route _ induction =>
      rw [List.foldl_cons]
      rcases induction (if best.1 < route.path.length then
        (route.path.length, route.permission) else best) with kept | ⟨other, member, same⟩
      · rw [kept]
        split
        · exact .inr ⟨route, by simp, rfl⟩
        · exact .inl rfl
      · exact .inr ⟨other, by simp [member], same⟩
  unfold matchRoutePermission matchRoute at required ⊢
  split at required
  next route found =>
    have held := List.find?_some found
    simp only [decide_eq_true_eq] at held
    exact ⟨route, List.mem_of_find?_eq_some found, held.1, rfl⟩
  next missed =>
    rcases folded (routePermission.filter fun route =>
      route.method = method ∧ matchPattern route.path urlPath) (0, "") with
      none | ⟨route, member, same⟩
    · exact absurd none required
    · have held := (List.mem_filter.mp member).2
      simp only [decide_eq_true_eq] at held
      exact ⟨route, (List.mem_filter.mp member).1, held.1, same⟩

open SignedTokens

structure SaTokenClaims where
  sub : String
  iss : String := "purser-cp"
  aud : String := "purser-api"
  iat : ℤ := 0
  exp : ℤ
  role : String
  tenant : String
  scopes : List String := []
  type : String := "service_account"

structure SessionClaims where
  sub : String
  email : String
  exp : ℤ

structure TokenClaims where
  sub : String
  email : String := ""
  groups : List String := []
  roles : List String := []
  tenant : String := ""

inductive TokenVerifier
  | basic (verifyToken : String → Except String (String × String))
  | groupClaims (verifyClaims : String → Except String TokenClaims)

structure Request where
  method : String
  path : String
  authorization : String := ""
  /-- The header `X-Purser-Internal-Token`. -/
  internalToken : String := ""
  accept : String := ""
  /-- The cookie `purser_session`. -/
  session : Option String := none

structure Registry where
  keys : KeyTable := .empty
  platform : Platform := {}
  sessions : List OIDCSession := []

structure Server where
  internalToken : String := ""
  oidcVerifier : Option TokenVerifier := none
  oidcGroupMappings : List (String × String) := []
  sessionSecret : List UInt8 := []
  /-- The authorization code flow is configured. -/
  redirects : Bool := false
  registry : Option Registry := some {}
  hasAnyAPIKeyCache : Bool := false

/-- The surroundings of a request: the clock, the calls of the registry that fail,
how JSON is read, and what the rate limits say. -/
structure Environment where
  now : String := ""
  unixNow : ℤ := 0
  getAPIKeyByHashFails : Bool := false
  hasAnyAPIKeyFails : Bool := false
  getOIDCSessionFails : Bool := false
  getEffectivePermissionsFails : Bool := false
  readClaims : List UInt8 → Option SaTokenClaims := fun _ => none
  readSession : List UInt8 → Option SessionClaims := fun _ => none
  throttle : Request → Option String := fun _ => none

/-- What the checks found out about the caller. -/
structure Identity where
  oidcSub : String := ""
  oidcEmail : String := ""
  oidcRole : String := ""
  oidcTenant : String := ""
  apiKey : Option APIKey := none
deriving DecidableEq

inductive Outcome
  /-- The request is handed to its handler. -/
  | forwarded (identity : Identity)
  | answered (status : ℕ) (error message : String)
  | redirected (location : String)
deriving DecidableEq

def Outcome.andThen (outcome : Outcome) (next : Identity → Outcome) : Outcome :=
  match outcome with
  | forwarded identity => next identity
  | answered status error message => answered status error message
  | redirected location => redirected location

def afterLead (lead text : String) : Option String :=
  if lead.toList.isPrefixOf text.toList then
    some (String.ofList (text.toList.drop lead.length))
  else none

def bearerToken (request : Request) : String := (afterLead "Bearer " request.authorization).getD ""

def isSpace (c : Char) : Bool :=
  c ∈ ['\t', '\n', '\x0b', '\x0c', '\r', ' ', '\u0085', '\u00a0', '\u1680', '\u2028', '\u2029',
    '\u202f', '\u205f', '\u3000'] ∨ ('\u2000' ≤ c ∧ c ≤ '\u200a')

def idToken (request : Request) : Option String :=
  (afterLead "Bearer " request.authorization).filter fun token =>
    token.toList.any fun c => !isSpace c

namespace Server

variable (server : Server) (env : Environment) (request : Request) (identity : Identity)
  (key : APIKey)

def validateInternalToken (provided : String) : Bool :=
  server.internalToken ≠ "" ∧ provided = server.internalToken

/-- The claims of a token of two parts, of which the second one signs the first
one. -/
def parseServiceAccountToken (token : String) : Option SaTokenClaims :=
  if server.sessionSecret = [] ∨ token = "" then none
  else
    let payloadEnc := token.toList.takeWhile (· ≠ '.')
    let rest := token.toList.drop payloadEnc.length
    match rest with
    | [] => none
    | _ :: sigEnc =>
      if payloadEnc = [] ∨ sigEnc = [] ∨ '.' ∈ sigEnc then none
      else
        match decodeRawURL payloadEnc, decodeRawURL sigEnc with
        | some payload, some sig =>
          if sig = hmac server.sessionSecret payload then
            (env.readClaims payload).filter fun claims =>
              claims.type = "service_account" ∧ env.unixNow ≤ claims.exp
          else none
        | _, _ => none

def verifySession (token : String) : Option SessionClaims :=
  let sig := (token.toList.reverse.takeWhile (· ≠ '.')).reverse
  if '.' ∈ token.toList then
    let encoded := token.toList.take (token.toList.length - sig.length - 1)
    if sig = encodeRawURL (hmac server.sessionSecret (String.ofList encoded).toUTF8.data.toList) then
      ((decodeRawURL encoded).bind env.readSession).filter fun claims =>
        env.unixNow ≤ claims.exp
    else none
  else none

def sessionOf : Option SessionClaims :=
  if server.sessionSecret = [] then none
  else request.session.bind fun cookie =>
    (server.verifySession env cookie).filter fun _ =>
      match server.registry with
      | none => true
      | some registry =>
        !env.getOIDCSessionFails && registry.sessions.any fun session =>
          session.tokenHash = hashOf cookie ∧ !session.revoked ∧ env.now < session.expiresAt

def rolePriority (role : String) : ℕ :=
  if role = "admin" then 3 else if role = "inference" then 2 else if role = "viewer" then 1 else 0

def resolveGroupRole (groups : List String) : String :=
  (groups.foldl (fun best group =>
    match server.oidcGroupMappings.lookup group with
    | some role => if best.1 < rolePriority role then (rolePriority role, role) else best
    | none => best) (0, "")).2

def identityOf (claims : TokenClaims) : Identity where
  oidcSub := claims.sub
  oidcEmail := claims.email
  oidcRole :=
    if server.oidcGroupMappings = [] then ""
    else server.resolveGroupRole (claims.groups ++ claims.roles)
  oidcTenant := claims.tenant

def verify (verifier : TokenVerifier) (token : String) : Option Identity :=
  match verifier with
  | .basic verifyToken =>
    (verifyToken token).toOption.map fun claims => { oidcSub := claims.1, oidcEmail := claims.2 }
  | .groupClaims verifyClaims => (verifyClaims token).toOption.map server.identityOf

def loginRequired : Outcome := .answered 401 "unauthorized" "valid OIDC token required"

def authPaths : List String :=
  ["/auth/login", "/auth/callback", "/auth/logout", "/auth/backchannel-logout", "/auth/ldap-login"]

def containsText (part text : List Char) : Bool := text.tails.any part.isPrefixOf

def oidcMiddleware : Outcome :=
  match server.oidcVerifier with
  | none => .forwarded {}
  | some verifier =>
    if request.path ∈ authPaths then .forwarded {}
    else if server.validateInternalToken request.internalToken then .forwarded {}
    else
      match idToken request with
      | some token =>
        match server.verify verifier token with
        | some identity => .forwarded identity
        | none => loginRequired
      | none =>
        match server.sessionOf env request with
        | some claims => .forwarded { oidcSub := claims.sub, oidcEmail := claims.email }
        | none =>
          if containsText "text/html".toList request.accept.toList ∧ server.redirects then
            .redirected "/auth/login"
          else loginRequired

def rbacPublicPaths : List String :=
  ["/api/v1/cluster/health", "/api/v1/cluster/status", "/api/v1/openapi.json",
    "/api/v1/platform/health", "/auth/token", "/auth/ldap-login"]

def isPublic : Bool := request.method = "GET" ∧ request.path ∈ rbacPublicPaths

def isManagement : Bool := "/api/v1/".toList.isPrefixOf request.path.toList

def forbidden (message : String) : Outcome := .answered 403 "forbidden" message

def enforceRole (viewerMessage inferenceMessage role : String) (request : Request)
    (identity : Identity) : Outcome :=
  if role = "admin" then .forwarded identity
  else if role = "inference" then
    if isManagement request then forbidden inferenceMessage else .forwarded identity
  else if request.method = "GET" then .forwarded identity
  else forbidden viewerMessage

def enforceOIDCRole : String → Request → Identity → Outcome :=
  enforceRole "OIDC-assigned viewer role allows read-only access"
    "OIDC-assigned inference role cannot manage the cluster"

def enforceKeyRole : String → Request → Identity → Outcome :=
  enforceRole "this API key has viewer role (read-only)"
    "this API key has inference role and cannot manage the cluster"

def enforceServiceAccountRole (role : String) (request : Request) (identity : Identity) : Outcome :=
  if role = "admin" then .forwarded identity
  else if role = "viewer" then
    if request.method = "GET" then .forwarded identity
    else forbidden "service account viewer role allows read-only access"
  else if isManagement request then
    forbidden "service account inference role cannot manage the cluster"
  else .forwarded identity

def resolvePermissions :
    PermissionContext :=
  match identity.apiKey with
  | none =>
    fromLegacyRole "oidc" (if identity.oidcRole = "" then "viewer" else identity.oidcRole)
  | some key =>
    let effective := server.registry.bind fun registry =>
      if key.tenant = "" ∨ env.getEffectivePermissionsFails then none
      else registry.platform.getEffectivePermissions key.id key.tenant
    match effective.filter fun effective => effective.permissions ≠ [] with
    | some effective =>
      { userID := key.id
        teamID := key.tenant
        orgID := effective.orgID
        permissions := effective.permissions
        isOrgAdmin := effective.isOrgAdmin
        isPlatformAdmin := key.role = "admin" }
    | none => fromLegacyRole key.id key.role

def checkPermission (required : String) : Bool :=
  let context := server.resolvePermissions env identity
  context.isPlatformAdmin || hasPermission context.permissions required

/-- Some enabled key is known to exist. -/
def knowsKeys : Bool :=
  server.hasAnyAPIKeyCache || match server.registry with
    | none => false
    | some registry => !env.hasAnyAPIKeyFails && registry.keys.hasAnyAPIKey

/-- A request without a bearer value: while no key is known to exist, everybody
may do everything. -/
def withoutToken : Outcome :=
  if !isManagement request then .forwarded identity
  else if server.validateInternalToken request.internalToken then .forwarded identity
  else if server.oidcVerifier.isSome then
    .answered 401 "unauthorized" "authentication required: provide a valid API key or OIDC token"
  else if server.knowsKeys env then .answered 401 "unauthorized" "authentication required"
  else .forwarded identity

/-- The key of a bearer value, if the lookup succeeds. -/
def matchedKey (token : String) : Option APIKey :=
  server.registry.bind fun registry =>
    if env.getAPIKeyByHashFails then none
    else registry.keys.getAPIKeyByHash env.now (hashOf token)

/-- A request with a key: its route requires a permission, or else the role of the
key decides. -/
def withKey : Outcome :=
  let identity := { identity with apiKey := some key }
  let required := matchRoutePermission request.method request.path
  if required ≠ "" then
    if server.checkPermission env identity required then .forwarded identity
    else forbidden "insufficient permissions"
  else enforceKeyRole key.role request identity

def rbacMiddleware : Outcome :=
  let token := bearerToken request
  if isPublic request then .forwarded identity
  else if server.validateInternalToken token then .forwarded identity
  else if identity.oidcRole ≠ "" then enforceOIDCRole identity.oidcRole request identity
  else
    match server.parseServiceAccountToken env token with
    | some claims => enforceServiceAccountRole claims.role request identity
    | none =>
      if token = "" then server.withoutToken env request identity
      else
        match server.matchedKey env token with
        -- A bearer value that matches no key passes.
        | none => .forwarded identity
        | some key => server.withKey env request identity key

def rateLimitMiddleware : Outcome :=
  if isPublic request then .forwarded identity
  else
    match env.throttle request with
    | none => .forwarded identity
    | some message => .answered 429 "rate_limit_exceeded" message

/-- The chain of the checks.  A preflight request is answered at once. -/
def admission : Outcome :=
  if request.method = "OPTIONS" then .answered 204 "" ""
  else
    ((server.oidcMiddleware env request).andThen (rateLimitMiddleware env request)).andThen
      (server.rbacMiddleware env request)

def Admits : Prop :=
  ∃ identity, server.admission env request = .forwarded identity

end Server

end Purser.Management
