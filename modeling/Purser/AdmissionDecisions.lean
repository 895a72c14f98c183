import Purser.RequestAdmission

/-!
# Decisions of the admission checks

Whether a request is admitted, without the answers that it gets otherwise: what
the role of a login, of a service account or of a key allows, and when a request
without any of them passes.
-/

namespace Purser.Management

def Outcome.isForwarded : Outcome → Bool
  | forwarded _ => true
  | answered _ _ _ => false
  | redirected _ => false

def allowsRole (role : String) (request : Request) : Bool :=
  if role = "admin" then true
  else if role = "inference" then !Server.isManagement request
  else request.method = "GET"

def allowsServiceAccount (role : String) (request : Request) : Bool :=
  if role = "admin" then true
  else if role = "viewer" then request.method = "GET"
  else !Server.isManagement request

namespace Server

/-- What a request without a credential may do. -/
def allowsAnonymous (server : Server) (env : Environment) (request : Request) : Bool :=
  !isManagement request || server.validateInternalToken request.internalToken ||
    (!server.oidcVerifier.isSome && !server.knowsKeys env)

/-- What a key may do with its permissions, or with its role where no permission
is required. -/
def allowsKey (server : Server) (env : Environment) (request : Request) (key : APIKey) : Bool :=
  let required := matchRoutePermission request.method request.path
  if required ≠ "" then server.checkPermission env { apiKey := some key } required
  else allowsRole key.role request

/-- What a bearer value may do: one that matches no key passes. -/
def allowsBearer (server : Server) (env : Environment) (request : Request) : Bool :=
  match server.matchedKey env (bearerToken request) with
  | none => true
  | some key => server.allowsKey env request key

def rbacAllows (server : Server) (env : Environment) (request : Request) (login : Identity) :
    Bool :=
  isPublic request || server.validateInternalToken (bearerToken request) ||
    if login.oidcRole ≠ "" then allowsRole login.oidcRole request
    else
      match server.parseServiceAccountToken env (bearerToken request) with
      | some claims => allowsServiceAccount claims.role request
      | none =>
        if bearerToken request = "" then server.allowsAnonymous env request
        else server.allowsBearer env request

/-- No rate limit holds the request back. -/
def unthrottled (env : Environment) (request : Request) : Bool :=
  isPublic request || (env.throttle request).isNone

theorem isForwarded_enforceRole (viewerMessage inferenceMessage role : String) (request : Request)
    (identity : Identity) :
    (enforceRole viewerMessage inferenceMessage role request identity).isForwarded =
      allowsRole role request := by
  rw [enforceRole, allowsRole]
  split
  · rfl
  · split
    · cases management : isManagement request <;> rfl
    · split
      next get => simp [get, Outcome.isForwarded]
      next other => simp [other, forbidden, Outcome.isForwarded]

theorem isForwarded_enforceServiceAccountRole (role : String) (request : Request)
    (identity : Identity) :
    (enforceServiceAccountRole role request identity).isForwarded =
      allowsServiceAccount role request := by
  rw [enforceServiceAccountRole, allowsServiceAccount]
  split
  · rfl
  · split
    · split
      next get => simp [get, Outcome.isForwarded]
      next other => simp [other, forbidden, Outcome.isForwarded]
    · cases management : isManagement request <;> rfl

section

variable (server : Server) (env : Environment)

include server env

theorem isForwarded_withoutToken (request : Request) (identity : Identity) :
    (server.withoutToken env request identity).isForwarded =
      server.allowsAnonymous env request := by
  rw [withoutToken, allowsAnonymous]
  cases isManagement request with
  | false => rfl
  | true =>
    cases server.validateInternalToken request.internalToken with
    | true => rfl
    | false =>
      cases server.oidcVerifier.isSome with
      | true => rfl
      | false => cases server.knowsKeys env <;> rfl

theorem checkPermission_key (identity : Identity) (key : APIKey) (required : String) :
    server.checkPermission env { identity with apiKey := some key } required =
      server.checkPermission env { apiKey := some key } required :=
  rfl

theorem isPlatformAdmin_key (key : APIKey) :
    (server.resolvePermissions env { apiKey := some key }).isPlatformAdmin =
      decide (key.role = "admin") := by
  simp only [resolvePermissions]
  split <;> rfl

theorem isForwarded_withKey (request : Request) (identity : Identity) (key : APIKey) :
    (server.withKey env request identity key).isForwarded = server.allowsKey env request key := by
  simp only [withKey, allowsKey]
  split
  · rw [checkPermission_key]
    split
    next allowed => rw [allowed]; rfl
    next refused =>
      rw [Bool.not_eq_true] at refused
      rw [refused]
      rfl
  · exact isForwarded_enforceRole _ _ _ _ _

theorem isForwarded_rbacMiddleware (request : Request) (login : Identity) :
    (server.rbacMiddleware env request login).isForwarded =
      server.rbacAllows env request login := by
  simp only [rbacMiddleware, rbacAllows]
  cases isPublic request with
  | true => rfl
  | false =>
    cases server.validateInternalToken (bearerToken request) with
    | true => rfl
    | false =>
      simp only [Bool.false_eq_true, if_false, Bool.or_self, Bool.false_or]
      split
      · exact isForwarded_enforceRole _ _ _ _ _
      · cases server.parseServiceAccountToken env (bearerToken request) with
        | some => exact isForwarded_enforceServiceAccountRole _ _ _
        | none =>
          simp only
          split
          · exact isForwarded_withoutToken _ _ _ _
          · rw [allowsBearer]
            cases server.matchedKey env (bearerToken request) with
            | none => rfl
            | some => exact isForwarded_withKey _ _ _ _ _

end

variable {identity : Identity} {env : Environment} {request : Request}

theorem andThen_eq_forwarded_iff {outcome : Outcome} {next : Identity → Outcome} :
    outcome.andThen next = .forwarded identity ↔
      ∃ first, outcome = .forwarded first ∧ next first = .forwarded identity := by
  cases outcome <;> simp [Outcome.andThen]

theorem isForwarded_iff {outcome : Outcome} :
    outcome.isForwarded = true ↔ ∃ identity, outcome = .forwarded identity := by
  cases outcome <;> simp [Outcome.isForwarded]

instance (server : Server) (env : Environment) (request : Request) :
    Decidable (server.Admits env request) :=
  decidable_of_iff ((server.admission env request).isForwarded = true) isForwarded_iff

theorem rateLimitMiddleware_iff {login : Identity} :
    rateLimitMiddleware env request login = .forwarded identity ↔
      unthrottled env request = true ∧ identity = login := by
  rw [rateLimitMiddleware, unthrottled]
  cases isPublic request with
  | true => simp [eq_comm]
  | false => cases env.throttle request <;> simp [eq_comm]

theorem admission_eq_forwarded_iff {server : Server} :
    server.admission env request = .forwarded identity ↔
      request.method ≠ "OPTIONS" ∧ unthrottled env request = true ∧
        ∃ login, server.oidcMiddleware env request = .forwarded login ∧
          server.rbacMiddleware env request login = .forwarded identity := by
  rw [admission]
  split
  next preflight => simp [preflight]
  next other =>
    simp only [andThen_eq_forwarded_iff, rateLimitMiddleware_iff]
    constructor
    · rintro ⟨_, ⟨login, loggedIn, free, rfl⟩, enforced⟩
      exact ⟨other, free, _, loggedIn, enforced⟩
    · rintro ⟨_, free, login, loggedIn, enforced⟩
      exact ⟨login, ⟨login, loggedIn, free, rfl⟩, enforced⟩

theorem admits_iff {server : Server} :
    server.Admits env request ↔ request.method ≠ "OPTIONS" ∧ unthrottled env request = true ∧
        ∃ login, server.oidcMiddleware env request = .forwarded login ∧
          server.rbacAllows env request login = true := by
  simp only [Admits, admission_eq_forwarded_iff, ← isForwarded_rbacMiddleware, isForwarded_iff]
  constructor
  · rintro ⟨identity, other, free, login, loggedIn, enforced⟩
    exact ⟨other, free, login, loggedIn, identity, enforced⟩
  · rintro ⟨other, free, login, loggedIn, identity, enforced⟩
    exact ⟨identity, other, free, login, loggedIn, enforced⟩

end Server

end Purser.Management
