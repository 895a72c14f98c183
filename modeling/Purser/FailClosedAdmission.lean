import Purser.AdmissionDecisions

/-!
# Who reaches the handlers of the management API

With an identity provider every request needs a credential.  Without one, a
bearer value that matches no key passes the checks.
-/

namespace Purser.Management

namespace Server

/-- The request carries the internal token, the bearer value of a usable key, a
valid service account token, or a login that is accepted. -/
def Credentialed (server : Server) (env : Environment) (request : Request) : Prop :=
  (server.validateInternalToken (bearerToken request) = true ∨
    server.validateInternalToken request.internalToken = true) ∨
  (∃ registry, server.registry = some registry ∧
    ∃ key ∈ registry.keys.rows, key.keyHash = hashOf (bearerToken request) ∧
      key.usable env.now = true) ∨
  (server.parseServiceAccountToken env (bearerToken request)).isSome = true ∨
  (∃ verifier, server.oidcVerifier = some verifier ∧
    ((∃ token, idToken request = some token ∧ (server.verify verifier token).isSome = true) ∨
      (server.sessionOf env request).isSome = true))

variable {request : Request} {server : Server} {env : Environment}

section

variable (management : isManagement request = true)

include management

theorem not_mem_authPaths : request.path ∉ authPaths := by
  intro member
  have elsewhere : ∀ path ∈ authPaths, "/api/v1/".toList.isPrefixOf path.toList = false := by
    decide
  rw [isManagement, elsewhere _ member] at management
  cases management

/-- Who passes the first check of a server with an identity provider. -/
theorem login_of_oidcMiddleware {verifier : TokenVerifier} {login : Identity}
    (configured : server.oidcVerifier = some verifier)
    (passed : server.oidcMiddleware env request = .forwarded login) :
    server.validateInternalToken request.internalToken = true ∨
      (∃ token, idToken request = some token ∧ server.verify verifier token = some login) ∨
      (server.sessionOf env request).isSome = true := by
  rw [oidcMiddleware, configured] at passed
  simp only at passed
  rw [if_neg (not_mem_authPaths management)] at passed
  split at passed
  next internal => exact .inl internal
  next =>
    split at passed
    next token bearer =>
      split at passed
      next identity verified =>
        cases passed
        exact .inr (.inl ⟨token, bearer, verified⟩)
      next => cases passed
    next =>
      split at passed
      next claims session =>
        refine .inr (.inr ?_)
        rw [session]
        rfl
      next =>
        split at passed
        · cases passed
        · cases passed

/-- Without an identity provider and without a bearer value, the second check
wants the internal token as long as it knows of a key. -/
theorem internal_of_withoutToken {login identity : Identity} (known : server.knowsKeys env = true)
    (passed : server.withoutToken env request login = .forwarded identity) :
    server.validateInternalToken request.internalToken = true := by
  rw [withoutToken, management] at passed
  simp only [Bool.not_true, Bool.false_eq_true, if_false, known, if_true] at passed
  split at passed
  next internal => exact internal
  next =>
    split at passed
    · cases passed
    · cases passed

end

def loginServer : Server where
  oidcVerifier := some (.basic fun token => if token = "id" then .ok ("alice", "") else .error "invalid")

def loggedInRequest : Request where
  method := "DELETE"
  path := "/api/v1/deployments/d"
  authorization := "Bearer id"

theorem not_credentialed_of_unmatched {registry : Registry} (noInternal : server.internalToken = "")
    (noProvider : server.oidcVerifier = none) (noSecret : server.sessionSecret = [])
    (registered : server.registry = some registry)
    (unmatched : ∀ key ∈ registry.keys.rows, key.usable env.now = true →
      key.keyHash ≠ hashOf (bearerToken request)) : ¬ server.Credentialed env request := by
  rintro ((internal | internal) | ⟨other, same, key, member, hash, usable⟩ | parsed |
    ⟨verifier, configured, _⟩)
  · simp [validateInternalToken, noInternal] at internal
  · simp [validateInternalToken, noInternal] at internal
  · rw [registered] at same
    cases same
    exact unmatched key member usable hash
  · simp [parseServiceAccountToken, noSecret] at parsed
  · rw [noProvider] at configured
    cases configured

def threeKeys : KeyTable where
  keys :=
    { rows :=
        [{ id := "live", keyHash := hashOf "sk-1" },
          { id := "off", keyHash := hashOf "sk-2", role := "inference", enabled := false },
          { id := "old", keyHash := hashOf "sk-3", role := "inference",
            expiresAt := some "2026-01-01T00:00:00Z" }]
      unique := by decide }
  uniqueHash := by decide +kernel

def keyServer : Server where
  registry := some { keys := threeKeys }

def disabledKeyServer : Server where
  registry := some
    { keys :=
        { keys :=
            { rows := [{ id := "off", keyHash := hashOf "sk-2", enabled := false }]
              unique := by decide }
          uniqueHash := by decide } }

def february : Environment where
  now := "2026-02-01T00:00:00Z"

def deletes (authorization : String) : Request where
  method := "DELETE"
  path := "/api/v1/deployments/d"
  authorization := authorization

end Server

end Purser.Management
