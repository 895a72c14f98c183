import Purser.APIKeyTable
import Purser.AdmissionDecisions
import Purser.TextFormatting

/-!
# Creating, rotating and deleting API keys

The plaintext of a key is shown once, in the answer that creates it.  What other
handlers do is a parameter of a call.
-/

namespace Purser.Management

open TextFormatting

structure CreateAPIKeyRequest where
  name : String := ""
  tenant : String := ""
  quota : ℤ := 0
  role : String := ""

/-- The calls of the registry that fail, with the text of the failure, and the text
of a violated constraint. -/
structure KeyFaults where
  getAPIKey : Option String := none
  createAPIKey : Option String := none
  rotateAPIKey : Option String := none
  deleteAPIKey : Option String := none
  listAPIKeys : Option String := none
  constraint : String := "UNIQUE constraint failed"

structure Call where
  request : Request
  env : Environment := {}
  faults : KeyFaults := {}
  /-- A request without content has no body. -/
  body : Option (Except String CreateAPIKeyRequest) := none
  randID : String := ""
  secret : String := ""
  /-- What a handler of another endpoint does. -/
  elsewhere : Server → Server := id

inductive KeyReply
  | failed (status : ℕ) (error message : String)
  | redirected (location : String)
  | created (id name tenant role key : String)
  | rotated (oldID newID key role tenant message : String)
  | deleted
  | listed (keys : List APIKey)
  /-- The handler of another endpoint answers, or none does. -/
  | other
deriving DecidableEq

/-- The plaintext that an answer shows. -/
def KeyReply.disclosed : KeyReply → Option String
  | created _ _ _ _ key => some key
  | rotated _ _ key _ _ _ => some key
  | _ => none

inductive KeyEndpoint
  | create
  | list
  | delete (id : String)
  | rotate (id : String)
deriving DecidableEq

/-- The handler that the patterns of the routes select. -/
def keyEndpoint (request : Request) : Option KeyEndpoint :=
  match request.method, (request.path.toList.splitOn '/').map String.ofList with
  | "POST", ["", "api", "v1", "apikeys"] => some .create
  | "GET", ["", "api", "v1", "apikeys"] => some .list
  | "DELETE", ["", "api", "v1", "apikeys", id] => if id = "" then none else some (.delete id)
  | "POST", ["", "api", "v1", "apikeys", id, "rotate"] =>
    if id = "" then none else some (.rotate id)
  | _, _ => none

def actorFromRequest (request : Request) (identity : Identity) : String :=
  if identity.oidcSub ≠ "" then "oidc:" ++ identity.oidcSub
  else if identity.oidcEmail ≠ "" then "oidc:" ++ identity.oidcEmail
  else if bearerToken request ≠ "" then
    let base := "apikey:" ++ String.ofList ((hashOf (bearerToken request)).toList.take 8)
    match identity.apiKey with
    | some key => if key.tenant ≠ "" then base ++ "@" ++ key.tenant else base
    | none => base
  else "system"

def extractRequestTenant (identity : Identity) : String :=
  match identity.apiKey.filter fun key => key.role ≠ "admin" with
  | some key => key.tenant
  | none => if identity.oidcRole = "viewer" then identity.oidcTenant else ""

namespace Call

def newID (call : Call) : String := "key-" ++ call.randID

def plaintext (call : Call) : String := "sk-" ++ call.secret

end Call

namespace Registry

variable (registry : Registry) (call : Call) (identity : Identity) (oldID : String)

def withKeys (keys : KeyTable) : Registry := { registry with keys := keys }

def handleCreateAPIKey : KeyReply × Registry :=
  match call.body.getD (.ok {}) with
  | .error problem => (.failed 400 "bad_request" ("invalid JSON body: " ++ problem), registry)
  | .ok body =>
    let role := KeyTable.defaultRole body.role
    if role = "admin" ∨ role = "viewer" ∨ role = "inference" then
      let key : APIKey :=
        { id := call.newID
          name := body.name
          keyHash := hashOf call.plaintext
          tenant := body.tenant
          role := role
          quota := body.quota
          createdBy := actorFromRequest call.request identity }
      let failed (problem : String) : KeyReply :=
        .failed 500 "create_apikey_failed"
          ("registry: create api_key " ++ quoted call.newID ++ ": " ++ problem)
      match call.faults.createAPIKey with
      | some problem => (failed problem, registry)
      | none =>
        match KeyTable.createAPIKey call.env.now registry.keys key with
        | none => (failed call.faults.constraint, registry)
        | some keys =>
          (.created call.newID body.name body.tenant role call.plaintext, registry.withKeys keys)
    else
      (.failed 400 "invalid_role" "role must be one of: admin, viewer, inference", registry)

def handleRotateAPIKey : KeyReply × Registry :=
  match call.faults.getAPIKey with
  | some problem =>
    (.failed 500 "get_apikey_failed"
      ("registry: get api_key " ++ quoted oldID ++ ": " ++ problem), registry)
  | none =>
    match (registry.keys.getAPIKey oldID).map KeyTable.scanAPIKey with
    | none => (.failed 404 "not_found" "api key not found", registry)
    | some old =>
      if !old.enabled then
        (.failed 409 "key_already_revoked" "cannot rotate a disabled key", registry)
      else
        let newKey : APIKey :=
          { id := call.newID
            name := old.name ++ " (rotated)"
            keyHash := hashOf call.plaintext
            tenant := old.tenant
            role := old.role
            quota := old.quota
            expiresAt := old.expiresAt
            predecessorID := oldID
            scopes := old.scopes
            createdBy := actorFromRequest call.request identity }
        match call.faults.rotateAPIKey with
        | some problem => (.failed 500 "rotate_failed" problem, registry)
        | none =>
          match KeyTable.rotateAPIKey call.env.now registry.keys oldID newKey with
          | none =>
            (.failed 500 "rotate_failed"
              ("registry: rotate_api_key insert: " ++ call.faults.constraint), registry)
          | some keys =>
            (.rotated oldID call.newID call.plaintext newKey.role newKey.tenant
              "Copy the key now — it is shown only once.", registry.withKeys keys)

def handleDeleteAPIKey (id : String) : KeyReply × Registry :=
  match call.faults.deleteAPIKey with
  | some problem =>
    (.failed 500 "delete_apikey_failed"
      ("registry: delete api_key " ++ quoted id ++ ": " ++ problem), registry)
  | none =>
    match registry.keys.deleteAPIKey id with
    | none => (.failed 404 "not_found" "api key not found", registry)
    | some keys => (.deleted, registry.withKeys keys)

def handleListAPIKeys : KeyReply × Registry :=
  let tenant := extractRequestTenant identity
  match call.faults.listAPIKeys with
  | some problem =>
    let statement :=
      if tenant = "" then "registry: list api_keys: " else "registry: list api_keys by tenant: "
    (.failed 500 "list_apikeys_failed" (statement ++ problem), registry)
  | none => (.listed (registry.keys.listAPIKeysByTenant tenant), registry)

def handleKeys : KeyEndpoint → KeyReply × Registry
  | .create => registry.handleCreateAPIKey call identity
  | .list => registry.handleListAPIKeys call identity
  | .delete id => registry.handleDeleteAPIKey call id
  | .rotate id => registry.handleRotateAPIKey call identity id

end Registry

inductive KeyChange (table : KeyTable) : KeyEndpoint → KeyTable → Prop
  | kept (endpoint : KeyEndpoint) : KeyChange table endpoint table
  | created (key : APIKey) (after : KeyTable) (inserted : table.insert key = some after) :
      KeyChange table .create after
  | rotated (oldID now : String) (old key : APIKey) (added : KeyTable)
      (found : table.getAPIKey oldID = some old) (inserted : table.insert key = some added)
      (tenant : key.tenant = old.tenant) :
      KeyChange table (.rotate oldID)
        (added.amend oldID fun row => { row with enabled := false, rotatedAt := some now })
  | deleted (id : String) (after : KeyTable) (erased : table.deleteAPIKey id = some after) :
      KeyChange table (.delete id) after

namespace Registry

section

variable (registry : Registry) (call : Call)

include registry call

theorem change_of_create (identity : Identity) :
    KeyChange registry.keys .create (registry.handleCreateAPIKey call identity).2.keys := by
  rw [handleCreateAPIKey]
  split
  · exact .kept _
  · dsimp only
    split
    · split
      · exact .kept _
      · split
        · exact .kept _
        next keys inserted => exact .created _ keys inserted
    · exact .kept _

theorem change_of_rotate (identity : Identity) (oldID : String) :
    KeyChange registry.keys (.rotate oldID)
      (registry.handleRotateAPIKey call identity oldID).2.keys := by
  rw [handleRotateAPIKey]
  split
  · exact .kept _
  · split
    · exact .kept _
    next scanned found =>
      obtain ⟨old, held, rfl⟩ := Option.map_eq_some_iff.mp found
      dsimp only
      split
      · exact .kept _
      · split
        · exact .kept _
        · split
          · exact .kept _
          next keys rotated =>
            obtain ⟨added, inserted, rfl⟩ := Option.map_eq_some_iff.mp rotated
            exact .rotated oldID call.env.now old _ added held inserted rfl

theorem change_of_delete (id : String) :
    KeyChange registry.keys (.delete id) (registry.handleDeleteAPIKey call id).2.keys := by
  rw [handleDeleteAPIKey]
  split
  · exact .kept _
  · split
    · exact .kept _
    next keys erased => exact .deleted id keys erased

theorem change_of_handleKeys (identity : Identity) (endpoint : KeyEndpoint) :
    KeyChange registry.keys endpoint (registry.handleKeys call identity endpoint).2.keys := by
  cases endpoint with
  | create => exact registry.change_of_create call identity
  | list =>
    simp only [handleKeys, handleListAPIKeys]
    split <;> exact .kept _
  | delete id => exact registry.change_of_delete call id
  | rotate id => exact registry.change_of_rotate call identity id

end

end Registry

theorem KeyChange.mem {table after : KeyTable} {endpoint : KeyEndpoint}
    (change : KeyChange table endpoint after) {key : APIKey} (member : key ∈ table.rows)
    (undeleted : endpoint ≠ .delete key.id) (unrotated : endpoint ≠ .rotate key.id) :
    key ∈ after.rows := by
  cases change with
  | kept => exact member
  | created _ _ inserted => exact (KeyTable.mem_insert_iff inserted).mpr (.inl member)
  | rotated oldID _ _ _ _ _ inserted =>
    have different : oldID ≠ _ := fun same => unrotated (congrArg KeyEndpoint.rotate same)
    refine KeyTable.mem_amend_iff.mpr ⟨_, (KeyTable.mem_insert_iff inserted).mpr (.inl member), ?_⟩
    exact amendRow_of_ne different.symm _
  | deleted _ _ erased =>
    obtain ⟨old, found, rfl⟩ := Option.map_eq_some_iff.mp erased
    refine KeyedStores.Store.mem_erase_iff.mpr ⟨member, ?_⟩
    exact fun same => undeleted (congrArg KeyEndpoint.delete same.symm)

namespace Server

def dispatchKeys (server : Server) (call : Call) (identity : Identity) : KeyReply × Server :=
  match keyEndpoint call.request, server.registry with
  | some endpoint, some registry =>
    let handled := registry.handleKeys call identity endpoint
    (handled.1, { server with registry := some handled.2 })
  -- Without a registry the handlers do not come to an answer.
  | some _, none => (.other, server)
  | none, _ => (.other, call.elsewhere server)

def serve (server : Server) (call : Call) : KeyReply × Server :=
  match server.admission call.env call.request with
  | .forwarded identity => server.dispatchKeys call identity
  | .answered status error message => (.failed status error message, server)
  | .redirected location => (.redirected location, server)

end Server

/-- One request of a history. -/
structure Moment where
  before : Server
  call : Call

namespace Moment

def reply (moment : Moment) : KeyReply := (moment.before.serve moment.call).1

def after (moment : Moment) : Server := (moment.before.serve moment.call).2

end Moment

def Server.history (server : Server) : List Call → List Moment
  | [] => []
  | call :: calls => ⟨server, call⟩ :: (server.serve call).2.history calls

/-- Every request carries a plaintext that was held at first or shown since. -/
def Server.MadeWith (server : Server) : List String → List Call → Prop
  | _, [] => True
  | held, call :: calls =>
    bearerToken call.request ∈ held ∧
      (server.serve call).2.MadeWith (held ++ (server.serve call).1.disclosed.toList) calls

/-- The plaintexts are those of enabled keys without the role of an administrator. -/
def Server.HoldsWeakKeys (server : Server) (held : List String) : Prop :=
  ∃ registry, server.registry = some registry ∧ ∀ plaintext ∈ held,
    ∃ key ∈ registry.keys.rows, key.keyHash = hashOf plaintext ∧ key.enabled = true ∧
      key.role ≠ "admin"

end Purser.Management
