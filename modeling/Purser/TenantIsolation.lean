import Purser.FailoverPlacement
import Purser.KeyDisclosure
import Purser.RequestHistories
import Purser.SiteEffects

/-!
# Isolation of tenants

The tenant of a key is a column of its row, and that of a deployment is looked
for in its record, which the orchestrator writes without one.  The listings keep
to the tenant of the caller; deleting and rotating do not look at it at all.
-/

namespace Purser.Management

open ControlPlane (CallTrace Cluster LookupError Reply controlWorld effectsOf rowOf)
open Gateway (RouteCalls directCalls)
open InteractionPrograms Program SharedWorlds KeyedStores List
open Orchestrator (Deployment)

/-- Who a request is authenticated as. -/
inductive Principal where
  | key (apiKey : APIKey)
  | serviceAccount (claims : SaTokenClaims)
  | login (identity : Identity)

namespace Principal

def tenant : Principal → String
  | .key apiKey => apiKey.tenant
  | .serviceAccount claims => claims.tenant
  | .login identity => identity.oidcTenant

def role : Principal → String
  | .key apiKey => apiKey.role
  | .serviceAccount claims => claims.role
  | .login identity => identity.oidcRole

def Scoped : Principal → Prop
  | .key _ => True
  | .serviceAccount _ => False
  | .login identity => identity.oidcRole = "viewer"

end Principal

/-- A login with a role comes first, then the bearer value, and then a login without
a role. -/
def Server.principal (server : Server) (env : Environment) (request : Request) : Option Principal :=
  match server.oidcMiddleware env request with
  | .forwarded login =>
    if server.validateInternalToken (bearerToken request) then none
    else if login.oidcRole ≠ "" then some (.login login)
    else
      match server.parseServiceAccountToken env (bearerToken request) with
      | some claims => some (.serviceAccount claims)
      | none =>
        if bearerToken request = "" then loggedIn login
        else
          match server.matchedKey env (bearerToken request) with
          | some key => some (.key key)
          | none => loggedIn login
  | _ => none
where
  loggedIn (login : Identity) : Option Principal :=
    if login.oidcSub = "" then none else some (.login login)

inductive TenantAction where
  | deployModel (modelID : String)
  | listDeployments
  | deleteDeployment (id : String)
deriving DecidableEq

inductive TenantEndpoint where
  | keys (endpoint : KeyEndpoint)
  | server (action : TenantAction)
deriving DecidableEq

/-- The handler that the patterns of the routes select. -/
def tenantEndpoint (request : Request) : Option TenantEndpoint :=
  match keyEndpoint request with
  | some endpoint => some (.keys endpoint)
  | none =>
    match request.method, (request.path.toList.splitOn '/').map String.ofList with
    | "POST", ["", "api", "v1", "models", id, "deploy"] =>
      if id = "" then none else some (.server (.deployModel id))
    | "GET", ["", "api", "v1", "deployments"] => some (.server .listDeployments)
    | "DELETE", ["", "api", "v1", "deployments", id] =>
      if id = "" then none else some (.server (.deleteDeployment id))
    | _, _ => none

/-- The rows whose record names the tenant; the empty tenant stands for all rows. -/
def listDeploymentsByTenant (named : String → String) (tenant : String) :
    Program Reply (Except String (List Deployment)) := do
  match ← ControlPlane.listDeployments with
  | .error problem => return .error problem
  | .ok rows =>
    return .ok (if tenant = "" then rows else rows.filter fun row => named row.id = tenant)

def handleListDeployments (named : String → String) (identity : Identity) :
    Program ServerReply Response := do
  match ← callControl (listDeploymentsByTenant named (extractRequestTenant identity)) with
  | .error problem => return .failed 500 "list_deployments_failed" problem
  | .ok rows => return .deployments rows

def handleDeleteDeployment (setup : Setup) (id : String) : Program ServerReply Response :=
  match setup.deployer with
  | none => return .failed 501 "no_deployer" "orchestrator not configured"
  | some _ => do
      match ← callControl (Orchestrator.teardown id) with
      | none => return .stopping id
      | some problem =>
        -- Other failures of the lookup have texts of their own.
        if problem = "orchestrator: teardown: " ++ LookupError.notFound.text then
          return .failed 404 "not_found" "deployment not found"
        else return .failed 500 "teardown_failed" problem

def TenantAction.program (setup : Setup) (named : String → String) (request : Request)
    (identity : Identity) (body : Except String DeployRequest) :
    TenantAction → Program ServerReply Response
  | .deployModel modelID => handleDeployModel setup request identity modelID body
  | .listDeployments => handleListDeployments named identity
  | .deleteDeployment id => handleDeleteDeployment setup id

/-- A site together with the tenants that the records of its deployments name, and
with the tenants that asked for these deployments.  Nothing in the source keeps the
latter. -/
structure Estate where
  site : Site
  named : String → String := fun _ => ""
  owner : String → String := fun _ => ""

def writtenBy : Exchange ServerReply → Option String
  | ⟨.control inner, answer⟩ => (rowOf ⟨inner, answer⟩).map Deployment.id
  | _ => none

def Estate.after (calls : RouteCalls) (estate : Estate) (tenant : String) (trace : ServerTrace) :
    Estate where
  site := (siteWorld calls).after estate.site trace
  named id := if id ∈ trace.filterMap writtenBy then "" else estate.named id
  owner id := if id ∈ trace.filterMap createdBy then tenant else estate.owner id

inductive TenantReply where
  | refused
  | response (response : Response)
  | keys (reply : KeyReply)
deriving DecidableEq

structure Visit where
  before : Estate
  call : Call
  body : Except String DeployRequest := .ok {}
  trace : ServerTrace := []
  reply : TenantReply := .refused
  after : Estate

def Visit.principal (setup : Setup) (visit : Visit) : Option Principal :=
  (setup.serverAt visit.before.site).principal visit.call.env visit.call.request

inductive Visit.Happens (calls : RouteCalls) (setup : Setup) : Visit → Prop
  | refused (estate : Estate) (call : Call) (body : Except String DeployRequest)
      (denied : ¬(setup.serverAt estate.site).Admits call.env call.request) :
      Happens calls setup { before := estate, call := call, body := body, after := estate }
  | keys (estate : Estate) (call : Call) (body : Except String DeployRequest)
      (endpoint : KeyEndpoint) (identity : Identity)
      (admitted : (setup.serverAt estate.site).admission call.env call.request =
        .forwarded identity)
      (routed : tenantEndpoint call.request = some (.keys endpoint)) :
      Happens calls setup
        { before := estate
          call := call
          body := body
          reply := .keys (estate.site.registry.handleKeys call identity endpoint).1
          after :=
            { estate with
              site :=
                { estate.site with
                  registry := (estate.site.registry.handleKeys call identity endpoint).2 } } }
  | served (estate : Estate) (call : Call) (body : Except String DeployRequest)
      (action : TenantAction) (identity : Identity) (trace : ServerTrace) (response : Response)
      (admitted : (setup.serverAt estate.site).admission call.env call.request =
        .forwarded identity)
      (routed : tenantEndpoint call.request = some (.server action))
      (produced : (action.program setup estate.named call.request identity body).Produces trace
        response)
      (accepted : (siteWorld calls).Accepts estate.site trace) :
      Happens calls setup
        { before := estate
          call := call
          body := body
          trace := trace
          reply := .response response
          after := estate.after calls
            (((setup.serverAt estate.site).principal call.env call.request).elim ""
              Principal.tenant) trace }

/-- Requests one after the other. -/
inductive Visits (calls : RouteCalls) (setup : Setup) (start : Estate) :
    List Visit → Estate → Prop
  | start : Visits calls setup start [] start
  | step {earlier : List Visit} {visit : Visit}
      (visits : Visits calls setup start earlier visit.before)
      (happens : visit.Happens calls setup) :
      Visits calls setup start (earlier ++ [visit]) visit.after

section Visits

variable {calls : RouteCalls} {setup : Setup} {start final : Estate} {visits : List Visit}
  {visit : Visit}

theorem Visits.happens (run : Visits calls setup start visits final) (member : visit ∈ visits) :
    visit.Happens calls setup := by
  induction run with
  | start => cases member
  | step _ happens induction =>
    rcases List.mem_append.mp member with before | last
    · exact induction before
    · obtain rfl := List.mem_singleton.mp last
      exact happens

end Visits

variable {endpoint : TenantEndpoint} {identity : Identity} {key : APIKey}

def TenantEndpoint.takesAway : TenantEndpoint → Bool
  | .keys (.delete _) => true
  | .keys (.rotate _) => true
  | .server (.deleteDeployment _) => true
  | _ => false

namespace Visit

/-- A tenant sees exactly the own deployments and keys, and takes away no others. -/
structure Isolated (visit : Visit) (tenant : String) : Prop where
  deployments : tenantEndpoint visit.call.request = some (.server .listDeployments) →
    ∀ rows, visit.reply = .response (.deployments rows) →
      ∀ row, row ∈ rows ↔
        row ∈ visit.before.site.cluster.deployments.rows ∧ visit.before.owner row.id = tenant
  keys : tenantEndpoint visit.call.request = some (.keys .list) →
    ∀ listed, visit.reply = .keys (.listed listed) →
      ∀ key, key ∈ listed ↔ ∃ row ∈ visit.before.site.registry.keys.rows,
        row.tenant = tenant ∧ KeyTable.scanAPIKey row = key
  keptDeployments : ∀ endpoint, tenantEndpoint visit.call.request = some endpoint →
    endpoint.takesAway = true → ∀ row ∈ visit.before.site.cluster.deployments.rows,
      visit.before.owner row.id ≠ tenant → row ∈ visit.after.site.cluster.deployments.rows
  keptKeys : ∀ endpoint, tenantEndpoint visit.call.request = some endpoint →
    endpoint.takesAway = true → ∀ key ∈ visit.before.site.registry.keys.rows,
      key.tenant ≠ tenant → key ∈ visit.after.site.registry.keys.rows

/-- The listings find what they look for, and what is to be taken away is the own. -/
def Regular (visit : Visit) (principal : Principal) : Prop :=
  let deployments := visit.before.site.cluster.deployments.rows
  let keys := visit.before.site.registry.keys.rows
  match tenantEndpoint visit.call.request with
  | some (.server .listDeployments) => principal.Scoped ∧ ∀ row ∈ deployments,
      visit.before.named row.id = principal.tenant ↔ visit.before.owner row.id = principal.tenant
  | some (.server (.deleteDeployment id)) =>
    ∀ row ∈ deployments, row.id = id → visit.before.owner row.id = principal.tenant
  | some (.keys .list) => principal.Scoped ∧
      ∀ key ∈ keys, key.tenant = principal.tenant → key.enabled = true
  | some (.keys (.delete id)) => ∀ key ∈ keys, key.id = id → key.tenant = principal.tenant
  | some (.keys (.rotate id)) => ∀ key ∈ keys, key.id = id → key.tenant = principal.tenant
  | _ => True

end Visit

namespace Server

variable {request : Request} {server : Server} {env : Environment}

theorem not_isPublic (routed : tenantEndpoint request = some endpoint) :
    isPublic request = false := by
  have unrouted : ∀ path ∈ rbacPublicPaths,
      tenantEndpoint ⟨"GET", path, "", "", "", none⟩ = none := by
    decide
  rw [isPublic, decide_eq_false_iff_not]
  rintro ⟨get, member⟩
  have same : tenantEndpoint request =
      tenantEndpoint ⟨request.method, request.path, "", "", "", none⟩ := rfl
  rw [same, get, unrouted _ member] at routed
  cases routed

theorem apiKey_of_oidcMiddleware {login : Identity}
    (passed : server.oidcMiddleware env request = .forwarded login) : login.apiKey = none := by
  have verified : ∀ verifier token, server.verify verifier token = some login →
      login.apiKey = none := by
    intro verifier token accepted
    cases verifier with
    | basic | groupClaims =>
      obtain ⟨claims, -, rfl⟩ := Option.map_eq_some_iff.mp accepted
      rfl
  unfold oidcMiddleware at passed
  repeat' split at passed
  all_goals cases passed
  all_goals first
    | rfl
    | (rename_i accepted; exact verified _ _ accepted)

theorem eq_of_enforceRole {viewerMessage inferenceMessage role : String} {first second : Identity}
    (passed : enforceRole viewerMessage inferenceMessage role request first = .forwarded second) :
    second = first := by
  unfold enforceRole forbidden at passed
  repeat' split at passed
  all_goals cases passed
  all_goals rfl

theorem apiKey_of_withKey {login : Identity}
    (passed : server.withKey env request login key = .forwarded identity) :
    identity.apiKey = some key := by
  unfold withKey forbidden at passed
  dsimp only at passed
  split at passed
  · split at passed
    · cases passed
      rfl
    · cases passed
  · rw [eq_of_enforceRole passed]

/-- The tenant that restricts the listings is the one of the caller, for keys and
viewers. -/
theorem extractRequestTenant_of_scoped {principal : Principal}
    (admitted : server.admission env request = .forwarded identity)
    (authenticated : server.principal env request = some principal)
    (routed : tenantEndpoint request = some endpoint) (isScoped : principal.Scoped)
    (ordinary : principal.role ≠ "admin") : extractRequestTenant identity = principal.tenant := by
  obtain ⟨-, -, login, loggedIn, enforced⟩ := admission_eq_forwarded_iff.mp admitted
  rw [Server.principal, loggedIn] at authenticated
  simp only [rbacMiddleware, not_isPublic routed, Bool.false_eq_true, if_false] at enforced
  dsimp only at authenticated
  split at authenticated
  · cases authenticated
  rename_i external
  rw [if_neg external] at enforced
  split at authenticated
  · rename_i withRole
    rw [if_pos withRole] at enforced
    obtain rfl := Option.some.inj authenticated
    rw [eq_of_enforceRole enforced, extractRequestTenant, apiKey_of_oidcMiddleware loggedIn]
    exact if_pos isScoped
  rename_i roleless
  rw [if_neg roleless] at enforced
  -- A login without a role is no viewer.
  have unscoped : Server.principal.loggedIn login ≠ some principal := by
    intro same
    unfold Server.principal.loggedIn at same
    split at same
    · cases same
    · obtain rfl := Option.some.inj same
      have viewer : login.oidcRole = "viewer" := isScoped
      exact roleless (by rw [viewer]; decide)
  split at authenticated
  · obtain rfl := Option.some.inj authenticated
    exact absurd isScoped id
  rename_i unsigned
  rw [unsigned] at enforced
  split at authenticated
  · exact absurd authenticated unscoped
  rename_i bearer
  rw [if_neg bearer] at enforced
  split at authenticated
  · rename_i key matched
    rw [matched] at enforced
    obtain rfl := Option.some.inj authenticated
    have weak : key.role ≠ "admin" := ordinary
    rw [extractRequestTenant, apiKey_of_withKey enforced,
      Option.filter_some_pos (by simpa using weak)]
    rfl
  · exact absurd authenticated unscoped

end Server

variable {trace : ServerTrace} {rows : List Deployment} {calls : RouteCalls} {id : String}
  {setup : Setup} {visit : Visit} {principal : Principal}

theorem id_of_mem_rows_teardown {cluster : Cluster} {trace : CallTrace} {result : Option String}
    (produced : (Orchestrator.teardown id).Produces trace result)
    (accepted : (controlWorld calls).Accepts cluster trace) :
    ∀ row ∈ (effectsOf trace).rows, row.id = id := by
  intro row member
  cases Orchestrator.teardown_run produced with
  | missing => cases member
  | stopped deployment _ _ _ _ _ _ rolledBack removed =>
    have found : cluster.deployments.find id = some deployment := accepted.1
    have same : deployment.id = id := (Store.find_eq_some_iff.mp found).2
    rw [ControlPlane.rows_teardownTrace rolledBack removed, mem_append] at member
    rcases member with opening | closing
    · split at opening
      · rw [mem_singleton.mp opening]
        exact same
      · cases opening
    · split at closing
      · rw [mem_singleton.mp closing]
        exact same
      · cases closing

theorem handleDeleteDeployment_run {response : Response}
    (produced : (handleDeleteDeployment setup id).Produces trace response) :
    trace = [] ∨ ∃ inner result, trace = inner.map controlExchange ∧
      (Orchestrator.teardown id).Produces inner result := by
  unfold handleDeleteDeployment at produced
  split at produced
  · exact .inl produced.1
  · obtain ⟨_, result, rest, rfl, tornDown, continued⟩ := produced.of_bind
    obtain ⟨inner, rfl, innerProduced⟩ := Produces.of_embed tornDown
    have finished : rest = [] := by
      cases result with
      | none => exact continued.1
      | some =>
        dsimp only at continued
        split at continued <;> exact continued.1
    rw [finished, append_nil]
    exact .inr ⟨inner, result, rfl, innerProduced⟩

theorem mem_after_handleDeleteDeployment {site : Site} {response : Response}
    (produced : (handleDeleteDeployment setup id).Produces trace response)
    (accepted : (siteWorld calls).Accepts site trace) {row : Deployment}
    (member : row ∈ site.cluster.deployments.rows) (different : row.id ≠ id) :
    row ∈ ((siteWorld calls).after site trace).cluster.deployments.rows := by
  rcases handleDeleteDeployment_run produced with rfl | ⟨inner, result, rfl, tornDown⟩
  · exact member
  · have innerAccepted := accepts_controlTrace.mp accepted
    have unwritten : (effectsOf inner).rows.filter (·.id = row.id) = [] := by
      rw [filter_eq_nil_iff]
      intro other written
      rw [id_of_mem_rows_teardown tornDown innerAccepted other written]
      simpa using different.symm
    have kept := ControlPlane.find_after innerAccepted row.id
    rw [unwritten, Store.find_eq_some_iff.mpr ⟨member, rfl⟩] at kept
    rw [after_controlTrace]
    exact (Store.find_eq_some_iff.mp kept).1

/-- A key or a viewer is shown the deployments whose record names their tenant. -/
theorem Visit.Happens.mem_listed_iff (happens : visit.Happens calls setup)
    (authenticated : visit.principal setup = some principal) (isScoped : principal.Scoped)
    (ordinary : principal.role ≠ "admin") (tenanted : principal.tenant ≠ "")
    (asked : tenantEndpoint visit.call.request = some (.server .listDeployments))
    (replied : visit.reply = .response (.deployments rows)) (row : Deployment) :
    row ∈ rows ↔ row ∈ visit.before.site.cluster.deployments.rows ∧
      visit.before.named row.id = principal.tenant := by
  cases happens with
  | refused | keys => cases replied
  | served estate _ _ _ _ _ _ admitted routed produced accepted =>
    cases routed.symm.trans asked
    obtain rfl := TenantReply.response.inj replied
    obtain ⟨stored | stored, _, rfl, continued⟩ := produced
    · cases continued.2
    obtain ⟨rfl, shown⟩ := continued
    obtain rfl := Response.deployments.inj shown
    have permuted : stored.Perm estate.site.cluster.deployments.rows := accepted.1
    rw [Server.extractRequestTenant_of_scoped admitted authenticated routed isScoped ordinary,
      if_neg tenanted, mem_filter, permuted.mem_iff, decide_eq_true_eq]

def tenantSetup : Setup where
  server := developerServer
  deployer := some (orchestratorDeployer true)

def tenantEstate (tenant : String) : Estate where
  site :=
    { cluster := Reconciler.fleetCluster [Reconciler.bigNode "b" .ready 0]
      registry := developerServer.registry.getD {} }
  named id := if id = "dep-1" then tenant else ""
  owner id := if id = "dep-1" then tenant else ""

def tenantCall (method path : String) : Call where
  request := { method := method, path := path, authorization := "Bearer sk-1" }

def Grants (method path : String) (action : TenantAction) : Prop :=
  method ≠ "OPTIONS" ∧ tenantEndpoint (tenantCall method path).request = some (.server action) ∧
    matchRoutePermission method path ≠ "" ∧
    developerServer.checkPermission {} { apiKey := some developerKey }
      (matchRoutePermission method path) = true

instance (method path : String) (action : TenantAction) : Decidable (Grants method path action) :=
  inferInstanceAs (Decidable (_ ∧ _))

section Developer

variable {method path : String} {action : TenantAction}

theorem bearerToken_tenantCall (method path : String) :
    bearerToken (tenantCall method path).request = "sk-1" := by
  change (afterLead "Bearer " "Bearer sk-1").getD "" = "sk-1"
  decide

theorem unsigned_developer : developerServer.parseServiceAccountToken {} "sk-1" = none :=
  if_pos (.inl rfl)

theorem Grants.admission (granted : Grants method path action) :
    developerServer.admission (tenantCall method path).env (tenantCall method path).request =
      .forwarded { apiKey := some developerKey } := by
  obtain ⟨noPreflight, routed, required, permitted⟩ := granted
  change developerServer.admission {} (tenantCall method path).request = _
  refine Server.admission_eq_forwarded_iff.mpr ⟨noPreflight, Bool.or_true _, {}, rfl, ?_⟩
  have internal : developerServer.validateInternalToken "sk-1" = false := rfl
  simp only [Server.rbacMiddleware, Server.not_isPublic routed, bearerToken_tenantCall, internal,
    unsigned_developer, matchedKey_developerServer, Server.withKey]
  exact (if_pos required).trans (if_pos permitted)

def developerVisit (estate : Estate) (method path : String)
    (body : Except String DeployRequest) (action : TenantAction) : Visit :=
  let played := (siteWorld directCalls).play Site.untroubledReply estate.site
    (action.program tenantSetup estate.named (tenantCall method path).request
      { apiKey := some developerKey } body)
  { before := estate
    call := tenantCall method path
    body := body
    trace := played.1
    reply := .response played.2
    after := estate.after directCalls "team-a" played.1 }

theorem happens_developerVisit {estate : Estate} {body : Except String DeployRequest}
    (registry : estate.site.registry = developerServer.registry.getD {})
    (granted : Grants method path action) :
    (developerVisit estate method path body action).principal tenantSetup =
        some (.key developerKey) ∧
      (developerVisit estate method path body action).Happens directCalls
        tenantSetup := by
  have server : tenantSetup.serverAt estate.site = developerServer := by
    rw [Setup.serverAt, registry]
    rfl
  have admitted : (tenantSetup.serverAt estate.site).admission (tenantCall method path).env
      (tenantCall method path).request = .forwarded { apiKey := some developerKey } := by
    rw [server]
    exact granted.admission
  have principal : (tenantSetup.serverAt estate.site).principal (tenantCall method path).env
      (tenantCall method path).request = some (.key developerKey) := by
    rw [server]
    change developerServer.principal {} (tenantCall method path).request = _
    have internal : developerServer.validateInternalToken "sk-1" = false := rfl
    have loggedIn : developerServer.oidcMiddleware {} (tenantCall method path).request =
        .forwarded {} := rfl
    simp only [Server.principal, loggedIn, bearerToken_tenantCall, internal, unsigned_developer,
      matchedKey_developerServer]
    rfl
  have happens := @Visit.Happens.served directCalls tenantSetup estate
    (tenantCall method path) body action _ _ _ admitted granted.2.1
    (Interface.produces_play Site.untroubledReply estate.site _)
    (Interface.accepts_play allows_siteReply estate.site _)
  rw [principal] at happens
  exact ⟨principal, happens⟩

end Developer

def listVisit (estate : Estate) : Visit :=
  developerVisit estate "GET" "/api/v1/deployments" (.ok {}) .listDeployments

theorem happens_listVisit {estate : Estate}
    (registry : estate.site.registry = developerServer.registry.getD {}) :
    (listVisit estate).principal tenantSetup = some (.key developerKey) ∧
      (listVisit estate).Happens directCalls tenantSetup :=
  happens_developerVisit registry (by decide +kernel)

def secondPlan : Orchestrator.DeploymentPlan where
  planID := "plan-2"
  modelID := "model"
  quantization := "q4"
  assignments := [{ nodeID := "b", role := .host, layerStart := 0, layerEnd := 3 }]

def deployVisit : Visit :=
  developerVisit (tenantEstate "team-b") "POST" "/api/v1/models/model/deploy"
    (.ok { plan := some (.ok secondPlan) }) (.deployModel "model")

def deleteVisit : Visit :=
  developerVisit (tenantEstate "team-b") "DELETE" "/api/v1/deployments/dep-1" (.ok {})
    (.deleteDeployment "dep-1")

end Purser.Management
