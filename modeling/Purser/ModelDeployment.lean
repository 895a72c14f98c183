import Purser.OrchestratorLifecycle
import Purser.ServerCalls

/-!
# Deploying a model

A deploy request brings its plan along, names a stored one, or leaves planning
to the server.  Only in the last case pools are looked up.
-/

namespace Purser.Management

open ControlPlane (LookupError)
open InteractionPrograms Program
open Orchestrator (ApplyResult DeploymentPlan)
open Planner (Constraints PlanError)

structure QuorumConfig where
  minApprovers : ℤ := 0
  reviewerKeys : List String := []

abbrev Deployer := DeploymentPlan → Program ServerReply ApplyResult

def orchestratorDeployer (agentsConfigured : Bool) : Deployer :=
  fun plan => callControl (Orchestrator.applyPlan agentsConfigured (some plan))

structure Setup where
  server : Server := {}
  /-- The license covers approvals of deployments. -/
  deploymentApprovals : Bool := false
  quorum : Option QuorumConfig := none
  planner : Bool := true
  deployer : Option Deployer

structure QuorumStatus where
  required : ℤ
  received : ℕ
  remaining : ℤ
  approvers : List (String × ControlPlane.Time)
deriving DecidableEq

inductive Response where
  | failed (status : ℕ) (error message : String)
  | licenseRequired (feature : String)
  | doesNotFit (message : String) (error : PlanError)
  | queued (deploymentID modelID message : String)
  | deployFailed (message deploymentID : String)
  | deployed (deploymentID modelID planID : String)
  | notPending (message : String) (status : ApprovalStatus)
  | voted (quorumReached : Bool) (approvalsSoFar : ℕ) (approvalsNeeded : ℤ) (message : String)
  | approval (approval : DeploymentApproval) (quorum : Option QuorumStatus)
  | applied (modelsAdded deploymentsAdded : ℕ)
  | deployments (rows : List Orchestrator.Deployment)
  | stopping (deploymentID : String)
deriving DecidableEq

structure DeployRequest where
  planID : String := ""
  plan : Option (Except String DeploymentPlan) := none

variable (setup : Setup) (request : Request) (identity : Identity) (modelID : String)

def apiKeyHashFromRequest : String :=
  if bearerToken request = "" then "" else hashOf (bearerToken request)

/-- The nodes that the team of the caller may use; no entry stands for all nodes. -/
def poolConstraints : Program ServerReply Constraints :=
  match identity.apiKey.filter fun key => key.tenant ≠ "" with
  | none => return {}
  | some key => do
      match ← getAllowedNodeIDs key.tenant with
      | .ok nodes => return { allowedNodeIDs := nodes }
      | .error _ => return {}

/-- A plan as it is stored: for the model that was asked for, under an identifier
of its own. -/
def numberedPlan (modelID digits : String) (produced : DeploymentPlan) : DeploymentPlan :=
  { produced with modelID := modelID, planID := produced.planID ++ "-" ++ digits }

def planFromFleet (c : Constraints) : Program ServerReply (Except Response DeploymentPlan) := do
  match ← callPlanner modelID c with
  | .error .notFound => return .error (.failed 404 "not_found" "model not found")
  | .error (.doesNotFit error) => return .error (.doesNotFit (Planning.fitError error) error)
  | .error (.failed problem) => return .error (.failed 500 "plan_failed" problem)
  | .ok produced =>
    let digits ← randHex 4
    let plan := numberedPlan modelID digits produced
    match ← callControl (ControlPlane.createPlan
      ⟨plan.planID, plan.modelID, plan.quantization, .ok plan⟩) with
    | some problem => return .error (.failed 500 "persist_plan_failed" problem)
    | none => return .ok plan

def storedPlan (planID : String) : Program ServerReply (Except Response DeploymentPlan) := do
  match ← callControl (ControlPlane.getPlan planID) with
  | .error .notFound => return .error (.failed 404 "not_found" "plan not found")
  | .error (.failed problem) => return .error (.failed 500 "get_plan_failed" problem)
  | .ok row =>
    match row.plan with
    | .error problem =>
      return .error (.failed 500 "bad_plan" ("stored plan is invalid: " ++ problem))
    | .ok plan => return .ok plan

def resolvePlan (body : DeployRequest) : Program ServerReply (Except Response DeploymentPlan) :=
  match body.plan with
  | some (.error problem) => return .error (.failed 400 "bad_plan" ("invalid plan: " ++ problem))
  | some (.ok plan) => return .ok plan
  | none =>
    if body.planID ≠ "" then storedPlan body.planID
    else if setup.planner then do
      let c ← poolConstraints identity
      planFromFleet modelID c
    else
      return .error (.failed 400 "bad_request" "provide plan or plan_id (no planner configured)")

def queueApproval (plan : DeploymentPlan) : Program ServerReply Response := do
  let pendingDepID ← randHex 8
  let requester := apiKeyHashFromRequest request
  match ← requestDeploymentApproval
      { deploymentID := pendingDepID, modelID := plan.modelID, requester := requester } with
  | some problem => return .failed 500 "approval_queue_failed" problem
  | none =>
    appendAudit requester "deployment.approval.requested" pendingDepID
    return .queued pendingDepID plan.modelID
      ("deployment queued for admin approval (AI Act Art.14); call POST /api/v1/approvals/" ++
        pendingDepID ++ "/approve to proceed")

def startRollout (deployer : Deployer) (plan : DeploymentPlan) : Program ServerReply Response := do
  let result ← deployer plan
  match result.error with
  | some problem => return .deployFailed problem.text result.depID
  | none => return .deployed result.depID plan.modelID plan.planID

/-- A plan without a model is for the model in the path. -/
def withModel (plan : DeploymentPlan) : DeploymentPlan :=
  if plan.modelID = "" then { plan with modelID := modelID } else plan

def handleDeployModel (body : Except String DeployRequest) : Program ServerReply Response :=
  match setup.deployer, body with
  | none, _ => return .failed 501 "no_deployer" "orchestrator not configured"
  | some _, .error problem =>
    return .failed 400 "bad_request" ("invalid JSON body: " ++ problem)
  | some deployer, .ok body => do
      match ← resolvePlan setup identity modelID body with
      | .error response => return response
      | .ok plan =>
        if setup.deploymentApprovals then queueApproval request (withModel modelID plan)
        else startRollout deployer (withModel modelID plan)

def createdBy : Exchange ServerReply → Option String
  | ⟨.control (.command (.createDeployment row)), none⟩ => some row.id
  | _ => none

def Creates (trace : ServerTrace) (deploymentID : String) : Prop :=
  deploymentID ∈ trace.filterMap createdBy

instance (trace : ServerTrace) (deploymentID : String) : Decidable (Creates trace deploymentID) :=
  inferInstanceAs (Decidable (_ ∈ _))

/-- The calls that a deploy request makes to obtain its plan. -/
def ServerCall.isPlanning : ServerCall → Bool
  | .control (.getPlan _) => true
  | .control (.createPlan _) => true
  | .control (.randomHex _) => true
  | .getAllowedNodeIDs _ => true
  | .plan _ _ => true
  | _ => false

theorem uses_poolConstraints : (poolConstraints identity).Uses (·.isPlanning = true) := by
  rw [poolConstraints]
  split
  · trivial
  · refine .bind (.issue rfl) ?_
    rintro (problem | nodes) <;> trivial

theorem uses_planFromFleet (c : Constraints) :
    (planFromFleet modelID c).Uses (·.isPlanning = true) := by
  refine .bind (.issue rfl) ?_
  rintro ((_ | error | problem) | produced)
  · trivial
  · trivial
  · trivial
  · refine ⟨rfl, fun digits => ⟨rfl, ?_⟩⟩
    rintro (_ | problem) <;> trivial

theorem uses_storedPlan (planID : String) : (storedPlan planID).Uses (·.isPlanning = true) := by
  refine ⟨rfl, ?_⟩
  rintro ((_ | problem) | ⟨_, _, _, problem | plan⟩) <;> trivial

theorem uses_resolvePlan (body : DeployRequest) :
    (resolvePlan setup identity modelID body).Uses (·.isPlanning = true) := by
  rw [resolvePlan]
  split
  · trivial
  · trivial
  · split
    · exact uses_storedPlan _
    · split
      · exact (uses_poolConstraints identity).bind fun c => uses_planFromFleet modelID c
      · trivial

end Purser.Management
