import Purser.InteractionPrograms
import Purser.PlannerTypes
import Purser.TextFormatting

/-!
# Applying a deployment plan

Each call to the registry, the resolver, an agent or the gateway is a
command.  The answer to a start command is everything that afterwards happens on
its event stream, the step deadline included.
-/

namespace Purser.Orchestrator

open InteractionPrograms Program TextFormatting
open Planner (Role)

/-- One shard of a plan on the wire. -/
structure Assignment where
  nodeID : String
  role : Role
  layerStart : ℕ
  layerEnd : ℕ
  draft : Bool := false
  deriving DecidableEq

/-- The fields of a plan on the wire that the orchestrator reads. -/
structure DeploymentPlan where
  planID : String
  modelID : String
  quantization : String
  assignments : List Assignment
  deriving DecidableEq

structure Endpoint where
  agentAddr : String
  inferenceAddr : String

structure StartEngineRequest where
  modelRef : String
  role : Role
  layerStart : ℕ
  layerEnd : ℕ
  peers : List String := []
  quantization : String
  draft : Bool
  deriving DecidableEq

inductive EngineEventKind where
  | unspecified
  | loading
  | ready
  | error
  | metrics
  deriving DecidableEq

/-- What the wait for READY can see next: an event, a failed read, the end of
the stream, or the end of the step's context. -/
inductive StreamItem where
  | event (kind : EngineEventKind) (detail : String)
  | readError (problem : String)
  | closed
  | contextDone (cause : String)
  deriving DecidableEq

/-- The answer to a start command: the call fails, or a stream opens on which
the given things happen in turn. -/
inductive StartAnswer where
  | refused (problem : String)
  | opened (items : List StreamItem)
  deriving DecidableEq

inductive DeploymentState where
  | provisioning
  | active
  | rebalancing
  | stopping
  | stopped
  | failed
  deriving DecidableEq

/-- A started engine, kept so that it can be stopped later. -/
structure EngineRef where
  nodeID : String
  agentAddr : String
  role : String
  handle : String
  deriving DecidableEq

structure DeploymentDetail where
  modelID : String
  quantization : String
  hostNodeID : String := ""
  endpoint : String := ""
  engines : List EngineRef := []
  failoverPlanID : String := ""
  error : String := ""
  deriving DecidableEq

structure Deployment where
  id : String
  modelID : String
  planID : String
  state : DeploymentState
  detail : DeploymentDetail
  deriving DecidableEq

structure AuditEntry where
  actor : String
  action : String
  target : String
  details : List (String × String)

structure RouteUpdate where
  modelID : String
  endpoint : String
  deploymentID : String
  quantization : String
  state : String

/-- The calls the orchestrator makes on its collaborators. -/
inductive Command where
  | createDeployment (deployment : Deployment)
  | updateDeployment (deployment : Deployment)
  | appendAudit (entry : AuditEntry)
  | resolve (nodeID : String)
  | startEngine (addr : String) (request : StartEngineRequest)
  | stopEngine (addr handle : String)
  | upsertRoute (route : RouteUpdate)

/-- What a call returns.  Calls without a result return their error, if any. -/
abbrev Answer : Command → Type
  | .createDeployment _ => Option String
  | .updateDeployment _ => Option String
  | .appendAudit _ => Option String
  | .resolve _ => Except String Endpoint
  | .startEngine _ _ => StartAnswer
  | .stopEngine _ _ => Except String String
  | .upsertRoute _ => Option String

abbrev Trace := List (Exchange Answer)

inductive StepError where
  | resolve (problem : String)
  | startEngine (addr problem : String)
  | streamClosed
  | streamError (problem : String)
  | engineError (detail : String)
  | timedOut (addr cause : String)

def StepError.text : StepError → String
  | .resolve problem => problem
  | .startEngine addr problem => "start engine on " ++ addr ++ ": " ++ problem
  | .streamClosed => "engine stream closed before READY"
  | .streamError problem => "engine stream error: " ++ problem
  | .engineError detail => "engine reported error: " ++ detail
  | .timedOut addr cause =>
    "timed out waiting for READY from " ++ addr ++ ": " ++ cause

inductive ApplyError where
  | noAgentClient
  | nilPlan
  | manyHosts
  | unspecifiedRole (nodeID : String)
  | noHost
  | createDeployment (problem : String)
  | failed (depID reason : String) (cause : StepError)

def ApplyError.text : ApplyError → String
  | .noAgentClient => "orchestrator: no AgentClient configured"
  | .nilPlan => "orchestrator: nil plan"
  | .manyHosts => "orchestrator: plan has more than one HOST assignment"
  | .unspecifiedRole nodeID =>
    "orchestrator: assignment for node " ++ quoted nodeID ++ " has unspecified role"
  | .noHost => "orchestrator: plan has no HOST assignment"
  | .createDeployment problem => "orchestrator: create deployment: " ++ problem
  | .failed depID reason cause =>
    "orchestrator: deployment " ++ depID ++ " failed: " ++ reason ++ ": " ++ cause.text

structure ApplyResult where
  depID : String
  error : Option ApplyError

def partitionFrom : List Assignment → List Assignment → Option Assignment →
    Except ApplyError (List Assignment × Assignment)
  | [], _, none => .error .noHost
  | [], workers, some host => .ok (workers, host)
  | assignment :: rest, workers, host =>
    match assignment.role with
    | .worker => partitionFrom rest (workers ++ [assignment]) host
    | .host =>
      match host with
      | some _ => .error .manyHosts
      | none => partitionFrom rest workers (some assignment)
    | .unspecified => .error (.unspecifiedRole assignment.nodeID)

variable (depID : String) (plan : DeploymentPlan) (host : Assignment) (endpoint : Endpoint)
  (started : List EngineRef)

def partition : Except ApplyError (List Assignment × Assignment) :=
  partitionFrom plan.assignments [] none

/-- Read the stream of a started engine until it decides the step.  The step
deadline fires when nothing else comes. -/
def receive (addr : String) : List StreamItem → Except StepError String
  | [] => .error (.timedOut addr "context deadline exceeded")
  | .event .ready detail :: _ => .ok detail
  | .event .error detail :: _ => .error (.engineError detail)
  -- LOADING, METRICS and UNSPECIFIED keep the wait going
  | .event _ _ :: items => receive addr items
  | .readError problem :: _ => .error (.streamError problem)
  | .closed :: _ => .error .streamClosed
  | .contextDone cause :: _ => .error (.timedOut addr cause)

def waitReady (addr : String) : StartAnswer → Except StepError String
  | .refused problem => .error (.startEngine addr problem)
  | .opened items => receive addr items

def createDeployment (deployment : Deployment) : Program Answer (Option String) :=
  issue (Command.createDeployment deployment)

def resolve (nodeID : String) : Program Answer (Except String Endpoint) :=
  issue (Command.resolve nodeID)

def startEngine (addr : String) (request : StartEngineRequest) : Program Answer StartAnswer :=
  issue (Command.startEngine addr request)

def startAndWaitReady (addr : String) (request : StartEngineRequest) :
    Program Answer (Except StepError String) := do
  let answer ← startEngine addr request
  return waitReady addr answer

def rollback (engines : List EngineRef) : Program Answer Unit :=
  issueAll (engines.reverse.map fun engine =>
    .stopEngine engine.agentAddr engine.handle)

def audit (action target : String) (details : List (String × String)) : Program Answer Unit := do
  let _ ← issue (.appendAudit ⟨"orchestrator", action, target, details⟩)
  return ()

def persist (deployment : Deployment) (state : DeploymentState)
    (detail : DeploymentDetail) : Program Answer Unit := do
  let _ ← issue (.updateDeployment { deployment with state := state, detail := detail })
  return ()

def activeRoute (detail : DeploymentDetail) : RouteUpdate :=
  ⟨detail.modelID, detail.endpoint, depID, detail.quantization, "active"⟩

def notifyGatewayUp (detail : DeploymentDetail) : Program Answer Unit := do
  let _ ← issue (.upsertRoute (activeRoute depID detail))
  return ()

structure LaunchStep where
  role : String
  nodeID : String
  request : StartEngineRequest

def workerStep (worker : Assignment) : LaunchStep where
  role := "worker"
  nodeID := worker.nodeID
  request :=
    { modelRef := plan.modelID
      role := .worker
      layerStart := worker.layerStart
      layerEnd := worker.layerEnd
      quantization := plan.quantization
      draft := worker.draft }

def hostStep (peerAddrs : List String) : LaunchStep where
  role := "host"
  nodeID := host.nodeID
  request :=
    { modelRef := plan.modelID
      role := .host
      layerStart := host.layerStart
      layerEnd := host.layerEnd
      peers := peerAddrs
      quantization := plan.quantization
      draft := host.draft }

structure StepFailure where
  reason : String
  cause : StepError

def launch (step : LaunchStep) : Program Answer (Except StepFailure (Endpoint × String)) := do
  match ← resolve step.nodeID with
  | .error problem =>
    return .error ⟨"resolve " ++ step.role ++ " " ++ step.nodeID, .resolve problem⟩
  | .ok endpoint =>
    match ← startAndWaitReady endpoint.agentAddr step.request with
    | .error cause =>
      return .error ⟨step.role ++ " " ++ step.nodeID ++ " not ready", cause⟩
    | .ok handle => return .ok (endpoint, handle)

/-- The accumulators of `apply`: engines that are ready and their addresses. -/
structure Progress where
  started : List EngineRef := []
  peerAddrs : List String := []

def LaunchStep.engineRef (step : LaunchStep) (endpoint : Endpoint) (handle : String) : EngineRef :=
  ⟨step.nodeID, endpoint.agentAddr, step.role, handle⟩

/-- The loop over the workers.  It stops at the first step that fails and hands
over the engines that are ready by then. -/
def startWorkers : List Assignment → Progress →
    Program Answer (Except (StepFailure × List EngineRef) Progress)
  | [], progress => return .ok progress
  | worker :: workers, progress => do
      match ← launch (workerStep plan worker) with
      | .error failure => return .error (failure, progress.started)
      | .ok (endpoint, handle) =>
        startWorkers workers
          { started := progress.started ++ [(workerStep plan worker).engineRef endpoint handle]
            peerAddrs := progress.peerAddrs ++ [endpoint.inferenceAddr] }

def initialDetail : DeploymentDetail where
  modelID := plan.modelID
  quantization := plan.quantization

def initialDeployment : Deployment where
  id := depID
  modelID := plan.modelID
  planID := plan.planID
  state := .provisioning
  detail := initialDetail plan

def fail (failure : StepFailure) (started : List EngineRef) : Program Answer ApplyResult := do
  rollback started
  -- the record keeps the engines that the rollback has just stopped
  persist (initialDeployment depID plan) .failed
    { initialDetail plan with error := failure.reason, engines := started }
  audit "deployment.failed" depID [("reason", failure.reason)]
  return ⟨depID, some (.failed depID failure.reason failure.cause)⟩

def activeDetail : DeploymentDetail :=
  { initialDetail plan with
    hostNodeID := host.nodeID
    endpoint := "http://" ++ endpoint.inferenceAddr
    engines := started }

def activate : Program Answer ApplyResult := do
  let detail := activeDetail plan host endpoint started
  persist (initialDeployment depID plan) .active detail
  audit "deployment.active" depID [("host", host.nodeID), ("endpoint", detail.endpoint)]
  notifyGatewayUp depID detail
  return ⟨depID, none⟩

def startEngines (workers : List Assignment) (host : Assignment) : Program Answer ApplyResult := do
  match ← startWorkers plan workers {} with
  | .error (failure, started) => fail depID plan failure started
  | .ok progress =>
    let step := hostStep plan host progress.peerAddrs
    match ← launch step with
    | .error failure => fail depID plan failure progress.started
    | .ok (endpoint, handle) =>
      activate depID plan host endpoint (progress.started ++ [step.engineRef endpoint handle])

def checkPlan (agentsConfigured : Bool) (plan : Option DeploymentPlan) :
    Except ApplyError (DeploymentPlan × List Assignment × Assignment) :=
  if agentsConfigured then
    match plan with
    | none => .error .nilPlan
    | some plan => (partition plan).map fun split => (plan, split)
  else .error .noAgentClient

def apply (agentsConfigured : Bool) (depID : String)
    (plan : Option DeploymentPlan) : Program Answer ApplyResult :=
  match checkPlan agentsConfigured plan with
  | .error problem => return ⟨"", some problem⟩
  | .ok (plan, workers, host) => do
      match ← createDeployment (initialDeployment depID plan) with
      -- without a record there is no identifier to report
      | some problem => return ⟨"", some (.createDeployment problem)⟩
      | none =>
        audit "deployment.provisioning" depID [("model_id", plan.modelID), ("plan_id", plan.planID)]
        startEngines depID plan workers host

end Purser.Orchestrator
