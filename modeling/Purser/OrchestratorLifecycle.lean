import Purser.ControlCalls
import Purser.OrchestratorTraces

/-!
# Tearing deployments down and restarting their engines

Both operations read the record of the deployment, talk to the agents it names
and write the whole record back.
-/

namespace Purser.Orchestrator

open InteractionPrograms Program TextFormatting
open ControlPlane

def newID (kind : String) : Program Reply String := do
  let digits ← randomHex 12
  return kind ++ "-" ++ digits

/-- Apply a plan under an identifier drawn for it.  The source draws after the
checks, which a draw does not influence. -/
def applyPlan (agentsConfigured : Bool) (plan : Option DeploymentPlan) :
    Program Reply ApplyResult := do
  let depID ← newID "dep"
  lift (apply agentsConfigured depID plan)

def notifyGatewayDown (modelID : String) : Program Reply Unit :=
  if modelID = "" then return ()
  else do
    let _ ← deleteRoute modelID
    return ()

variable (deploymentID nodeID : String)

def teardown : Program Reply (Option String) := do
  match ← getDeployment deploymentID with
  | .error problem => return some ("orchestrator: teardown: " ++ problem.text)
  | .ok deployment =>
    let detail := deployment.detail
    lift (persist deployment .stopping detail)
    lift (audit "deployment.stopping" deploymentID [])
    lift (rollback detail.engines)
    notifyGatewayDown detail.modelID
    lift (persist deployment .stopped detail)
    lift (audit "deployment.stopped" deploymentID [])
    return none

variable (deployment : Deployment) (state : DeploymentState) (detail : DeploymentDetail)

/-- The request of a restart.  Layers, peers and the draft flag keep their zero
values. -/
def restartRequest (ref : EngineRef) : StartEngineRequest where
  modelRef := detail.modelID
  role := if ref.role = "host" then .host else .worker
  layerStart := 0
  layerEnd := 0
  quantization := detail.quantization
  draft := false

def setHandle (nodeID handle : String) : List EngineRef → List EngineRef
  | [] => []
  | engine :: engines =>
    if engine.nodeID = nodeID then { engine with handle := handle } :: engines
    else engine :: setHandle nodeID handle engines

def restartedDetail (nodeID handle : String) :
    DeploymentDetail :=
  { detail with engines := setHandle nodeID handle detail.engines }

def restartEngine : Program Reply (Option String) := do
  match ← getDeployment deploymentID with
  | .error problem => return some ("orchestrator: restart: " ++ problem.text)
  | .ok deployment =>
    let detail := deployment.detail
    match detail.engines.find? (·.nodeID = nodeID) with
    | none =>
      return some ("orchestrator: node " ++ quoted nodeID ++
        " not part of deployment " ++ quoted deploymentID)
    | some ref =>
      match ← lift (startAndWaitReady ref.agentAddr (restartRequest detail ref)) with
      | .error cause =>
        return some ("orchestrator: restart node " ++ quoted nodeID ++ ": " ++ cause.text)
      | .ok handle =>
        lift (persist deployment .active (restartedDetail detail nodeID handle))
        lift (audit "engine.restarted" deploymentID [("node", nodeID)])
        return none

def persisted : Deployment :=
  { deployment with state := state, detail := detail }

def auditExchange (action target : String) (details : List (String × String))
    (answer : Option String) : Exchange Reply :=
  ⟨.command (.appendAudit ⟨"orchestrator", action, target, details⟩), answer⟩

def updateExchange (answer : Option String) : Exchange Reply :=
  ⟨.command (.updateDeployment deployment), answer⟩

def startExchange (addr : String) (request : StartEngineRequest)
    (answer : StartAnswer) : Exchange Reply :=
  ⟨.command (.startEngine addr request), answer⟩

/-- The exchanges that stop the engines of a list, last engine first. -/
def IsRollback (engines : List EngineRef) (stops : CallTrace) : Prop :=
  stops.map Exchange.command = engines.reverse.map fun engine => Call.command (stopCommand engine)

variable {trace : CallTrace}

theorem isRollback_of_produces {engines : List EngineRef} {value : Unit}
    (produced : (lift (rollback engines)).Produces trace value) : IsRollback engines trace := by
  obtain ⟨inner, rfl, innerProduced⟩ := produces_of_lift produced
  have commands := congrArg (List.map Call.command) innerProduced.of_issueAll
  rw [List.map_map, List.map_map] at commands
  rw [IsRollback, List.map_map]
  exact commands

/-- The exchanges that take a model's route away; without a model there are
none. -/
inductive IsRemoval (modelID : String) : CallTrace → Prop
  | unnamed (noModel : modelID = "") : IsRemoval modelID []
  | named (someModel : modelID ≠ "") (answer : Option String) :
      IsRemoval modelID [⟨.deleteRoute modelID, answer⟩]

theorem isRemoval_of_produces {modelID : String} {value : Unit}
    (produced : (notifyGatewayDown modelID).Produces trace value) : IsRemoval modelID trace := by
  unfold notifyGatewayDown at produced
  by_cases noModel : modelID = ""
  · rw [if_pos noModel] at produced
    obtain ⟨rfl, -⟩ := produced
    exact .unnamed noModel
  · rw [if_neg noModel] at produced
    obtain ⟨answer, rest, rfl, rfl, -⟩ := produced
    exact .named noModel answer

def teardownTrace (stops removal : CallTrace) (marked noted finished closed : Option String) :
    CallTrace :=
  ⟨.getDeployment deploymentID, .ok deployment⟩ ::
    updateExchange (persisted deployment .stopping deployment.detail) marked ::
    auditExchange "deployment.stopping" deploymentID [] noted :: (stops ++ (removal ++
      [updateExchange (persisted deployment .stopped deployment.detail) finished,
        auditExchange "deployment.stopped" deploymentID [] closed]))

inductive TeardownRun :
    CallTrace → Option String → Prop
  | missing (problem : LookupError) :
      TeardownRun [⟨.getDeployment deploymentID, .error problem⟩]
        (some ("orchestrator: teardown: " ++ problem.text))
  | stopped (deployment : Deployment) (stops removal : CallTrace)
      (marked noted finished closed : Option String)
      (rolledBack : IsRollback deployment.detail.engines stops)
      (removed : IsRemoval deployment.detail.modelID removal) :
      TeardownRun
        (teardownTrace deploymentID deployment stops removal marked noted finished closed) none

theorem teardown_run {deploymentID : String} {result : Option String}
    (produced : (teardown deploymentID).Produces trace result) :
    TeardownRun deploymentID trace result := by
  obtain ⟨answer, rest, rfl, continued⟩ := produced.of_issue
  cases answer with
  | error problem =>
    obtain ⟨rfl, rfl⟩ := continued
    exact .missing problem
  | ok deployment =>
    simp only [produces_bind] at continued
    obtain ⟨_, _, _, rfl, ⟨marked, _, rfl, rfl, -⟩, _, _, _, rfl, ⟨noted, _, rfl, rfl, -⟩,
      stops, _, _, rfl, rolledBack, removal, _, _, rfl, removed,
      _, _, _, rfl, ⟨finished, _, rfl, rfl, -⟩, _, _, _, rfl, ⟨closed, _, rfl, rfl, -⟩, rfl, rfl⟩ :=
      continued
    exact .stopped deployment stops removal marked noted finished closed
      (isRollback_of_produces rolledBack) (isRemoval_of_produces removed)

inductive RestartRun :
    CallTrace → Option String → Prop
  | missing (problem : LookupError) :
      RestartRun
        [⟨.getDeployment deploymentID, .error problem⟩]
        (some ("orchestrator: restart: " ++ problem.text))
  | notPart (deployment : Deployment)
      (absent : deployment.detail.engines.find? (·.nodeID = nodeID) = none) :
      RestartRun
        [⟨.getDeployment deploymentID, .ok deployment⟩]
        (some ("orchestrator: node " ++ quoted nodeID ++
          " not part of deployment " ++ quoted deploymentID))
  | notReady (deployment : Deployment) (ref : EngineRef) (answer : StartAnswer)
      (cause : StepError)
      (found : deployment.detail.engines.find? (·.nodeID = nodeID) = some ref)
      (failed : waitReady ref.agentAddr answer = .error cause) :
      RestartRun [⟨.getDeployment deploymentID, .ok deployment⟩,
          startExchange ref.agentAddr (restartRequest deployment.detail ref) answer]
        (some ("orchestrator: restart node " ++ quoted nodeID ++ ": " ++ cause.text))
  | restarted (deployment : Deployment) (ref : EngineRef)
      (answer : StartAnswer) (handle : String) (updated audited : Option String)
      (found : deployment.detail.engines.find? (·.nodeID = nodeID) = some ref)
      (ready : waitReady ref.agentAddr answer = .ok handle) :
      RestartRun [⟨.getDeployment deploymentID, .ok deployment⟩,
          startExchange ref.agentAddr (restartRequest deployment.detail ref) answer,
          updateExchange (persisted deployment .active
            (restartedDetail deployment.detail nodeID handle)) updated,
          auditExchange "engine.restarted" deploymentID [("node", nodeID)] audited]
        none

theorem restartEngine_run {deploymentID nodeID : String} {result : Option String}
    (produced : (restartEngine deploymentID nodeID).Produces trace result) :
    RestartRun deploymentID nodeID trace result := by
  obtain ⟨answer, rest, rfl, continued⟩ := produced.of_issue
  cases answer with
  | error problem =>
    obtain ⟨rfl, rfl⟩ := continued
    exact .missing problem
  | ok deployment =>
    dsimp only at continued
    cases found : deployment.detail.engines.find? (·.nodeID = nodeID) with
    | none =>
      rw [found] at continued
      obtain ⟨rfl, rfl⟩ := continued
      exact .notPart deployment found
    | some ref =>
      rw [found] at continued
      obtain ⟨_, _, rest, rfl, started, finished⟩ := continued.of_bind
      obtain ⟨answer, _, rfl, rfl, rfl⟩ := started
      cases waited : waitReady ref.agentAddr answer with
      | error cause =>
        rw [waited] at finished
        obtain ⟨rfl, rfl⟩ := finished
        exact .notReady deployment ref answer cause found waited
      | ok handle =>
        rw [waited] at finished
        obtain ⟨updated, _, rfl, audited, _, rfl, rfl, rfl⟩ := finished
        exact .restarted deployment ref answer handle updated audited found waited

end Purser.Orchestrator
