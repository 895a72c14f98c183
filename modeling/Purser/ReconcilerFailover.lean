import Purser.ReconcilerActuator

/-!
# The reconciler loop, and the traces of the failovers that it starts

With a planner the reconciler first plans an alternative, stores it and points
the record of the deployment to it.  Any of these steps may end the attempt.
-/

namespace Purser.Reconciler

open InteractionPrograms Program
open ControlPlane Orchestrator

inductive AutomationLevel where
  | auto
  | approvalRequired
  | notifyOnly
  | unknown

def AutomationLevel.text : AutomationLevel → String
  | .auto => "auto"
  | .approvalRequired => "approval_required"
  | .notifyOnly => "notify_only"
  | .unknown => "unknown"

inductive EventType where
  | engineDown
  | nodeDown
  | newNode
  | orphanDeployment
  deriving DecidableEq

def EventType.text : EventType → String
  | .engineDown => "engine_down"
  | .nodeDown => "node_down"
  | .newNode => "new_node"
  | .orphanDeployment => "orphan_deployment"

def defaultLevels : EventType → AutomationLevel
  | .engineDown => .auto
  | .nodeDown => .approvalRequired
  | .orphanDeployment => .approvalRequired
  | .newNode => .notifyOnly

structure Config where
  hysteresis : Duration := 30 * 10 ^ 9
  failureThreshold : ℤ := 3
  nodeTimeout : Duration := 45 * 10 ^ 9
  actionCooldown : Duration := 120 * 10 ^ 9
  levels : EventType → Option AutomationLevel := fun type => defaultLevels type

namespace Config

def level (config : Config) (type : EventType) : AutomationLevel :=
  (config.levels type).getD (defaultLevels type)

def normalized (config : Config) : Config :=
  { config with
    failureThreshold :=
      if config.failureThreshold ≤ 0 then 1 else config.failureThreshold
    nodeTimeout :=
      if config.nodeTimeout ≤ 0 then 45 * 10 ^ 9 else config.nodeTimeout }

end Config

structure Discrepancy where
  type : EventType
  depID : String := ""
  nodeID : String := ""
  deriving DecidableEq

variable (config : Config) (actuator : Option Actuator) (planner : Option FailoverPlanner)
  (now : Time) (tracker : Tracker) (discrepancy : Discrepancy)

def Discrepancy.key : String :=
  discrepancy.type.text ++ "|" ++ discrepancy.depID ++ "|" ++ discrepancy.nodeID

structure DiscState where
  firstSeen : Time
  count : ℕ := 0
  seenThis : Bool := false
  lastActed : Time := 0

abbrev Tracker := String → Option DiscState

structure Event where
  type : EventType
  deploymentID : String
  nodeID : String
  level : AutomationLevel
  acted : Bool := false
  reason : String := ""

structure Report where
  detected : List Event := []
  acted : List Event := []

def nodeDown (node : NodeRow) (now : Time) : Bool :=
  if node.state = .unreachable ∨ node.state = .decommissioned then true
  else if node.lastSeen = 0 then config.nodeTimeout < now - node.createdAt
  else config.nodeTimeout < now - node.lastSeen

def engineHealthy (node : NodeRow) : Bool := node.state = .running ∨ node.state = .ready

section

variable (deployments : List Deployment) (nodes : List NodeRow) (now : Time)

/-- The index of the nodes; of two rows with one identifier the later one
counts. -/
def nodeByID (id : String) : Option NodeRow :=
  nodes.reverse.find? (·.id = id)

def observeEngine (depID : String) (engine : EngineRef) : List Discrepancy :=
  match nodeByID nodes engine.nodeID with
  | none => [⟨.nodeDown, depID, engine.nodeID⟩]
  | some node =>
    if nodeDown config node now then [⟨.nodeDown, depID, engine.nodeID⟩]
    else if engineHealthy node then []
    else [⟨.engineDown, depID, engine.nodeID⟩]

def modelMissing (modelID : String) : Program Reply Bool :=
  if modelID = "" then return false
  else do
    match ← getModel modelID with
    | .error .notFound => return true
    | _ => return false

def observeDeployments : List Deployment → Program Reply (List Discrepancy × List String)
  | [] => return ([], [])
  | deployment :: rest =>
    if deployment.state ≠ .active then
      observeDeployments rest
    else do
      let orphan ← modelMissing deployment.detail.modelID
      let (found, claimed) ← observeDeployments rest
      if orphan then
        return (⟨.orphanDeployment, deployment.id, ""⟩ :: found, claimed)
      else
        let engines := deployment.detail.engines
        return (engines.flatMap (observeEngine config nodes now deployment.id) ++
            found, engines.map EngineRef.nodeID ++ claimed)

def observeNewNode (claimed : List String) (id : String) : Option Discrepancy :=
  if id ∈ claimed then none
  else
    (nodeByID nodes id).bind fun node =>
      if node.state = .ready ∧ nodeDown config node now = false then
        some ⟨.newNode, "", node.id⟩
      else none

def observe : Program Reply (List Discrepancy) := do
  let (found, claimed) ← observeDeployments config nodes now deployments
  let order ← mapOrder (nodes.map NodeRow.id).dedup
  return found ++ order.1.filterMap (observeNewNode config nodes now claimed)

def audit (action : String) (event : Event) : Program Reply Unit := do
  let _ ← issue (Call.command (.appendAudit ⟨"reconciler", action, event.deploymentID, []⟩))
  return ()

abbrev FailoverPlanner := String → Program Reply (Except String DeploymentPlan)

def failoverIsTerminal (state : DeploymentState) : Bool := state = .stopped ∨ state = .failed

def giveUp (action : String) (event : Event) : Program Reply Bool := do
  audit action event
  return false

/-- Plan an alternative, store it and point the record of the deployment to it.
The outcome says whether the failover may go on. -/
def prepareFailover (planner : FailoverPlanner) (event : Event) : Program Reply Bool := do
  match ← getDeployment event.deploymentID with
  | .error _ => giveUp "reconciler.action_failed" event
  | .ok deployment =>
    if failoverIsTerminal deployment.state then return false
    else if deployment.detail.modelID = "" then return true
    else
      match ← planner deployment.detail.modelID with
      | .error _ => giveUp "reconciler.failover.no_capacity" event
      | .ok newPlan => do
          let digits ← randomHex 4
          let planID := newPlan.planID ++ "-fo-" ++ digits
          match ← createPlan ⟨planID, newPlan.modelID, newPlan.quantization,
            .ok { newPlan with planID := planID }⟩ with
          | some _ => giveUp "reconciler.action_failed" event
          | none =>
            match ← issue (Call.command (.updateDeployment
              { deployment with
                detail :=
                  { deployment.detail with failoverPlanID := planID } })) with
            | some _ => giveUp "reconciler.action_failed" event
            | none => return true

def finishFailover (actuator : Actuator) (event : Event) : Program Reply Bool := do
  match ← actuator.failover event.deploymentID with
  | some _ => giveUp "reconciler.action_failed" event
  | none => do
      audit "reconciler.failover.initiated" event
      return true

def handleNodeDown (actuator : Actuator) (planner : Option FailoverPlanner)
    (event : Event) : Program Reply Bool :=
  match planner with
  | none => finishFailover actuator event
  | some planner => do
      let prepared ← prepareFailover planner event
      if prepared then finishFailover actuator event else return false

def auditOutcome (event : Event) : Option String → Program Reply Bool
  | some _ => giveUp "reconciler.action_failed" event
  | none => do
      audit "reconciler.acted" event
      return true

def dispatch (event : Event) : Program Reply Bool :=
  match event.level with
  | .notifyOnly => giveUp "reconciler.notify" event
  | .approvalRequired => giveUp "reconciler.pending_approval" event
  | .unknown => return false
  | .auto =>
    match actuator with
    | none => return false
    | some actuator =>
      match event.type with
      | .nodeDown => handleNodeDown actuator planner event
      | .engineDown => do
          auditOutcome event (← actuator.restartEngine event.deploymentID event.nodeID)
      | .orphanDeployment => do
          auditOutcome event (← actuator.cleanup event.deploymentID)
      -- no autonomous action for new nodes
      | .newNode => giveUp "reconciler.notify" event

def Tracker.seen (discrepancy : Discrepancy) :
    DiscState :=
  let state := (tracker discrepancy.key).getD { firstSeen := now }
  { state with seenThis := true, count := state.count + 1 }

end

def eligible (state : DiscState) : Bool :=
  config.failureThreshold ≤ state.count ∧ config.hysteresis ≤ now - state.firstSeen

def cooling (state : DiscState) : Bool :=
  state.lastActed ≠ 0 ∧ now - state.lastActed < config.actionCooldown

def handle : Program Reply (Tracker × Event) :=
  let state := tracker.seen now discrepancy
  let keep := fun state => Function.update tracker discrepancy.key (some state)
  let event : Event :=
    { type := discrepancy.type
      deploymentID := discrepancy.depID
      nodeID := discrepancy.nodeID
      level := config.level discrepancy.type }
  if eligible config now state then
    if cooling config now state then
      return (keep state, { event with reason := "action_cooldown" })
    else do
      if ← dispatch actuator planner event then
        return (keep { state with lastActed := now }, { event with acted := true })
      else
        return (keep state, { event with reason := "pending_" ++ event.level.text })
  else return (keep state, { event with reason := "within_hysteresis" })

def handleAll : List Discrepancy → Tracker → Program Reply (Tracker × List Event)
  | [], tracker => return (tracker, [])
  | discrepancy :: rest, tracker => do
      let (tracker, event) ← handle config actuator planner now tracker discrepancy
      let (tracker, events) ← handleAll rest tracker
      return (tracker, event :: events)

def Tracker.unmarked : Tracker :=
  fun key => (tracker key).map fun state => { state with seenThis := false }

def Tracker.healed : Tracker :=
  fun key => (tracker key).filter DiscState.seenThis

/-- One pass.  When the registry cannot be listed the tracker stays as it is. -/
def reconcile : Program Reply (Except String Report × Tracker) := do
  match ← listDeployments with
  | .error problem => return (.error problem, tracker)
  | .ok deployments =>
    match ← listNodes with
    | .error problem => return (.error problem, tracker)
    | .ok nodes => do
        let observed ← observe config deployments nodes now
        let (tracker, events) ← handleAll config actuator planner now observed tracker.unmarked
        return (.ok ⟨events, events.filter Event.acted⟩, tracker.healed)

def nodeDownEvent (depID nodeID : String) : Event where
  type := .nodeDown
  deploymentID := depID
  nodeID := nodeID
  level := .auto

def auditExchange (action : String) (event : Event) (answer : Option String) : Exchange Reply :=
  ⟨.command (.appendAudit ⟨"reconciler", action, event.deploymentID, []⟩), answer⟩

def storedPlan (newPlan : DeploymentPlan) (digits : String) : PlanRow :=
  ⟨newPlan.planID ++ "-fo-" ++ digits, newPlan.modelID, newPlan.quantization,
    .ok { newPlan with planID := newPlan.planID ++ "-fo-" ++ digits }⟩

def stamped (deployment : Deployment) (planID : String) : Deployment :=
  { deployment with
    detail := { deployment.detail with failoverPlanID := planID } }

inductive PrepareRun (planner : FailoverPlanner) (event : Event) :
    CallTrace → Bool → Prop
  | unloaded (problem : LookupError) (audited : Option String) :
      PrepareRun planner event [⟨.getDeployment event.deploymentID, .error problem⟩,
          auditExchange "reconciler.action_failed" event audited] false
  | terminal (deployment : Deployment)
      (isTerminal : failoverIsTerminal deployment.state = true) :
      PrepareRun planner event [⟨.getDeployment event.deploymentID, .ok deployment⟩] false
  | unnamed (deployment : Deployment)
      (live : failoverIsTerminal deployment.state = false)
      (noModel : deployment.detail.modelID = "") :
      PrepareRun planner event [⟨.getDeployment event.deploymentID, .ok deployment⟩] true
  | noCapacity (deployment : Deployment) (planning : CallTrace)
      (problem : String) (audited : Option String)
      (live : failoverIsTerminal deployment.state = false)
      (planned : (planner deployment.detail.modelID).Produces planning (.error problem)) :
      PrepareRun planner event (⟨.getDeployment event.deploymentID, .ok deployment⟩ ::
          (planning ++ [auditExchange "reconciler.failover.no_capacity" event audited])) false
  | notStored (deployment : Deployment) (planning : CallTrace)
      (newPlan : DeploymentPlan) (digits problem : String)
      (audited : Option String)
      (live : failoverIsTerminal deployment.state = false)
      (planned : (planner deployment.detail.modelID).Produces planning (.ok newPlan)) :
      PrepareRun planner event (⟨.getDeployment event.deploymentID, .ok deployment⟩ :: (planning ++
            [⟨.randomHex 4, digits⟩, ⟨.createPlan (storedPlan newPlan digits), some problem⟩,
              auditExchange "reconciler.action_failed" event audited])) false
  | notStamped (deployment : Deployment) (planning : CallTrace)
      (newPlan : DeploymentPlan) (digits problem : String)
      (audited : Option String)
      (live : failoverIsTerminal deployment.state = false)
      (planned : (planner deployment.detail.modelID).Produces planning (.ok newPlan)) :
      PrepareRun planner event (⟨.getDeployment event.deploymentID, .ok deployment⟩ :: (planning ++
            [⟨.randomHex 4, digits⟩, ⟨.createPlan (storedPlan newPlan digits), none⟩, updateExchange
                (stamped deployment (storedPlan newPlan digits).id)
                (some problem),
              auditExchange "reconciler.action_failed" event audited])) false
  | stamped (deployment : Deployment) (planning : CallTrace)
      (newPlan : DeploymentPlan) (digits : String)
      (live : failoverIsTerminal deployment.state = false)
      (named : deployment.detail.modelID ≠ "")
      (planned : (planner deployment.detail.modelID).Produces planning (.ok newPlan)) :
      PrepareRun planner event (⟨.getDeployment event.deploymentID, .ok deployment⟩ :: (planning ++
            [⟨.randomHex 4, digits⟩, ⟨.createPlan (storedPlan newPlan digits), none⟩, updateExchange
                (Reconciler.stamped deployment (storedPlan newPlan digits).id)
                none])) true

variable {event : Event} {trace : CallTrace}

theorem prepareFailover_run {planner : FailoverPlanner} {prepared : Bool}
    (produced : (prepareFailover planner event).Produces trace prepared) :
    PrepareRun planner event trace prepared := by
  obtain ⟨answer, rest, rfl, continued⟩ := produced.of_issue
  cases answer with
  | error problem =>
    obtain ⟨audited, _, rfl, rfl, rfl⟩ := continued
    exact .unloaded problem audited
  | ok deployment =>
    dsimp only at continued
    by_cases isTerminal : failoverIsTerminal deployment.state = true
    · rw [if_pos isTerminal] at continued
      obtain ⟨rfl, rfl⟩ := continued
      exact .terminal deployment isTerminal
    have live : failoverIsTerminal deployment.state = false := by
      simpa using isTerminal
    rw [if_neg isTerminal] at continued
    by_cases noModel : deployment.detail.modelID = ""
    · rw [if_pos noModel] at continued
      obtain ⟨rfl, rfl⟩ := continued
      exact .unnamed deployment live noModel
    rw [if_neg noModel, produces_bind] at continued
    obtain ⟨planning, answer, rest, rfl, planned, continued⟩ := continued
    cases answer with
    | error problem =>
      obtain ⟨audited, _, rfl, rfl, rfl⟩ := continued
      exact .noCapacity deployment planning problem audited live planned
    | ok newPlan =>
      obtain ⟨digits, _, rfl, stored, _, rfl, continued⟩ := continued
      cases stored with
      | some problem =>
        obtain ⟨audited, _, rfl, rfl, rfl⟩ := continued
        exact .notStored deployment planning newPlan digits problem audited live planned
      | none =>
        obtain ⟨updated, _, rfl, continued⟩ := continued
        cases updated with
        | some problem =>
          obtain ⟨audited, _, rfl, rfl, rfl⟩ := continued
          exact .notStamped deployment planning newPlan digits problem audited live planned
        | none =>
          obtain ⟨rfl, rfl⟩ := continued
          exact .stamped deployment planning newPlan digits live noModel planned

inductive FinishRun (actuator : Actuator) (event : Event) :
    CallTrace → Bool → Prop
  | failed (inner : CallTrace) (problem : String) (audited : Option String)
      (ran : (actuator.failover event.deploymentID).Produces inner (some problem)) :
      FinishRun actuator event
        (inner ++ [auditExchange "reconciler.action_failed" event audited]) false
  | initiated (inner : CallTrace) (audited : Option String)
      (ran : (actuator.failover event.deploymentID).Produces inner none) :
      FinishRun actuator event
        (inner ++ [auditExchange "reconciler.failover.initiated" event audited])
        true

theorem finishFailover_run {actuator : Actuator} {acted : Bool}
    (produced : (finishFailover actuator event).Produces trace acted) :
    FinishRun actuator event trace acted := by
  obtain ⟨inner, result, rest, rfl, ran, continued⟩ := produced.of_bind
  cases result with
  | some problem =>
    obtain ⟨audited, _, rfl, rfl, rfl⟩ := continued
    exact .failed inner problem audited ran
  | none =>
    obtain ⟨audited, rest, rfl, rfl, rfl⟩ := continued
    exact .initiated inner audited ran

inductive NodeDownRun (actuator : Actuator) (event : Event) :
    Option FailoverPlanner → CallTrace → Bool → Prop
  | unplanned (trace : CallTrace) (acted : Bool)
      (finished : FinishRun actuator event trace acted) :
      NodeDownRun actuator event none trace acted
  | unprepared (planner : FailoverPlanner) (trace : CallTrace)
      (attempted : PrepareRun planner event trace false) :
      NodeDownRun actuator event (some planner) trace false
  | prepared (planner : FailoverPlanner) (preparation trace : CallTrace)
      (acted : Bool) (attempted : PrepareRun planner event preparation true)
      (finished : FinishRun actuator event trace acted) :
      NodeDownRun actuator event (some planner) (preparation ++ trace) acted

theorem handleNodeDown_run {actuator : Actuator} {planner : Option FailoverPlanner} {acted : Bool}
    (produced : (handleNodeDown actuator planner event).Produces trace acted) :
    NodeDownRun actuator event planner trace acted := by
  cases planner with
  | none => exact .unplanned trace acted (finishFailover_run produced)
  | some planner =>
    obtain ⟨preparation, prepared, rest, rfl, attempted, continued⟩ := produced.of_bind
    have attempt := prepareFailover_run attempted
    cases prepared with
    | false =>
      obtain ⟨rfl, rfl⟩ := continued
      rw [List.append_nil]
      exact .unprepared planner preparation attempt
    | true =>
      exact .prepared planner preparation rest acted attempt (finishFailover_run continued)

end Purser.Reconciler
