import Purser.DeploymentApprovals
import Purser.KeyManagement

/-!
# Histories of requests

The management server serves one request after the other: deployments, reviews,
configurations and keys.  A request that the checks do not admit changes nothing.
-/

namespace Purser.Management

open InteractionPrograms SharedWorlds List

section

open Program
open Orchestrator (Deployment DeploymentState)

structure ConfigModel where
  id : String

structure ConfigDeployment where
  model : String
  quantization : String := ""

structure ClusterConfig where
  models : List ConfigModel := []
  deployments : List ConfigDeployment := []

inductive ConfigBody where
  | unreadable (problem : String)
  | empty
  | invalid (problem : String)
  | config (config : ClusterConfig)

def deploymentTerminal (state : DeploymentState) : Bool := state = .stopped ∨ state = .failed

structure ConfigDiff where
  modelsToAdd : List ConfigModel
  deploymentsToAdd : List ConfigDeployment

def newEntries (config : ClusterConfig) (modelIDs : List String) (rows : List Deployment) :
    ConfigDiff where
  modelsToAdd := config.models.filter fun model => model.id ∉ modelIDs
  deploymentsToAdd := config.deployments.filter fun deployment =>
    deployment.model ∉ (rows.filter fun row => !deploymentTerminal row.state).map Deployment.modelID

def configDiff (config : ClusterConfig) : Program ServerReply (Except String ConfigDiff) := do
  match ← listModels with
  | .error problem => return .error problem
  | .ok modelIDs =>
    match ← callControl ControlPlane.listDeployments with
    | .error problem => return .error problem
    | .ok rows =>
      match ← listOrganizations with
      | .error problem => return .error problem
      | .ok _ =>
        match ← listNodePools with
        | .error problem => return .error problem
        | .ok _ => return .ok (newEntries config modelIDs rows)

def addModels : List ConfigModel → Program ServerReply ℕ
  | [] => return 0
  | model :: models => do
      match ← createModel ⟨model.id, .ok { id := "", layers := 0, quantizations := [] }⟩ with
      | some _ => addModels models
      | none =>
        appendAudit "config-apply" "model.created" model.id
        return (← addModels models) + 1

def configConstraints (spec : ConfigDeployment) : Planner.Constraints where
  forceQuant := if spec.quantization = "" then none else some spec.quantization

def addDeployments (setup : Setup) : List ConfigDeployment → Program ServerReply ℕ
  | [] => return 0
  | spec :: specs =>
    match setup.planner, setup.deployer with
    | true, some deployer => do
        match ← callPlanner spec.model (configConstraints spec) with
        | .error _ => addDeployments setup specs
        | .ok plan =>
          let result ← deployer plan
          match result.error with
          | some _ => addDeployments setup specs
          | none => return (← addDeployments setup specs) + 1
    | _, _ => addDeployments setup specs

def handleConfigApply (setup : Setup) : ConfigBody → Program ServerReply Response
  | .unreadable problem => return .failed 400 "bad_request" ("read body: " ++ problem)
  | .empty => return .failed 400 "bad_request" "empty body: expected purser.yaml"
  | .invalid problem => return .failed 400 "invalid_config" problem
  | .config config => do
      match ← configDiff config with
      | .error problem => return .failed 500 "apply_failed" ("config diff: " ++ problem)
      | .ok diff =>
        let models ← addModels diff.modelsToAdd
        let deployments ← addDeployments setup diff.deploymentsToAdd
        return .applied models deployments

def ServerCall.isConfiguring : ServerCall → Bool
  | .listModels => true
  | .control .listDeployments => true
  | .listOrganizations => true
  | .listNodePools => true
  | .createModel _ => true
  | .control (.command (.appendAudit _)) => true
  | _ => false

theorem uses_addModels (models : List ConfigModel) :
    (addModels models).Uses (·.isConfiguring = true) := by
  induction models with
  | nil => trivial
  | cons _ _ induction =>
    refine .bind (.issue rfl) ?_
    rintro (_ | problem)
    · exact ⟨rfl, fun _ => induction.bind fun _ => trivial⟩
    · exact induction

theorem uses_configDiff (config : ClusterConfig) :
    (configDiff config).Uses (·.isConfiguring = true) := by
  refine ⟨rfl, ?_⟩
  rintro (problem | modelIDs)
  · trivial
  · refine ⟨rfl, ?_⟩
    rintro (problem | rows)
    · trivial
    · refine ⟨rfl, ?_⟩
      rintro (problem | organizations)
      · trivial
      · refine ⟨rfl, ?_⟩
        rintro (problem | pools) <;> trivial

end

open Gateway (RouteCalls)

variable {setup : Setup} {event : Event} {site : Site}

inductive ServerAction where
  | deploy (modelID : String) (body : Except String DeployRequest)
  | approve (deploymentID : String) (body : Except String String)
  | reject (deploymentID : String) (body : Except String String)
  | getApproval (deploymentID : String)
  | configApply (body : ConfigBody)

def ServerAction.program (setup : Setup) (request : Request) (identity : Identity) :
    ServerAction → Program ServerReply Response
  | .deploy modelID body => handleDeployModel setup request identity modelID body
  | .approve deploymentID body => handleApproveDeployment setup request deploymentID body
  | .reject deploymentID body => handleRejectDeployment setup request deploymentID body
  | .getApproval deploymentID => handleGetApproval setup deploymentID
  | .configApply body => handleConfigApply setup body

inductive Action where
  | server (action : ServerAction)
  | keys (endpoint : KeyEndpoint)

/-- One request with everything that was said while it was served. -/
structure Event where
  before : Site
  call : Call
  action : Action
  trace : ServerTrace := []
  response : Option Response := none
  after : Site

def Setup.serverAt (setup : Setup) (site : Site) : Server :=
  { setup.server with registry := some site.registry }

inductive Happens (calls : RouteCalls) (setup : Setup) : Event → Prop
  | refused (site : Site) (call : Call) (action : Action)
      (denied : ¬(setup.serverAt site).Admits call.env call.request) :
      Happens calls setup ⟨site, call, action, [], none, site⟩
  | served (site : Site) (call : Call) (action : ServerAction) (identity : Identity)
      (trace : ServerTrace) (response : Response)
      (admitted : (setup.serverAt site).admission call.env call.request = .forwarded identity)
      (produced : (action.program setup call.request identity).Produces trace response)
      (accepted : (siteWorld calls).Accepts site trace) :
      Happens calls setup ⟨site, call, .server action, trace, some response,
        (siteWorld calls).after site trace⟩
  | keys (site : Site) (call : Call) (endpoint : KeyEndpoint) (identity : Identity)
      (admitted : (setup.serverAt site).admission call.env call.request = .forwarded identity) :
      Happens calls setup ⟨site, call, .keys endpoint, [], none,
        { site with registry := (site.registry.handleKeys call identity endpoint).2 }⟩

theorem Happens.served_of_response {calls : RouteCalls} (happens : Happens calls setup event)
    {action : ServerAction} {response : Response} (asked : event.action = .server action)
    (answered : event.response = some response) :
    ∃ identity, (action.program setup event.call.request identity).Produces event.trace response ∧
      (siteWorld calls).Accepts event.before event.trace ∧
      event.after = (siteWorld calls).after event.before event.trace := by
  cases happens with
  | refused | keys => cases answered
  | served _ _ _ identity _ _ _ produced accepted =>
    cases asked
    cases answered
    exact ⟨identity, produced, accepted, rfl⟩

inductive Runs (calls : RouteCalls) (setup : Setup) (start : Site) : List Event → Site → Prop
  | start : Runs calls setup start [] start
  | step {earlier : List Event} {event : Event}
      (run : Runs calls setup start earlier event.before) (happens : Happens calls setup event) :
      Runs calls setup start (earlier ++ [event]) event.after

theorem Runs.of_split {calls : RouteCalls} {start : Site} {events : List Event}
    (run : Runs calls setup start events site) {earlier later : List Event}
    (split : events = earlier ++ event :: later) :
    Runs calls setup start earlier event.before ∧ Happens calls setup event := by
  induction run generalizing later with
  | start =>
    have empty := congrArg List.length split
    simp at empty
  | @step _ _ run happens induction =>
    rcases eq_nil_or_concat later with rfl | ⟨shorter, final, rfl⟩
    · obtain ⟨rfl, same⟩ := append_inj' split rfl
      obtain rfl := singleton_inj.mp same
      exact ⟨run, happens⟩
    · rw [concat_eq_append, ← cons_append, ← append_assoc] at split
      exact induction (append_inj' split rfl).1

def untroubledEvent (setup : Setup) (site : Site) (call : Call) (action : ServerAction) : Event :=
  match (setup.serverAt site).admission call.env call.request with
  | .forwarded identity =>
    let played := (siteWorld Gateway.directCalls).play Site.untroubledReply site
      (action.program setup call.request identity)
    { before := site
      call := call
      action := .server action
      trace := played.1
      response := some played.2
      after := (siteWorld Gateway.directCalls).after site played.1 }
  | _ => { before := site, call := call, action := .server action, after := site }

theorem happens_untroubledEvent (setup : Setup) (site : Site) (call : Call)
    (action : ServerAction) :
    Happens Gateway.directCalls setup (untroubledEvent setup site call action) := by
  rw [untroubledEvent]
  split
  next identity admitted =>
    exact .served site call action identity _ _ admitted (Interface.produces_play _ _ _)
      (Interface.accepts_play allows_siteReply _ _)
  next denied =>
    refine .refused site call (.server action) ?_
    rintro ⟨identity, admitted⟩
    exact denied identity admitted

def untroubledEvents (setup : Setup) : Site → List (Call × ServerAction) → List Event
  | _, [] => []
  | site, (call, action) :: requests =>
    untroubledEvent setup site call action ::
      untroubledEvents setup (untroubledEvent setup site call action).after requests

theorem before_untroubledEvent (setup : Setup) (site : Site) (call : Call) (action : ServerAction) :
    (untroubledEvent setup site call action).before = site := by
  rw [untroubledEvent]
  split <;> rfl

theorem action_untroubledEvent (setup : Setup) (site : Site) (call : Call) (action : ServerAction) :
    (untroubledEvent setup site call action).action = .server action := by
  rw [untroubledEvent]
  split <;> rfl

theorem server_of_mem_untroubledEvents {requests : List (Call × ServerAction)}
    (member : event ∈ untroubledEvents setup site requests) :
    ∃ action, event.action = .server action := by
  induction requests generalizing site with
  | nil => cases member
  | cons request _ induction =>
    obtain ⟨call, action⟩ := request
    rcases mem_cons.mp member with rfl | later
    · exact ⟨action, action_untroubledEvent _ _ _ _⟩
    · exact induction later

theorem runs_untroubledEvents {start : Site} {earlier : List Event}
    (run : Runs Gateway.directCalls setup start earlier site)
    (requests : List (Call × ServerAction)) :
    ∃ final, Runs Gateway.directCalls setup start
      (earlier ++ untroubledEvents setup site requests) final := by
  induction requests generalizing earlier site with
  | nil =>
    rw [untroubledEvents, append_nil]
    exact ⟨site, run⟩
  | cons request _ induction =>
    obtain ⟨call, action⟩ := request
    have first : Runs Gateway.directCalls setup start earlier
        (untroubledEvent setup site call action).before := by
      rw [before_untroubledEvent]
      exact run
    have longer := induction (first.step (happens_untroubledEvent setup site call action))
    rwa [append_assoc] at longer

end Purser.Management
