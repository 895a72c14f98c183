import Purser.FailoverPlacement
import Purser.RequestHistories
import Purser.VetoFinality

/-!
# Deployments behind the approval gate

With approvals switched on, a deploy request drops its plan, and nothing takes
it up again.  Only configurations call the orchestrator, without an approval.
-/

namespace Purser.Management

open List

open Gateway (RouteCalls)
open InteractionPrograms Program SharedWorlds
open Orchestrator (DeploymentPlan)

def appliedPlan : Exchange ServerReply → Option DeploymentPlan
  | ⟨.apply plan, _⟩ => some plan
  | _ => none

namespace Event

/-- The plans that the orchestrator was called with. -/
def applies (event : Event) : List DeploymentPlan := event.trace.filterMap appliedPlan

def released (event : Event) : List String :=
  (event.after.approvals.approvals.rows.filter fun row =>
    row.status = .approved ∧
      (event.before.approvals.approvals.find row.id).all (·.status ≠ .approved)).map
    DeploymentApproval.deploymentID

/-- A deploy request with this plan was queued under this identifier. -/
def Requests (setup : Setup) (event : Event) (deploymentID : String) (plan : DeploymentPlan) :
    Prop :=
  ∃ modelID body identity resolving rest found message,
    event.action = .server (.deploy modelID (.ok body)) ∧
      (setup.serverAt event.before).admission event.call.env event.call.request =
        .forwarded identity ∧
      event.trace = resolving ++ rest ∧
      (resolvePlan setup identity modelID body).Produces resolving (.ok found) ∧
      plan = withModel modelID found ∧
      event.response = some (.queued deploymentID plan.modelID message)

end Event

/-- The orchestrator is called with a plan only after the approval of the request
with this plan has become an approved one. -/
def GateTight (setup : Setup) (events : List Event) : Prop :=
  ∀ earlier event later, events = earlier ++ event :: later →
    ∀ plan ∈ event.applies, ∃ request ∈ earlier, ∃ deploymentID,
      request.Requests setup deploymentID plan ∧
        ∃ approval ∈ earlier ++ [event], deploymentID ∈ approval.released

/-- The plans that the orchestrator was called with are those of the requests whose
approval has become an approved one, each of them once. -/
def GateLive (setup : Setup) (events : List Event) : Prop :=
  ∃ plans, List.Forall₂ (fun deploymentID plan =>
      ∃ request ∈ events, request.Requests setup deploymentID plan)
        (events.flatMap Event.released) plans ∧
    (events.flatMap Event.applies).Perm plans

def ServerCall.isApply : ServerCall → Bool
  | .apply _ => true
  | _ => false

variable {trace : ServerTrace} {setup : Setup}

theorem applies_eq_nil (silent : ∀ exchange ∈ trace, exchange.command.isApply = false) :
    trace.filterMap appliedPlan = [] := by
  rw [filterMap_eq_nil_iff]
  intro exchange member
  have quiet := silent exchange member
  obtain ⟨command, answer⟩ := exchange
  cases command <;> first | rfl | cases quiet

theorem isApply_of_isReviewing (asked : ServerCall) (reviewing : asked.isReviewing = true) :
    asked.isApply = false := by
  cases asked <;> first | rfl | cases reviewing

theorem uses_handleDeployModel (gated : setup.deploymentApprovals = true) (request : Request)
    (identity : Identity) (modelID : String) (body : Except String DeployRequest) :
    (handleDeployModel setup request identity modelID body).Uses (·.isApply = false) := by
  unfold handleDeployModel
  split
  · trivial
  · trivial
  · refine ((uses_resolvePlan _ _ _ _).mono fun asked planning =>
        by cases asked <;> first | rfl | cases planning).bind ?_
    rintro (response | plan)
    · trivial
    · dsimp only
      rw [if_pos gated]
      refine ⟨rfl, fun digits => ⟨rfl, ?_⟩⟩
      rintro (_ | problem)
      · exact ⟨rfl, fun _ => trivial⟩
      · trivial

theorem configDiff_run {config : ClusterConfig} {diff : ConfigDiff}
    (produced : (configDiff config).Produces trace (.ok diff)) :
    ∃ modelIDs rows, ⟨.control .listDeployments, .ok rows⟩ ∈ trace ∧
      diff = newEntries config modelIDs rows := by
  obtain ⟨answer, _, rfl, continued⟩ := produced
  cases answer with
  | error => cases continued.2
  | ok modelIDs =>
    obtain ⟨answer, _, rfl, continued⟩ := continued
    cases answer with
    | error => cases continued.2
    | ok rows =>
      obtain ⟨answer, _, rfl, continued⟩ := continued
      cases answer with
      | error => cases continued.2
      | ok =>
        obtain ⟨answer, _, rfl, continued⟩ := continued
        cases answer with
        | error => cases continued.2
        | ok =>
          obtain rfl := Except.ok.inj continued.2
          exact ⟨modelIDs, rows, by simp, rfl⟩

theorem isApply_of_isConfiguring (asked : ServerCall) (configuring : asked.isConfiguring = true) :
    asked.isApply = false := by
  cases asked <;> first | rfl | cases configuring

def Event.AddsNothing (event : Event) : Prop :=
  ∀ config, event.action = .server (.configApply (.config config)) →
    ∀ rows, ⟨.control .listDeployments, .ok rows⟩ ∈ event.trace →
      ∀ modelIDs, (newEntries config modelIDs rows).deploymentsToAdd = []

theorem silent_of_configApply {body : ConfigBody} {response : Response}
    (produced : (handleConfigApply setup body).Produces trace response)
    (adds : ∀ config, body = .config config → ∀ rows,
      ⟨.control .listDeployments, .ok rows⟩ ∈ trace →
        ∀ modelIDs, (newEntries config modelIDs rows).deploymentsToAdd = []) :
    ∀ exchange ∈ trace, exchange.command.isApply = false := by
  cases body with
  | unreadable | empty | invalid =>
    obtain ⟨rfl, -⟩ := produced
    exact fun _ member => absurd member not_mem_nil
  | config config =>
    obtain ⟨diffing, diff, rest, rfl, diffed, continued⟩ := produced.of_bind
    have diffSilent : ∀ exchange ∈ diffing, exchange.command.isApply = false :=
      fun _ member =>
        isApply_of_isConfiguring _ ((uses_configDiff config).of_mem diffed member)
    cases diff with
    | error =>
      obtain ⟨rfl, -⟩ := continued
      rwa [append_nil]
    | ok =>
      obtain ⟨adding, count, rest, rfl, added, continued⟩ := continued.of_bind
      obtain ⟨modelIDs, rows, listed, rfl⟩ := configDiff_run diffed
      rw [adds config rfl rows (mem_append_left _ listed)] at continued
      obtain ⟨rfl, -⟩ := continued
      intro exchange member
      rw [append_nil, mem_append] at member
      rcases member with member | member
      · exact diffSilent exchange member
      · exact isApply_of_isConfiguring _ ((uses_addModels _).of_mem added member)

/-- Behind the gate no request calls the orchestrator, but for configurations that
add a deployment. -/
theorem applies_of_happens {calls : RouteCalls} {event : Event}
    (gated : setup.deploymentApprovals = true) (happens : Happens calls setup event)
    (adds : event.AddsNothing) : event.applies = [] := by
  cases happens with
  | refused => rfl
  | keys => rfl
  | served _ call action _ _ _ _ produced =>
    refine applies_eq_nil ?_
    cases action with
    | deploy =>
      exact fun _ member =>
        (uses_handleDeployModel gated _ _ _ _).of_mem produced member
    | approve deploymentID body =>
      exact fun _ member => isApply_of_isReviewing _
        ((Review.uses setup deploymentID (.approve call.request body)).of_mem produced member)
    | reject deploymentID body =>
      exact fun _ member => isApply_of_isReviewing _
        ((Review.uses setup deploymentID (.reject call.request body)).of_mem produced member)
    | getApproval =>
      have uses := uses_handleGetApproval (fun asked reading =>
        isApply_of_isReviewing asked (isReviewing_of_isReading asked reading)) fun _ => rfl
      exact fun _ member => (uses _ _).of_mem produced member
    | configApply =>
      refine silent_of_configApply produced ?_
      rintro config rfl
      exact adds config rfl

/-- A live gate calls the orchestrator as often as it releases an approval. -/
theorem GateLive.length_eq {events : List Event} (live : GateLive setup events) :
    (events.flatMap Event.released).length = (events.flatMap Event.applies).length := by
  obtain ⟨plans, requested, applied⟩ := live
  rw [requested.length_eq, applied.length_eq]

def gatedSetup : Setup where
  deploymentApprovals := true
  deployer := some callOrchestrator

def gatedSite : Site where
  cluster :=
    { Reconciler.fleetCluster [Reconciler.bigNode "b" .ready 0] with
      models := KeyedStores.Store.empty.insert ⟨"other", .ok
          { id := ""
            layers := 4
            quantizations := [{ name := "q4", sizeGB := 8, quality := 9 / 10 }] }⟩ }

def postRequest (path authorization : String) : Call where
  request := { method := "POST", path := path, authorization := authorization }

def inlinePlan : DeploymentPlan where
  planID := "plan-2"
  modelID := "model"
  quantization := "q4"
  assignments := []

def deployRequest : Call × ServerAction := (postRequest "/api/v1/models/model/deploy" "",
    .deploy "model" (.ok { plan := some (.ok inlinePlan) }))

def approveRequest : Call × ServerAction :=
  (postRequest "/api/v1/approvals/0/approve" "Bearer reviewer", .approve "0" (.ok ""))

def configRequest : Call × ServerAction :=
  (postRequest "/api/v1/config/apply" "", .configApply (.config { deployments := [⟨"other", ""⟩] }))

def gatedEvents (requests : List (Call × ServerAction)) : List Event :=
  untroubledEvents gatedSetup gatedSite requests

theorem runs_gatedEvents (requests : List (Call × ServerAction)) :
    ∃ final, Runs Gateway.directCalls gatedSetup gatedSite (gatedEvents requests) final :=
  runs_untroubledEvents .start requests

end Purser.Management
