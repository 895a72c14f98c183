import Purser.AgentSupervisor
import Purser.ControlCalls
import Purser.GatewayTable
import Purser.SharedWorlds

/-!
# The world around the control plane

A registry call may fail at any time and then changes nothing; a call that
succeeds tells the truth and takes effect.  An agent that is reachable may
answer a start in any way, one that is not refuses.
-/

namespace Purser.ControlPlane

open InteractionPrograms KeyedStores SharedWorlds
open Agent (Fleet Supervisor)
open Gateway (RouteCalls RouteTable)
open Orchestrator (Answer Command Deployment StartAnswer)
open Planner (Link)

structure Cluster where
  deployments : Store Deployment.id := .empty
  plans : Store PlanRow.id := .empty
  models : Store ModelRow.id := .empty
  nodes : Store NodeRow.id := .empty
  links : List Link := []
  routes : RouteTable := .empty
  agents : Fleet := fun _ => {}
  reachable : String → Bool := fun _ => true

namespace Cluster

def LooksUp {Row : Type} (found : Option Row) : Except LookupError Row → Prop
  | .ok row => found = some row
  | .error .notFound => found = none
  | .error (.failed _) => True

instance {Row : Type} [DecidableEq Row] (found : Option Row) :
    (answer : Except LookupError Row) → Decidable (LooksUp found answer)
  | .ok row => inferInstanceAs (Decidable (found = some row))
  | .error .notFound => inferInstanceAs (Decidable (found = none))
  | .error (.failed _) => isTrue trivial

/-- A listing shows every row, in some order. -/
def ListsRows {Row : Type} (rows : List Row) : Except String (List Row) → Prop
  | .ok listed => listed.Perm rows
  | .error _ => True

instance {Row : Type} [DecidableEq Row] (rows : List Row) :
    (answer : Except String (List Row)) → Decidable (ListsRows rows answer)
  | .ok listed => inferInstanceAs (Decidable (listed.Perm rows))
  | .error _ => isTrue trivial

variable (cluster : Cluster) (calls : RouteCalls)

def AllowsCommand : (command : Command) → Answer command → Prop
  | .createDeployment row, none => cluster.deployments.find row.id = none
  | .updateDeployment row, none => cluster.deployments.find row.id ≠ none
  | .startEngine addr _, .opened _ => cluster.reachable addr = true
  | .stopEngine addr _, .ok _ => cluster.reachable addr = true
  | .stopEngine addr _, .error _ => cluster.reachable addr = false
  | .upsertRoute route, none => (calls.upsert route cluster.routes).isOk = true
  | _, _ => True

instance  (command : Command)
    (answer : Answer command) :
    Decidable (cluster.AllowsCommand calls command answer) := by
  unfold AllowsCommand
  split <;> infer_instance

def Allows (cluster : Cluster) : Exchange Reply → Prop
  | ⟨.command command, answer⟩ => cluster.AllowsCommand calls command answer
  | ⟨.getDeployment id, answer⟩ => LooksUp (cluster.deployments.find id) answer
  | ⟨.listDeployments, answer⟩ => ListsRows cluster.deployments.rows answer
  | ⟨.getPlan id, answer⟩ => LooksUp (cluster.plans.find id) answer
  | ⟨.createPlan row, none⟩ => cluster.plans.find row.id = none
  | ⟨.createPlan _, some _⟩ => True
  | ⟨.getModel id, answer⟩ => LooksUp (cluster.models.find id) answer
  | ⟨.listNodes, answer⟩ => ListsRows cluster.nodes.rows answer
  | ⟨.listLinks, answer⟩ => ListsRows cluster.links answer
  | ⟨.deleteRoute modelID, none⟩ =>
    (calls.delete modelID cluster.routes).isOk = true
  | ⟨.deleteRoute _, some _⟩ => True
  | ⟨.listRoutes, answer⟩ =>
    ListsRows (cluster.routes.rows.map Gateway.RouteEntry.modelID) answer
  | ⟨.randomHex _, _⟩ => True
  | ⟨.mapOrder _, _⟩ => True

instance  (cluster : Cluster) (exchange : Exchange Reply) :
    Decidable (cluster.Allows calls exchange) := by
  unfold Allows
  split <;> infer_instance

/-- The table a call leaves behind; a rejected call leaves it alone. -/
def tableAfter (routes : RouteTable) : Except String RouteTable → RouteTable
  | .ok changed => changed
  | .error _ => routes

def applyCommand : (command : Command) → Answer command → Cluster
  | .createDeployment row, none =>
    { cluster with deployments := cluster.deployments.insert row }
  | .updateDeployment row, none =>
    { cluster with deployments := cluster.deployments.replace row }
  | .startEngine addr request, answer =>
    { cluster with
      agents := cluster.agents.startEngine addr request answer }
  | .stopEngine addr _, answer =>
    { cluster with agents := cluster.agents.stopEngine addr answer }
  | .upsertRoute route, none =>
    { cluster with
      routes := tableAfter cluster.routes (calls.upsert route cluster.routes) }
  | _, _ => cluster

def effect (cluster : Cluster) : Exchange Reply → Cluster
  | ⟨.command command, answer⟩ => cluster.applyCommand calls command answer
  | ⟨.createPlan row, none⟩ => { cluster with plans := cluster.plans.insert row }
  | ⟨.deleteRoute modelID, none⟩ =>
    { cluster with
      routes := tableAfter cluster.routes (calls.delete modelID cluster.routes) }
  | _ => cluster

end Cluster

def controlWorld (calls : RouteCalls) : Interface Reply Cluster where
  Allows cluster := cluster.Allows calls
  effect cluster := cluster.effect calls

instance (calls : RouteCalls) (cluster : Cluster) (exchange : Exchange Reply) :
    Decidable ((controlWorld calls).Allows cluster exchange) :=
  inferInstanceAs (Decidable (cluster.Allows calls exchange))

/-- The error of a call that failed for reasons of its own.  A refused record
may also be one whose identifier is taken. -/
def fault : Exchange Reply → Option String
  | ⟨.command (.updateDeployment _), error⟩ => error
  | ⟨.command (.upsertRoute _), error⟩ => error
  | ⟨.getDeployment _, .error (.failed problem)⟩ => some problem
  | ⟨.listDeployments, .error problem⟩ => some problem
  | ⟨.getPlan _, .error (.failed problem)⟩ => some problem
  | ⟨.createPlan _, error⟩ => error
  | ⟨.getModel _, .error (.failed problem)⟩ => some problem
  | ⟨.listNodes, .error problem⟩ => some problem
  | ⟨.listLinks, .error problem⟩ => some problem
  | ⟨.deleteRoute _, error⟩ => error
  | ⟨.listRoutes, .error problem⟩ => some problem
  | _ => none

/-- No call to the registry or the gateway fails. -/
def Faultless (trace : CallTrace) : Prop := ∀ exchange ∈ trace, fault exchange = none

instance (trace : CallTrace) : Decidable (Faultless trace) :=
  inferInstanceAs (Decidable (∀ exchange ∈ trace, fault exchange = none))

section Untroubled

open InteractionPrograms.Program

def lookupReply {Row : Type} : Option Row → Except LookupError Row
  | some row => .ok row
  | none => .error .notFound

/-- The answers of a world in which nothing goes wrong: every node is reached
under its identifier at the default ports and every reachable agent brings its
engine up. -/
def Cluster.untroubledAnswer (cluster : Cluster) : (command : Command) → Answer command
  | .createDeployment row =>
    if cluster.deployments.find row.id = none then none
    else some "registry: conflict"
  | .updateDeployment row =>
    if cluster.deployments.find row.id = none then some "registry: not found"
    else none
  | .appendAudit _ => none
  | .resolve nodeID => .ok ⟨nodeID ++ ":50151", nodeID ++ ":8000"⟩
  | .startEngine addr _ =>
    if cluster.reachable addr then .opened [.event .ready ("engine at " ++ addr)]
    else .refused "connection refused"
  | .stopEngine addr _ =>
    if cluster.reachable addr then .ok "stopped"
    else .error "connection refused"
  | .upsertRoute _ => none

def Cluster.untroubledReply (cluster : Cluster) : (call : Call) → Reply call
  | .command command => cluster.untroubledAnswer command
  | .getDeployment id => lookupReply (cluster.deployments.find id)
  | .listDeployments => .ok cluster.deployments.rows
  | .getPlan id => lookupReply (cluster.plans.find id)
  | .createPlan row =>
    if cluster.plans.find row.id = none then none
    else some "registry: conflict"
  | .getModel id => lookupReply (cluster.models.find id)
  | .listNodes => .ok cluster.nodes.rows
  | .listLinks => .ok cluster.links
  | .deleteRoute _ => none
  | .listRoutes => .ok (cluster.routes.rows.map Gateway.RouteEntry.modelID)
  | .randomHex _ =>
    String.ofList (List.replicate cluster.deployments.rows.length '0')
  | .mapOrder keys => ⟨keys, .refl _⟩

theorem looksUp_lookupReply {Row : Type} (found : Option Row) :
    Cluster.LooksUp found (lookupReply found) := by
  cases found <;> rfl

theorem allows_untroubledReply (cluster : Cluster) (call : Call) :
    (controlWorld Gateway.directCalls).Allows cluster ⟨call, cluster.untroubledReply call⟩ := by
  change cluster.Allows Gateway.directCalls ⟨call, cluster.untroubledReply call⟩
  cases call with
  | command command =>
    change cluster.AllowsCommand _ command (cluster.untroubledAnswer command)
    cases command with
    | createDeployment row | updateDeployment row =>
      by_cases absent : cluster.deployments.find row.id = none <;>
        simp [Cluster.untroubledAnswer, Cluster.AllowsCommand, absent]
    | startEngine addr | stopEngine addr =>
      cases reachable : cluster.reachable addr <;>
        simp [Cluster.untroubledAnswer, Cluster.AllowsCommand, reachable]
    | upsertRoute => rfl
    | _ => trivial
  | createPlan row =>
    by_cases absent : cluster.plans.find row.id = none <;>
      simp [Cluster.untroubledReply, Cluster.Allows, absent]
  | getDeployment id | getPlan id | getModel id => exact looksUp_lookupReply _
  | listDeployments | listNodes | listLinks | listRoutes => exact List.Perm.refl _
  | deleteRoute => rfl
  | randomHex => trivial
  | mapOrder => trivial

def untroubledRun {Value : Type} (cluster : Cluster)
    (program : Program Reply Value) : CallTrace × Value :=
  (controlWorld Gateway.directCalls).play Cluster.untroubledReply cluster program

theorem produces_untroubledRun {Value : Type} (cluster : Cluster) (program : Program Reply Value) :
    program.Produces (untroubledRun cluster program).1 (untroubledRun cluster program).2 :=
  Interface.produces_play _ cluster program

theorem accepts_untroubledRun {Value : Type} (cluster : Cluster) (program : Program Reply Value) :
    (controlWorld Gateway.directCalls).Accepts cluster (untroubledRun cluster program).1 :=
  Interface.accepts_play allows_untroubledReply cluster program

end Untroubled

end Purser.ControlPlane
