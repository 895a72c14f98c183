import Purser.ControlWorld
import Purser.OrchestratorLifecycle

/-!
# What a trace changes

The rows a trace records, what it does to agents and what it does to routes are
read off its exchanges.  The world after a trace depends on nothing else.
-/

namespace Purser.ControlPlane

open InteractionPrograms KeyedStores SharedWorlds Orchestrator List
open Agent (Fleet)
open Gateway (RouteCalls RouteTable)
open ReadyEngine (ref exchanges)

variable {exchange : Exchange Reply} {row : Deployment} {ready : List ReadyEngine}
  {agentsConfigured : Bool} {given : Option DeploymentPlan}

inductive AgentChange where
  | start (addr : String) (request : StartEngineRequest) (answer : StartAnswer)
  | stop (addr : String) (answer : Except String String)

namespace AgentChange

def apply (fleet : Fleet) : AgentChange → Fleet
  | .start addr request answer => fleet.startEngine addr request answer
  | .stop addr answer => fleet.stopEngine addr answer

def addr : AgentChange → String
  | .start addr _ _ => addr
  | .stop addr _ => addr

end AgentChange

inductive RouteChange where
  | upsert (route : RouteUpdate)
  | delete (modelID : String)

def RouteChange.apply (calls : RouteCalls) (routes : RouteTable) : RouteChange → RouteTable
  | .upsert route => Cluster.tableAfter routes (calls.upsert route routes)
  | .delete modelID => Cluster.tableAfter routes (calls.delete modelID routes)

/-- The row a successful registry write leaves behind. -/
def rowOf : Exchange Reply → Option Deployment
  | ⟨.command (.createDeployment row), none⟩ => some row
  | ⟨.command (.updateDeployment row), none⟩ => some row
  | _ => none

def agentChangeOf : Exchange Reply → Option AgentChange
  | ⟨.command (.startEngine addr request), answer⟩ =>
    some (.start addr request answer)
  | ⟨.command (.stopEngine addr _), answer⟩ => some (.stop addr answer)
  | _ => none

def routeChangeOf : Exchange Reply → Option RouteChange
  | ⟨.command (.upsertRoute route), none⟩ => some (.upsert route)
  | ⟨.deleteRoute modelID, none⟩ => some (.delete modelID)
  | _ => none

/-- Everything a trace changes, collected segment by segment. -/
structure Effects where
  rows : List Deployment
  agents : List AgentChange
  routes : List RouteChange

instance : Append Effects where
  append first second :=
    ⟨first.rows ++ second.rows, first.agents ++ second.agents, first.routes ++ second.routes⟩

@[simp]
theorem Effects.mk_append (rows otherRows : List Deployment) (agents otherAgents : List AgentChange)
    (routes otherRoutes : List RouteChange) :
    (⟨rows, agents, routes⟩ : Effects) ++ ⟨otherRows, otherAgents, otherRoutes⟩ =
      ⟨rows ++ otherRows, agents ++ otherAgents, routes ++ otherRoutes⟩ :=
  rfl

def effectsOf (trace : CallTrace) : Effects :=
  ⟨trace.filterMap rowOf, trace.filterMap agentChangeOf, trace.filterMap routeChangeOf⟩

theorem effectsOf_append (before after : CallTrace) :
    effectsOf (before ++ after) = effectsOf before ++ effectsOf after := by
  simp only [effectsOf, filterMap_append]
  rfl

section World

variable {calls : RouteCalls}

theorem deployments_effect {cluster : Cluster}
    (allowed : (controlWorld calls).Allows cluster exchange) :
    ((controlWorld calls).effect cluster exchange).deployments =
      (rowOf exchange).elim cluster.deployments cluster.deployments.put := by
  obtain ⟨call, answer⟩ := exchange
  cases call with
  | command command =>
    cases command with
    | createDeployment =>
      cases answer with
      | none => exact Store.insert_eq_put allowed
      | some => rfl
    | updateDeployment =>
      cases answer with
      | none => exact Store.replace_eq_put allowed
      | some => rfl
    | upsertRoute => cases answer <;> rfl
    | _ => rfl
  | createPlan | deleteRoute => cases answer <;> rfl
  | _ => rfl

/-- The last row written for an identifier is the one the registry holds. -/
theorem find_after {cluster : Cluster} {trace : CallTrace}
    (accepted : (controlWorld calls).Accepts cluster trace) (id : String) :
    ((controlWorld calls).after cluster trace).deployments.find id =
      (((effectsOf trace).rows.filter (·.id = id)).getLast?).or (cluster.deployments.find id) := by
  have stored : ((controlWorld calls).after cluster trace).deployments =
      (effectsOf trace).rows.foldl Store.put cluster.deployments := by
    induction trace generalizing cluster with
    | nil => rfl
    | cons exchange rest induction =>
      rw [Interface.after_cons, induction accepted.2, deployments_effect accepted.1]
      cases written : rowOf exchange <;> simp [effectsOf, written]
  rw [stored, Store.find_foldl_put]

theorem effect_parts (cluster : Cluster) (exchange : Exchange Reply) :
    (controlWorld calls).effect cluster exchange =
      { cluster with
        deployments := ((controlWorld calls).effect cluster exchange).deployments
        plans := ((controlWorld calls).effect cluster exchange).plans
        agents := (agentChangeOf exchange).elim cluster.agents (AgentChange.apply cluster.agents)
        routes := (routeChangeOf exchange).elim cluster.routes
          (RouteChange.apply calls cluster.routes) } := by
  obtain ⟨call, answer⟩ := exchange
  cases call with
  | command command =>
    cases command <;> first | rfl | (cases answer <;> rfl)
  | createPlan | deleteRoute => cases answer <;> rfl
  | _ => rfl

section

variable (cluster : Cluster) (trace : CallTrace)

include cluster trace

theorem parts_after : ((controlWorld calls).after cluster trace).agents =
      (effectsOf trace).agents.foldl AgentChange.apply cluster.agents ∧
      ((controlWorld calls).after cluster trace).routes =
        (effectsOf trace).routes.foldl (RouteChange.apply calls) cluster.routes := by
  induction trace generalizing cluster with
  | nil => exact ⟨rfl, rfl⟩
  | cons exchange rest induction =>
    rw [Interface.after_cons, (induction _).1, (induction _).2, effect_parts]
    cases agents : agentChangeOf exchange <;> cases routes : routeChangeOf exchange <;>
      simp [effectsOf, agents, routes]

theorem reachable_after : ((controlWorld calls).after cluster trace).reachable =
      cluster.reachable := by
  apply Interface.view_after Cluster.reachable
  intro exchange _ cluster
  rw [effect_parts]

end

theorem answered_of_reachable {cluster : Cluster} {trace : CallTrace}
    (accepted : (controlWorld calls).Accepts cluster trace) {addr : String}
    {answer : Except String String}
    (member : AgentChange.stop addr answer ∈ (effectsOf trace).agents)
    (reachable : cluster.reachable addr = true) :
    ∃ status, answer = .ok status := by
  obtain ⟨⟨call, given⟩, exchanged, changeEq⟩ := mem_filterMap.mp member
  obtain ⟨before, rest, rfl, allowed⟩ := accepted.exists_allows exchanged
  cases call with
  | command command =>
    cases command <;> cases changeEq
    cases answer with
    | ok status => exact ⟨status, rfl⟩
    | error =>
      have unreachable : ((controlWorld calls).after cluster
        before).reachable addr = false := allowed
      rw [reachable_after, reachable] at unreachable
      cases unreachable
  | _ => cases changeEq

end World

section Segments

variable (depID : String) (plan : DeploymentPlan)

theorem effectsOf_opening (audited : Option String) :
    effectsOf ((openingExchanges depID plan audited).map liftExchange) =
      ⟨[initialDeployment depID plan], [], []⟩ :=
  rfl

def readyStart (engine : ReadyEngine) : AgentChange :=
  .start engine.endpoint.agentAddr engine.step.request engine.answer

theorem reachable_of_ready {cluster : Cluster} {trace : CallTrace}
    (accepted : (controlWorld calls).Accepts cluster trace) {engine : ReadyEngine}
    (member : readyStart engine ∈ (effectsOf trace).agents) :
    cluster.reachable engine.endpoint.agentAddr = true := by
  obtain ⟨⟨call, answer⟩, exchanged, changeEq⟩ := mem_filterMap.mp member
  obtain ⟨before, rest, rfl, allowed⟩ := accepted.exists_allows exchanged
  cases call with
  | command command =>
    cases command <;> cases changeEq
    rw [← reachable_after cluster before]
    have ready := engine.ready
    cases answered : engine.answer with
    | refused =>
      rw [answered] at ready
      cases ready
    | opened =>
      rw [answered] at allowed
      exact allowed
  | _ => cases changeEq

theorem effectsOf_ready (ready : List ReadyEngine) :
    effectsOf ((ready.flatMap exchanges).map liftExchange) =
      ⟨[], ready.map readyStart, []⟩ := by
  induction ready with
  | nil => rfl
  | cons _ _ induction =>
    rw [flatMap_cons, map_append, effectsOf_append, induction]
    rfl

theorem answers_of_faultless {host : Assignment} {hostEngine : ReadyEngine}
    {opened updated audited published : Option String}
    (faultless : Faultless ((activeTrace depID plan host ready hostEngine opened
      updated audited published).map liftExchange)) : updated = none ∧ published = none := by
  have mapped : ∀ exchange ∈ successExchanges depID plan host
      hostEngine.endpoint ((ready ++ [hostEngine]).map ref) updated
      audited published, fault (liftExchange exchange) = none := by
    intro exchange member
    exact faultless _ (mem_map_of_mem (mem_append_right _ member))
  simp only [successExchanges, forall_mem_cons] at mapped
  exact ⟨mapped.1, mapped.2.2.1⟩

theorem effectsOf_activeTrace (host : Assignment) (ready : List ReadyEngine)
    (hostEngine : ReadyEngine) (opened updated audited published : Option String) :
    effectsOf ((activeTrace depID plan host ready hostEngine opened updated
        audited published).map liftExchange) = ⟨initialDeployment depID plan ::
          if updated = none then
            [activeDeployment depID plan host hostEngine.endpoint
              ((ready ++ [hostEngine]).map ref)] else [],
        (ready ++ [hostEngine]).map readyStart,
        if published = none then
          [.upsert (activeRoute depID (activeDetail plan host hostEngine.endpoint
            ((ready ++ [hostEngine]).map ref)))] else []⟩ := by
  rw [activeTrace, map_append, map_append, effectsOf_append,
    effectsOf_append, effectsOf_opening, effectsOf_ready]
  cases updated <;> cases published <;> exact congrArg (Effects.mk _ · _) (append_nil _)

theorem effectsOf_rollback {engines : List EngineRef} {stops : CallTrace}
    (rolledBack : IsRollback engines stops) :
    ∃ changes, effectsOf stops = ⟨[], changes, []⟩ ∧
      changes.map AgentChange.addr = engines.reverse.map EngineRef.agentAddr ∧
      ∀ change ∈ changes, ∃ addr answer, change = .stop addr answer := by
  unfold IsRollback at rolledBack
  generalize engines.reverse = order at rolledBack ⊢
  induction order generalizing stops with
  | nil =>
    obtain rfl := map_eq_nil_iff.mp rolledBack
    exact ⟨[], rfl, rfl, by simp⟩
  | cons engine _ induction =>
    obtain ⟨⟨call, answer⟩, rest, rfl, callEq, restEq⟩ := map_eq_cons_iff.mp rolledBack
    obtain rfl : call = Call.command (stopCommand engine) := callEq
    obtain ⟨changes, effectsEq, addrsEq, allStops⟩ := induction restEq
    refine ⟨.stop engine.agentAddr answer :: changes, ?_, ?_, ?_⟩
    · change effectsOf ([_] ++ rest) = _
      rw [effectsOf_append, effectsEq]
      rfl
    · simp [AgentChange.addr, addrsEq]
    · intro change member
      rcases mem_cons.mp member with rfl | member
      · exact ⟨engine.agentAddr, answer, rfl⟩
      · exact allStops change member

theorem effectsOf_attempt {step : LaunchStep} {attempt : Trace}
    (attempted : FailedLaunch step attempt) :
    ∃ changes, effectsOf (attempt.map liftExchange) = ⟨[], changes, []⟩ := by
  cases attempted with
  | unresolved => exact ⟨[], rfl⟩
  | notReady => exact ⟨_, rfl⟩

theorem isRollback_of_stops {engines : List EngineRef} {stops : Trace}
    (stopped : stops.map Exchange.command = engines.reverse.map stopCommand) :
    IsRollback engines (stops.map liftExchange) := by
  have commands := congrArg (List.map Call.command) stopped
  rw [map_map, map_map] at commands
  rw [IsRollback, map_map]
  exact commands

theorem effectsOf_failedTrace {step : LaunchStep} {attempt stops : Trace}
    (attempted : FailedLaunch step attempt)
    (stopped : stops.map Exchange.command = (ready.map ref).reverse.map stopCommand)
    (reason : String) (opened updated audited : Option String) :
    ∃ changes, effectsOf ((failedTrace depID plan ready attempt stops reason opened
        updated audited).map liftExchange) = ⟨initialDeployment depID plan ::
          if updated = none then
            [failedDeployment depID plan reason (ready.map ref)] else [],
        changes, []⟩ := by
  obtain ⟨attemptChanges, attemptEffects⟩ := effectsOf_attempt attempted
  obtain ⟨stopChanges, stopEffects, -, -⟩ := effectsOf_rollback (isRollback_of_stops stopped)
  have closing : effectsOf ((failureExchanges depID plan reason
      (ready.map ref) updated audited).map liftExchange) = ⟨if updated = none then
          [failedDeployment depID plan reason (ready.map ref)] else [],
        [], []⟩ := by
    cases updated <;> rfl
  rw [failedTrace]
  simp only [map_append, effectsOf_append]
  rw [effectsOf_opening, effectsOf_ready, attemptEffects, stopEffects, closing]
  simp

theorem eq_or_of_mem_rows {first second : Deployment} {answer : Option String}
    (member : row ∈ first :: if answer = none then [second] else []) :
    row = first ∨ row = second := by
  rcases mem_cons.mp member with same | member
  · exact .inl same
  · split at member
    · exact .inr (mem_singleton.mp member)
    · cases member

/-- A plan that is applied only writes the record of its own deployment, and all
that it tells the gateway is the active route of that deployment. -/
theorem effects_of_apply {newID : String} {trace : Trace} {result : ApplyResult}
    (produced : (apply agentsConfigured newID given).Produces trace result) :
    (∀ row ∈ (effectsOf (trace.map liftExchange)).rows, row.id = newID) ∧
      ∀ change ∈ (effectsOf (trace.map liftExchange)).routes,
        ∃ detail, change = .upsert (activeRoute newID detail) := by
  rcases apply_run produced with
    ⟨_, _, rfl, _⟩ | ⟨accepted, workers, host, _, run⟩
  · exact ⟨forall_mem_nil _, forall_mem_nil _⟩
  cases run with
  | notCreated => exact ⟨forall_mem_nil _, forall_mem_nil _⟩
  | failed ready step attempt stops failure opened updated audited next attempted
      stopped =>
      obtain ⟨changes, effects⟩ := effectsOf_failedTrace newID accepted attempted
        stopped failure.reason opened updated audited
      rw [effects]
      refine ⟨fun row member => ?_, forall_mem_nil _⟩
      rcases eq_or_of_mem_rows member with rfl | rfl <;> rfl
  | active _ _ _ _ _ published =>
    rw [effectsOf_activeTrace]
    refine ⟨fun row member => ?_, fun change member => ?_⟩
    · rcases eq_or_of_mem_rows member with rfl | rfl <;> rfl
    · cases published with
      | none => exact ⟨_, mem_singleton.mp member⟩
      | some => cases member

section Teardowns

variable {deploymentID : String} {deployment : Deployment} {stops removal : CallTrace}
  {marked noted finished closed : Option String}
  (rolledBack : IsRollback deployment.detail.engines stops)
  (removed : IsRemoval deployment.detail.modelID removal)

include rolledBack removed

/-- What a teardown does, whichever of its calls succeed: it marks the row twice,
stops the agent of every engine and takes the route of the model away. -/
theorem effectsOf_teardownTrace : ∃ changes,
      effectsOf (teardownTrace deploymentID deployment stops removal marked noted finished closed) =
        ⟨(if marked = none then
              [persisted deployment .stopping deployment.detail] else []) ++
            (if finished = none then
              [persisted deployment .stopped deployment.detail] else []),
          changes, (effectsOf removal).routes⟩ ∧
      changes.map AgentChange.addr = deployment.detail.engines.reverse.map EngineRef.agentAddr ∧
      ∀ change ∈ changes, ∃ addr answer, change = .stop addr answer := by
  obtain ⟨changes, stopsEq, addrsEq, allStops⟩ := effectsOf_rollback rolledBack
  refine ⟨changes, ?_, addrsEq, allStops⟩
  have opening : effectsOf [⟨.getDeployment deploymentID, .ok deployment⟩,
        updateExchange (persisted deployment .stopping deployment.detail) marked,
        auditExchange "deployment.stopping" deploymentID [] noted] = ⟨if marked = none then
          [persisted deployment .stopping deployment.detail] else [], [], []⟩ := by
    cases marked <;> rfl
  have closing : effectsOf
      [updateExchange (persisted deployment .stopped deployment.detail) finished,
        auditExchange "deployment.stopped" deploymentID [] closed] = ⟨if finished = none then
          [persisted deployment .stopped deployment.detail] else [], [], []⟩ := by
    cases finished <;> rfl
  have removing : effectsOf removal = ⟨[], [], (effectsOf removal).routes⟩ := by
    cases removed <;> rfl
  change effectsOf ([_, _, _] ++ (stops ++ (removal ++ [_, _]))) = _
  rw [effectsOf_append, effectsOf_append, effectsOf_append, opening, stopsEq, removing, closing]
  simp

theorem rows_teardownTrace : (effectsOf
      (teardownTrace deploymentID deployment stops removal marked noted finished closed)).rows =
        (if marked = none then [persisted deployment .stopping deployment.detail] else []) ++
        if finished = none then
          [persisted deployment .stopped deployment.detail] else [] := by
  obtain ⟨changes, effects, -, -⟩ := effectsOf_teardownTrace rolledBack removed
  rw [effects]

end Teardowns

end Segments

theorem foldl_apply_of_untouched {changes : List AgentChange} {addr : String}
    (untouched : addr ∉ changes.map AgentChange.addr) (fleet : Fleet) :
    changes.foldl AgentChange.apply fleet addr = fleet addr := by
  induction changes generalizing fleet with
  | nil => rfl
  | cons change _ induction =>
    simp only [map_cons, mem_cons, not_or] at untouched
    rw [foldl_cons, induction untouched.2]
    cases change with
    | start _ _ answer =>
      cases answer with
      | refused => rfl
      | opened => exact Function.update_of_ne untouched.1 _ _
    | stop _ answer =>
      cases answer with
      | error => rfl
      | ok => exact Function.update_of_ne untouched.1 _ _

def agentAddrs (ready : List ReadyEngine) : List String :=
  ready.map fun engine => engine.endpoint.agentAddr

theorem map_addr_readyStart (ready : List ReadyEngine) :
    (ready.map readyStart).map AgentChange.addr = agentAddrs ready := by
  rw [map_map]
  rfl

def startAddr : AgentChange → Option String
  | .start addr _ _ => some addr
  | .stop _ _ => none

def startedAt (trace : CallTrace) : List String := (effectsOf trace).agents.filterMap startAddr

theorem filterMap_startAddr_readyStart (ready : List ReadyEngine) :
    (ready.map readyStart).filterMap startAddr = agentAddrs ready := by
  rw [filterMap_map]
  exact congrFun (@filterMap_eq_map _ _ fun engine : ReadyEngine => engine.endpoint.agentAddr) _

/-- Engines started at different agents all serve what they were started for. -/
theorem serving_of_started (distinct : (agentAddrs ready).Nodup) (fleet : Fleet)
    {engine : ReadyEngine} (member : engine ∈ ready) :
    ((ready.map readyStart).foldl AgentChange.apply fleet engine.endpoint.agentAddr).serving =
      some ⟨engine.step.request, engine.handle⟩ := by
  induction ready generalizing fleet with
  | nil => cases member
  | cons _ _ induction =>
    obtain ⟨fresh, distinct⟩ := nodup_cons.mp distinct
    rcases mem_cons.mp member with rfl | member
    · rw [map_cons, foldl_cons, foldl_apply_of_untouched]
      · change (fleet.startEngine _ _ _ _).serving = _
        rw [Agent.Fleet.startEngine_of_ready engine.ready, Function.update_self]
      · rw [map_addr_readyStart]
        exact fresh
    · exact induction distinct _ member

theorem serving_of_stopped {changes : List AgentChange} {addr status : String}
    (allStops : ∀ change ∈ changes, ∃ other answer, change = .stop other answer)
    (stopped : AgentChange.stop addr (.ok status) ∈ changes) (fleet : Fleet) :
    (changes.foldl AgentChange.apply fleet addr).serving = none := by
  obtain ⟨before, rest, rfl⟩ := append_of_mem stopped
  rw [foldl_append, foldl_cons]
  refine List.foldlRecOn (motive := fun fleet : Fleet => (fleet addr).serving = none) _ _ ?_ ?_
  · rw [AgentChange.apply, Agent.Fleet.stopEngine, Function.update_self]
    rfl
  · intro fleet silent change member
    obtain ⟨other, answer, rfl⟩ := allStops change (by simp [member])
    cases answer with
    | error => exact silent
    | ok =>
      change (Function.update fleet other _ addr).serving = none
      by_cases same : addr = other
      · rw [same, Function.update_self]
        rfl
      · rw [Function.update_of_ne same]
        exact silent

end Purser.ControlPlane
