import Purser.FailoverPlacement
import Purser.ReconcilerPass
import Purser.TerminalStates

/-!
# How often one pass replaces a deployment

The record of a deployment stops all but the first of several events about it,
and the reconciler looks at it only if it has a planner.
-/

namespace Purser.Reconciler

open InteractionPrograms Program SharedWorlds List
open ControlPlane Orchestrator
open Gateway (RouteCalls)
open KeyedStores.Store (key_of_find empty)

/-- Only the record of one deployment is written, apart from new ones. -/
def TouchesOnly (cluster : Cluster) (depID : String) (trace : CallTrace) : Prop :=
  ∀ row ∈ (effectsOf trace).rows, row.id = depID ∨ cluster.deployments.find row.id = none

variable {calls : RouteCalls} {cluster : Cluster} {depID : String} {trace : CallTrace}
  {agentsConfigured acted : Bool} {event : Event} {planner : ReadingPlanner}

section Touching

variable {result : Option String}

theorem touchesOnly_of_unwritten (unwritten : (effectsOf trace).rows = []) :
    TouchesOnly cluster depID trace := by
  intro row member
  rw [unwritten] at member
  cases member

theorem find_none_of_after {id : String} (accepted : (controlWorld calls).Accepts cluster trace)
    (absent : ((controlWorld calls).after cluster trace).deployments.find id =
      none) : cluster.deployments.find id = none := by
  rw [find_after accepted] at absent
  exact (Option.or_eq_none_iff.mp absent).2

theorem TouchesOnly.append {before rest : CallTrace}
    (accepted : (controlWorld calls).Accepts cluster before)
    (first : TouchesOnly cluster depID before)
    (second : TouchesOnly ((controlWorld calls).after cluster before) depID rest) :
    TouchesOnly cluster depID (before ++ rest) := by
  intro row member
  rw [effectsOf_append] at member
  rcases mem_append.mp member with member | member
  · exact first row member
  · exact (second row member).imp_right (find_none_of_after accepted)

theorem TouchesOnly.concat {before : CallTrace} {last : Exchange Reply}
    (unwritten : rowOf last = none) (touches : TouchesOnly cluster depID before) :
    TouchesOnly cluster depID (before ++ [last]) := by
  have rowsEq : (effectsOf (before ++ [last])).rows = (effectsOf before).rows := by
    change (before ++ [last]).filterMap rowOf = _
    rw [filterMap_append, filterMap_cons_none unwritten, filterMap_nil, append_nil]
    rfl
  intro row member
  rw [rowsEq] at member
  exact touches row member

theorem TouchesOnly.find_other (touches : TouchesOnly cluster depID trace)
    (accepted : (controlWorld calls).Accepts cluster trace) {other : String}
    (different : other ≠ depID) {row : Deployment}
    (found : cluster.deployments.find other = some row) :
    ((controlWorld calls).after cluster trace).deployments.find other = some row := by
  have unwritten : (effectsOf trace).rows.filter (·.id = other) = [] := by
    rw [filter_eq_nil_iff]
    intro written member same
    obtain rfl : written.id = other := of_decide_eq_true same
    rcases touches written member with isOwn | absent
    · exact different isOwn
    · rw [found] at absent
      cases absent
  rw [find_after accepted, unwritten, found]
  rfl

theorem touchesOnly_apply {newID : String} {plan : Option DeploymentPlan} {trace : Trace}
    {result : ApplyResult}
    (produced : (Orchestrator.apply agentsConfigured newID plan).Produces trace
      result) (accepted : (controlWorld calls).Accepts cluster (trace.map liftExchange)) :
    TouchesOnly cluster depID (trace.map liftExchange) := by
  intro row member
  have own := (effects_of_apply produced).1 row member
  rw [own]
  rcases apply_run produced with
    ⟨_, _, rfl, _⟩ | ⟨applied, workers, host, _, run⟩
  · cases member
  cases run with
  | notCreated => cases member
  | failed ready step attempt stops failure opened updated audited next attempted stopped
  | active => exact Or.inr accepted.1

theorem touchesOnly_teardown {torn : CallTrace} (run : TeardownRun depID torn result)
    (accepted : (controlWorld calls).Accepts cluster torn) : TouchesOnly cluster depID torn := by
  cases run with
  | missing => exact touchesOnly_of_unwritten rfl
  | stopped deployment stops removal marked noted finished closed rolledBack
      removed =>
      have own : deployment.id = depID := key_of_find accepted.1
      intro row member
      rw [rows_teardownTrace rolledBack removed] at member
      left
      rcases mem_append.mp member with member | member
      all_goals
        split at member
        · rw [mem_singleton.mp member]
          exact own
        · cases member

variable (accepted : (controlWorld calls).Accepts cluster trace)

include accepted

theorem touchesOnly_restart {nodeID : String} (run : RestartRun depID nodeID trace result) :
    TouchesOnly cluster depID trace := by
  cases run with
  | missing | notPart | notReady => exact touchesOnly_of_unwritten rfl
  | restarted deployment _ _ _ updated =>
    cases updated with
    | some => exact touchesOnly_of_unwritten rfl
    | none =>
      have own : deployment.id = depID := key_of_find accepted.1
      intro row member
      rw [mem_singleton.mp member]
      exact Or.inl own

theorem touchesOnly_failover (run : FailoverRun agentsConfigured depID trace result) :
    TouchesOnly cluster depID trace := by
  cases run with
  | unloaded | noPlan | planMissing | undecoded => exact touchesOnly_of_unwritten rfl
  | notApplied deployment row plan digits inner outcome problem decoded applied
      failed =>
      exact touchesOnly_apply applied accepted.of_append.2.2
  | replaced deployment row plan digits inner outcome torn tornResult planned
      decoded applied succeeded tornDown =>
      obtain ⟨planAccepted, laterAccepted⟩ := accepted.of_append
      obtain ⟨applyAccepted, tornAccepted⟩ := laterAccepted.of_append
      refine TouchesOnly.append planAccepted (touchesOnly_of_unwritten rfl) ?_
      exact TouchesOnly.append applyAccepted
        (touchesOnly_apply applied applyAccepted.2)
        (touchesOnly_teardown tornDown tornAccepted)

theorem touchesOnly_finish
    (run : FinishRun (orchestratorActuator agentsConfigured) event trace acted) :
    TouchesOnly cluster event.deploymentID trace := by
  cases run with
  | failed _ _ _ ran | initiated _ _ ran =>
    have innerAccepted := accepted.of_append.1
    exact (touchesOnly_failover innerAccepted (failover_run ran)).concat rfl

theorem touchesOnly_prepare {prepared : Bool} (run : PrepareRun planner.plan event trace prepared) :
    TouchesOnly cluster event.deploymentID trace := by
  rcases rows_of_prepare run with
    noRows | ⟨deployment, planID, rest, rfl, -, rows⟩
  · exact touchesOnly_of_unwritten noRows
  · intro row member
    rw [rows] at member
    rw [mem_singleton.mp member]
    have own : deployment.id = event.deploymentID := key_of_find accepted.1
    exact Or.inl own

theorem touchesOnly_nodeDown (run : NodeDownRun (orchestratorActuator agentsConfigured) event
      (some planner.plan) trace acted) : TouchesOnly cluster event.deploymentID trace := by
  cases run with
  | unprepared _ _ attempted => exact touchesOnly_prepare accepted attempted
  | prepared _ _ _ _ attempted finished =>
    obtain ⟨first, second⟩ := accepted.of_append
    exact TouchesOnly.append first (touchesOnly_prepare first attempted)
      (touchesOnly_finish second finished)

/-- An action touches no record but that of its deployment and new ones. -/
theorem touchesOnly_dispatch
    (run : DispatchRun (orchestratorActuator agentsConfigured) (some planner.plan)
      event trace acted) : TouchesOnly cluster event.deploymentID trace := by
  cases run with
  | ignored | noted => exact touchesOnly_of_unwritten rfl
  | nodeDown _ _ _ run => exact touchesOnly_nodeDown accepted run
  | restarted _ _ _ _ _ ran =>
    have innerAccepted := accepted.of_append.1
    exact (touchesOnly_restart innerAccepted (restartEngine_run ran)).concat rfl
  | cleaned _ _ _ _ _ ran =>
    have innerAccepted := accepted.of_append.1
    exact (touchesOnly_teardown (teardown_run ran) innerAccepted).concat rfl

end Touching

def recordFault : Exchange Reply → Option String
  | ⟨.command (.updateDeployment _), error⟩ => error
  | ⟨.getDeployment _, .error (.failed problem)⟩ => some problem
  | _ => none

def RecordsAnswered (trace : CallTrace) : Prop := ∀ exchange ∈ trace, recordFault exchange = none

instance (trace : CallTrace) : Decidable (RecordsAnswered trace) :=
  inferInstanceAs (Decidable (∀ exchange ∈ trace, recordFault exchange = none))

theorem recordsAnswered_append {before rest : CallTrace} :
    RecordsAnswered (before ++ rest) ↔ RecordsAnswered before ∧ RecordsAnswered rest :=
  forall_mem_append

def Ended (cluster : Cluster) (depID : String) : Prop :=
  ∃ row, cluster.deployments.find depID = some row ∧ failoverIsTerminal row.state = true

theorem Ended.of_unwritten (ended : Ended cluster depID) {trace : CallTrace}
    (accepted : (controlWorld calls).Accepts cluster trace)
    (unwritten : (effectsOf trace).rows = []) :
    Ended ((controlWorld calls).after cluster trace) depID := by
  obtain ⟨row, found, terminal⟩ := ended
  refine ⟨row, ?_, terminal⟩
  rw [find_after accepted, unwritten, found]
  rfl

theorem ended_of_teardown {torn : CallTrace} {result : Option String}
    (run : TeardownRun depID torn result) (accepted : (controlWorld calls).Accepts cluster torn)
    (answered : RecordsAnswered torn) (known : cluster.deployments.find depID ≠ none) :
    Ended ((controlWorld calls).after cluster torn) depID := by
  cases run with
  | missing problem =>
    exfalso
    cases problem with
    | notFound => exact known accepted.1
    | failed => cases answered _ mem_cons_self
  | stopped deployment stops removal marked noted finished closed rolledBack
      removed =>
      have own : deployment.id = depID := key_of_find accepted.1
      obtain rfl : finished = none := answered
        (updateExchange (persisted deployment .stopped deployment.detail) finished)
        (by simp [teardownTrace])
      refine ⟨persisted deployment .stopped deployment.detail, ?_, rfl⟩
      rw [find_after accepted, rows_teardownTrace rolledBack removed,
        filter_append, if_pos rfl, filter_singleton,
        decide_eq_true (show (persisted deployment .stopped deployment.detail).id = depID from own)]
      simp

theorem ended_of_failover {agentsConfigured : Bool} {trace : CallTrace}
    (produced : (failover agentsConfigured depID).Produces trace none)
    (accepted : (controlWorld calls).Accepts cluster trace) (answered : RecordsAnswered trace) :
    Ended ((controlWorld calls).after cluster trace) depID := by
  obtain ⟨deployment, row, plan, digits, inner, result, torn, tornResult, rfl, -,
    -, -, tornDown⟩ := replaced_of_failover produced
  obtain ⟨planAccepted, laterAccepted⟩ := accepted.of_append
  obtain ⟨applyAccepted, tornAccepted⟩ := laterAccepted.of_append
  have found : cluster.deployments.find depID = some deployment := planAccepted.1
  rw [Interface.after_append, Interface.after_append]
  refine ended_of_teardown tornDown tornAccepted
    (recordsAnswered_append.mp (recordsAnswered_append.mp answered).2).2 ?_
  intro absent
  have missing := find_none_of_after planAccepted (find_none_of_after applyAccepted absent)
  rw [found] at missing
  cases missing

section Actions

variable (accepted : (controlWorld calls).Accepts cluster trace)

include accepted

theorem ended_of_nodeDown (run : NodeDownRun (orchestratorActuator agentsConfigured) event
      (some planner.plan) trace true) (answered : RecordsAnswered trace) :
    Ended ((controlWorld calls).after cluster trace) event.deploymentID := by
  cases run with
  | prepared _ _ _ _ _ finished =>
    cases finished with
    | initiated _ _ ran =>
      obtain ⟨-, restAccepted⟩ := accepted.of_append
      obtain ⟨innerAccepted, auditAccepted⟩ := restAccepted.of_append
      rw [Interface.after_append, Interface.after_append]
      refine Ended.of_unwritten ?_ auditAccepted rfl
      exact ended_of_failover ran innerAccepted
        (recordsAnswered_append.mp (recordsAnswered_append.mp answered).2).1

/-- With a planner, nothing is done about the lost nodes of a deployment that has
ended. -/
theorem Ended.nodeDown (ended : Ended cluster event.deploymentID)
    (run : NodeDownRun (orchestratorActuator agentsConfigured) event
      (some planner.plan) trace acted) :
    (effectsOf trace).rows = [] ∧ acted = false := by
  obtain ⟨row, found, terminal⟩ := ended
  have notLive : ∀ {deployment : Deployment},
      cluster.deployments.find event.deploymentID = some deployment →
      failoverIsTerminal deployment.state ≠ false := by
    intro deployment same live
    obtain rfl := Option.some.inj (found.symm.trans same)
    rw [live] at terminal
    cases terminal
  cases run with
  | unprepared _ _ attempted =>
    rcases rows_of_prepare attempted with
      noRows | ⟨deployment, planID, rest, rfl, live, -⟩
    · exact ⟨noRows, rfl⟩
    · exact absurd live (notLive accepted.1)
  | prepared _ _ _ _ attempted =>
    cases attempted with
    | unnamed _ live | stamped _ _ _ _ live => exact absurd live (notLive accepted.1)

/-- A deployment that has ended stays so and is not replaced, unless one of its
engines is restarted. -/
theorem Ended.dispatch (ended : Ended cluster depID)
    (run : DispatchRun (orchestratorActuator agentsConfigured) (some planner.plan)
      event trace acted) (answered : RecordsAnswered trace)
    (notRestarted : event.type = .engineDown → event.deploymentID = depID → acted = false) :
    Ended ((controlWorld calls).after cluster trace) depID ∧
      (event.type = .nodeDown → event.deploymentID = depID → acted = false) := by
  by_cases own : event.deploymentID = depID
  · subst own
    cases run with
    | ignored | noted => exact ⟨ended.of_unwritten accepted rfl, fun _ _ => rfl⟩
    | nodeDown _ _ _ run =>
      obtain ⟨noRows, notActed⟩ := ended.nodeDown accepted run
      exact ⟨ended.of_unwritten accepted noRows, fun _ _ => notActed⟩
    | restarted _ _ _ audited isEngineDown ran =>
      have failed := notRestarted isEngineDown rfl
      refine ⟨ended.of_unwritten accepted ?_, fun _ _ => failed⟩
      cases restartEngine_run ran with
      | restarted =>
        cases failed
      | _ => rfl
    | cleaned _ _ _ _ isOrphan ran =>
      obtain ⟨innerAccepted, auditAccepted⟩ := accepted.of_append
      obtain ⟨row, found, -⟩ := ended
      refine ⟨?_, fun isNodeDown => by rw [isOrphan] at isNodeDown; cases isNodeDown⟩
      rw [Interface.after_append]
      refine Ended.of_unwritten ?_ auditAccepted rfl
      exact ended_of_teardown (teardown_run ran) innerAccepted
        (recordsAnswered_append.mp answered).1 (by rw [found]; simp)
  · obtain ⟨row, found, terminal⟩ := ended
    refine ⟨⟨row, ?_, terminal⟩, fun _ isOwn => absurd isOwn own⟩
    exact (touchesOnly_dispatch accepted run).find_other accepted (fun same => own same.symm) found

end Actions

def failoversOf (depID : String) (events : List Event) : List Event :=
  events.filter fun event =>
    event.acted ∧ event.type = .nodeDown ∧ event.deploymentID = depID

def NoneRestarted (depID : String) (events : List Event) : Prop :=
  ∀ event ∈ events, event.acted = true → event.type = .engineDown → event.deploymentID ≠ depID

section Passes

variable {config : Config}
variable {now : Time}
variable {tracker later : Tracker} {events : List Event}

theorem Ended.handle {event : Event} (ended : Ended cluster depID)
    (run : HandleRun config (some (orchestratorActuator agentsConfigured))
      (some planner.plan) now tracker event trace)
    (accepted : (controlWorld calls).Accepts cluster trace) (answered : RecordsAnswered trace)
    (notRestarted : event.acted = true → event.type = .engineDown → event.deploymentID ≠ depID) :
    Ended ((controlWorld calls).after cluster trace) depID ∧
      (event.type = .nodeDown → event.deploymentID = depID → event.acted = false) := by
  rcases run.dispatched with ⟨rfl, idle⟩ | dispatched
  · exact ⟨ended, fun _ _ => idle⟩
  · refine ended.dispatch accepted (dispatch_run dispatched) answered ?_
    intro isEngineDown own
    by_contra acted
    exact notRestarted (by simpa using acted) isEngineDown own

section

variable
  (handled : Handled config (some (orchestratorActuator agentsConfigured)) (some planner.plan) now tracker events trace later)
  (accepted : (controlWorld calls).Accepts cluster trace) (answered : RecordsAnswered trace)

include handled accepted answered

/-- A deployment that has ended is not replaced any more. -/
theorem failoversOf_eq_nil (ended : Ended cluster depID)
    (unrestarted : NoneRestarted depID events) : failoversOf depID events = [] := by
  induction handled generalizing cluster with
  | nil => rfl
  | cons _ _ event _ _ _ single _ induction =>
    obtain ⟨firstAccepted, restAccepted⟩ := accepted.of_append
    obtain ⟨firstAnswered, restAnswered⟩ := recordsAnswered_append.mp answered
    obtain ⟨eventUnrestarted, restUnrestarted⟩ := forall_mem_cons.mp unrestarted
    obtain ⟨stillEnded, notReplaced⟩ := ended.handle single firstAccepted
      firstAnswered eventUnrestarted
    have notFailover : ¬(event.acted = true ∧ event.type = .nodeDown ∧
        event.deploymentID = depID) := by
      rintro ⟨acted, isNodeDown, own⟩
      rw [notReplaced isNodeDown own] at acted
      cases acted
    rw [failoversOf, filter_cons_of_neg (by simpa using notFailover)]
    exact induction restAccepted restAnswered stillEnded restUnrestarted

theorem failoversOf_length_le_one (unrestarted : NoneRestarted depID events) :
    (failoversOf depID events).length ≤ 1 := by
  induction handled generalizing cluster with
  | nil => exact Nat.zero_le 1
  | cons _ _ event _ first _ single others induction =>
    obtain ⟨firstAccepted, restAccepted⟩ := accepted.of_append
    obtain ⟨firstAnswered, restAnswered⟩ := recordsAnswered_append.mp answered
    obtain ⟨-, restUnrestarted⟩ := forall_mem_cons.mp unrestarted
    by_cases replaces : event.acted = true ∧ event.type = .nodeDown ∧ event.deploymentID = depID
    · -- the first replacement ends the deployment
      obtain ⟨acted, isNodeDown, rfl⟩ := replaces
      have ended : Ended ((controlWorld calls).after cluster first) event.deploymentID := by
        rcases single.dispatched with ⟨-, idle⟩ | dispatched
        · rw [idle] at acted
          cases acted
        · have run := dispatch_run dispatched
          generalize event.acted = happened at run acted
          cases run with
          | ignored | noted => cases acted
          | nodeDown _ _ _ run =>
            rw [acted] at run
            have ended : Ended _ event.pending.deploymentID :=
              ended_of_nodeDown firstAccepted run firstAnswered
            exact ended
          | restarted _ _ _ _ isEngineDown => cases isNodeDown.symm.trans isEngineDown
          | cleaned _ _ _ _ isOrphan => cases isNodeDown.symm.trans isOrphan
      have noMore := failoversOf_eq_nil others restAccepted restAnswered ended restUnrestarted
      rw [failoversOf] at noMore ⊢
      rw [filter_cons_of_pos (by simp [acted, isNodeDown]), noMore]
      exact le_refl 1
    · rw [failoversOf, filter_cons_of_neg (by simpa using replaces)]
      exact induction restAccepted restAnswered restUnrestarted

end

end Passes

theorem rowOf_of_fleetRead {exchange : Exchange Reply}
    (read : Planning.isFleetRead exchange.command = true) : rowOf exchange = none := by
  obtain ⟨call, answer⟩ := exchange
  cases call <;> first | rfl | cases read

def promptConfig : Config :=
  { hysteresis := 0, failureThreshold := 1, levels := fun _ => some .auto }

def twoNodeCluster (nodes : List NodeRow) : Cluster :=
  { fleetCluster nodes with
    deployments := empty.insert
      { id := "dep-1"
        modelID := "model"
        planID := "plan-1"
        state := .active
        detail :=
          { modelID := "model"
            quantization := "q4"
            engines := [⟨"b", "b:50151", "host", "engine"⟩, ⟨"c", "c:50151", "worker", "engine"⟩]
            failoverPlanID := "plan-2" } }
    plans := empty.insert ⟨"plan-2", "model", "q4", .ok
        { planID := "plan-2"
          modelID := "model"
          quantization := "q4"
          assignments := [⟨"s", .host, 0, 3, false⟩] }⟩ }

def fleetReadingPlanner : ReadingPlanner where
  plan := fleetPlanner Planner.Runtime.default Planner.Context.background unconstrained
  reads := by
    intro modelID trace value produced exchange member
    exact rowOf_of_fleetRead (fleetPlanner_reads produced exchange member)

def twoLost : List NodeRow := [bigNode "b" .unreachable (10 ^ 9), bigNode "c" .unreachable (10 ^ 9),
    bigNode "s" .ready (99 * 10 ^ 9)]

def twoLostPass (planner : Option FailoverPlanner) : CallTrace × (Except String Report × Tracker) :=
  untroubledRun (twoNodeCluster twoLost)
    (reconcile promptConfig.normalized (some (orchestratorActuator true)) planner
      (100 * 10 ^ 9) fun _ => none)

theorem produces_twoLostPass (planner : Option FailoverPlanner) :
    (reconcile promptConfig.normalized (some (orchestratorActuator true)) planner
      (100 * 10 ^ 9) fun _ => none).Produces (twoLostPass planner).1
        ((twoLostPass planner).2.1, (twoLostPass planner).2.2) :=
  produces_untroubledRun _ _

theorem accepts_twoLostPass (planner : Option FailoverPlanner) :
    (controlWorld Gateway.directCalls).Accepts (twoNodeCluster twoLost) (twoLostPass planner).1 :=
  accepts_untroubledRun _ _

end Purser.Reconciler
