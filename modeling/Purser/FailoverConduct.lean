import Purser.ControlEffects
import Purser.FleetPlanning
import Purser.ReconcilerFailover
import Purser.RelyGuarantee

/-!
# Replacement plans that stay clear of some nodes

Plans are never taken back, and a deployment that points to a replacement plan
points to one that stays clear of certain nodes.  A failover then never touches
these nodes, whoever wrote the plan.
-/

namespace Purser.Reconciler

open InteractionPrograms Program SharedWorlds RelyGuarantee List
open ControlPlane Orchestrator
open Gateway (RouteCalls)
open KeyedStores (Store)
open Planning (isFleetRead)

variable {detail : DeploymentDetail} {workers : List Assignment}

section Conduct

variable (clear : String → Prop)

def StaysClear (plan : DeploymentPlan) : Prop := ∀ shard ∈ plan.assignments, clear shard.nodeID

def RowClear (row : PlanRow) : Prop := ∀ plan, row.plan = .ok plan → StaysClear clear plan

def Covered (cluster : Cluster) (detail : DeploymentDetail) : Prop := detail.failoverPlanID = "" ∨
    ∃ row, cluster.plans.find detail.failoverPlanID = some row ∧ RowClear clear row

def ReplacementsClear (cluster : Cluster) : Prop :=
  ∀ deployment ∈ cluster.deployments.rows, Covered clear cluster deployment.detail

def replacementConduct : Conduct Cluster where
  Evolves first second :=
    (∀ id row, first.plans.find id = some row → second.plans.find id = some row) ∧
      (ReplacementsClear clear first → ReplacementsClear clear second)
  refl cluster := ⟨fun _ _ found => found, fun holds => holds⟩
  trans := by
    rintro first second third ⟨plans, holds⟩ ⟨laterPlans, laterHolds⟩
    exact ⟨fun id row found => laterPlans id row (plans id row found),
      fun start => laterHolds (holds start)⟩

/-- Agents are only looked up for these nodes. -/
def ResolvesOnly (free : String → Prop) (exchange : Exchange Reply) : Prop :=
  ∀ nodeID, exchange.command = .command (.resolve nodeID) → free nodeID

variable {clear}

theorem Covered.later {first second : Cluster} (covered : Covered clear first detail)
    (evolves : (replacementConduct clear).Evolves first second) : Covered clear second detail := by
  rcases covered with unset | ⟨row, found, isClear⟩
  · exact .inl unset
  · exact .inr ⟨row, evolves.1 _ row found, isClear⟩

/-- A call that writes no uncovered record keeps to the conduct. -/
theorem evolves_effect {calls : RouteCalls} {cluster : Cluster} {exchange : Exchange Reply}
    (written : ∀ row, exchange.command = .command (.createDeployment row) ∨
      exchange.command = .command (.updateDeployment row) → Covered clear cluster row.detail) :
    (replacementConduct clear).Evolves cluster (cluster.effect calls exchange) := by
  obtain ⟨command, answer⟩ := exchange
  -- All that matters are the two tables.
  have kept : ∀ after : Cluster, after.plans = cluster.plans →
      after.deployments = cluster.deployments →
        (replacementConduct clear).Evolves cluster after := by
    intro after plans deployments
    refine ⟨fun id row found => by rwa [plans], fun holds deployment member => ?_⟩
    rw [deployments] at member
    rw [Covered, plans]
    exact holds deployment member
  cases command with
  | createPlan row =>
    cases answer with
    | some => exact kept _ rfl rfl
    | none =>
      have grown : ∀ id found, cluster.plans.find id = some found →
          (cluster.plans.insert row).find id = some found := by
        intro id found stored
        obtain ⟨member, same⟩ := Store.find_eq_some_iff.mp stored
        exact Store.find_eq_some_iff.mpr ⟨Store.mem_insert_iff.mpr (.inl member), same⟩
      refine ⟨grown, fun holds deployment member => ?_⟩
      rcases holds deployment member with unset | ⟨found, stored, isClear⟩
      · exact .inl unset
      · exact .inr ⟨found, grown _ _ stored, isClear⟩
  | command command =>
    cases command with
    | createDeployment =>
      cases answer with
      | some => exact kept _ rfl rfl
      | none =>
        refine ⟨fun _ _ found => found, fun holds deployment member => ?_⟩
        rcases Store.mem_insert_iff.mp member with old | ⟨rfl, -⟩
        · exact holds deployment old
        · exact written deployment (.inl rfl)
    | updateDeployment =>
      cases answer with
      | some => exact kept _ rfl rfl
      | none =>
        refine ⟨fun _ _ found => found, fun holds deployment member => ?_⟩
        rcases Store.mem_of_mem_replace member with rfl | ⟨old, -⟩
        · exact written deployment (.inr rfl)
        · exact holds deployment old
    | upsertRoute => cases answer <;> exact kept _ rfl rfl
    | _ => exact kept _ rfl rfl
  | deleteRoute => cases answer <;> exact kept _ rfl rfl
  | _ => exact kept _ rfl rfl

end Conduct

/-- The calls that apply a plan: agents are looked up for its nodes, and the records
point to no replacement plan. -/
def Applies (plan : DeploymentPlan) : Command → Prop
  | .createDeployment row => row.detail.failoverPlanID = ""
  | .updateDeployment row => row.detail.failoverPlanID = ""
  | .resolve nodeID => ∃ shard ∈ plan.assignments, shard.nodeID = nodeID
  | _ => True

section Applying

variable {plan : DeploymentPlan}

theorem uses_launch {step : LaunchStep}
    (placed : ∃ shard ∈ plan.assignments, shard.nodeID = step.nodeID) :
    (launch step).Uses (Applies plan) := by
  refine .bind (.issue placed) ?_
  rintro (problem | endpoint)
  · trivial
  · refine .bind (.bind (.issue trivial) fun _ => trivial) ?_
    rintro (cause | handle) <;> trivial

theorem uses_startWorkers (placed : ∀ worker ∈ workers, worker ∈ plan.assignments)
    (progress : Progress) : (startWorkers plan workers progress).Uses (Applies plan) := by
  induction workers generalizing progress with
  | nil => trivial
  | cons worker _ induction =>
    refine (uses_launch ⟨worker, placed worker mem_cons_self, rfl⟩).bind ?_
    rintro (failure | ⟨endpoint, handle⟩)
    · trivial
    · exact induction (fun other member => placed other (mem_cons_of_mem _ member)) _

theorem uses_issueAll {commands : List Command}
    (each : ∀ command ∈ commands, Applies plan command) :
    (issueAll commands : Program Answer Unit).Uses (Applies plan) := by
  induction commands with
  | nil => trivial
  | cons command _ induction =>
    refine ⟨each command mem_cons_self, fun _ => induction ?_⟩
    exact fun other member => each other (mem_cons_of_mem _ member)

theorem uses_rollback (engines : List EngineRef) : (rollback engines).Uses (Applies plan) := by
  refine uses_issueAll ?_
  intro command member
  obtain ⟨engine, -, rfl⟩ := mem_map.mp member
  trivial

theorem uses_fail (depID : String) (failure : StepFailure) (started : List EngineRef) :
    (fail depID plan failure started).Uses (Applies plan) := by
  refine (uses_rollback started).bind fun _ => ?_
  exact ⟨rfl, fun _ => ⟨trivial, fun _ => trivial⟩⟩

theorem uses_startEngines {host : Assignment} (depID : String)
    (workersPlaced : ∀ worker ∈ workers, worker ∈ plan.assignments)
    (hostPlaced : host ∈ plan.assignments) :
    (startEngines depID plan workers host).Uses (Applies plan) := by
  refine (uses_startWorkers workersPlaced {}).bind ?_
  rintro (⟨failure, started⟩ | progress)
  · exact uses_fail depID failure started
  · refine (uses_launch ⟨host, hostPlaced, rfl⟩).bind ?_
    rintro (failure | ⟨endpoint, handle⟩)
    · exact uses_fail depID failure progress.started
    · exact ⟨rfl, fun _ => ⟨trivial, fun _ => ⟨trivial, fun _ => trivial⟩⟩⟩

theorem uses_apply (agentsConfigured : Bool) (depID : String) :
    (apply agentsConfigured depID (some plan)).Uses (Applies plan) := by
  unfold apply
  split
  · trivial
  next accepted workers host checked =>
    obtain ⟨same, workersEq, hostEq⟩ := checkPlan_eq_ok checked
    obtain rfl := Option.some.inj same
    refine .bind (.issue rfl) ?_
    rintro (_ | problem)
    · refine ⟨trivial, fun _ => uses_startEngines depID ?_ ?_⟩
      · intro worker member
        rw [workersEq] at member
        exact mem_of_mem_filter member
      · have member : host ∈ plan.assignments.filter (·.role = .host) := by
          rw [← hostEq]
          exact mem_cons_self
        exact mem_of_mem_filter member
    · trivial

end Applying

/-- The calls that apply a plan, among those of the control plane. -/
def AppliesPlan (plan : DeploymentPlan) : Call → Prop
  | .command command => Applies plan command
  | .randomHex _ => True
  | _ => False

section Guarantees

variable {calls : RouteCalls} {clear free : String → Prop} {cluster : Cluster}

/-- The program keeps replacements clear, and looks up agents of free nodes only. -/
abbrev KeepsClear (calls : RouteCalls) (clear free : String → Prop) {Value : Type} :
    (Value → Cluster → Prop) → Program Reply Value → Cluster → Prop :=
  Guarantees (controlWorld calls) (replacementConduct clear) (ResolvesOnly free)

/-- Calls that write no record and look up no agent. -/
def isPassive : Call → Bool
  | .command (.resolve _) => false
  | .command (.createDeployment _) => false
  | .command (.updateDeployment _) => false
  | _ => true

theorem passive {call : Call} (isPassive : Reconciler.isPassive call = true) (later : Cluster)
    (answer : Reply call) :
    ResolvesOnly free ⟨call, answer⟩ ∧
      (replacementConduct clear).Evolves later (later.effect calls ⟨call, answer⟩) := by
  refine ⟨?_, evolves_effect ?_⟩
  · rintro nodeID rfl
    cases isPassive
  · rintro row (rfl | rfl)
    · cases isPassive
    · cases isPassive

theorem guarantees_of_passive {Value : Type} {final : Value → Prop} {program : Program Reply Value}
    (uses : program.Uses (isPassive · = true))
    (results : ∀ trace value, program.Produces trace value → final value) :
    KeepsClear calls clear free (fun value _ => final value) program cluster :=
  guarantees_of_uses uses (fun _ isPassive later answer _ => passive isPassive later answer) results

theorem guarantees_applyPlan (agentsConfigured : Bool) {plan : DeploymentPlan}
    (placed : StaysClear free plan) :
    KeepsClear calls clear free (fun _ _ => True) (applyPlan agentsConfigured (some plan)) cluster := by
  have uses : (applyPlan agentsConfigured (some plan)).Uses (AppliesPlan plan) :=
    ⟨trivial, fun digits => @Uses.embed _ _ _ Reply Call.command _ _ (uses_apply agentsConfigured _)⟩
  refine guarantees_of_uses uses ?_ fun _ _ _ => trivial
  intro call applies later answer allowed
  refine ⟨?_, evolves_effect ?_⟩
  · rintro nodeID rfl
    obtain ⟨shard, member, rfl⟩ := applies
    exact placed shard member
  · rintro row (rfl | rfl)
    · exact .inl applies
    · exact .inl applies

theorem guarantees_getDeployment (deploymentID : String) (holds : ReplacementsClear clear cluster) :
    KeepsClear calls clear free (fun answer later => ∀ deployment, answer = .ok deployment →
        Covered clear later deployment.detail)
      (getDeployment deploymentID) cluster := by
  intro later evolves answer allowed
  obtain ⟨resolves, changes⟩ := @passive calls clear free (.getDeployment deploymentID) rfl later
    answer
  refine ⟨resolves, changes, ?_⟩
  rintro last further deployment rfl
  have found : later.deployments.find deploymentID = some deployment := allowed
  have covered := evolves.2 holds deployment (Store.find_eq_some_iff.mp found).1
  exact covered.later further

theorem guarantees_updateDeployment {row : Deployment}
    (covered : Covered clear cluster row.detail) :
    KeepsClear calls clear free (fun _ _ => True) (issue (Call.command (.updateDeployment row))) cluster := by
  intro later evolves answer allowed
  refine ⟨?_, evolves_effect ?_, fun _ _ => trivial⟩
  · intro nodeID same
    cases same
  · rintro written (same | same)
    · cases same
    · cases same
      exact covered.later evolves

theorem guarantees_persist {deployment : Deployment} {state : DeploymentState}
    (covered : Covered clear cluster detail) :
    KeepsClear calls clear free (fun _ _ => True) (lift (persist deployment state detail)) cluster :=
  guarantees_bind
    (@guarantees_updateDeployment calls clear free cluster (persisted deployment state detail)
      covered)
    fun _ _ _ _ => fun _ _ => trivial

theorem uses_lift_audit (action target : String) (details : List (String × String)) :
    (lift (Orchestrator.audit action target details)).Uses (isPassive · = true) :=
  ⟨rfl, fun _ => trivial⟩

theorem uses_lift_rollback (engines : List EngineRef) :
    (lift (rollback engines)).Uses (isPassive · = true) := by
  rw [rollback]
  induction engines.reverse with
  | nil => trivial
  | cons _ _ induction => exact ⟨rfl, fun _ => induction⟩

theorem uses_notifyGatewayDown (modelID : String) :
    (notifyGatewayDown modelID).Uses (isPassive · = true) := by
  rw [notifyGatewayDown]
  split
  · trivial
  · exact ⟨rfl, fun _ => trivial⟩

theorem guarantees_teardown (deploymentID : String) (holds : ReplacementsClear clear cluster) :
    KeepsClear calls clear free (fun _ _ => True) (teardown deploymentID) cluster := by
  refine guarantees_bind (guarantees_getDeployment deploymentID holds) ?_
  rintro (problem | deployment) later - covered
  · exact fun _ _ => trivial
  · have covered := covered deployment rfl
    refine guarantees_bind (guarantees_persist covered) fun _ first evolves _ => ?_
    have covered := covered.later evolves
    refine guarantees_bind (guarantees_of_passive (uses_lift_audit _ _ _) fun _ _ _ => trivial)
      fun _ second evolves _ => ?_
    have covered := covered.later evolves
    refine guarantees_bind (guarantees_of_passive (uses_lift_rollback _) fun _ _ _ => trivial)
      fun _ third evolves _ => ?_
    have covered := covered.later evolves
    refine guarantees_bind
      (guarantees_of_passive (uses_notifyGatewayDown _) fun _ _ _ => trivial)
      fun _ fourth evolves _ => ?_
    have covered := covered.later evolves
    refine guarantees_bind (guarantees_persist covered) fun _ fifth _ _ => ?_
    exact guarantees_bind
      (guarantees_of_passive (uses_lift_audit _ _ _) fun _ _ _ => trivial)
      fun _ _ _ _ => fun _ _ => trivial

/-- The replacement plan that is read stays clear. -/
theorem guarantees_getPlan (covered : Covered clear cluster detail)
    (pointed : detail.failoverPlanID ≠ "") :
    KeepsClear calls clear free (fun answer _ => ∀ row, answer = .ok row → RowClear clear row)
      (getPlan detail.failoverPlanID) cluster := by
  intro later evolves answer allowed
  obtain ⟨resolves, changes⟩ := @passive calls clear free (.getPlan detail.failoverPlanID) rfl
    later answer
  refine ⟨resolves, changes, ?_⟩
  rintro last - row rfl
  rcases covered.later evolves with unset | ⟨stored, found, isClear⟩
  · exact absurd unset pointed
  · have same : later.plans.find detail.failoverPlanID = some row := allowed
    obtain rfl := Option.some.inj (same.symm.trans found)
    exact isClear

theorem guarantees_failover (agentsConfigured : Bool) (deploymentID : String)
    (holds : ReplacementsClear clear cluster) :
    KeepsClear calls clear clear (fun _ _ => True) (failover agentsConfigured deploymentID) cluster := by
  refine guarantees_bind (guarantees_getDeployment deploymentID holds) ?_
  rintro (problem | deployment) later evolves covered
  · exact fun _ _ => trivial
  · have holds := evolves.2 holds
    have covered := covered deployment rfl
    dsimp only
    split
    · exact fun _ _ => trivial
    next pointed =>
      refine guarantees_bind (guarantees_getPlan covered pointed) ?_
      rintro (problem | row) second evolves isClear
      · exact fun _ _ => trivial
      · have holds := evolves.2 holds
        dsimp only
        split
        · exact fun _ _ => trivial
        next plan decoded =>
          refine guarantees_bind
            (guarantees_applyPlan agentsConfigured (isClear row rfl plan decoded))
            fun result third evolves _ => ?_
          split
          · exact fun _ _ => trivial
          · exact guarantees_bind (guarantees_teardown deploymentID (evolves.2 holds))
              fun _ _ _ _ => fun _ _ => trivial

def PlansClear (clear : String → Prop) (planner : FailoverPlanner) : Prop :=
  ∀ modelID, (planner modelID).Uses (isPassive · = true) ∧
    ∀ trace plan, (planner modelID).Produces trace (.ok plan) → StaysClear clear plan

theorem guarantees_giveUp (action : String) (event : Event) :
    KeepsClear calls clear free (fun _ _ => True) (giveUp action event) cluster :=
  guarantees_of_passive ⟨rfl, fun _ => trivial⟩ fun _ _ _ => trivial

theorem guarantees_createPlan (row : PlanRow) :
    KeepsClear calls clear free (fun answer later => answer = none → later.plans.find row.id = some row)
      (createPlan row) cluster := by
  intro later evolves answer allowed
  obtain ⟨resolves, changes⟩ := @passive calls clear free (.createPlan row) rfl later answer
  refine ⟨resolves, changes, ?_⟩
  rintro last further rfl
  have absent : later.plans.find row.id = none := allowed
  refine further.1 _ _ ?_
  exact Store.find_eq_some_iff.mpr ⟨Store.mem_insert_iff.mpr (.inr ⟨rfl, absent⟩), rfl⟩

theorem guarantees_prepareFailover {planner : FailoverPlanner} (event : Event)
    (plansClear : PlansClear clear planner) (holds : ReplacementsClear clear cluster) :
    KeepsClear calls clear free (fun _ _ => True) (prepareFailover planner event) cluster := by
  refine guarantees_bind (guarantees_getDeployment event.deploymentID holds) ?_
  rintro (problem | deployment) later - -
  · exact guarantees_giveUp _ _
  · dsimp only
    split
    · exact fun _ _ => trivial
    · split
      · exact fun _ _ => trivial
      · obtain ⟨reads, planned⟩ := plansClear deployment.detail.modelID
        have results : ∀ trace answer,
            (planner deployment.detail.modelID).Produces trace answer →
              ∀ plan, answer = .ok plan → StaysClear clear plan := by
          rintro trace answer produced plan rfl
          exact planned trace plan produced
        refine guarantees_bind (guarantees_of_passive reads results) ?_
        rintro (problem | newPlan) second - isClear
        · exact guarantees_giveUp _ _
        · refine guarantees_bind (guarantees_of_passive (.issue rfl) fun _ _ _ => trivial)
            fun digits third _ (_ : True) => ?_
          refine guarantees_bind (guarantees_createPlan _) ?_
          rintro (_ | problem) fourth - stored
          · refine guarantees_bind (guarantees_updateDeployment (.inr ⟨_, stored rfl, ?_⟩)) ?_
            · intro plan decoded
              cases decoded
              exact isClear newPlan rfl
            · rintro (_ | problem) last - -
              · exact fun _ _ => trivial
              · exact guarantees_giveUp _ _
          · exact guarantees_giveUp _ _

theorem guarantees_finishFailover (agentsConfigured : Bool) (event : Event)
    (holds : ReplacementsClear clear cluster) :
    KeepsClear calls clear clear (fun _ _ => True) (finishFailover (orchestratorActuator agentsConfigured) event)
      cluster := by
  refine guarantees_bind (guarantees_failover agentsConfigured event.deploymentID holds) ?_
  rintro (_ | problem) later - -
  · exact guarantees_of_passive ⟨rfl, fun _ => trivial⟩ fun _ _ _ => trivial
  · exact guarantees_giveUp _ _

/-- A failover looks up agents of clear nodes only. -/
theorem guarantees_handleNodeDown (agentsConfigured : Bool) {planner : Option FailoverPlanner}
    (event : Event) (plansClear : ∀ given, planner = some given → PlansClear clear given)
    (holds : ReplacementsClear clear cluster) :
    KeepsClear calls clear clear (fun _ _ => True) (handleNodeDown (orchestratorActuator agentsConfigured) planner event)
      cluster := by
  cases planner with
  | none => exact guarantees_finishFailover agentsConfigured event holds
  | some planner =>
    refine guarantees_bind (guarantees_prepareFailover event (plansClear planner rfl) holds) ?_
    intro prepared later evolves _
    split
    · exact guarantees_finishFailover agentsConfigured event (evolves.2 holds)
    · exact fun _ _ => trivial

end Guarantees

end Purser.Reconciler
