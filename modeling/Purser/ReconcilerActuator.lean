import Purser.OrchestratorLifecycle

/-!
# The actions of the reconciler

The reconciler restarts engines, replaces deployments that lost a node and
cleans up deployments whose model is gone.  A replacement applies the alternate
plan first and tears the old deployment down afterwards.
-/

namespace Purser.Reconciler

open InteractionPrograms Program TextFormatting
open ControlPlane Orchestrator

structure Actuator where
  restartEngine : String → String → Program Reply (Option String)
  failover : String → Program Reply (Option String)
  cleanup : String → Program Reply (Option String)

def failover (agentsConfigured : Bool) (deploymentID : String) : Program Reply (Option String) := do
  match ← getDeployment deploymentID with
  | .error problem => return some ("failover: load deployment: " ++ problem.text)
  | .ok deployment =>
    let planID := deployment.detail.failoverPlanID
    if planID = "" then
      return some ("failover: deployment " ++ quoted deploymentID ++ " has no alternate plan")
    else
      match ← getPlan planID with
      | .error problem =>
        return some ("failover: load alternate plan " ++ quoted planID ++ ": " ++ problem.text)
      | .ok row =>
        match row.plan with
        | .error problem =>
          return some ("failover: decode alternate plan: " ++ problem)
        | .ok plan =>
          let result ← applyPlan agentsConfigured (some plan)
          match result.error with
          | some problem =>
            return some ("failover: apply alternate plan: " ++ problem.text)
          | none =>
            let _ ← teardown deploymentID
            return none

def orchestratorActuator (agentsConfigured : Bool) : Actuator where
  restartEngine := Orchestrator.restartEngine
  failover := failover agentsConfigured
  cleanup := teardown

def planExchanges (deploymentID : String) (deployment : Deployment) (row : PlanRow) : CallTrace :=
  [⟨.getDeployment deploymentID, .ok deployment⟩,
    ⟨.getPlan deployment.detail.failoverPlanID, .ok row⟩]

def PlanApplied (agentsConfigured : Bool) (plan : DeploymentPlan)
    (digits : String) (inner : Trace) (result : ApplyResult) : Prop :=
  (apply agentsConfigured ("dep-" ++ digits) (some plan)).Produces inner result

def appliedExchanges (digits : String) (inner : Trace) : CallTrace :=
  ⟨.randomHex 12, digits⟩ :: inner.map liftExchange

variable {agentsConfigured : Bool} {trace : CallTrace}

section

variable (agentsConfigured : Bool) (deploymentID : String)

inductive FailoverRun :
    CallTrace → Option String → Prop
  | unloaded (problem : LookupError) :
      FailoverRun
        [⟨.getDeployment deploymentID, .error problem⟩]
        (some ("failover: load deployment: " ++ problem.text))
  | noPlan (deployment : Deployment)
      (unset : deployment.detail.failoverPlanID = "") :
      FailoverRun
        [⟨.getDeployment deploymentID, .ok deployment⟩]
        (some ("failover: deployment " ++ quoted deploymentID ++ " has no alternate plan"))
  | planMissing (deployment : Deployment) (problem : LookupError) :
      FailoverRun [⟨.getDeployment deploymentID, .ok deployment⟩,
          ⟨.getPlan deployment.detail.failoverPlanID, .error problem⟩]
        (some ("failover: load alternate plan " ++
          quoted deployment.detail.failoverPlanID ++ ": " ++ problem.text))
  | undecoded (deployment : Deployment) (row : PlanRow) (problem : String)
      (undecodable : row.plan = .error problem) :
      FailoverRun
        (planExchanges deploymentID deployment row)
        (some ("failover: decode alternate plan: " ++ problem))
  | notApplied (deployment : Deployment) (row : PlanRow)
      (plan : DeploymentPlan) (digits : String) (inner : Trace)
      (result : ApplyResult) (problem : ApplyError)
      (decoded : row.plan = .ok plan)
      (applied : PlanApplied agentsConfigured plan digits inner result)
      (failed : result.error = some problem) :
      FailoverRun
        (planExchanges deploymentID deployment row ++ appliedExchanges digits inner)
        (some ("failover: apply alternate plan: " ++ problem.text))
  | replaced (deployment : Deployment) (row : PlanRow) (plan : DeploymentPlan)
      (digits : String) (inner : Trace) (result : ApplyResult)
      (torn : CallTrace) (tornResult : Option String)
      (planned : deployment.detail.failoverPlanID ≠ "")
      (decoded : row.plan = .ok plan)
      (applied : PlanApplied agentsConfigured plan digits inner result)
      (succeeded : result.error = none)
      (tornDown : TeardownRun deploymentID torn tornResult) :
      FailoverRun
        (planExchanges deploymentID deployment row ++ (appliedExchanges digits inner ++ torn))
        none

end

theorem failover_run {deploymentID : String} {result : Option String} (produced :
      (failover agentsConfigured deploymentID).Produces trace result) :
    FailoverRun agentsConfigured deploymentID trace result := by
  obtain ⟨answer, rest, rfl, continued⟩ := produced.of_issue
  cases answer with
  | error problem =>
    obtain ⟨rfl, rfl⟩ := continued
    exact .unloaded problem
  | ok deployment =>
    dsimp only at continued
    by_cases unset : deployment.detail.failoverPlanID = ""
    · rw [if_pos unset] at continued
      obtain ⟨rfl, rfl⟩ := continued
      exact .noPlan deployment unset
    · rw [if_neg unset] at continued
      obtain ⟨answer, rest, rfl, loaded⟩ := continued.of_issue
      cases answer with
      | error problem =>
        obtain ⟨rfl, rfl⟩ := loaded
        exact .planMissing deployment problem
      | ok row =>
        dsimp only at loaded
        cases decoded : row.plan with
        | error problem =>
          rw [decoded] at loaded
          obtain ⟨rfl, rfl⟩ := loaded
          exact .undecoded deployment row problem decoded
        | ok plan =>
          rw [decoded] at loaded
          obtain ⟨_, outcome, rest, rfl, applied, finished⟩ := loaded.of_bind
          obtain ⟨digits, _, rfl, lifted⟩ := applied
          obtain ⟨inner, rfl, planApplied⟩ := produces_of_lift lifted
          cases outcomeError : outcome.error with
          | some problem =>
            rw [outcomeError] at finished
            obtain ⟨rfl, rfl⟩ := finished
            simpa [planExchanges, appliedExchanges] using FailoverRun.notApplied deployment row
              plan digits inner outcome problem decoded planApplied outcomeError
          | none =>
            rw [outcomeError] at finished
            obtain ⟨torn, tornResult, _, rfl, tornDown, rfl, rfl⟩ := finished.of_bind
            simpa [planExchanges, appliedExchanges] using FailoverRun.replaced deployment row
              plan digits inner outcome torn tornResult unset decoded planApplied outcomeError
              (teardown_run tornDown)

/-- A failover without an error has applied the alternate plan and torn the old
deployment down. -/
theorem replaced_of_failover {deploymentID : String}
    (produced : (failover agentsConfigured deploymentID).Produces trace none) :
    ∃ deployment row plan digits inner result torn tornResult,
      trace = planExchanges deploymentID deployment row ++ (appliedExchanges digits inner ++ torn) ∧
      row.plan = .ok plan ∧
      PlanApplied agentsConfigured plan digits inner result ∧
      result.error = none ∧ TeardownRun deploymentID torn tornResult := by
  have run := failover_run produced
  cases run with
  | replaced deployment row plan digits inner outcome torn tornResult planned
      decoded applied succeeded tornDown =>
      exact ⟨deployment, row, plan, digits, inner, outcome, torn, tornResult, rfl,
        decoded, applied, succeeded, tornDown⟩

end Purser.Reconciler
