import Purser.OrchestratorApply

/-!
# The traces of an applied plan

`apply` is refused a record, ends at the first step that fails, or brings every
engine up.
-/

namespace Purser.Orchestrator

open InteractionPrograms Program

variable {accepted : DeploymentPlan} {started : List EngineRef}

theorem partitionFrom_eq_ok_iff (assignments workers : List Assignment) (host : Option Assignment)
    (split : List Assignment × Assignment) :
    partitionFrom assignments workers host = .ok split ↔
      split.1 = workers ++ assignments.filter (·.role = .worker) ∧
        [split.2] = host.toList ++ assignments.filter (·.role = .host) ∧
        ∀ assignment ∈ assignments, assignment.role ≠ .unspecified := by
  induction assignments generalizing workers host with
  | nil =>
    cases host with
    | none => simp [partitionFrom]
    | some =>
      simp [partitionFrom, Prod.ext_iff, eq_comm]
  | cons assignment _ induction =>
    cases role : assignment.role with
    | worker => simp [partitionFrom, role, induction]
    | unspecified => simp [partitionFrom, role]
    | host =>
      cases host with
      | none => simp [partitionFrom, role, induction]
      | some => simp [partitionFrom, role]

theorem partition_eq_ok_iff (plan : DeploymentPlan) (workers : List Assignment)
    (host : Assignment) :
    partition plan = .ok (workers, host) ↔ workers = plan.assignments.filter (·.role = .worker) ∧
        [host] = plan.assignments.filter (·.role = .host) ∧
        ∀ assignment ∈ plan.assignments, assignment.role ≠ .unspecified := by
  rw [partition, partitionFrom_eq_ok_iff]
  simp

variable {agentsConfigured : Bool} {plan : DeploymentPlan} {workers : List Assignment}
  {host : Assignment} {trace : Trace} {depID : String} {result : ApplyResult}

theorem checkPlan_split {plan : Option DeploymentPlan}
    (checked : checkPlan agentsConfigured plan = .ok (accepted, workers, host)) :
    plan = some accepted ∧ partition accepted = .ok (workers, host) := by
  cases agentsConfigured with
  | false => contradiction
  | true =>
    cases plan with
    | none => contradiction
    | some given =>
      cases split : partition given with
      | error => simp [checkPlan, split, Except.map] at checked
      | ok members =>
        obtain ⟨rfl, rfl⟩ : given = accepted ∧ members = (workers, host) := by
          simpa [checkPlan, split, Except.map] using checked
        exact ⟨rfl, split⟩

theorem checkPlan_eq_ok {plan : Option DeploymentPlan}
    (checked : checkPlan agentsConfigured plan = .ok (accepted, workers, host)) :
    plan = some accepted ∧
      workers = accepted.assignments.filter (·.role = .worker) ∧
      [host] = accepted.assignments.filter (·.role = .host) := by
  obtain ⟨planEq, split⟩ := checkPlan_split checked
  obtain ⟨workersEq, hostEq, _⟩ := (partition_eq_ok_iff _ _ _).mp split
  exact ⟨planEq, workersEq, hostEq⟩

structure ReadyEngine where
  step : LaunchStep
  endpoint : Endpoint
  answer : StartAnswer
  handle : String
  ready : waitReady endpoint.agentAddr answer = .ok handle

namespace ReadyEngine

def exchanges (engine : ReadyEngine) : Trace := [⟨.resolve engine.step.nodeID, .ok engine.endpoint⟩,
    ⟨.startEngine engine.endpoint.agentAddr engine.step.request, engine.answer⟩]

def ref (engine : ReadyEngine) : EngineRef := engine.step.engineRef engine.endpoint engine.handle

def peerAddr (engine : ReadyEngine) : String := engine.endpoint.inferenceAddr

end ReadyEngine

inductive FailedLaunch (step : LaunchStep) : Trace → Prop
  | unresolved (problem : String) : FailedLaunch step [⟨.resolve step.nodeID, .error problem⟩]
  | notReady (endpoint : Endpoint) (answer : StartAnswer) (cause : StepError)
      (failed : waitReady endpoint.agentAddr answer = .error cause) :
      FailedLaunch step [⟨.resolve step.nodeID, .ok endpoint⟩,
          ⟨.startEngine endpoint.agentAddr step.request, answer⟩]

theorem produces_launch {step : LaunchStep} {outcome : Except StepFailure (Endpoint × String)}
    (produced : (launch step).Produces trace outcome) :
    (∃ engine : ReadyEngine, engine.step = step ∧
        trace = engine.exchanges ∧
        outcome = .ok (engine.endpoint, engine.handle)) ∨
      ∃ failure, FailedLaunch step trace ∧ outcome = .error failure := by
  obtain ⟨resolved, rest, rfl, continued⟩ := produced.of_issue
  cases resolved with
  | error problem =>
    obtain ⟨rfl, rfl⟩ := continued
    exact Or.inr ⟨_, .unresolved problem, rfl⟩
  | ok endpoint =>
    obtain ⟨begun, waited, rest, rfl, started, finished⟩ := continued.of_bind
    obtain ⟨answer, _, rfl, rfl, rfl⟩ := started
    cases waited : waitReady endpoint.agentAddr answer with
    | error cause =>
      rw [waited] at finished
      obtain ⟨rfl, rfl⟩ := finished
      exact Or.inr ⟨_, .notReady endpoint answer cause waited, rfl⟩
    | ok handle =>
      rw [waited] at finished
      obtain ⟨rfl, rfl⟩ := finished
      exact Or.inl ⟨⟨step, endpoint, answer, handle, waited⟩, rfl, rfl, rfl⟩

def Progress.extend (progress : Progress) (ready : List ReadyEngine) : Progress where
  started := progress.started ++ ready.map ReadyEngine.ref
  peerAddrs := progress.peerAddrs ++ ready.map ReadyEngine.peerAddr

/-- The loop over the workers brings up a prefix of them. -/
theorem produces_startWorkers {progress : Progress}
    {outcome : Except (StepFailure × List EngineRef) Progress}
    (produced : (startWorkers plan workers progress).Produces trace outcome) :
    ∃ ready : List ReadyEngine,
      (workers.map (workerStep plan) = ready.map ReadyEngine.step ∧
        trace = ready.flatMap ReadyEngine.exchanges ∧
        outcome = .ok (progress.extend ready)) ∨
      ∃ step later attempt failure,
        workers.map (workerStep plan) = ready.map ReadyEngine.step ++ step :: later ∧
          FailedLaunch step attempt ∧
          trace = ready.flatMap ReadyEngine.exchanges ++ attempt ∧
          outcome = .error (failure, (progress.extend ready).started) := by
  induction workers generalizing progress trace with
  | nil =>
    obtain ⟨rfl, rfl⟩ := produced
    exact ⟨[], Or.inl ⟨rfl, rfl, by simp [Progress.extend]⟩⟩
  | cons worker workers induction =>
    obtain ⟨attempt, launched, rest, rfl, attempted, continued⟩ := produced.of_bind
    rcases produces_launch attempted with
      ⟨engine, stepEq, rfl, rfl⟩ | ⟨failure, failed, rfl⟩
    -- the accumulators of the recursive call already hold this engine
    · obtain ⟨ready, outcomes⟩ := induction continued
      have extended : ∀ ready : List ReadyEngine,
          Progress.extend ⟨progress.started ++ [(workerStep plan worker).engineRef engine.endpoint
                engine.handle],
            progress.peerAddrs ++ [engine.endpoint.inferenceAddr]⟩ ready =
            progress.extend (engine :: ready) := by
        simp [Progress.extend, ReadyEngine.ref, ReadyEngine.peerAddr, stepEq]
      refine ⟨engine :: ready, ?_⟩
      rw [extended] at outcomes
      rcases outcomes with ⟨stepsEq, rfl, rfl⟩ |
        ⟨step, later, attempt, failure, stepsEq, failed, rfl, rfl⟩
      · exact Or.inl ⟨by simp [stepEq, stepsEq], rfl, rfl⟩
      · exact Or.inr ⟨step, later, attempt, failure,
          by simp [stepEq, stepsEq], failed, by simp, rfl⟩
    · obtain ⟨rfl, rfl⟩ := continued
      exact ⟨[], Or.inr ⟨workerStep plan worker,
        workers.map (workerStep plan), attempt, failure, rfl, failed,
        by simp, by simp [Progress.extend]⟩⟩

section

variable (depID : String) (plan : DeploymentPlan) (workers : List Assignment) (host : Assignment)

variable (ready : List ReadyEngine) (attempt stops : Trace) (reason : String)
  (opened updated audited : Option String)

/-- The step that follows the engines that are ready: the next worker, or the
host with all workers as peers. -/
def IsNextStep (step : LaunchStep) : Prop :=
  (∃ later, workers.map (workerStep plan) = ready.map ReadyEngine.step ++ step :: later) ∨
    (workers.map (workerStep plan) = ready.map ReadyEngine.step ∧
      step = hostStep plan host (ready.map ReadyEngine.peerAddr))

def stopCommand (engine : EngineRef) : Command := .stopEngine engine.agentAddr engine.handle

def openingExchanges : Trace :=
  [⟨.createDeployment (initialDeployment depID plan), none⟩,
    ⟨.appendAudit ⟨"orchestrator", "deployment.provisioning", depID,
      [("model_id", plan.modelID), ("plan_id", plan.planID)]⟩, audited⟩]

section

variable (endpoint : Endpoint) (started : List EngineRef)
  (updated audited published : Option String)

def failedDeployment : Deployment :=
  { initialDeployment depID plan with
    state := .failed
    detail := { initialDetail plan with error := reason, engines := started } }

def failureExchanges : Trace :=
  [⟨.updateDeployment (failedDeployment depID plan reason started), updated⟩,
    ⟨.appendAudit ⟨"orchestrator", "deployment.failed", depID, [("reason", reason)]⟩, audited⟩]

def activeDeployment :
    Deployment :=
  { initialDeployment depID plan with
    state := .active
    detail := activeDetail plan host endpoint started }

def successExchanges : Trace :=
  let detail := activeDetail plan host endpoint started
  [⟨.updateDeployment (activeDeployment depID plan host endpoint started), updated⟩,
    ⟨.appendAudit ⟨"orchestrator", "deployment.active", depID,
      [("host", host.nodeID), ("endpoint", detail.endpoint)]⟩, audited⟩,
    ⟨.upsertRoute (activeRoute depID detail), published⟩]

end

def failedTrace : Trace :=
  openingExchanges depID plan opened ++ ready.flatMap ReadyEngine.exchanges ++
    (attempt ++ (stops ++ failureExchanges depID plan reason
      (ready.map ReadyEngine.ref) updated audited))

def activeTrace (hostEngine : ReadyEngine)
    (opened updated audited published : Option String) : Trace :=
  openingExchanges depID plan opened ++ (ready ++ [hostEngine]).flatMap ReadyEngine.exchanges ++
    successExchanges depID plan host hostEngine.endpoint
      ((ready ++ [hostEngine]).map ReadyEngine.ref) updated audited published

inductive ApplyRun :
    Trace → ApplyResult → Prop
  | notCreated (problem : String) :
      ApplyRun
        [⟨.createDeployment (initialDeployment depID plan), some problem⟩]
        ⟨"", some (.createDeployment problem)⟩
  | failed (ready : List ReadyEngine) (step : LaunchStep) (attempt stops : Trace)
      (failure : StepFailure) (opened updated audited : Option String)
      (next : IsNextStep plan workers host ready step)
      (attempted : FailedLaunch step attempt)
      (stopped : stops.map Exchange.command = (ready.map ReadyEngine.ref).reverse.map stopCommand) :
      ApplyRun
        (failedTrace depID plan ready attempt stops failure.reason opened updated audited)
        ⟨depID, some (.failed depID failure.reason failure.cause)⟩
  | active (ready : List ReadyEngine) (hostEngine : ReadyEngine)
      (opened updated audited published : Option String)
      (allReady : workers.map (workerStep plan) = ready.map ReadyEngine.step)
      (hostReady : hostEngine.step = hostStep plan host (ready.map ReadyEngine.peerAddr)) :
      ApplyRun
        (activeTrace depID plan host ready hostEngine opened updated audited published)
        ⟨depID, none⟩

end

theorem produces_fail {failure : StepFailure}
    (produced : (fail depID plan failure started).Produces trace result) :
    ∃ stops updated audited,
      stops.map Exchange.command = started.reverse.map stopCommand ∧
        trace = stops ++ failureExchanges depID plan failure.reason started updated audited ∧
        result = ⟨depID, some (.failed depID failure.reason failure.cause)⟩ := by
  obtain ⟨stops, _, rest, rfl, stopped, continued⟩ := produced.of_bind
  obtain ⟨updated, rest, rfl, audited, rest, rfl, rfl, rfl⟩ := continued
  exact ⟨stops, updated, audited, stopped.of_issueAll, rfl, rfl⟩

theorem produces_activate {endpoint : Endpoint} (produced :
      (activate depID plan host endpoint started).Produces trace result) :
    ∃ updated audited published,
      trace = successExchanges depID plan host endpoint started updated audited published ∧
      result = ⟨depID, none⟩ := by
  obtain ⟨updated, rest, rfl, audited, rest, rfl, published, rest, rfl, rfl, rfl⟩ := produced
  exact ⟨updated, audited, published, rfl, rfl⟩

theorem applyRun_of_startEngines (opened : Option String)
    (produced : (startEngines depID plan workers host).Produces trace result) :
    ApplyRun depID plan workers host (openingExchanges depID plan opened ++ trace) result := by
  obtain ⟨before, outcome, after, rfl, started, continued⟩ := produced.of_bind
  rcases produces_startWorkers started with
    ⟨ready, ⟨stepsEq, rfl, rfl⟩ | ⟨step, later, attempt, failure, stepsEq, attempted, rfl, rfl⟩⟩
  · obtain ⟨attempt, launched, rest, rfl, attempted, finished⟩ := continued.of_bind
    rcases produces_launch attempted with
      ⟨engine, stepEq, rfl, rfl⟩ | ⟨failure, launchFailed, rfl⟩
    · obtain ⟨updated, audited, published, rfl, rfl⟩ := produces_activate finished
      have run : ApplyRun depID plan workers host _ _ :=
        .active ready engine opened updated audited published stepsEq
          (by simpa [Progress.extend] using stepEq)
      simpa [activeTrace, Progress.extend, ReadyEngine.ref, stepEq] using run
    · obtain ⟨stops, updated, audited, stopped, rfl, rfl⟩ := produces_fail finished
      have run : ApplyRun depID plan workers host _ _ :=
        .failed ready _ attempt stops failure opened updated audited
          (Or.inr ⟨stepsEq, rfl⟩) (by simpa [Progress.extend] using launchFailed)
          (by simpa [Progress.extend] using stopped)
      simpa [failedTrace, Progress.extend] using run
  · obtain ⟨stops, updated, audited, stopped, rfl, rfl⟩ := produces_fail continued
    have run : ApplyRun depID plan workers host _ _ :=
      .failed ready step attempt stops failure opened updated audited
        (Or.inl ⟨later, stepsEq⟩) attempted
        (by simpa [Progress.extend] using stopped)
    simpa [failedTrace, Progress.extend] using run

theorem apply_run {plan : Option DeploymentPlan}
    (produced : (apply agentsConfigured depID plan).Produces trace result) :
    (∃ problem, checkPlan agentsConfigured plan = .error problem ∧
        trace = [] ∧ result = ⟨"", some problem⟩) ∨
      ∃ accepted workers host,
        checkPlan agentsConfigured plan = .ok (accepted, workers, host) ∧
          ApplyRun depID accepted workers host trace result := by
  unfold apply at produced
  cases checked : checkPlan agentsConfigured plan with
  | error problem =>
    rw [checked] at produced
    obtain ⟨rfl, rfl⟩ := produced
    exact Or.inl ⟨problem, rfl, rfl, rfl⟩
  | ok admitted =>
    obtain ⟨accepted, workers, host⟩ := admitted
    rw [checked] at produced
    obtain ⟨created, rest, rfl, continued⟩ := produced
    refine Or.inr ⟨accepted, workers, host, rfl, ?_⟩
    cases created with
    | some problem =>
      obtain ⟨rfl, rfl⟩ := continued
      exact .notCreated problem
    | none =>
      obtain ⟨audited, rest, rfl, started⟩ := continued
      exact applyRun_of_startEngines audited started

inductive IsActiveTrace (depID : String) (plan : DeploymentPlan) :
    Trace → Prop
  | intro (workers : List Assignment) (host : Assignment)
      (ready : List ReadyEngine) (hostEngine : ReadyEngine)
      (opened updated audited published : Option String)
      (split : partition plan = .ok (workers, host))
      (allReady : workers.map (workerStep plan) = ready.map ReadyEngine.step)
      (hostReady : hostEngine.step = hostStep plan host (ready.map ReadyEngine.peerAddr)) :
      IsActiveTrace depID plan (activeTrace depID plan host ready hostEngine
        opened updated audited published)

theorem isActiveTrace_of_apply
    (produced : (apply agentsConfigured depID (some plan)).Produces trace result)
    (succeeded : result.error = none) : IsActiveTrace depID plan trace := by
  rcases apply_run produced with
    ⟨problem, _, _, rfl⟩ | ⟨accepted, workers, host, checked, run⟩
  · cases succeeded
  · obtain ⟨planEq, split⟩ := checkPlan_split checked
    obtain rfl : plan = accepted := Option.some.inj planEq
    cases run with
    | notCreated
    | failed ready step attempt stops failure opened updated audited next attempted stopped =>
      cases succeeded
    | active ready hostEngine opened updated audited published allReady
        hostReady =>
        exact .intro workers host ready hostEngine opened updated audited
          published split allReady hostReady

end Purser.Orchestrator
