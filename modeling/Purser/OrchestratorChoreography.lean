import Purser.OrchestratorTraces

/-!
# The choreography of a deployment

Workers come up one after the other and the host comes last.  A step that fails
ends the sequence, and the engines that are ready are stopped in reverse order.
-/

namespace Purser.Orchestrator

open InteractionPrograms Program List
open ReadyEngine (ref exchanges peerAddr)

variable {exchange : Exchange Answer}

structure Start where
  addr : String
  request : StartEngineRequest
  answer : StartAnswer
  deriving DecidableEq

def startOf : Exchange Answer → Option Start
  | ⟨.startEngine addr request, answer⟩ => some ⟨addr, request, answer⟩
  | _ => none

def endpointOf : Exchange Answer → Option Endpoint
  | ⟨.resolve _, .ok endpoint⟩ => some endpoint
  | _ => none

def stopOf : Exchange Answer → Option (String × String)
  | ⟨.stopEngine addr handle, _⟩ => some (addr, handle)
  | _ => none

def routeOf : Exchange Answer → Option RouteUpdate
  | ⟨.upsertRoute route, _⟩ => some route
  | _ => none

/-- The record a successful registry write leaves behind. -/
def recordOf : Exchange Answer → Option Deployment
  | ⟨.createDeployment deployment, none⟩ => some deployment
  | ⟨.updateDeployment deployment, none⟩ => some deployment
  | _ => none

def writeError : Exchange Answer → Option String
  | ⟨.createDeployment _, error⟩ => error
  | ⟨.updateDeployment _, error⟩ => error
  | ⟨.appendAudit _, error⟩ => error
  | _ => none

def Start.readyEngine (start : Start) : Option (String × String) :=
  (waitReady start.addr start.answer).toOption.map fun handle =>
    (start.addr, handle)

def stepFails : Exchange Answer → Bool
  | ⟨.resolve _, .error _⟩ => true
  | ⟨.startEngine addr _, answer⟩ => !(waitReady addr answer).isOk
  | _ => false

section Reading

variable (trace : Trace)

def startsOf : List Start := trace.filterMap startOf

def resolvedOf : List Endpoint := trace.filterMap endpointOf

def readyOf : List (String × String) := (startsOf trace).filterMap Start.readyEngine

def stopsOf : List (String × String) := trace.filterMap stopOf

def routesOf : List RouteUpdate := trace.filterMap routeOf

def recordedOf : Option Deployment := (trace.filterMap recordOf).getLast?

variable (plan : DeploymentPlan) (workers : List Assignment) (host : Assignment)

/-- The steps of a deployment in their mandatory order.  The peers of the host
are the inference addresses resolved for the workers. -/
def crew (resolved : List Endpoint) : List LaunchStep :=
  workers.map (workerStep plan) ++ [hostStep plan host
      ((resolved.take workers.length).map Endpoint.inferenceAddr)]

def plannedStarts (trace : Trace) : List (String × StartEngineRequest) :=
  List.zipWith (fun endpoint step => (endpoint.agentAddr, step.request))
    (resolvedOf trace) (crew plan workers host (resolvedOf trace))

def enginesOf (trace : Trace) : List EngineRef := List.zipWith
    (fun step engine => ⟨step.nodeID, engine.1, step.role, engine.2⟩)
    (crew plan workers host (resolvedOf trace)) (readyOf trace)

def Waits (earlier later : Exchange Answer) : Prop :=
  stepFails earlier = true → startOf later = none

/-- Engines are started in the order of the crew, and only as long as every
earlier step succeeded. -/
structure StartsInOrder (trace : Trace) : Prop where
  requests : (startsOf trace).map (fun start => (start.addr, start.request)) =
    plannedStarts plan workers host trace
  waits : trace.Pairwise Waits

/-- The registry ends with a deployment in the given state that records exactly
the engines that reported READY. -/
structure RecordsReady (trace : Trace) (state : DeploymentState) : Prop where
  recorded : ∃ deployment, recordedOf trace = some deployment ∧
    deployment.state = state ∧
    deployment.detail.engines = enginesOf plan workers host trace
  complete : (enginesOf plan workers host trace).map
    (fun engine => (engine.agentAddr, engine.handle)) = readyOf trace

structure RolledBack (trace : Trace) : Prop where
  stops : stopsOf trace = (readyOf trace).reverse
  records : RecordsReady plan workers host trace .failed
  unpublished : routesOf trace = []

structure Activated (trace : Trace) : Prop where
  stops : stopsOf trace = []
  records : RecordsReady plan workers host trace .active
  everyEngine : (readyOf trace).length = workers.length + 1
  published : ∃ before deployment after,
    trace = before ++ ⟨.updateDeployment deployment, none⟩ :: after ∧
      deployment.state = .active ∧ routesOf before = [] ∧
      ∃ route, routesOf after = [route]

end Reading

def ReadyEngine.start (engine : ReadyEngine) : Start :=
  ⟨engine.endpoint.agentAddr, engine.step.request, engine.answer⟩

/-- Everything that is read off a trace, collected segment by segment. -/
structure Observations where
  starts : List Start
  resolved : List Endpoint
  stops : List (String × String)
  routes : List RouteUpdate
  records : List Deployment

instance : Append Observations where
  append first second := ⟨first.starts ++ second.starts, first.resolved ++ second.resolved,
      first.stops ++ second.stops, first.routes ++ second.routes,
      first.records ++ second.records⟩

def observe (trace : Trace) : Observations :=
  ⟨startsOf trace, resolvedOf trace, stopsOf trace, routesOf trace, trace.filterMap recordOf⟩

theorem observe_append (before after : Trace) :
    observe (before ++ after) = observe before ++ observe after := by
  simp only [observe, startsOf, resolvedOf, stopsOf, routesOf, filterMap_append]
  rfl

@[simp]
theorem Observations.mk_append (starts otherStarts : List Start)
    (resolved otherResolved : List Endpoint)
    (stops otherStops : List (String × String))
    (routes otherRoutes : List RouteUpdate)
    (records otherRecords : List Deployment) :
    (⟨starts, resolved, stops, routes, records⟩ : Observations) ++
        ⟨otherStarts, otherResolved, otherStops, otherRoutes, otherRecords⟩ =
      ⟨starts ++ otherStarts, resolved ++ otherResolved, stops ++ otherStops,
        routes ++ otherRoutes, records ++ otherRecords⟩ :=
  rfl

theorem observe_opening (depID : String) (plan : DeploymentPlan) (audited : Option String) :
    observe (openingExchanges depID plan audited) =
      ⟨[], [], [], [], [initialDeployment depID plan]⟩ :=
  rfl

theorem observe_ready (ready : List ReadyEngine) : observe (ready.flatMap exchanges) =
      ⟨ready.map ReadyEngine.start, ready.map ReadyEngine.endpoint, [], [], []⟩ := by
  induction ready with
  | nil => rfl
  | cons _ _ induction =>
    rw [flatMap_cons, observe_append, induction]
    rfl

theorem observe_stops {stops : Trace} {engines : List EngineRef}
    (stopped : stops.map Exchange.command = engines.map stopCommand) :
    observe stops = ⟨[], [], engines.map fun engine => (engine.agentAddr, engine.handle),
        [], []⟩ := by
  induction engines generalizing stops with
  | nil =>
    rw [map_eq_nil_iff.mp stopped]
    rfl
  | cons engine _ induction =>
    obtain ⟨⟨command, reply⟩, rest, rfl, rfl, restEq⟩ := map_eq_cons_iff.mp stopped
    change observe ([⟨stopCommand engine, reply⟩] ++ rest) = _
    rw [observe_append, induction restEq]
    rfl

variable {step : LaunchStep} {attempt : Trace} {plan : DeploymentPlan} {ready : List ReadyEngine}

theorem FailedLaunch.observe (attempted : FailedLaunch step attempt) : ∃ starts endpoints,
      Orchestrator.observe attempt = ⟨starts, endpoints, [], [], []⟩ ∧
        endpoints.length ≤ 1 ∧
        (∀ start ∈ starts, start.readyEngine = none) ∧
        starts.map (fun start => (start.addr, start.request)) =
          endpoints.map fun endpoint => (endpoint.agentAddr, step.request) := by
  cases attempted with
  | unresolved =>
    exact ⟨[], [], rfl, by simp, by simp, rfl⟩
  | notReady endpoint answer _ failed =>
    refine ⟨[⟨endpoint.agentAddr, step.request, answer⟩], [endpoint], rfl, by simp, ?_, rfl⟩
    simp [Start.readyEngine, failed, Except.toOption]

theorem filterMap_readyEngine (ready : List ReadyEngine) :
    (ready.map ReadyEngine.start).filterMap Start.readyEngine =
      ready.map fun engine => (engine.endpoint.agentAddr, engine.handle) := by
  induction ready with
  | nil => rfl
  | cons engine _ induction =>
    have reported : engine.start.readyEngine = some (engine.endpoint.agentAddr, engine.handle) := by
      simp [Start.readyEngine, ReadyEngine.start, engine.ready, Except.toOption]
    rw [map_cons, filterMap_cons_some reported, induction]
    rfl

theorem crew_of_ready {workers : List Assignment}
    (allReady : workers.map (workerStep plan) = ready.map ReadyEngine.step) (host : Assignment)
    (further : List Endpoint) :
    crew plan workers host (ready.map ReadyEngine.endpoint ++ further) =
      ready.map ReadyEngine.step ++ [hostStep plan host (ready.map peerAddr)] := by
  have lengthEq : workers.length = (ready.map ReadyEngine.endpoint).length := by
    simpa using congrArg List.length allReady
  rw [crew, allReady, lengthEq, take_left, map_map]
  rfl

theorem IsNextStep.crew {workers : List Assignment} {host : Assignment}
    (next : IsNextStep plan workers host ready step) (further : List Endpoint) :
    ∃ later, Orchestrator.crew plan workers host (ready.map ReadyEngine.endpoint ++ further) =
      ready.map ReadyEngine.step ++ step :: later := by
  rcases next with ⟨later, workersEq⟩ | ⟨allReady, rfl⟩
  · exact ⟨later ++ [hostStep plan host _], by
      rw [Orchestrator.crew, workersEq, append_assoc, cons_append]⟩
  · exact ⟨[], crew_of_ready allReady host further⟩

/-- What a trace shows when the given engines came up and the given starts and
endpoints belong to a step that failed. -/
structure Shows (trace : Trace) (ready : List ReadyEngine)
    (failedStarts : List Start) (further : List Endpoint) : Prop where
  starts : startsOf trace = ready.map ReadyEngine.start ++ failedStarts
  resolved : resolvedOf trace = ready.map ReadyEngine.endpoint ++ further
  failed : ∀ start ∈ failedStarts, start.readyEngine = none

namespace Shows

variable {trace : Trace} {ready : List ReadyEngine} {failedStarts : List Start}
variable {further : List Endpoint} {plan : DeploymentPlan}
variable {workers : List Assignment} {host : Assignment}
variable {later : List LaunchStep}

section

variable (shows : Shows trace ready failedStarts further)

include shows

theorem readyOf_eq :
    readyOf trace = ready.map fun engine => (engine.endpoint.agentAddr, engine.handle) := by
  rw [readyOf, shows.starts, filterMap_append, filterMap_readyEngine,
    filterMap_eq_nil_iff.mpr shows.failed, append_nil]

variable (crewEq : crew plan workers host (ready.map ReadyEngine.endpoint ++ further) =
  ready.map ReadyEngine.step ++ later)

include crewEq

theorem enginesOf_eq : enginesOf plan workers host trace = ready.map ref := by
  rw [enginesOf, shows.readyOf_eq, shows.resolved, crewEq]
  clear shows crewEq
  induction ready with
  | nil => simp
  | cons _ _ induction =>
    simp only [map_cons, cons_append, zipWith_cons_cons, induction]
    rfl

theorem plannedStarts_eq :
    plannedStarts plan workers host trace = (ready.map ReadyEngine.start).map
          (fun start => (start.addr, start.request)) ++
        List.zipWith (fun endpoint step => (endpoint.agentAddr, step.request)) further later := by
  rw [plannedStarts, shows.resolved, crewEq]
  clear shows crewEq
  induction ready with
  | nil => rfl
  | cons _ _ induction =>
    simp only [map_cons, cons_append, zipWith_cons_cons, induction]
    rfl

theorem recordsReady {deployment : Deployment} (recorded : recordedOf trace = some deployment)
    (engines : deployment.detail.engines = ready.map ref) :
    RecordsReady plan workers host trace deployment.state where
  recorded := ⟨deployment, recorded, rfl, by
    rw [engines, shows.enginesOf_eq crewEq]⟩
  complete := by
    rw [shows.enginesOf_eq crewEq, shows.readyOf_eq, map_map]
    rfl

end

end Shows

theorem stepFails_of_mem_ready (member : exchange ∈ ready.flatMap exchanges) :
    stepFails exchange = false := by
  obtain ⟨engine, _, member⟩ := mem_flatMap.mp member
  simp only [exchanges, mem_cons, not_mem_nil, or_false] at member
  rcases member with rfl | rfl
  · rfl
  · simp [stepFails, engine.ready, Except.isOk, Except.toBool]

theorem stepFails_of_mem_launched {depID : String} {opened : Option String}
    (member : exchange ∈ openingExchanges depID plan opened ++
      ready.flatMap exchanges) : stepFails exchange = false := by
  rcases mem_append.mp member with member | member
  · simp only [openingExchanges, mem_cons, not_mem_nil, or_false] at member
    rcases member with rfl | rfl <;> rfl
  · exact stepFails_of_mem_ready member

theorem FailedLaunch.exists_stepFails (attempted : FailedLaunch step attempt) :
    ∃ exchange ∈ attempt, stepFails exchange = true := by
  cases attempted with
  | unresolved => exact ⟨_, mem_singleton_self _, rfl⟩
  | notReady _ _ _ failed =>
    simp [stepFails, failed, Except.isOk, Except.toBool]

theorem pairwise_waits_append {before after : Trace}
    (succeeds : ∀ exchange ∈ before, stepFails exchange = false) (waits : after.Pairwise Waits) :
    (before ++ after).Pairwise Waits := by
  have vacuous : ∀ earlier ∈ before, ∀ later, Waits earlier later := by
    intro earlier member later fails
    rw [succeeds earlier member] at fails
    contradiction
  refine pairwise_append.mpr ⟨?_, waits, ?_⟩
  · apply pairwise_of_forall_mem_list
    exact fun earlier member later _ => vacuous earlier member later
  · exact fun earlier member later _ => vacuous earlier member later

theorem pairwise_waits_of_no_starts {trace : Trace} (noStarts : startsOf trace = []) :
    trace.Pairwise Waits := by
  apply pairwise_of_forall_mem_list
  intro earlier _ later member _
  exact filterMap_eq_nil_iff.mp noStarts later member

theorem FailedLaunch.pairwise_waits {rest : Trace} (attempted : FailedLaunch step attempt)
    (noStarts : startsOf rest = []) : (attempt ++ rest).Pairwise Waits := by
  have last : ∀ exchange : Exchange Answer, (exchange :: rest).Pairwise Waits := by
    intro exchange
    refine pairwise_cons.mpr ⟨?_, pairwise_waits_of_no_starts noStarts⟩
    intro later member _
    exact filterMap_eq_nil_iff.mp noStarts later member
  cases attempted with
  | unresolved => exact last _
  | notReady endpoint answer =>
    have resolves : ∀ exchange ∈ [(⟨.resolve step.nodeID, .ok endpoint⟩ : Exchange Answer)],
        stepFails exchange = false := by
      simp [stepFails]
    have waits := pairwise_waits_append resolves
      (last ⟨.startEngine endpoint.agentAddr step.request, answer⟩)
    exact waits

theorem zipWith_attempt (step : LaunchStep) (later : List LaunchStep) (further : List Endpoint)
    (atMostOne : further.length ≤ 1) :
    List.zipWith (fun endpoint step => (endpoint.agentAddr, step.request)) further (step :: later) =
      further.map fun endpoint => (endpoint.agentAddr, step.request) := by
  cases further with
  | nil => rfl
  | cons _ further =>
    obtain rfl : further = [] := by simpa using atMostOne
    simp

def WritesSucceed (trace : Trace) : Prop := ∀ exchange ∈ trace, writeError exchange = none

section Runs

variable {depID : String} {plan : DeploymentPlan} {workers : List Assignment}
variable {host : Assignment} {ready : List ReadyEngine} {step : LaunchStep}
variable {attempt stops : Trace} {reason : String}
variable {opened updated audited published : Option String}

theorem startsOf_stops
    (stopped : stops.map Exchange.command = (ready.map ref).reverse.map stopCommand) :
    startsOf (stops ++ failureExchanges depID plan reason
      (ready.map ref) updated audited) = [] := by
  have quiet : startsOf stops = [] :=
    congrArg Observations.starts (observe_stops stopped)
  rw [startsOf, filterMap_append]
  change startsOf stops ++ [] = []
  rw [quiet, append_nil]

variable {trace : Trace}

section Failed

variable (shape : failedTrace depID plan ready attempt stops reason opened updated audited = trace)
  (attempted : FailedLaunch step attempt)
  (stopped : stops.map Exchange.command = (ready.map ref).reverse.map stopCommand)

include shape attempted stopped

theorem shows_failedTrace :
    ∃ starts further, Shows trace ready starts further ∧ further.length ≤ 1 ∧
      starts.map (fun start => (start.addr, start.request)) =
        further.map (fun endpoint => (endpoint.agentAddr, step.request)) ∧
      stopsOf trace = (readyOf trace).reverse ∧ routesOf trace = [] ∧
      trace.filterMap recordOf = initialDeployment depID plan :: (if updated = none then
        [failedDeployment depID plan reason (ready.map ref)] else []) := by
  obtain ⟨starts, further, seen, atMostOne, notReady, sent⟩ := attempted.observe
  have finished : observe (failureExchanges depID plan reason
      (ready.map ref) updated audited) = ⟨[], [], [], [], if updated = none then
        [failedDeployment depID plan reason (ready.map ref)] else []⟩ := by
    cases updated <;> rfl
  have observed := congrArg observe shape.symm
  simp only [failedTrace, observe_append, observe_opening, observe_ready, seen,
    observe_stops stopped, finished, Observations.mk_append, nil_append, append_nil,
    singleton_append] at observed
  have shows : Shows trace ready starts further :=
    ⟨congrArg Observations.starts observed, congrArg Observations.resolved observed, notReady⟩
  refine ⟨starts, further, shows, atMostOne, sent, ?_, congrArg Observations.routes observed,
    congrArg Observations.records observed⟩
  refine (congrArg Observations.stops observed).trans ?_
  rw [shows.readyOf_eq, map_reverse, map_map]
  rfl

theorem startsInOrder_failedTrace (next : IsNextStep plan workers host ready step) :
    StartsInOrder plan workers host trace := by
  obtain ⟨starts, further, shows, atMostOne, sent, -⟩ := shows_failedTrace shape attempted stopped
  obtain ⟨later, crewEq⟩ := next.crew further
  constructor
  · rw [shows.starts, shows.plannedStarts_eq crewEq,
      zipWith_attempt step later further atMostOne, map_append, sent]
  · rw [← shape]
    apply pairwise_waits_append
    · intro exchange member
      exact stepFails_of_mem_launched member
    · exact attempted.pairwise_waits (startsOf_stops stopped)

theorem rolledBack_failedTrace (next : IsNextStep plan workers host ready step)
    (written : updated = none) : RolledBack plan workers host trace := by
  obtain ⟨starts, further, shows, -, -, stopped, unpublished, records⟩ :=
    shows_failedTrace shape attempted stopped
  obtain ⟨later, crewEq⟩ := next.crew further
  rw [if_pos written] at records
  have recorded : recordedOf trace =
      some (failedDeployment depID plan reason (ready.map ref)) :=
    congrArg List.getLast? records
  exact ⟨stopped, shows.recordsReady crewEq recorded rfl, unpublished⟩

end Failed

variable {hostEngine : ReadyEngine}

theorem shows_activeTrace
    (shape : activeTrace depID plan host ready hostEngine opened none audited published = trace) :
    Shows trace (ready ++ [hostEngine]) [] [] ∧ stopsOf trace = [] ∧
      recordedOf trace = some (activeDeployment depID plan host hostEngine.endpoint
        ((ready ++ [hostEngine]).map ref)) := by
  have finished : ∀ started, observe (successExchanges depID plan host
      hostEngine.endpoint started none audited published) =
      ⟨[], [], [], [activeRoute depID (activeDetail plan host hostEngine.endpoint started)],
        [activeDeployment depID plan host hostEngine.endpoint started]⟩ :=
    fun _ => rfl
  have observed := congrArg observe shape.symm
  simp only [activeTrace, observe_append, observe_opening, observe_ready, finished,
    Observations.mk_append, nil_append, append_nil, singleton_append] at observed
  refine ⟨⟨?_, ?_, by simp⟩, congrArg Observations.stops observed,
    congrArg (fun seen => seen.records.getLast?) observed⟩
  · rw [append_nil]
    exact congrArg Observations.starts observed
  · rw [append_nil]
    exact congrArg Observations.resolved observed

theorem crew_of_all_ready (allReady : workers.map (workerStep plan) = ready.map ReadyEngine.step)
    (hostReady : hostEngine.step = hostStep plan host (ready.map peerAddr)) :
    crew plan workers host ((ready ++ [hostEngine]).map ReadyEngine.endpoint ++ []) =
      (ready ++ [hostEngine]).map ReadyEngine.step ++ [] := by
  rw [append_nil, append_nil, map_append, map_append, crew_of_ready allReady, ← hostReady]
  rfl

theorem not_stepFails_activeTrace
    (member : exchange ∈ activeTrace depID plan host ready hostEngine opened
      updated audited published) : stepFails exchange = false := by
  rcases mem_append.mp member with member | member
  · exact stepFails_of_mem_launched member
  · simp only [successExchanges, mem_cons, not_mem_nil, or_false] at member
    rcases member with rfl | rfl | rfl <;> rfl

section

variable (allReady : workers.map (workerStep plan) = ready.map ReadyEngine.step)
  (hostReady : hostEngine.step = hostStep plan host (ready.map peerAddr))

include allReady hostReady

theorem startsInOrder_activeTrace : StartsInOrder plan workers host
      (activeTrace depID plan host ready hostEngine opened none audited published) := by
  obtain ⟨shows, -⟩ := @shows_activeTrace depID plan host ready opened audited published _ _ rfl
  constructor
  · rw [shows.plannedStarts_eq (crew_of_all_ready allReady hostReady),
      shows.starts, append_nil, zipWith_nil_left, append_nil]
  · rw [← append_nil (activeTrace _ _ _ _ _ _ _ _ _)]
    apply pairwise_waits_append
    · exact fun exchange member => not_stepFails_activeTrace member
    · exact List.Pairwise.nil

theorem activated_activeTrace : Activated plan workers host
      (activeTrace depID plan host ready hostEngine opened none audited published) := by
  obtain ⟨shows, unstopped, recorded⟩ :=
    @shows_activeTrace depID plan host ready opened audited published _ _ rfl
  have unpublishedBefore : routesOf (openingExchanges depID plan opened ++
      (ready ++ [hostEngine]).flatMap exchanges) = [] := by
    have seen := observe_ready (ready ++ [hostEngine])
    exact congrArg Observations.routes seen
  have lengthEq : workers.length = ready.length := by
    simpa using congrArg List.length allReady
  exact
    { stops := unstopped
      records := shows.recordsReady (crew_of_all_ready allReady hostReady) recorded rfl
      everyEngine := by
        rw [shows.readyOf_eq, lengthEq]
        simp
      published := ⟨_, _, _, rfl, rfl, unpublishedBefore, _, rfl⟩ }

end

end Runs

def pairPlan : DeploymentPlan where
  planID := "plan-1"
  modelID := "model"
  quantization := "q4"
  assignments := [⟨"b", .host, 0, 3, false⟩, ⟨"a", .worker, 4, 7, true⟩]

def addressOf (nodeID : String) : Endpoint := ⟨nodeID ++ ":50151", nodeID ++ ":8000"⟩

def respondWith (agent : String → StartAnswer) (_ : Trace) : (command : Command) → Answer command
  | .createDeployment _ => none
  | .updateDeployment _ => none
  | .appendAudit _ => none
  | .resolve nodeID => .ok (addressOf nodeID)
  | .startEngine addr _ => agent addr
  | .stopEngine _ _ => .ok "stopped"
  | .upsertRoute _ => none

def readyRun : Trace × ApplyResult := (apply true "dep-1" (some pairPlan)).run
    (respondWith fun addr => .opened [.event .loading "", .event .ready addr]) []

end Purser.Orchestrator
