import Purser.OrchestratorChoreography

/-!
# What a rollback leaves running

The rollback of a failed deployment stops the engines that reported READY.  The
engine of the failed step is not among them.
-/

namespace Purser.Orchestrator

open InteractionPrograms Program List

/-- The agent took the start command: the call did not fail, neither at once nor
as the first thing read off its stream. -/
def StartAnswer.accepted : StartAnswer → Bool
  | .refused _ => false
  | .opened (.readError _ :: _) => false
  | .opened _ => true

/-- Every agent that accepted a start is later told to stop an engine. -/
def StopsAccepted (trace : Trace) : Prop := ∀ before addr request answer after,
    trace = before ++ ⟨.startEngine addr request, answer⟩ :: after →
      answer.accepted = true → addr ∈ (stopsOf after).map Prod.fst

/-- Each start that was accepted and did not end in READY shares its agent with
an engine that is ready. -/
def AcceptedShareAgent (trace : Trace) : Prop :=
  ∀ start ∈ startsOf trace, start.answer.accepted = true →
    start.readyEngine = none → start.addr ∈ (readyOf trace).map Prod.fst

variable {start : Start}

theorem startOf_eq_some {exchange : Exchange Answer} (starts : startOf exchange = some start) :
    exchange = ⟨.startEngine start.addr start.request, start.answer⟩ := by
  obtain ⟨command, answer⟩ := exchange
  cases command with
  | startEngine =>
    obtain rfl := Option.some.inj starts
    rfl
  | _ => contradiction

theorem exists_split_of_mem_startsOf {trace : Trace} (member : start ∈ startsOf trace) :
    ∃ before after, trace = before ++
      ⟨.startEngine start.addr start.request, start.answer⟩ :: after := by
  obtain ⟨exchange, exchangeMember, starts⟩ := mem_filterMap.mp member
  obtain ⟨before, after, split⟩ := append_of_mem exchangeMember
  exact ⟨before, after, by rw [split, startOf_eq_some starts]⟩

theorem addr_mem_readyOf {trace : Trace} (member : start ∈ startsOf trace)
    (ready : start.readyEngine ≠ none) : start.addr ∈ (readyOf trace).map Prod.fst := by
  obtain ⟨engine, reported⟩ := Option.ne_none_iff_exists'.mp ready
  have engineMember : engine ∈ readyOf trace := mem_filterMap.mpr ⟨start, member, reported⟩
  have addrEq : engine.1 = start.addr := by
    obtain ⟨handle, _, rfl⟩ := Option.map_eq_some_iff.mp reported
    rfl
  exact mem_map.mpr ⟨engine, engineMember, addrEq⟩

theorem stopsOf_after_start {front rest before after : Trace} {exchange : Exchange Answer}
    (frontStops : stopsOf front = []) (restStarts : startsOf rest = [])
    (split : front ++ rest = before ++ exchange :: after) (starts : startOf exchange = some start) :
    stopsOf after = stopsOf (front ++ rest) := by
  have restQuiet : exchange ∉ rest := by
    intro member
    have quiet := filterMap_eq_nil_iff.mp restStarts exchange member
    rw [quiet] at starts
    contradiction
  obtain ⟨middle, rfl, afterEq⟩ := exists_of_split_left split restQuiet
  have middleStops : stopsOf middle = [] := by
    rw [stopsOf, filterMap_eq_nil_iff] at frontStops ⊢
    intro later member
    exact frontStops later (by simp [member])
  rw [afterEq, stopsOf, stopsOf, filterMap_append, filterMap_append]
  change stopsOf middle ++ stopsOf rest = stopsOf _ ++ stopsOf rest
  rw [middleStops, frontStops]

theorem stopsAccepted_iff (front rest : Trace) (frontStops : stopsOf front = [])
    (restStarts : startsOf rest = [])
    (stopsReady : stopsOf (front ++ rest) = (readyOf (front ++ rest)).reverse) :
    StopsAccepted (front ++ rest) ↔ AcceptedShareAgent (front ++ rest) := by
  have sameAgents : ∀ addr, addr ∈ (stopsOf (front ++ rest)).map Prod.fst ↔
      addr ∈ (readyOf (front ++ rest)).map Prod.fst := by
    intro addr
    rw [stopsReady, map_reverse, mem_reverse]
  constructor
  · intro stops start member accepted _
    obtain ⟨before, after, split⟩ := exists_split_of_mem_startsOf member
    have later := stops before _ _ _ after split accepted
    rwa [stopsOf_after_start frontStops restStarts split rfl, sameAgents] at later
  · intro shared before addr request answer after split accepted
    rw [stopsOf_after_start frontStops restStarts split rfl, sameAgents]
    have member : (⟨addr, request, answer⟩ : Start) ∈ startsOf (front ++ rest) := by
      rw [split]
      exact mem_filterMap.mpr ⟨⟨.startEngine addr request, answer⟩, by simp, rfl⟩
    by_cases notReady : (⟨addr, request, answer⟩ : Start).readyEngine = none
    · exact shared _ member accepted notReady
    · exact addr_mem_readyOf member notReady

theorem stopsOf_launched (depID : String) (plan : DeploymentPlan) (opened : Option String)
    (ready : List ReadyEngine) {step : LaunchStep} {attempt : Trace}
    (attempted : FailedLaunch step attempt) :
    stopsOf (openingExchanges depID plan opened ++
      ready.flatMap ReadyEngine.exchanges ++ attempt) = [] := by
  obtain ⟨starts, further, seen, _⟩ := attempted.observe
  have stopsEq : ∀ trace, stopsOf trace = (observe trace).stops := fun _ => rfl
  rw [stopsEq, observe_append, observe_append, observe_ready, seen]
  rfl

def respondUnresolved (lost : String) (agent : String → StartAnswer)
    (history : Trace) : (command : Command) → Answer command
  | .resolve nodeID =>
    if nodeID = lost then .error "no such node" else .ok (addressOf nodeID)
  | command => respondWith agent history command

def unresolvedRun : Trace × ApplyResult := (apply true "dep-1" (some pairPlan)).run
    (respondUnresolved "b" fun addr => .opened [.event .ready addr]) []

def hostPlan : DeploymentPlan where
  planID := "plan-2"
  modelID := "model"
  quantization := "q4"
  assignments := [⟨"b", .host, 0, 7, false⟩]

def loadingRun : Trace × ApplyResult := (apply true "dep-2" (some hostPlan)).run
    (respondWith fun _ => .opened [.event .loading "", .contextDone "context deadline exceeded"]) []

end Purser.Orchestrator
