import Purser.ReconcilerFailover

/-!
# What one pass of the reconciler does

For every discrepancy a pass notes what the tracker makes of it and, if it has
been there for long enough, carries out the action for it.
-/

namespace Purser.Reconciler

open InteractionPrograms Program
open ControlPlane Orchestrator

def Event.discrepancy (event : Event) : Discrepancy :=
  ⟨event.type, event.deploymentID, event.nodeID⟩

/-- The event as it is when the action for it is chosen. -/
def Event.pending (event : Event) : Event := { event with acted := false, reason := "" }

variable {event : Event} {trace : CallTrace} {acted : Bool}

theorem auditOutcome_run {result : Option String}
    (produced : (auditOutcome event result).Produces trace acted) :
    ∃ action answer, trace = [auditExchange action event answer] ∧ acted = result.isNone := by
  cases result with
  | some =>
    obtain ⟨answer, _, rfl, rfl, rfl⟩ := produced
    exact ⟨_, answer, rfl, rfl⟩
  | none =>
    obtain ⟨answer, rest, rfl, rfl, rfl⟩ := produced
    exact ⟨_, answer, rfl, rfl⟩

/-- What an automatic action can do.  Every other event is at most audited. -/
inductive DispatchRun (actuator : Actuator) (planner : Option FailoverPlanner)
    (event : Event) : CallTrace → Bool → Prop
  | ignored : DispatchRun actuator planner event [] false
  | noted (action : String) (audited : Option String) :
      DispatchRun actuator planner event [auditExchange action event audited] false
  | nodeDown (trace : CallTrace) (acted : Bool) (isNodeDown : event.type = .nodeDown)
      (run : NodeDownRun actuator event planner trace acted) :
      DispatchRun actuator planner event trace acted
  | restarted (inner : CallTrace) (result : Option String) (action : String)
      (audited : Option String) (isEngineDown : event.type = .engineDown)
      (ran : (actuator.restartEngine event.deploymentID event.nodeID).Produces inner result) :
      DispatchRun actuator planner event
        (inner ++ [auditExchange action event audited]) result.isNone
  | cleaned (inner : CallTrace) (result : Option String) (action : String)
      (audited : Option String) (isOrphan : event.type = .orphanDeployment)
      (ran : (actuator.cleanup event.deploymentID).Produces inner result) :
      DispatchRun actuator planner event
        (inner ++ [auditExchange action event audited]) result.isNone

theorem dispatch_run {actuator : Actuator} {planner : Option FailoverPlanner}
    (produced : (dispatch (some actuator) planner event).Produces trace acted) :
    DispatchRun actuator planner event trace acted := by
  have noted : ∀ action, (giveUp action event).Produces trace acted →
      DispatchRun actuator planner event trace acted := by
    intro action produced
    obtain ⟨audited, _, rfl, rfl, rfl⟩ := produced
    exact .noted action audited
  unfold dispatch at produced
  split at produced
  · exact noted _ produced
  · exact noted _ produced
  · obtain ⟨rfl, rfl⟩ := produced
    exact .ignored
  · dsimp only at produced
    split at produced
    · rename_i isNodeDown
      exact .nodeDown trace acted isNodeDown (handleNodeDown_run produced)
    · rename_i isEngineDown
      obtain ⟨inner, result, _, rfl, ran, audited⟩ := produced.of_bind
      obtain ⟨action, answer, rfl, rfl⟩ := auditOutcome_run audited
      exact .restarted inner result action answer isEngineDown ran
    · rename_i isOrphan
      obtain ⟨inner, result, _, rfl, ran, audited⟩ := produced.of_bind
      obtain ⟨action, answer, rfl, rfl⟩ := auditOutcome_run audited
      exact .cleaned inner result action answer isOrphan ran
    · exact noted _ produced

def Tracker.handled (tracker : Tracker) (now : Time) (event : Event) : DiscState :=
  let state := tracker.seen now event.discrepancy
  if event.acted then { state with lastActed := now } else state

structure HandleRun (config : Config) (actuator : Option Actuator)
    (planner : Option FailoverPlanner) (now : Time) (tracker : Tracker)
    (event : Event) (trace : CallTrace) : Prop where
  allowed : event.acted = true →
    eligible config now (tracker.seen now event.discrepancy) = true ∧
      cooling config now (tracker.seen now event.discrepancy) = false
  dispatched : (trace = [] ∧ event.acted = false) ∨
    (dispatch actuator planner event.pending).Produces trace event.acted

section Runs

variable {config : Config} {actuator : Option Actuator} {planner : Option FailoverPlanner}
  {now : Time} {tracker later : Tracker} {trace : CallTrace}

theorem handle_run {discrepancy : Discrepancy} {event : Event}
    (produced : (handle config actuator planner now tracker
      discrepancy).Produces trace (later, event)) :
    event.discrepancy = discrepancy ∧
      later = Function.update tracker discrepancy.key (some (tracker.handled now event)) ∧
      HandleRun config actuator planner now tracker event trace := by
  unfold handle at produced
  dsimp only at produced
  split at produced
  · rename_i isEligible
    split at produced
    · obtain ⟨rfl, same⟩ := produced
      obtain ⟨rfl, rfl⟩ := Prod.mk.inj same
      exact ⟨rfl, rfl, ⟨(fun acted => by cases acted), Or.inl ⟨rfl, rfl⟩⟩⟩
    · rename_i notCooling
      obtain ⟨asked, acted, _, rfl, dispatched, finished⟩ := produced.of_bind
      cases acted with
      | true =>
        obtain ⟨rfl, same⟩ := finished
        obtain ⟨rfl, rfl⟩ := Prod.mk.inj same
        rw [List.append_nil]
        have ready : cooling config now (tracker.seen now discrepancy) = false := by
          simpa using notCooling
        exact ⟨rfl, rfl, ⟨fun _ => ⟨isEligible, ready⟩, Or.inr dispatched⟩⟩
      | false =>
        obtain ⟨rfl, same⟩ := finished
        obtain ⟨rfl, rfl⟩ := Prod.mk.inj same
        rw [List.append_nil]
        exact ⟨rfl, rfl, ⟨(fun acted => by cases acted), Or.inr dispatched⟩⟩
  · obtain ⟨rfl, same⟩ := produced
    obtain ⟨rfl, rfl⟩ := Prod.mk.inj same
    exact ⟨rfl, rfl, ⟨(fun acted => by cases acted), Or.inl ⟨rfl, rfl⟩⟩⟩

/-- The loop over the discrepancies. -/
inductive Handled (config : Config) (actuator : Option Actuator)
    (planner : Option FailoverPlanner) (now : Time) :
    Tracker → List Event → CallTrace → Tracker → Prop
  | nil (tracker : Tracker) : Handled config actuator planner now tracker [] [] tracker
  | cons (tracker later : Tracker) (event : Event) (events : List Event)
      (first rest : CallTrace)
      (single : HandleRun config actuator planner now tracker event first)
      (others : Handled config actuator planner now (Function.update tracker event.discrepancy.key
          (some (tracker.handled now event))) events rest later) :
      Handled config actuator planner now tracker (event :: events) (first ++ rest) later

theorem handleAll_run {discrepancies : List Discrepancy} {events : List Event}
    (produced : (handleAll config actuator planner now discrepancies
      tracker).Produces trace (later, events)) :
    events.map Event.discrepancy = discrepancies ∧
      Handled config actuator planner now tracker events trace later := by
  induction discrepancies generalizing tracker trace events with
  | nil =>
    obtain ⟨rfl, same⟩ := produced
    obtain ⟨rfl, rfl⟩ := Prod.mk.inj same
    exact ⟨rfl, .nil _⟩
  | cons _ _ induction =>
    obtain ⟨_, ⟨middle, event⟩, _, rfl, first, continued⟩ := produced.of_bind
    obtain ⟨_, ⟨final, others⟩, _, rfl, handled, rfl, same⟩ := continued.of_bind
    obtain ⟨rfl, rfl⟩ := Prod.mk.inj same
    obtain ⟨rfl, rfl, single⟩ := handle_run first
    obtain ⟨restEq, restHandled⟩ := induction handled
    rw [List.append_nil]
    exact ⟨by rw [List.map_cons, restEq], .cons _ _ _ _ _ _ single restHandled⟩

theorem reconcile_run {report : Except String Report}
    (produced : (reconcile config actuator planner now tracker).Produces trace (report, later)) :
    (∃ problem, report = .error problem ∧ later = tracker) ∨
      ∃ events handled observing handling,
        report = .ok ⟨events, events.filter Event.acted⟩ ∧
        trace = observing ++ handling ∧
        Handled config actuator planner now tracker.unmarked events handling handled ∧
        later = handled.healed := by
  obtain ⟨first, deployments, _, rfl, -, continued⟩ := produced.of_bind
  cases deployments with
  | error problem =>
    obtain ⟨-, same⟩ := continued
    obtain ⟨rfl, rfl⟩ := Prod.mk.inj same
    exact Or.inl ⟨problem, rfl, rfl⟩
  | ok =>
    obtain ⟨second, nodes, _, rfl, -, continued⟩ := continued.of_bind
    cases nodes with
    | error problem =>
      obtain ⟨-, same⟩ := continued
      obtain ⟨rfl, rfl⟩ := Prod.mk.inj same
      exact Or.inl ⟨problem, rfl, rfl⟩
    | ok =>
      obtain ⟨third, observed, _, rfl, -, continued⟩ := continued.of_bind
      obtain ⟨handling, ⟨handled, events⟩, _, rfl, ran, rfl, same⟩ := continued.of_bind
      obtain ⟨rfl, rfl⟩ := Prod.mk.inj same
      refine Or.inr ⟨events, handled, first ++ (second ++ third), handling, rfl,
        ?_, (handleAll_run ran).2, rfl⟩
      simp

end Runs

end Purser.Reconciler
