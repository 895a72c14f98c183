import Purser.CrashRecovery

/-!
# Draining

The supervise task that a drain ends asks for READY, and a later start launches
an engine.  Without tasks and starts, nothing but the operator leads out of
DRAINING.
-/

namespace Purser.Agent

open TransitionRuns
open ControlPlane (NodeState)
open NodeStateMachine (transition fastForward_of_ne recover isTerminal)
open AgentState (step)

/-- The steps of the tasks, calls, engines and callers, the heartbeats, and the
starts that fail before they reach the supervisor. -/
def Action.afterDrain : Action → Bool
  | .startEngine request => !request.port.isOk
  | .heartbeatMiss | .heartbeatAck | .resumeStop _ _ | .resumeTask _ _ _ | .exit _
  | .read _ | .drop _ => true
  | .start _ | .stop _ | .drain | .join => false

theorem call_of_afterDrain {action : Action} (later : action.afterDrain = true) :
    action.call? = none := by
  cases action with
  | startEngine =>
    rw [Action.afterDrain, Bool.not_eq_true'] at later
    rw [Action.call?, later]
    rfl
  | start | stop | drain | join => cases later
  | _ => rfl

/-- The node drains: it is unreachable only while heartbeats are missed, and a
recovery leads back. -/
structure Node.Drained (node : Node) : Prop where
  resume : node.machine.resume = .draining
  current : node.machine.current = .draining ∨
    (node.machine.current = .unreachable ∧ node.watchdog.liveness = .unhealthy)

namespace Node.Drained

variable {node : Node}

theorem of_transition {machine : NodeStateMachine}
    (taken : node.machine.transition .draining = .ok machine) :
    (node.driveState .draining).Drained := by
  have machine' : (node.driveState .draining).machine = machine := by
    rw [Node.driveState, taken]
    rfl
  rw [transition] at taken
  split at taken
  · cases taken
    exact ⟨by rw [machine']; rfl, .inl (by rw [machine'])⟩
  · cases taken

theorem of_machine {next : Node} (drained : node.Drained) (machine : next.machine = node.machine)
    (current : node.machine.current = .draining ∨
      (node.machine.current = .unreachable ∧ next.watchdog.liveness = .unhealthy)) :
    next.Drained :=
  ⟨machine ▸ drained.resume, machine ▸ current⟩

/-- The watchdog and the machine are all that counts. -/
theorem of_eq {next : Node} (drained : node.Drained) (machine : next.machine = node.machine)
    (watchdog : next.watchdog = node.watchdog) : next.Drained :=
  drained.of_machine machine (watchdog ▸ drained.current)

theorem fastForward (drained : node.Drained) : node.machine.fastForward = node.machine := by
  rcases drained.current with draining | ⟨unreachable, _⟩
  · exact fastForward_of_ne (by rw [draining]; decide) (by rw [draining]; decide)
  · exact fastForward_of_ne (by rw [unreachable]; decide)
      (by rw [unreachable]; decide)

theorem unhealthy_recordMiss {watchdog : HeartbeatWatchdog}
    (counter : watchdog.maxMissed ≤ 4294967295) (unhealthy : watchdog.liveness = .unhealthy) :
    watchdog.recordMiss.liveness = .unhealthy := by
  rw [HeartbeatWatchdog.liveness] at unhealthy
  split at unhealthy
  · have still : watchdog.maxMissed ≤ min (watchdog.missed + 1) 4294967295 := by omega
    exact if_pos still
  · cases unhealthy

theorem heartbeatMiss (drained : node.Drained) (counter : node.watchdog.maxMissed ≤ 4294967295) :
    { node with
      watchdog := (onHeartbeatMiss node.watchdog node.machine).1
      machine := (onHeartbeatMiss node.watchdog node.machine).2 : Node }.Drained := by
  rcases drained.current with draining | ⟨unreachable, unhealthy⟩
  · by_cases dead : node.watchdog.recordMiss.liveness = .unhealthy
    · have lost : (onHeartbeatMiss node.watchdog node.machine).2 =
          { current := .unreachable, resume := node.machine.resume } := by
        simp only [onHeartbeatMiss, isTerminal, draining, dead,
          transition]
        rfl
      refine ⟨?_, .inr ⟨?_, dead⟩⟩
      · rw [lost]
        exact drained.resume
      · rw [lost]
    · exact drained.of_machine (if_neg fun lost => dead lost.1) (.inl draining)
  · exact drained.of_machine (if_neg fun lost => lost.2.1 unreachable)
      (.inr ⟨unreachable, unhealthy_recordMiss counter unhealthy⟩)

theorem heartbeatAck (drained : node.Drained) :
    { node with
      watchdog := (onHeartbeatAck node.watchdog node.machine).1
      machine := (onHeartbeatAck node.watchdog node.machine).2 : Node }.Drained := by
  rcases drained.current with draining | ⟨unreachable, _⟩
  · exact drained.of_machine (if_neg (by rw [draining]; decide)) (.inl draining)
  · have recovered : (onHeartbeatAck node.watchdog node.machine).2 =
        { current := .draining, resume := .draining } := by
      simp only [onHeartbeatAck, unreachable, recover, drained.resume,
        transition]
      rfl
    refine ⟨?_, .inl ?_⟩
    · rw [recovered]
    · rw [recovered]

theorem composedNodeState (drained : node.Drained) : node.composedNodeState = .draining ∨
      (node.composedNodeState = .unreachable ∧ node.watchdog.liveness = .unhealthy) := by
  rcases drained.current with draining | ⟨unreachable, unhealthy⟩
  · refine .inl ?_
    rw [Node.composedNodeState, draining]
  · refine .inr ⟨?_, unhealthy⟩
    rw [Node.composedNodeState, unreachable]

end Node.Drained

theorem machine_of_stop {node : Node} {call after : StopAwait} {input : StopInput} {result : Node}
    (resumed : call.resume node input = some (result, after)) :
    result.machine = node.machine ∧ result.watchdog = node.watchdog := by
  revert resumed
  fun_cases StopAwait.resume node call input
  all_goals rintro ⟨⟩
  all_goals exact ⟨rfl, rfl⟩

/-- One action after the drain, on a node whose tasks have ended. -/
theorem drained_of_step {settings : Settings} {agent next : AgentState} {action : Action}
    (unattended : agent.Unattended) (drained : agent.node.Drained)
    (counter : agent.node.watchdog.maxMissed ≤ 4294967295) (later : action.afterDrain = true)
    (stepped : agent.step settings action = some next) :
    next.node.Drained ∧ next.node.watchdog.maxMissed = agent.node.watchdog.maxMissed := by
  cases action with
  | start | stop | drain | join => cases later
  | startEngine =>
    cases stepped
    rw [AgentState.startEngine_of_refused (refused_of_uncalled (call_of_afterDrain later)),
      drained.fastForward]
    exact ⟨drained, rfl⟩
  | heartbeatMiss =>
    cases stepped
    exact ⟨drained.heartbeatMiss counter, rfl⟩
  | heartbeatAck =>
    cases stepped
    exact ⟨drained.heartbeatAck, rfl⟩
  | exit id =>
    cases stepped
    exact ⟨drained.of_eq rfl rfl, rfl⟩
  | resumeStop =>
    obtain ⟨waiting, node, after, found, resumed, rfl⟩ := AgentState.exists_of_resumeStop stepped
    obtain ⟨machine, watchdog⟩ := machine_of_stop resumed
    exact ⟨drained.of_eq machine watchdog, congrArg HeartbeatWatchdog.maxMissed watchdog⟩
  | resumeTask =>
    exact absurd stepped (AgentState.not_resumeTask_of_finished fun task found =>
      unattended task (List.mem_of_getElem? found))
  | read place | drop place =>
    obtain ⟨task, found, rfl⟩ := Option.map_eq_some_iff.mp stepped
    exact ⟨drained, rfl⟩

/-- The stop of a drain finds no task to wake. -/
theorem unattended_drain {agent : AgentState} (unattended : agent.Unattended) :
    agent.drain.Unattended := by
  intro task member
  rw [AgentState.drain, (Exclusive.stop_fields _).1] at member
  obtain ⟨earlier, found, rfl⟩ := List.mem_map.mp member
  have ended := unattended earlier found
  rw [Task.wake, ended]
  exact ended

theorem node_drain (agent : AgentState) :
    agent.drain.node.machine = (agent.node.driveState .draining).machine ∧
      agent.drain.node.watchdog = agent.node.watchdog ∧
      agent.drain.node.engines = agent.node.engines := by
  unfold AgentState.drain AgentState.stop
  split <;> exact ⟨rfl, rfl, rfl⟩

/-- A drain that is accepted on a node without supervise tasks lasts, and no
engine is started. -/
theorem drain_sticks_unattended {settings : Settings} {agent final : AgentState}
    {later : List Action} (accepted : (agent.node.machine.transition .draining).isOk = true)
    (unattended : agent.Unattended)
    (counter : agent.node.watchdog.maxMissed ≤ 4294967295)
    (ran : run (step settings) agent (.drain :: later) = some final)
    (afterDrain : ∀ action ∈ later, action.afterDrain = true) :
    (final.node.composedNodeState = .draining ∨
      (final.node.composedNodeState = .unreachable ∧ final.node.watchdog.liveness = .unhealthy)) ∧
      final.node.engines.length = agent.node.engines.length := by
  obtain ⟨draining, stepped, ranLater⟩ := run_cons_eq_some_iff.mp ran
  cases stepped
  obtain ⟨machine, watchdog, engines⟩ := node_drain agent
  have drained : agent.drain.node.Drained := by
    cases taken : agent.node.machine.transition .draining with
    | error => simp [taken, Except.isOk, Except.toBool] at accepted
    | ok => exact (Node.Drained.of_transition taken).of_eq machine watchdog
  rw [← watchdog] at counter
  rw [← engines]
  have ended := unattended_drain unattended
  generalize agent.drain = state at drained counter ended ranLater
  clear ran machine watchdog engines
  induction later generalizing state with
  | nil =>
    cases ranLater
    exact ⟨drained.composedNodeState, rfl⟩
  | cons _ _ induction =>
    obtain ⟨next, stepped, ranRest⟩ := run_cons_eq_some_iff.mp ranLater
    obtain ⟨first, others⟩ := List.forall_mem_cons.mp afterDrain
    obtain ⟨still, _, engines, _⟩ := ended.step (call_of_afterDrain first) stepped
    obtain ⟨drained, same⟩ := drained_of_step ended drained counter first stepped
    rw [← same] at counter
    rw [← engines]
    exact induction others next drained counter still ranRest

def workerServes : List Action :=
  .startEngine { modelRef := "llama", role := .worker, port := .ok 50052 } ::
    comesUp 0 "mock-worker-0001"

/-- The supervise task of an engine that serves asks for READY when the drain
wakes it, and a start that comes after the drain brings an engine up. -/
theorem drain_undone : (∃ agent ∈ run (step {}) {} workerServes,
      (agent.node.machine.transition .draining).isOk = true ∧
      ∃ final ∈ run (step {}) agent [.drain, .resumeTask 0 {} .notified],
        final.node.composedNodeState = .ready) ∧
    ∃ agent ∈ run (step {}) {} [.join],
      (agent.node.machine.transition .draining).isOk = true ∧
      ∃ final ∈ run (step {}) agent (.drain :: workerServes),
        final.node.composedNodeState = .draining ∧
          final.node.live.map Engine.id = ["mock-worker-0001"] := by
  decide +kernel

theorem drain_sticks_unattended_idle : ∃ agent ∈ run (step {}) {} [.join],
      ∃ final ∈ run (step {}) agent
          [.drain, .heartbeatMiss, .heartbeatMiss, .heartbeatMiss, .resumeStop 0 .shutDown],
        (final.node.composedNodeState = .draining ∨
          (final.node.composedNodeState = .unreachable ∧
            final.node.watchdog.liveness = .unhealthy)) ∧
          final.node.engines.length = agent.node.engines.length := by
  have ends : ∃ agent ∈ run (step {}) {} [.join],
      (agent.node.machine.transition .draining).isOk = true ∧ agent.Unattended ∧
        agent.node.watchdog.maxMissed ≤ 4294967295 ∧
        (run (step {}) agent [.drain, .heartbeatMiss, .heartbeatMiss,
          .heartbeatMiss, .resumeStop 0 .shutDown]).isSome = true := by
    decide +kernel
  obtain ⟨agent, ran, accepted, unattended, counter, completes⟩ := ends
  obtain ⟨final, ranLater⟩ := Option.isSome_iff_exists.mp completes
  exact ⟨agent, ran, final, ranLater,
    drain_sticks_unattended accepted unattended counter ranLater (by decide)⟩

end Purser.Agent
