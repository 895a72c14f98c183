import Purser.ControlCalls

/-!
# The life cycle of a node

An agent keeps the state of its node in one guarded machine; a write that the
transition matrix does not have leaves it as it is.
-/

namespace Purser.Agent

open ControlPlane (NodeState)

structure TransitionError where
  source : NodeState
  target : NodeState

/-- `resume` is the last live state, which a recovery goes back to. -/
structure NodeStateMachine where
  current : NodeState := .provisioning
  resume : NodeState := .ready

namespace NodeStateMachine

def isLive : NodeState → Bool
  | .enrolled | .ready | .loading | .running | .degraded | .draining => true
  | _ => false

def isValid (source target : NodeState) : Bool :=
  if source = target then true
  else if source = .decommissioned then false
  else if source = .unspecified ∨ target = .unspecified then false
  else if target = .unreachable then true
  else if source = .unreachable then isLive target
  else match source, target with
    | .provisioning, .enrolled
    | .enrolled, .ready
    | .ready, .loading
    | .loading, .running
    | .loading, .ready
    | .loading, .degraded
    | .running, .ready
    | .running, .degraded
    | .degraded, .running
    | .degraded, .ready
    | .degraded, .loading
    | .ready, .draining
    | .running, .draining
    | .loading, .draining
    | .degraded, .draining
    | .draining, .decommissioned
    | .draining, .ready => true
    | _, _ => false

def startingAt (state : NodeState) : NodeStateMachine where
  current := state
  resume := if isLive state then state else .ready

variable (machine : NodeStateMachine) (result : Except TransitionError NodeStateMachine)

def transition (target : NodeState) : Except TransitionError NodeStateMachine :=
  if isValid machine.current target then
    .ok { current := target
          resume := if target ≠ .unreachable ∧ isLive target then target else machine.resume }
  else .error ⟨machine.current, target⟩

def recover : Except TransitionError NodeStateMachine :=
  machine.transition machine.resume

def isTerminal : Bool := machine.current = .decommissioned

/-- What is left of a write whose refusal is only logged. -/
def orKeep : NodeStateMachine :=
  match result with
  | .ok next => next
  | .error _ => machine

/-- `AgentSvc::start_engine` moves a new node on to READY first. -/
def fastForward : NodeStateMachine :=
  let enrolled :=
    if machine.current = .provisioning then
      machine.orKeep (machine.transition .enrolled)
    else machine
  if enrolled.current = .enrolled then enrolled.orKeep (enrolled.transition .ready)
  else enrolled

variable {machine : NodeStateMachine}

theorem fastForward_of_ne (notNew : machine.current ≠ .provisioning)
    (notEnrolled : machine.current ≠ .enrolled) : machine.fastForward = machine := by
  simp only [fastForward, notNew, notEnrolled, if_false]

end NodeStateMachine

inductive Liveness where
  | healthy
  | unhealthy
  deriving DecidableEq

structure HeartbeatWatchdog where
  maxMissed : ℕ
  missed : ℕ := 0

namespace HeartbeatWatchdog

def new (maxMissed : ℕ) : HeartbeatWatchdog where
  maxMissed := max maxMissed 1

def beat (watchdog : HeartbeatWatchdog) : HeartbeatWatchdog := { watchdog with missed := 0 }

/-- A counter of 32 bits that saturates. -/
def recordMiss (watchdog : HeartbeatWatchdog) : HeartbeatWatchdog :=
  { watchdog with missed := min (watchdog.missed + 1) 4294967295 }

def liveness (watchdog : HeartbeatWatchdog) : Liveness :=
  if watchdog.maxMissed ≤ watchdog.missed then .unhealthy else .healthy

end HeartbeatWatchdog

def onHeartbeatAck (watchdog : HeartbeatWatchdog) (machine : NodeStateMachine) :
    HeartbeatWatchdog × NodeStateMachine :=
  (watchdog.beat,
    if machine.current = .unreachable then machine.orKeep machine.recover
    else machine)

def onHeartbeatMiss (watchdog : HeartbeatWatchdog) (machine : NodeStateMachine) :
    HeartbeatWatchdog × NodeStateMachine :=
  let missed := watchdog.recordMiss
  (missed,
    if missed.liveness = .unhealthy ∧ machine.current ≠ .unreachable ∧
        machine.isTerminal = false then
      machine.orKeep (machine.transition .unreachable)
    else machine)

end Purser.Agent
