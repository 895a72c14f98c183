import Purser.AgentNodeStates
import Mathlib.Data.List.Basic

/-!
# Heartbeat loss

The heartbeat monitor and the engine's supervisor write to one machine.  A write
during an outage leads out of UNREACHABLE, and a node that was not live before
is live afterwards.
-/

namespace Purser.Agent

open List

open ControlPlane (NodeState)

namespace NodeStateMachine

/-- A write whose refusal is only logged. -/
def write (machine : NodeStateMachine) (target : NodeState) : NodeStateMachine :=
  machine.orKeep (machine.transition target)

variable {machine : NodeStateMachine} {target : NodeState}

theorem write_eq : machine.write target =
    if isValid machine.current target then
      ⟨target, if target ≠ .unreachable ∧ isLive target then target else machine.resume⟩
    else machine := by
  unfold write transition
  split <;> rfl

/-- Out of UNREACHABLE leads every live state. -/
theorem write_of_lost (lost : machine.current = .unreachable) (live : isLive target = true) :
    machine.write target = ⟨target, target⟩ := by
  rw [write_eq, lost]
  cases target <;> first | rfl | cases live

/-- The state to go back to is live, and it is the present one if that is live. -/
structure Remembers (machine : NodeStateMachine) : Prop where
  live : isLive machine.resume = true
  present : isLive machine.current = true → machine.resume = machine.current

theorem Remembers.write (remembers : machine.Remembers) (target : NodeState) :
    (machine.write target).Remembers := by
  rw [write_eq]
  split
  · cases target <;> first | exact ⟨rfl, fun _ => rfl⟩ | exact ⟨remembers.live, by simp [isLive]⟩
  · exact remembers

end NodeStateMachine

open NodeStateMachine

structure Monitored where
  watchdog : HeartbeatWatchdog
  machine : NodeStateMachine

/-- A missed heartbeat, a heartbeat, or a write to the machine. -/
inductive Beat where
  | miss
  | ack
  | write (target : NodeState)
  deriving DecidableEq

/-- What happens between two heartbeats: misses, and the writes of the supervisor. -/
def Beat.inOutage : Beat → Bool
  | .miss => true
  | .ack => false
  | .write target => target ∈ [.loading, .running, .degraded, .ready]

namespace Monitored

def start (maxMissed : ℕ) (state : NodeState) : Monitored := ⟨.new maxMissed, .startingAt state⟩

def step (node : Monitored) : Beat → Monitored
  | .miss =>
    let (watchdog, machine) := onHeartbeatMiss node.watchdog node.machine
    ⟨watchdog, machine⟩
  | .ack =>
    let (watchdog, machine) := onHeartbeatAck node.watchdog node.machine
    ⟨watchdog, machine⟩
  | .write target => { node with machine := node.machine.write target }

def run (node : Monitored) (beats : List Beat) : Monitored := beats.foldl step node

variable {node : Monitored} {between : List Beat}

theorem remembers_run (remembers : node.machine.Remembers) (beats : List Beat) :
    (node.run beats).machine.Remembers := by
  induction beats generalizing node with
  | nil => exact remembers
  | cons beat _ induction =>
    refine induction ?_
    cases beat with
    | miss =>
      simp only [step, onHeartbeatMiss]
      split
      · exact remembers.write .unreachable
      · exact remembers
    | ack =>
      simp only [step, onHeartbeatAck]
      split
      · exact remembers.write _
      · exact remembers
    | write target => exact remembers.write target

theorem run_misses (lost : node.machine.current = .unreachable)
    (misses : ∀ beat ∈ between, beat = .miss) : (node.run between).machine = node.machine := by
  induction between generalizing node with
  | nil => rfl
  | cons beat _ induction =>
    obtain ⟨rfl, later⟩ := forall_mem_cons.mp misses
    have same : (node.step .miss).machine = node.machine := if_neg fun marks => marks.2.1 lost
    exact (induction (by rw [same, lost]) later).trans same

/-- From the miss that crosses the threshold to the next beat the node is
UNREACHABLE, and the beat leaves it where the writes lead without the misses. -/
structure Undone (node : Monitored) (between : List Beat) : Prop where
  stays : ∀ earlier, earlier <+: between →
    (node.run (.miss :: earlier)).machine.current = .unreachable
  returns : (node.run (.miss :: between ++ [.ack])).machine.current =
    (node.run (between.filter (· ≠ .miss))).machine.current

/-- An outage is undone exactly when it finds the node in a live state and the
supervisor writes nothing before the next beat. -/
theorem undone_iff (maxMissed : ℕ) (state : NodeState) (history between : List Beat)
    (crossed : ((start maxMissed state).run history).watchdog.recordMiss.liveness = .unhealthy)
    (outage : ∀ beat ∈ between, beat.inOutage = true) :
    Undone ((start maxMissed state).run history) between ↔
      isLive ((start maxMissed state).run history).machine.current = true ∧
        ∀ beat ∈ between, beat = .miss := by
  have remembers : ((start maxMissed state).run history).machine.Remembers := by
    refine remembers_run ?_ history
    cases state <;> exact ⟨rfl, fun live => by first | rfl | cases live⟩
  generalize (start maxMissed state).run history = node at *
  have resume : (node.step .miss).machine.resume = node.machine.resume := by
    simp only [step, onHeartbeatMiss]
    split
    · change (node.machine.write .unreachable).resume = _
      rw [write_eq]
      split <;> rfl
    · rfl
  -- the beat after misses alone goes back to the remembered state
  have back (lost : (node.step .miss).machine.current = .unreachable)
      (misses : ∀ beat ∈ between, beat = .miss) :
      (node.run (.miss :: between ++ [.ack])).machine.current = node.machine.resume ∧
        node.run (between.filter (· ≠ .miss)) = node := by
    have same := run_misses lost misses
    constructor
    · rw [run, foldl_append]
      change (if ((node.step .miss).run between).machine.current = .unreachable then
        ((node.step .miss).run between).machine.write ((node.step .miss).run between).machine.resume
        else ((node.step .miss).run between).machine).current = _
      rw [same, if_pos lost, resume, write_of_lost lost remembers.live]
    · rw [filter_eq_nil_iff.mpr (by simpa using misses)]
      rfl
  constructor
  · rintro ⟨stays, returns⟩
    have lost := stays [] nil_prefix
    have misses : ∀ beat ∈ between, beat = .miss := by
      intro beat member
      cases beat with
      | miss => rfl
      | ack => cases outage _ member
      | write target =>
        obtain ⟨front, rest, rfl⟩ := append_of_mem member
        have before := stays front (prefix_append _ _)
        have after := stays (front ++ [.write target]) ⟨rest, by simp⟩
        have live : isLive target = true := by
          have driven := outage _ member
          cases target <;> first | rfl | cases driven
        rw [← cons_append, run, foldl_append] at after
        change ((node.run (.miss :: front)).machine.write target).current = _ at after
        rw [write_of_lost before live] at after
        obtain rfl : target = .unreachable := after
        cases live
    obtain ⟨remembered, untouched⟩ := back lost misses
    rw [remembered, untouched] at returns
    exact ⟨returns ▸ remembers.live, misses⟩
  · rintro ⟨alive, misses⟩
    have lost : (node.step .miss).machine.current = .unreachable := by
      have marks : isValid node.machine.current .unreachable = true ∧
          node.machine.current ≠ .unreachable ∧ node.machine.isTerminal = false := by
        unfold isTerminal
        cases current : node.machine.current <;> rw [current] at alive <;>
          first | decide | cases alive
      change (if _ then node.machine.write .unreachable else node.machine).current = _
      rw [if_pos ⟨crossed, marks.2⟩, write_eq, if_pos marks.1]
    refine ⟨fun earlier before => ?_, ?_⟩
    · have same := run_misses lost fun beat member => misses beat (before.subset member)
      exact (congrArg NodeStateMachine.current same).trans lost
    · obtain ⟨remembered, untouched⟩ := back lost misses
      rw [remembered, untouched, remembers.present alive]

/-- An engine crashes between two missed beats; and a node that has not enrolled
misses two. -/
theorem not_undone_engineEvent :
    ((start 2 .running).run [.miss, .miss, .write .degraded]).machine.current = .degraded ∧
      ((start 2 .provisioning).run [.miss, .miss, .ack]).machine.current = .ready ∧
      ¬Undone ((start 2 .running).run [.miss]) [.write .degraded] ∧
      ¬Undone ((start 2 .provisioning).run [.miss]) [] := by
  refine ⟨rfl, rfl, fun undone => ?_, fun undone => ?_⟩
  · cases undone.stays [.write .degraded] prefix_rfl
  · cases undone.returns

theorem undone_running : Undone ((start 2 .running).run [.miss]) [.miss] :=
  (undone_iff 2 .running [.miss] [.miss] rfl (by decide)).mpr ⟨rfl, by decide⟩

end Monitored

end Purser.Agent
