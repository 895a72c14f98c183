import Purser.OrchestratorApply

/-!
# The supervisor of a node's engine

An agent looks after at most one engine.  A start supersedes whatever the agent
was running, and a stop takes the engine away, whichever handle it names.
-/

namespace Purser.Agent

open Orchestrator (StartAnswer StartEngineRequest waitReady)

inductive EnginePhase where
  | idle
  | loading
  | running
  | crashed
  | stopped
  | failed
  deriving DecidableEq

structure ServingEngine where
  request : StartEngineRequest
  handle : String

structure Supervisor where
  generation : ℕ := 0
  stopping : Bool := false
  phase : EnginePhase := .idle
  serving : Option ServingEngine := none

namespace Supervisor

def start (supervisor : Supervisor) : Supervisor where
  generation := supervisor.generation + 1
  stopping := false
  phase := .loading
  serving := none

/-- What the supervise task has made of a start when the caller's wait for
READY is over. -/
def settle (supervisor : Supervisor) (addr : String)
    (request : StartEngineRequest) (answer : StartAnswer) : Supervisor :=
  match waitReady addr answer with
  | .ok handle =>
    { supervisor with phase := .running, serving := some ⟨request, handle⟩ }
  | .error (.engineError _) => { supervisor with phase := .crashed }
  -- the caller has stopped waiting, the engine may still be loading
  | .error _ => supervisor

def stop (supervisor : Supervisor) : Supervisor :=
  { supervisor with stopping := true, phase := .stopped, serving := none }

end Supervisor

abbrev Fleet := String → Supervisor

namespace Fleet

/-- A start call reaches the supervisor unless the agent refuses it. -/
def startEngine (fleet : Fleet) (addr : String) (request : StartEngineRequest)
    (answer : StartAnswer) : Fleet :=
  match answer with
  | .refused _ => fleet
  | .opened _ =>
    Function.update fleet addr ((fleet addr).start.settle addr request answer)

def stopEngine (fleet : Fleet) (addr : String) (answer : Except String String) : Fleet :=
  match answer with
  | .error _ => fleet
  | .ok _ => Function.update fleet addr (fleet addr).stop

theorem startEngine_of_ready {addr handle : String} {answer : StartAnswer}
    (ready : waitReady addr answer = .ok handle) (fleet : Fleet) (request : StartEngineRequest) :
    fleet.startEngine addr request answer = Function.update fleet addr
        { generation := (fleet addr).generation + 1
          phase := .running
          serving := some ⟨request, handle⟩ } := by
  cases answer with
  | refused => cases ready
  | opened =>
    simp only [startEngine, Supervisor.settle, Supervisor.start, ready]

end Fleet

end Purser.Agent
