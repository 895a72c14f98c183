import Purser.AgentNodeStates
import Purser.AgentSupervisor
import Purser.TransitionRuns

/-!
# The supervise tasks of an agent

A start spawns a task that launches the engine, forwards its events, polls its
metrics and starts it again after a crash.  Tasks and stops share one record and
take turns: each runs from one await to the next.  What they wait for comes from
outside.
-/

namespace Purser.Agent

open ControlPlane (NodeState)
open Orchestrator (EngineEventKind)
open Planner (Role)

structure EngineMetrics where
  prefillTokS : ℚ := 0
  decodeTokS : ℚ := 0
  ramUsedGB : ℚ := 0
  vramUsedGB : ℚ := 0
  queueDepth : ℕ := 0
  acceptedTokensRatio : ℚ := 0
  deriving DecidableEq

structure EngineEvent where
  kind : EngineEventKind
  detail : String
  metrics : Option EngineMetrics := none
  deriving DecidableEq

inductive EngineError where
  | startFailed (detail : String)
  | unknownHandle (detail : String)
  | crashed (detail : String)
  | notReady (detail : String)
  | invalidArgument (detail : String)
  | unavailable (detail : String)
  | timeout (what : String) (elapsedMs : ℕ)
  | internal (detail : String)
  deriving DecidableEq

def EngineError.text : EngineError → String
  | .startFailed detail => s!"failed to start engine: {detail}"
  | .unknownHandle detail => s!"unknown or expired engine handle: {detail}"
  | .crashed detail => s!"engine crashed: {detail}"
  | .notReady detail => s!"engine not ready: {detail}"
  | .invalidArgument detail => s!"invalid argument: {detail}"
  | .unavailable detail => s!"backend unavailable: {detail}"
  | .timeout what elapsedMs => s!"timed out waiting for {what} after {elapsedMs} ms"
  | .internal detail => s!"internal engine error: {detail}"

structure EngineParams where
  draftBlockLen : Option ℕ := none
  pipeDepth : Option ℕ := none
  pipeFill : Option ℚ := none
  context : ℕ := 0
  extra : List (String × String) := []
  flashAttn : Bool := false
  deriving DecidableEq

structure EngineSpec where
  modelRef : String
  role : Role
  layerStart : ℕ := 0
  layerEnd : ℕ := 0
  peers : List String := []
  bindAddr : String := "127.0.0.1:0"
  params : EngineParams := {}
  modelPath : Option String := none
  deriving DecidableEq

inductive Launch where
  | startWorker (layerStart layerEnd : ℕ) (modelRef bindAddr : String)
  | startHost (modelRef : String) (workerAddrs : List String) (params : EngineParams)

def EngineSpec.launch (spec : EngineSpec) : Launch :=
  match spec.role with
  | .worker => .startWorker spec.layerStart spec.layerEnd spec.modelRef spec.bindAddr
  | _ => .startHost (spec.modelPath.getD spec.modelRef) spec.peers spec.params

structure Engine where
  id : String
  generation : ℕ
  launch : Launch
  live : Bool := true

/-- The stream of merged events: what the caller has not read yet, and whether
it still holds the receiving end. -/
structure EventChannel where
  queue : List EngineEvent := []
  held : Bool := true
  deriving DecidableEq

namespace EventChannel

def capacity : ℕ := 64

/-- A send waits while the channel is full, and fails once the receiver is
gone. -/
def send (channel : EventChannel) (event : EngineEvent) : Option (EventChannel × Bool) :=
  if channel.held = false then some (channel, false)
  else if channel.queue.length < capacity then
    some ({ channel with queue := channel.queue ++ [event] }, true)
  else none

/-- `try_send`, whose failures are ignored. -/
def offer (channel : EventChannel) (event : EngineEvent) : EventChannel :=
  match channel.send event with
  | some (next, _) => next
  | none => channel

end EventChannel

structure Shared where
  latestMetrics : Option EngineMetrics := none
  handle : Option String := none
  phase : EnginePhase := .idle
  inference : Option ℕ := none
  endpoint : Option String := none
  stopping : Bool := false
  generation : ℕ := 0

/-- The restart cap of the policy, and the port of the mock inference server if
the agent runs one. -/
structure Settings where
  maxConsecutiveFailures : Option ℕ := some 8
  mockInferencePort : Option ℕ := none

/-- What the tasks and calls of an agent share with each other, with the
heartbeat monitor and with the backend. -/
structure Node where
  shared : Shared := {}
  machine : NodeStateMachine := {}
  watchdog : HeartbeatWatchdog := .new 3
  engines : List Engine := []

namespace Node

variable (node : Node) (generation : ℕ)

def setPhase (phase : EnginePhase) : Node :=
  { node with shared := { node.shared with phase := phase } }

def setMetrics (metrics : EngineMetrics) : Node :=
  { node with shared := { node.shared with latestMetrics := some metrics } }

def setHandle (handle : Option String) : Node :=
  { node with shared := { node.shared with handle := handle } }

def setEndpoint (endpoint : Option String) : Node :=
  { node with shared := { node.shared with endpoint := endpoint } }

def setInference (inference : Option ℕ) : Node :=
  { node with shared := { node.shared with inference := inference } }

def driveState (target : NodeState) : Node :=
  { node with machine := node.machine.orKeep (node.machine.transition target) }

def superseded : Bool := node.shared.generation ≠ generation

def interrupted : Bool :=
  node.superseded generation || node.shared.stopping

def engineNodeState : NodeState :=
  match node.shared.phase with
  | .idle | .stopped => .ready
  | .loading => .loading
  | .running => .running
  | .crashed | .failed => .degraded

def composedNodeState : NodeState :=
  match node.machine.current with
  | .provisioning | .enrolled | .draining | .unreachable | .decommissioned =>
    node.machine.current
  | _ => node.engineNodeState

def live : List Engine := node.engines.filter (·.live)

def addEngine (engine : Engine) : Node :=
  { node with engines := node.engines ++ [engine] }

/-- The engine is stopped, or has exited. -/
def haltEngine (id : String) : Node :=
  { node with engines := node.engines.map fun engine =>
      if engine.id = id then { engine with live := false } else engine }

end Node

/-- Where a supervise task waits.  `woken` says that a stop has notified the
task since it began to wait. -/
inductive Await where
  /-- spawned, and not polled yet -/
  | scheduled
  /-- the backend launches the engine -/
  | launching
  /-- the previous inference server shuts down, so that its port is free -/
  | freeingPort (handle endpoint : String)
  | binding (handle endpoint : String)
  /-- `pump` waits for an event -/
  | receiving (handle : String) (sawReady woken : Bool)
  /-- `pump` sends an event on -/
  | forwarding (handle : String) (sawReady : Bool) (event : EngineEvent)
  /-- `monitor` sleeps until the next poll -/
  | resting (handle : String) (woken : Bool)
  | polling (handle : String)
  /-- the caller is told that the start failed or that `monitor` saw a crash -/
  | reporting (event : EngineEvent) (wasReady : Bool)
  /-- the inference server of an engine that is given up shuts down -/
  | closing
  | givingUp (event : EngineEvent)
  | announcing (event : EngineEvent)
  | backingOff (woken : Bool)
  | finished
  deriving DecidableEq

structure Task where
  generation : ℕ
  spec : EngineSpec
  attempt : ℕ := 0
  awaits : Await := .scheduled
  out : EventChannel := {}
  deriving DecidableEq

/-- What a backend gives for a launch; the endpoint is that of a host. -/
structure Started where
  handle : String
  endpoint : String := ""
  deriving DecidableEq

/-- What a task was waiting for. -/
inductive Input where
  | polled
  | launched (answer : Except EngineError Started)
  | shutDown
  | bound (answer : Except String ℕ)
  | event (event : EngineEvent)
  | closed
  | notified
  | elapsed
  | metrics (answer : Except EngineError EngineMetrics)
  | sent
  deriving DecidableEq

/-- What the clock says when a task goes on: whether an engine that was ready
has been so for the stability window, and the jittered delay of a restart. -/
structure Clock where
  stable : Bool := false
  delayMs : ℕ := 0

def errEvent (detail : String) : EngineEvent := ⟨.error, detail, none⟩

def loadingEvent (detail : String) : EngineEvent := ⟨.loading, detail, none⟩

def metricsEvent (metrics : EngineMetrics) : EngineEvent :=
  ⟨.metrics, "metrics sample", some metrics⟩

namespace Task

variable (settings : Settings) (node : Node) (task : Task)

/-- The end of `supervise`. -/
def leave : Node × Task :=
  (if node.shared.stopping then (node.setPhase .stopped).driveState .ready else node,
    { task with awaits := .finished })

/-- The head of the supervise loop. -/
def iterate : Node × Task :=
  if node.interrupted task.generation then task.leave node
  else ((node.setPhase .loading).driveState .loading, { task with awaits := .launching })

/-- A crash after a stable run does not count as part of a crash loop. -/
def attemptAfter (wasReady : Bool) (clock : Clock) : ℕ :=
  if wasReady && clock.stable then 0 else task.attempt

/-- The part of the supervise loop that decides on a restart. -/
def restart (wasReady : Bool) (clock : Clock) : Node × Task :=
  let attempt := task.attemptAfter wasReady clock
  if settings.maxConsecutiveFailures.any (· ≤ attempt + 1) then
    (((node.setPhase .failed).driveState .degraded).setInference none,
      { task with attempt := attempt, awaits := .closing })
  else
    ((node.setPhase .crashed).driveState .degraded,
      { task with
        attempt := attempt
        awaits := .announcing (loadingEvent
          s!"restarting in {clock.delayMs} ms (attempt {attempt + 1})") })

/-- A crash leads to a restart unless the task was stopped or superseded. -/
def crash (wasReady : Bool) (clock : Clock) : Node × Task :=
  if node.interrupted task.generation then task.leave node
  else task.restart settings node wasReady clock

variable (handle : String) (sawReady : Bool) (event : EngineEvent) (clock : Clock)

def pump : Node × Task :=
  (node.setHandle (some handle), { task with awaits := .receiving handle false false })

def monitor : Node × Task :=
  if node.interrupted task.generation then task.leave node
  else (node, { task with awaits := .resting handle false })

def launched (started : Started) : Node × Task :=
  let engine : Engine := ⟨started.handle, task.generation, task.spec.launch, true⟩
  match task.spec.role, settings.mockInferencePort with
  | .worker, _ => task.pump (node.addEngine engine) started.handle
  | _, none =>
    task.pump ((node.addEngine engine).setEndpoint (some started.endpoint)) started.handle
  | _, some _ =>
    ((node.addEngine engine).setInference none,
      { task with awaits := .freeingPort started.handle started.endpoint })

/-- What `start_mock_inference` makes of the bind. -/
def serving (endpoint : String) : Except String ℕ → Node
  | .ok port =>
    (node.setInference (some port)).setEndpoint (some s!"http://127.0.0.1:{port}")
  | .error _ => node.setEndpoint (some endpoint)

def received : Node × Task :=
  let sampled := event.metrics.elim node node.setMetrics
  match event.kind with
  | .loading =>
    (sampled.setPhase .loading, { task with awaits := .forwarding handle sawReady event })
  | .ready =>
    ((sampled.setPhase .running).driveState .running,
      { task with awaits := .forwarding handle true event })
  | .error =>
    (sampled.setPhase .crashed, { task with awaits := .forwarding handle sawReady event })
  | _ => (sampled, { task with awaits := .forwarding handle sawReady event })

/-- `pump` has sent an event on, or has found that the caller is gone. -/
def forwarded (delivered : Bool) : Node × Task :=
  if delivered = false then task.leave node
  else if event.kind = .error then task.crash settings node false clock
  else (node, { task with awaits := .receiving handle sawReady false })

def sampled : Except EngineError EngineMetrics → Node × Task
  | .ok metrics =>
    { task with out := task.out.offer (metricsEvent metrics) }.monitor
      (node.setMetrics metrics) handle
  | .error (.notReady _) => task.monitor node handle
  | .error (.unavailable _) => task.leave node
  | .error (.crashed detail) =>
    (node.setPhase .crashed,
      { task with awaits := .reporting (errEvent s!"engine crashed: {detail}") true })
  | .error problem =>
    (node, { task with
      awaits := .reporting (errEvent s!"metrics unavailable: {problem.text}") true })

def resume (input : Input) : Option (Node × Task) :=
  match task.awaits, input with
  | .scheduled, .polled => some (task.iterate node)
  | .launching, .launched (.ok started) =>
    -- a handle is unique within its backend
    if node.engines.any (·.id = started.handle) then none
    else some (task.launched settings node started)
  | .launching, .launched (.error problem) =>
    some (node, { task with
      awaits := .reporting (errEvent s!"start failed: {problem.text}") false })
  | .freeingPort handle endpoint, .shutDown =>
    some (node.setEndpoint none, { task with awaits := .binding handle endpoint })
  | .binding handle endpoint, .bound answer =>
    some (task.pump (serving node endpoint answer) handle)
  | .receiving handle sawReady _, .event event =>
    some (task.received node handle sawReady event)
  | .receiving handle true _, .closed => some (task.monitor node handle)
  | .receiving _ false _, .closed => some (task.crash settings node false clock)
  | .receiving handle sawReady true, .notified =>
    if node.shared.stopping then some (task.leave node)
    else some (node, { task with awaits := .receiving handle sawReady false })
  | .forwarding handle sawReady event, .sent =>
    (task.out.send event).map fun (out, delivered) =>
      { task with out := out }.forwarded settings node handle sawReady event clock delivered
  | .resting handle _, .elapsed | .resting handle true, .notified =>
    if node.interrupted task.generation then some (task.leave node)
    else some (node, { task with awaits := .polling handle })
  | .polling handle, .metrics answer => some (task.sampled node handle answer)
  | .reporting event wasReady, .sent =>
    (task.out.send event).map fun (out, _) =>
      { task with out := out }.crash settings node wasReady clock
  | .closing, .shutDown =>
    some (node.setEndpoint none, { task with
      awaits := .givingUp (errEvent
        s!"giving up after {task.attempt + 1} consecutive failures (crash loop)") })
  | .givingUp event, .sent =>
    (task.out.send event).map fun (out, _) => { task with out := out }.leave node
  | .announcing event, .sent =>
    (task.out.send event).map fun (out, _) =>
      (node, { task with out := out, awaits := .backingOff false })
  | .backingOff _, .elapsed | .backingOff true, .notified =>
    if node.interrupted task.generation then some (task.leave node)
    else some ({ task with attempt := task.attempt + 1 }.iterate node)
  | _, _ => none

/-- `notify_waiters` reaches the tasks that wait in a `select!`. -/
def wake : Task :=
  match task.awaits with
  | .receiving handle sawReady _ => { task with awaits := .receiving handle sawReady true }
  | .resting handle _ => { task with awaits := .resting handle true }
  | .backingOff _ => { task with awaits := .backingOff true }
  | _ => task

end Task

inductive StopAwait where
  /-- there was no engine: the inference server shuts down -/
  | closingIdle
  | stopping (handle : String)
  /-- the engine is given time to settle -/
  | settling (handle status : String)
  /-- the forced stop after the grace window -/
  | escalating (handle status : String)
  | closing (status : String)
  | returned (status : String)
  deriving DecidableEq

def StopAwait.pending : StopAwait → Bool
  | .returned _ => false
  | _ => true

inductive StopInput where
  | shutDown
  | stopped (answer : Except EngineError String)
  | settled
  | graceElapsed
  deriving DecidableEq

def StopAwait.resume (node : Node) : StopAwait → StopInput → Option (Node × StopAwait)
  | .closingIdle, .shutDown =>
    some ((node.setEndpoint none).setPhase .stopped, .returned "no engine running")
  | .stopping handle, .stopped answer =>
    let status := match answer with
      | .ok status => status
      | .error problem => s!"stop error: {problem.text}"
    some (node.haltEngine handle, .settling handle status)
  | .settling _ status, .settled => some (node.setInference none, .closing status)
  | .settling handle status, .graceElapsed => some (node, .escalating handle status)
  | .escalating handle status, .stopped _ =>
    some ((node.haltEngine handle).setInference none, .closing status)
  | .closing status, .shutDown =>
    some (((node.setEndpoint none).setPhase .stopped).setHandle none, .returned status)
  | _, _ => none

structure AgentState where
  node : Node := {}
  tasks : List Task := []
  calls : List StopAwait := []

/-- What `StartEngine` gets to know before it starts: the path of the model in
the cache, and the port the system has allocated. -/
structure StartRequest where
  modelRef : String
  role : Role
  layerStart : ℕ := 0
  layerEnd : ℕ := 0
  peers : List String := []
  params : Option EngineParams := none
  cached : Option String := none
  port : Except String ℕ

def StartRequest.spec (request : StartRequest) (port : ℕ) : EngineSpec where
  modelRef := request.modelRef
  role := request.role
  layerStart := request.layerStart
  layerEnd := request.layerEnd
  peers := request.peers
  bindAddr := s!"0.0.0.0:{port}"
  params := request.params.getD {}
  modelPath := request.cached

inductive Action where
  | start (spec : EngineSpec)
  | stop (handleID : String)
  | startEngine (request : StartRequest)
  | drain
  /-- the agent has enrolled with the control plane -/
  | join
  | heartbeatMiss
  | heartbeatAck
  | resumeStop (call : ℕ) (input : StopInput)
  | resumeTask (index : ℕ) (clock : Clock) (input : Input)
  /-- the engine exits by itself -/
  | exit (id : String)
  /-- the caller of a start reads an event, or drops its stream -/
  | read (index : ℕ)
  | drop (index : ℕ)

namespace AgentState

variable (settings : Settings) (agent : AgentState)

def start (spec : EngineSpec) : AgentState :=
  let generation := agent.node.shared.generation + 1
  { agent with
    node := { agent.node with
      shared := { agent.node.shared with
        generation := generation
        stopping := false
        handle := none
        phase := .loading } }
    tasks := agent.tasks ++ [{ generation := generation, spec := spec }] }

/-- `Supervisor::stop`, up to its first await.  A handle that differs from the
stored one is only logged. -/
def stop : AgentState :=
  let node := { agent.node with shared := { agent.node.shared with stopping := true } }
  let tasks := agent.tasks.map Task.wake
  match agent.node.shared.handle with
  | none =>
    { node := node.setInference none, tasks := tasks, calls := agent.calls ++ [.closingIdle] }
  | some handle =>
    { node := node, tasks := tasks, calls := agent.calls ++ [.stopping handle] }

def startEngine (request : StartRequest) : AgentState :=
  let ready := { agent with
    node := { agent.node with machine := agent.node.machine.fastForward } }
  match request.port with
  | .ok port => ready.start (request.spec port)
  | .error _ => ready

def drain : AgentState := { agent with node := agent.node.driveState .draining }.stop

def updateNode (node : Node) : AgentState := { agent with node := node }

def updateStream (index : ℕ) (change : EventChannel → EventChannel) : Option AgentState :=
  agent.tasks[index]?.map fun task =>
    { agent with tasks := agent.tasks.set index { task with out := change task.out } }

def step : Action → Option AgentState
  | .start spec => some (agent.start spec)
  | .stop _ => some agent.stop
  | .startEngine request => some (agent.startEngine request)
  | .drain => some agent.drain
  | .join =>
    let enrolled := agent.node.driveState .enrolled
    some (agent.updateNode (enrolled.driveState .ready))
  | .heartbeatMiss =>
    let (watchdog, machine) := onHeartbeatMiss agent.node.watchdog agent.node.machine
    some (agent.updateNode { agent.node with watchdog := watchdog, machine := machine })
  | .heartbeatAck =>
    let (watchdog, machine) := onHeartbeatAck agent.node.watchdog agent.node.machine
    some (agent.updateNode { agent.node with watchdog := watchdog, machine := machine })
  | .resumeStop call input => do
      let waiting ← agent.calls[call]?
      let (node, next) ← waiting.resume agent.node input
      return { agent with node := node, calls := agent.calls.set call next }
  | .resumeTask index clock input => do
      let task ← agent.tasks[index]?
      let (node, next) ← task.resume settings agent.node clock input
      return { agent with node := node, tasks := agent.tasks.set index next }
  | .exit id => some (agent.updateNode (agent.node.haltEngine id))
  | .read index => agent.updateStream index fun channel =>
    { channel with queue := channel.queue.tail }
  | .drop index => agent.updateStream index fun channel => { channel with held := false }

end AgentState

end Purser.Agent
