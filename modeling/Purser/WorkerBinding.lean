import Purser.OrchestratorRollback
import Purser.SocketAddresses

/-!
# Where a worker listens

The agent hands every engine a free port on the wildcard address, where the
llama.cpp adapter refuses to start its worker.
-/

namespace Purser.LlamaCpp

open Orchestrator InteractionPrograms Program List
open SocketAddresses TextFormatting

def addressBits : IpAddr → ℕ
  | .v4 _ => 32
  | .v6 _ => 128

structure Cidr where
  base : IpAddr
  prefixLength : ℕ
  inRange : prefixLength ≤ addressBits base

def mask (width prefixLength : ℕ) : BitVec width :=
  if prefixLength = 0 then 0
  else if width ≤ prefixLength then BitVec.allOnes width
  else BitVec.allOnes width <<< (width - prefixLength)

/-- Addresses of different families never overlap. -/
def Cidr.contains (block : Cidr) (ip : IpAddr) : Bool :=
  match block.base, ip with
  | .v4 base, .v4 ip =>
    (base &&& mask 32 block.prefixLength) == (ip &&& mask 32 block.prefixLength)
  | .v6 base, .v6 ip =>
    (base &&& mask 128 block.prefixLength) == (ip &&& mask 128 block.prefixLength)
  | _, _ => false

inductive EngineError where
  | startFailed (detail : String)
  | invalidArgument (detail : String)

def EngineError.text : EngineError → String
  | .startFailed detail => "failed to start engine: " ++ detail
  | .invalidArgument detail => "invalid argument: " ++ detail

def wildcardProblem (ip : IpAddr) : String :=
  "rpc-server must never bind to the wildcard address (" ++ ip.text ++
    "); it is unsandboxed and would be exposed on every interface. Bind it to " ++
    "a concrete address inside the trusted subnet."

def validateWorkerBind (bindAddr : String) (trusted : List Cidr) : Except EngineError SocketAddr :=
  match parseSocketAddr bindAddr with
  | none =>
    .error (.invalidArgument ("worker bind_addr " ++ debugQuoted bindAddr ++
      " must be a literal ip:port (hostnames are not allowed for the " ++
      "unsandboxed rpc-server)"))
  | some addr =>
    if addr.ip.isUnspecified then
      .error (.invalidArgument (wildcardProblem addr.ip))
    else if trusted.any (·.contains addr.ip) then .ok addr
    else
      .error (.invalidArgument ("rpc-server bind ip " ++ addr.ip.text ++
        " is not inside any trusted subnet; refusing to expose the " ++
        "unsandboxed compute worker. Add the subnet to " ++
        "PURSER_LLAMACPP_TRUSTED_SUBNETS to opt in."))

structure WorkerLaunch where
  addr : SocketAddr
  args : List String

def buildWorkerArgs (bind : SocketAddr) : List String :=
  ["-H", bind.ip.text, "-p", toString bind.port]

def startWorker (trusted : List Cidr) (layerStart layerEnd : ℕ)
    (modelRef bindAddr : String) : Except EngineError WorkerLaunch :=
  if layerEnd < layerStart then
    .error (.invalidArgument ("layer_end (" ++ toString layerEnd ++
      ") < layer_start (" ++ toString layerStart ++ ")"))
  else if modelRef = "" then .error (.invalidArgument "empty model_ref")
  else if bindAddr = "" then .error (.invalidArgument "empty bind_addr")
  else do
    let addr ← validateWorkerBind bindAddr trusted
    return ⟨addr, buildWorkerArgs addr⟩

/-- A port that the operating system hands out. -/
abbrev Port := { port : ℕ // port < 2 ^ 16 }

def engineBindAddr (port : Port) : String := "0.0.0.0:" ++ toString port.1

/-- The wildcard address is refused on every port, whatever is trusted. -/
theorem validateWorkerBind_engineBindAddr (port : Port) (trusted : List Cidr) :
    validateWorkerBind (engineBindAddr port) trusted =
      .error (.invalidArgument (wildcardProblem (.v4 0))) := by
  rw [validateWorkerBind, engineBindAddr, parseSocketAddr_unspecified port.2]
  rfl

theorem startWorker_engineBindAddr (trusted : List Cidr) (layerStart layerEnd : ℕ)
    (modelRef : String) (port : Port) :
    ∃ problem, startWorker trusted layerStart layerEnd modelRef
      (engineBindAddr port) = .error problem := by
  unfold startWorker
  rw [validateWorkerBind_engineBindAddr]
  split
  · exact ⟨_, rfl⟩
  · split
    · exact ⟨_, rfl⟩
    · split <;> exact ⟨_, rfl⟩

def firstEvent : StartAnswer → Option (EngineEventKind × String)
  | .opened (.event kind detail :: _) => some (kind, detail)
  | _ => none

/-- What an agent with the llama.cpp adapter may answer to a start, given the
port it draws.  Without a port the call fails; a worker that cannot be started
is reported as an error; an engine that was launched may do anything. -/
def Answers (trusted : List Cidr) (drawn : Except String Port)
    (request : StartEngineRequest) (answer : StartAnswer) : Prop :=
  match drawn with
  | .error _ => firstEvent answer = none
  | .ok port =>
    request.role = .worker → ∀ problem,
      startWorker trusted request.layerStart request.layerEnd
          request.modelRef (engineBindAddr port) = .error problem →
        ∀ event ∈ firstEvent answer, event = (.error, "start failed: " ++ problem.text)

structure AgentStart (trusted : String → List Cidr) where
  start : Start
  drawn : Except String Port
  answered : Answers (trusted start.addr) drawn start.request start.answer

variable {trusted : String → List Cidr}

namespace AgentStart

def bindAddr (agentStart : AgentStart trusted) : Option String :=
  if agentStart.start.request.role = .worker then
    agentStart.drawn.toOption.map engineBindAddr
  else none

/-- The address on which the worker's process was told to listen. -/
def listensOn (agentStart : AgentStart trusted) : Option SocketAddr :=
  agentStart.bindAddr.bind fun bindAddr =>
    (startWorker (trusted agentStart.start.addr)
      agentStart.start.request.layerStart agentStart.start.request.layerEnd
      agentStart.start.request.modelRef bindAddr).toOption.map WorkerLaunch.addr

theorem waitReady_of_firstEvent {addr : String} {answer : StartAnswer}
    (failed : ∀ event ∈ firstEvent answer, event.1 = .error) :
    ∃ cause, waitReady addr answer = .error cause := by
  cases answer with
  | refused => exact ⟨_, rfl⟩
  | opened items =>
    cases items with
    | nil => exact ⟨_, rfl⟩
    | cons item =>
      cases item with
      | event kind detail =>
        obtain rfl : kind = .error := failed (kind, detail) rfl
        exact ⟨_, rfl⟩
      | readError | closed | contextDone => exact ⟨_, rfl⟩

theorem worker_not_ready (agentStart : AgentStart trusted)
    (worker : agentStart.start.request.role = .worker) : agentStart.start.readyEngine = none := by
  have failed : ∀ event ∈ firstEvent agentStart.start.answer, event.1 = .error := by
    have answered := agentStart.answered
    cases drawn : agentStart.drawn with
    | error =>
      rw [drawn] at answered
      intro event member
      rw [show firstEvent agentStart.start.answer = none from answered] at member
      cases member
    | ok port =>
      rw [drawn] at answered
      obtain ⟨problem, refused⟩ := startWorker_engineBindAddr
        (trusted agentStart.start.addr) agentStart.start.request.layerStart
        agentStart.start.request.layerEnd agentStart.start.request.modelRef
        port
      intro event member
      rw [answered worker problem refused event member]
  obtain ⟨cause, notReady⟩ := @waitReady_of_firstEvent agentStart.start.addr _ failed
  simp [Start.readyEngine, notReady, Except.toOption]

end AgentStart

/-- The start commands of a run: workers that became ready, and then at most one
further start, of a worker or of the host. -/
structure StartsAs (plan : DeploymentPlan) (ready : List ReadyEngine)
    (last : List Start) : Prop where
  single : last.length ≤ 1
  workers : ∀ engine ∈ ready, engine.step.request.role = .worker
  lastStart : ∀ start ∈ last, start.request.role = .worker ∨
    start.request.role = .host ∧
      start.request.peers = ready.map ReadyEngine.peerAddr ∧
      ready.length = (plan.assignments.filter (·.role = .worker)).length

variable {plan : DeploymentPlan} {workers : List Assignment} {ready : List ReadyEngine}

theorem role_of_worker_steps {steps : List LaunchStep}
    (stepsEq : workers.map (workerStep plan) = steps) :
    ∀ step ∈ steps, step.request.role = .worker := by
  intro step member
  rw [← stepsEq] at member
  obtain ⟨worker, -, rfl⟩ := mem_map.mp member
  rfl

theorem startsAs_nil (plan : DeploymentPlan) : StartsAs plan [] [] := ⟨by simp, by simp, by simp⟩

theorem startsAs_failed {host : Assignment} {step : LaunchStep}
    (workersEq : workers = plan.assignments.filter (·.role = .worker))
    (next : IsNextStep plan workers host ready step) {starts : List Start}
    (short : starts.length ≤ 1) (requests : ∀ start ∈ starts, start.request = step.request) :
    StartsAs plan ready starts := by
  refine ⟨short, ?_, ?_⟩
  · intro engine member
    have stepMember : engine.step ∈ ready.map ReadyEngine.step := mem_map_of_mem member
    rcases next with ⟨later, stepsEq⟩ | ⟨stepsEq, -⟩
    · exact role_of_worker_steps stepsEq _ (mem_append_left _ stepMember)
    · exact role_of_worker_steps stepsEq _ stepMember
  · intro start member
    rw [requests start member]
    rcases next with ⟨later, stepsEq⟩ | ⟨stepsEq, rfl⟩
    · exact Or.inl (role_of_worker_steps stepsEq _ (by simp))
    · refine Or.inr ⟨rfl, rfl, ?_⟩
      rw [← workersEq]
      simpa using (congrArg List.length stepsEq).symm

theorem startsAs_active {host : Assignment} {hostEngine : ReadyEngine}
    (workersEq : workers = plan.assignments.filter (·.role = .worker))
    (allReady : workers.map (workerStep plan) = ready.map ReadyEngine.step)
    (hostReady : hostEngine.step = hostStep plan host (ready.map ReadyEngine.peerAddr)) :
    StartsAs plan ready [hostEngine.start] := by
  refine ⟨by simp, ?_, ?_⟩
  · intro engine member
    exact role_of_worker_steps allReady _ (mem_map_of_mem member)
  · intro start member
    obtain rfl := mem_singleton.mp member
    refine Or.inr ?_
    rw [ReadyEngine.start, hostReady]
    refine ⟨rfl, rfl, ?_⟩
    rw [← workersEq]
    simpa using (congrArg List.length allReady).symm

theorem startsOf_activeTrace (depID : String) (plan : DeploymentPlan) (host : Assignment)
    (ready : List ReadyEngine) (hostEngine : ReadyEngine)
    (opened updated audited published : Option String) :
    startsOf (activeTrace depID plan host ready hostEngine opened updated audited published) =
      ready.map ReadyEngine.start ++ [hostEngine.start] := by
  have finished : startsOf (successExchanges depID plan host
      hostEngine.endpoint ((ready ++ [hostEngine]).map ReadyEngine.ref)
      updated audited published) = [] := rfl
  have launched := congrArg Observations.starts (observe_ready (ready ++ [hostEngine]))
  change startsOf _ = (ready ++ [hostEngine]).map ReadyEngine.start at launched
  unfold startsOf at launched finished ⊢
  rw [activeTrace, filterMap_append, filterMap_append, launched, finished, map_append, append_nil]
  rfl

theorem startsAs_apply {agentsConfigured : Bool} {depID : String} {trace : Trace}
    {result : ApplyResult} (produced :
      (apply agentsConfigured depID (some plan)).Produces trace result) :
    ∃ ready last, startsOf trace = ready.map ReadyEngine.start ++ last ∧
      StartsAs plan ready last := by
  rcases apply_run produced with
    ⟨problem, _, rfl, _⟩ | ⟨accepted, workers, host, checked, run⟩
  · exact ⟨[], [], rfl, startsAs_nil plan⟩
  obtain ⟨planEq, workersEq, -⟩ := checkPlan_eq_ok checked
  obtain rfl : plan = accepted := Option.some.inj planEq
  cases run with
  | notCreated => exact ⟨[], [], rfl, startsAs_nil plan⟩
  | failed ready step attempt stops failure opened updated audited next
      attempted stopped =>
      obtain ⟨starts, further, shows, short, requests, -⟩ := shows_failedTrace rfl attempted stopped
      refine ⟨ready, starts, shows.starts, startsAs_failed workersEq next ?_ ?_⟩
      · have sameLength := congrArg List.length requests
        simp only [length_map] at sameLength
        omega
      · intro start member
        have pair := mem_map_of_mem (f := fun start : Start => (start.addr, start.request)) member
        rw [requests] at pair
        obtain ⟨endpoint, -, same⟩ := mem_map.mp pair
        exact (congrArg Prod.snd same).symm
  | active ready hostEngine _ _ _ _ allReady hostReady =>
    exact ⟨ready, [hostEngine.start], startsOf_activeTrace _ _ _ _ _ _ _ _ _,
      startsAs_active workersEq allReady hostReady⟩

/-- Every peer of the host is the address on which the worker's process was told
to listen, and every address passed to the adapter could be accepted. -/
structure AddressesMeet {trusted : String → List Cidr}
    (starts : List (AgentStart trusted)) : Prop where
  peers : ∀ before host later, starts = before ++ host :: later →
    host.start.request.role = .host →
    List.Forall₂ (fun worker peer => ∃ addr,
        worker.listensOn = some addr ∧ parseSocketAddr peer = some addr)
      (before.filter (·.start.request.role = .worker)) host.start.request.peers
  accepted : ∀ agentStart ∈ starts, ∀ bindAddr ∈ agentStart.bindAddr,
    ∃ subnets addr, validateWorkerBind bindAddr subnets = .ok addr

/-- No worker of the run became ready: an agent with the adapter would have
started it. -/
theorem StartsAs.ready_eq_nil {last : List Start}
    (form : StartsAs plan ready last) {starts : List (AgentStart trusted)}
    (ran : starts.map AgentStart.start = ready.map ReadyEngine.start ++ last) : ready = [] := by
  cases ready with
  | nil => rfl
  | cons engine =>
    have member : engine.start ∈ starts.map AgentStart.start := by
      rw [ran]
      exact mem_cons_self
    obtain ⟨agentStart, -, same⟩ := mem_map.mp member
    have notReady := agentStart.worker_not_ready (by
      rw [same]
      exact form.workers engine mem_cons_self)
    rw [same] at notReady
    simp [Start.readyEngine, ReadyEngine.start, engine.ready, Except.toOption] at notReady

/-- On llama.cpp agents the addresses meet exactly when no agent came as far as
starting a worker.  The host of a plan with workers is never started. -/
theorem worker_addresses_meet_iff {agentsConfigured : Bool} {depID : String} {plan : DeploymentPlan}
    {trace : Trace} {result : ApplyResult}
    (produced : (apply agentsConfigured depID (some plan)).Produces trace result)
    {starts : List (AgentStart trusted)} (ran : startsOf trace = starts.map AgentStart.start) :
    (AddressesMeet starts ↔ ∀ agentStart ∈ starts, agentStart.bindAddr = none) ∧
      ((∃ shard ∈ plan.assignments, shard.role = .worker) →
        ∀ agentStart ∈ starts, agentStart.start.request.role ≠ .host) := by
  obtain ⟨ready, last, startsEq, form⟩ := startsAs_apply produced
  rw [ran] at startsEq
  obtain rfl := form.ready_eq_nil startsEq
  have lastEq : starts.map AgentStart.start = last := startsEq
  have single : starts.length ≤ 1 := by
    rw [← length_map (f := AgentStart.start), lastEq]
    exact form.single
  have hostStarts : ∀ agentStart ∈ starts,
      agentStart.start.request.role = .host →
        agentStart.start.request.peers = [] ∧
          0 = (plan.assignments.filter (·.role = .worker)).length := by
    intro agentStart member isHost
    rcases form.lastStart agentStart.start
      (lastEq ▸ mem_map_of_mem member) with isWorker | ⟨-, peersEq, counted⟩
    · rw [isWorker] at isHost
      cases isHost
    · exact ⟨peersEq, counted⟩
  refine ⟨⟨?_, ?_⟩, ?_⟩
  · intro meet agentStart member
    have accepted := meet.accepted agentStart member
    by_contra passed
    obtain ⟨bindAddr, passedEq⟩ := Option.ne_none_iff_exists'.mp passed
    obtain ⟨subnets, addr, valid⟩ := accepted bindAddr passedEq
    unfold AgentStart.bindAddr at passedEq
    split at passedEq
    · obtain ⟨port, -, rfl⟩ := Option.map_eq_some_iff.mp passedEq
      rw [validateWorkerBind_engineBindAddr] at valid
      cases valid
    · cases passedEq
  · intro unpassed
    constructor
    · intro before host later split isHost
      obtain rfl : before = [] := by
        rw [split] at single
        simp only [length_append, length_cons] at single
        exact eq_nil_of_length_eq_zero (by omega)
      rw [(hostStarts host (by simp [split]) isHost).1]
      exact List.Forall₂.nil
    · intro agentStart member bindAddr passed
      rw [unpassed agentStart member] at passed
      cases passed
  · rintro ⟨shard, shardMember, isWorker⟩ agentStart member isHost
    have counted := (hostStarts agentStart member isHost).2
    have inFilter : shard ∈ plan.assignments.filter (·.role = .worker) :=
      mem_filter.mpr ⟨shardMember, by simpa using isWorker⟩
    rw [eq_nil_of_length_eq_zero counted.symm] at inFilter
    cases inFilter

def answeredRun (answer : StartAnswer) : Trace × ApplyResult :=
  (apply true "dep-1" (some pairPlan)).run (respondWith fun _ => answer) []

def workerStart (answer : StartAnswer) : Start where
  addr := "a:50151"
  request :=
    { modelRef := "model"
      role := .worker
      layerStart := 4
      layerEnd := 7
      quantization := "q4"
      draft := true }
  answer := answer

def wildcardRefused : StartAnswer := .opened [.event .error ("start failed: " ++
    (EngineError.invalidArgument (wildcardProblem (.v4 0))).text)]

theorem answers_wildcardRefused (trusted : List Cidr) :
    Answers trusted (.ok ⟨40000, by decide⟩) (workerStart wildcardRefused).request
      wildcardRefused := by
  intro _ problem refused event member
  have computed : startWorker trusted 4 7 "model"
      (engineBindAddr ⟨40000, by decide⟩) =
      .error (.invalidArgument (wildcardProblem (.v4 0))) := by
    rfl
  obtain rfl := Except.error.inj (computed.symm.trans refused)
  exact (Option.some.inj member).symm

def privateNetwork : Cidr where
  base := .v4 0x0a000000
  prefixLength := 8
  inRange := by decide

/-- A plan of a worker and a host fails on llama.cpp agents: the worker is told to
bind the wildcard address, which its adapter refuses. -/
theorem worker_bind_refused :
    (apply true "dep-1" (some pairPlan)).Produces (answeredRun wildcardRefused).1
        (answeredRun wildcardRefused).2 ∧
      (answeredRun wildcardRefused).2.error ≠ none ∧
      ∃ starts : List (AgentStart fun _ => [privateNetwork]),
        startsOf (answeredRun wildcardRefused).1 = starts.map AgentStart.start ∧
          ¬AddressesMeet starts := by
  have started : startsOf (answeredRun wildcardRefused).1 =
      [workerStart wildcardRefused] := by decide +kernel
  refine ⟨produces_run _ _ _, by decide +kernel, [⟨workerStart wildcardRefused,
    .ok ⟨40000, by decide⟩, answers_wildcardRefused _⟩], started, ?_⟩
  intro meet
  obtain ⟨subnets, addr, accepted⟩ := meet.accepted _ mem_cons_self
    (engineBindAddr ⟨40000, by decide⟩) rfl
  cases accepted

/-- Nothing is bound when the agent has no port to give. -/
theorem worker_addresses_meet_no_port : ∃ starts : List (AgentStart fun _ => [privateNetwork]),
      startsOf (answeredRun (.refused "failed to allocate engine port")).1 =
          starts.map AgentStart.start ∧
        AddressesMeet starts := by
  have produced : (apply true "dep-1" (some pairPlan)).Produces
      (answeredRun (.refused "failed to allocate engine port")).1
      (answeredRun (.refused "failed to allocate engine port")).2 :=
    produces_run _ _ _
  have started : startsOf
      (answeredRun (.refused "failed to allocate engine port")).1 =
      [workerStart (.refused "failed to allocate engine port")] := by decide
  refine ⟨[⟨workerStart (.refused "failed to allocate engine port"),
    .error "no port", rfl⟩], started, ?_⟩
  refine (worker_addresses_meet_iff produced ?_).1.mpr ?_
  · exact started
  intro agentStart member
  obtain rfl := mem_singleton.mp member
  rfl

end Purser.LlamaCpp
