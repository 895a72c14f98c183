import Purser.ShardService

/-!
# What a restart brings back

A restart rebuilds a request from the record of the deployment, which keeps
nothing about the layers, the peers and the draft flag of an engine.
-/

namespace Purser.Orchestrator

open InteractionPrograms Program KeyedStores SharedWorlds List
open ControlPlane
open Gateway (RouteCalls)
open ReadyEngine (exchanges step peerAddr)
open Gateway (directCalls)

variable {nodeID : String} {ref : EngineRef} {peerAddrs : List String} {engines : List ReadyEngine}

def requestFor (nodeID : String) : Trace → Option StartEngineRequest
  | ⟨.resolve resolved, _⟩ :: ⟨.startEngine addr request, answer⟩ :: rest =>
    if resolved = nodeID then some request
    else requestFor nodeID (⟨.startEngine addr request, answer⟩ :: rest)
  | _ :: rest => requestFor nodeID rest
  | [] => none

theorem requestFor_ready (nodeID : String) (engines : List ReadyEngine) (rest : Trace) :
    requestFor nodeID (engines.flatMap exchanges ++ rest) =
      ((engines.find? (·.step.nodeID = nodeID)).map (·.step.request)).or
        (requestFor nodeID rest) := by
  induction engines with
  | nil => rfl
  | cons engine engines induction =>
    change requestFor nodeID (⟨.resolve engine.step.nodeID, _⟩ ::
      ⟨.startEngine engine.endpoint.agentAddr engine.step.request, _⟩ ::
        (engines.flatMap exchanges ++ rest)) = _
    rw [requestFor]
    by_cases same : engine.step.nodeID = nodeID
    · rw [if_pos same, find?_cons_of_pos (by simpa using same)]
      rfl
    · rw [if_neg same, find?_cons_of_neg (by simpa using same), ← induction]
      rfl

/-- What the record of an engine says apart from its handle. -/
def EngineRef.place (ref : EngineRef) : String × String × String :=
  (ref.nodeID, ref.agentAddr, ref.role)

theorem map_place_setHandle (nodeID handle : String) (engines : List EngineRef) :
    (setHandle nodeID handle engines).map EngineRef.place = engines.map EngineRef.place := by
  induction engines with
  | nil => rfl
  | cons engine _ induction =>
    by_cases same : engine.nodeID = nodeID
    · rw [setHandle, if_pos same]
      rfl
    · rw [setHandle, if_neg same, map_cons, map_cons, induction]

/-- The record still describes the deployment as the other one does, but for the
handles and the state. -/
structure SameShards (row original : Deployment) : Prop where
  modelID : row.detail.modelID = original.detail.modelID
  quantization : row.detail.quantization = original.detail.quantization
  places : row.detail.engines.map EngineRef.place = original.detail.engines.map EngineRef.place

/-- The registry still describes the deployment as it was recorded. -/
def Remembers (original : Deployment) (cluster : Cluster) : Prop :=
  ∃ row, cluster.deployments.find original.id = some row ∧ SameShards row original

variable {calls : RouteCalls} {cluster : Cluster}

section Restarts

variable {original : Deployment}

theorem Remembers.restart (remembers : Remembers original cluster) {deploymentID : String}
    {trace : CallTrace} {result : Option String} (run : RestartRun deploymentID nodeID trace result)
    (accepted : (controlWorld calls).Accepts cluster trace) :
    Remembers original ((controlWorld calls).after cluster trace) := by
  obtain ⟨row, found, same⟩ := remembers
  have unwritten : (effectsOf trace).rows = [] →
      Remembers original ((controlWorld calls).after cluster trace) := by
    intro noRows
    refine ⟨row, ?_, same⟩
    rw [find_after accepted, noRows, found]
    rfl
  cases run with
  | missing | notPart | notReady => exact unwritten rfl
  | restarted deployment _ _ handle updated =>
    cases updated with
    | some => exact unwritten rfl
    | none =>
      have read : cluster.deployments.find deploymentID = some deployment := accepted.1
      have writtenID : deployment.id = deploymentID := Store.key_of_find read
      -- only a restart of this deployment touches its row
      by_cases isOriginal : deploymentID = original.id
      · rw [isOriginal, found] at read
        obtain rfl := Option.some.inj read
        refine ⟨persisted row .active (restartedDetail row.detail nodeID
          handle), ?_, same.modelID, same.quantization, ?_⟩
        · rw [find_after accepted]
          change ((List.filter _ [persisted row _ _]).getLast?).or _ = _
          rw [filter_cons_of_pos (by simp [persisted, writtenID, isOriginal])]
          rfl
        · exact (map_place_setHandle _ _ _).trans same.places
      · refine ⟨row, ?_, same⟩
        rw [find_after accepted]
        change ((List.filter _ [persisted deployment _ _]).getLast?).or _ = _
        rw [filter_cons_of_neg (by simp [persisted, writtenID, isOriginal]), found]
        rfl

theorem Remembers.restarts {restarts : List CallTrace} (remembers : Remembers original cluster)
    (restarted : ∀ trace ∈ restarts, ∃ deploymentID nodeID result,
      (restartEngine deploymentID nodeID).Produces trace result)
    (accepted : (controlWorld calls).Accepts cluster restarts.flatten) :
    Remembers original ((controlWorld calls).after cluster restarts.flatten) := by
  induction restarts generalizing cluster with
  | nil => exact remembers
  | cons trace _ induction =>
    rw [flatten_cons, Interface.accepts_append] at accepted
    rw [flatten_cons, Interface.after_append]
    obtain ⟨deploymentID, nodeID, result, produced⟩ := restarted trace mem_cons_self
    refine induction (remembers.restart (restartEngine_run produced) accepted.1) ?_ accepted.2
    intro other member
    exact restarted other (mem_cons_of_mem _ member)

end Restarts

/-- The request without what only the plan knows about the shard. -/
def StartEngineRequest.forgetShard (request : StartEngineRequest) :
    StartEngineRequest :=
  { request with layerStart := 0, layerEnd := 0, peers := [], draft := false }

theorem forgetShard_eq_iff (request : StartEngineRequest) : request.forgetShard = request ↔
      request.layerStart = 0 ∧ request.layerEnd = 0 ∧ request.peers = [] ∧
        request.draft = false := by
  obtain ⟨modelRef, role, layerStart, layerEnd, peers, quantization, draft⟩ := request
  simp [StartEngineRequest.forgetShard, eq_comm]

theorem exists_engine_of_find {original row : Deployment} (same : SameShards row original)
    (recorded : original.detail.engines = engines.map ReadyEngine.ref)
    (found : row.detail.engines.find? (·.nodeID = nodeID) = some ref) :
    ∃ engine, engines.find? (·.step.nodeID = nodeID) = some engine ∧
      ref.role = engine.step.role := by
  have placed : (row.detail.engines.map EngineRef.place).find? (·.1 = nodeID) = some ref.place := by
    rw [find?_map]
    change Option.map _ (row.detail.engines.find? (·.nodeID = nodeID)) = _
    rw [found]
    rfl
  rw [same.places, recorded, map_map, find?_map] at placed
  obtain ⟨engine, engineFound, placeEq⟩ := Option.map_eq_some_iff.mp placed
  exact ⟨engine, engineFound, (congrArg (·.2.2) placeEq).symm⟩

theorem exists_engine_of_shard {plan : DeploymentPlan}
    (specified : ∀ shard ∈ plan.assignments, shard.role ≠ .unspecified)
    (steps : (shardOrder plan).map (shardStep plan peerAddrs) =
      engines.map step) (member : ∃ shard ∈ plan.assignments, shard.nodeID = nodeID) :
    ∃ engine, engines.find? (·.step.nodeID = nodeID) = some engine := by
  obtain ⟨shard, shardMember, rfl⟩ := member
  have stepMember : shardStep plan peerAddrs shard ∈ engines.map step := by
    rw [← steps]
    exact mem_map_of_mem ((shardOrder_perm specified).mem_iff.mpr shardMember)
  obtain ⟨engine, engineMember, stepEq⟩ := mem_map.mp stepMember
  rw [← Option.isSome_iff_exists, find?_isSome]
  refine ⟨engine, engineMember, ?_⟩
  rw [stepEq]
  simpa using (shardStep_shard (specified shard shardMember)).1

section Reproduction

variable {agentsConfigured : Bool} {depID : String} {plan : DeploymentPlan} {applied : Trace}
  {result : ApplyResult}

section Record

variable {host : Assignment} {ready : List ReadyEngine} {hostEngine : ReadyEngine}

end Record

/-- A restart sends the request of the engine it replaces, with the layers, the
peers and the draft flag lost.  So it reproduces the engine exactly when these
had their zero values to begin with. -/
theorem restart_reproduces_iff
    (produced : (apply agentsConfigured depID (some plan)).Produces applied result)
    (succeeded : result.error = none)
    (active : ∃ row, ((controlWorld calls).after cluster
        (applied.map liftExchange)).deployments.find depID = some row ∧
      row.state = .active)
    {restarts : List CallTrace}
    (restarted : ∀ trace ∈ restarts, ∃ deploymentID nodeID outcome,
      (restartEngine deploymentID nodeID).Produces trace outcome)
    {nodeID : String} {last : CallTrace} {outcome : Option String}
    (lastProduced : (restartEngine depID nodeID).Produces last outcome)
    (accepted : (controlWorld calls).Accepts cluster
      (applied.map liftExchange ++ (restarts.flatten ++ last)))
    (member : ∃ shard ∈ plan.assignments, shard.nodeID = nodeID) :
    ∃ request, requestFor nodeID applied = some request ∧
      ∀ addr sent answer, startExchange addr sent answer ∈ last →
        sent = request.forgetShard ∧
          (sent = request ↔ request.layerStart = 0 ∧ request.layerEnd = 0 ∧
            request.peers = [] ∧ request.draft = false) := by
  obtain ⟨workers, host, ready, hostEngine, opened, updated, audited, published,
    split, allReady, hostReady⟩ := isActiveTrace_of_apply produced succeeded
  obtain ⟨-, -, specified⟩ := (partition_eq_ok_iff _ _ _).mp split
  have steps := map_shardStep split allReady hostReady
  obtain ⟨applyAccepted, laterAccepted⟩ :=
    accepted.of_append
  obtain ⟨restartsAccepted, lastAccepted⟩ :=
    laterAccepted.of_append
  -- the record is active, so the write that made it so went through
  have written := find_after applyAccepted depID
  rw [effectsOf_activeTrace] at written
  obtain rfl : updated = none := by
    cases updated with
    | none => rfl
    | some =>
      obtain ⟨row, found, isActive⟩ := active
      rw [written] at found
      simp [initialDeployment] at found
      rw [← found] at isActive
      cases isActive
  obtain ⟨row, current, same⟩ := Remembers.restarts
    ⟨activeDeployment depID plan host hostEngine.endpoint
      ((ready ++ [hostEngine]).map ReadyEngine.ref), written.trans (by
        simp [initialDeployment, activeDeployment]), rfl, rfl, rfl⟩ restarted restartsAccepted
  obtain ⟨engine, engineFound⟩ := exists_engine_of_shard specified steps member
  refine ⟨engine.step.request, ?_, ?_⟩
  · change requestFor nodeID ((ready ++ [hostEngine]).flatMap exchanges ++ _) = _
    rw [requestFor_ready, engineFound]
    rfl
  intro addr sent answer sentMember
  have sentEq : sent = engine.step.request.forgetShard := by
    cases restartEngine_run lastProduced with
    | missing | notPart => simp [startExchange] at sentMember
    | notReady _ ref _ _ found | restarted _ ref _ _ _ _ found =>
      obtain rfl := Option.some.inj (current.symm.trans lastAccepted.1)
      simp [startExchange, updateExchange, auditExchange] at sentMember
      rw [sentMember.1.2]
      obtain ⟨recorded, recordedFound, role⟩ :=
        exists_engine_of_find same rfl found
      obtain rfl := Option.some.inj (engineFound.symm.trans recordedFound)
      have stepMember : engine.step ∈ (shardOrder plan).map
          (shardStep plan (ready.map peerAddr)) := by
        rw [steps]
        exact mem_map_of_mem (mem_of_find?_eq_some engineFound)
      obtain ⟨shard, -, stepEq⟩ := mem_map.mp stepMember
      rw [← stepEq] at role ⊢
      unfold shardStep at role ⊢
      unfold restartRequest
      rw [role, same.modelID, same.quantization]
      by_cases isHost : shard.role = .host
      · rw [if_pos isHost]
        rfl
      · rw [if_neg isHost]
        rfl
  exact ⟨sentEq, sentEq ▸ forgetShard_eq_iff _⟩

end Reproduction

def wholePlan (layerEnd : ℕ) : DeploymentPlan where
  planID := "plan-1"
  modelID := "model"
  quantization := "q4"
  assignments := [⟨"b", .host, 0, layerEnd, false⟩]

def wholeApply (layerEnd : ℕ) : Trace × ApplyResult :=
  (apply true "dep-1" (some (wholePlan layerEnd))).run
    (respondWith fun addr => .opened [.event .ready addr]) []

def wholeCluster (layerEnd : ℕ) : Cluster := (controlWorld directCalls).after {}
    ((wholeApply layerEnd).1.map liftExchange)

def wholeRestart (cluster : Cluster) : CallTrace :=
  (untroubledRun cluster (restartEngine "dep-1" "b")).1

/-- A model of four layers runs on one node.  Its restart asks for layer 0
only. -/
theorem restart_loses_layers : (apply true "dep-1" (some (wholePlan 3))).Produces (wholeApply 3).1
        (wholeApply 3).2 ∧
      (wholeApply 3).2.error = none ∧
      (restartEngine "dep-1" "b").Produces (wholeRestart (wholeCluster 3)) none ∧
      (controlWorld directCalls).Accepts {}
        ((wholeApply 3).1.map liftExchange ++ wholeRestart (wholeCluster 3)) ∧
      ∃ request sent, requestFor "b" (wholeApply 3).1 = some request ∧
        startExchange "b:50151" sent (.opened [.event .ready "engine at b:50151"])
          ∈ wholeRestart (wholeCluster 3) ∧
        (request.layerStart, request.layerEnd) = (0, 3) ∧
        (sent.layerStart, sent.layerEnd) = (0, 0) := by
  have accepted : (controlWorld directCalls).Accepts {}
      ((wholeApply 3).1.map liftExchange) := by decide +kernel
  refine ⟨produces_run _ _ _, by decide, produces_untroubledRun _
    (restartEngine "dep-1" "b"), (Interface.accepts_append _ _ _).mpr ⟨accepted,
      accepts_untroubledRun _ _⟩, ⟨"model", .host, 0, 3, [], "q4", false⟩,
    ⟨"model", .host, 0, 0, [], "q4", false⟩, by decide, ?_, rfl, rfl⟩
  exact mem_of_getElem? (i := 1) rfl

/-- A model of one layer comes back as it was, also from the second restart. -/
theorem restart_reproduces_one_layer : ∃ request, requestFor "b" (wholeApply 0).1 = some request ∧
      ∀ addr sent answer,
        startExchange addr sent answer ∈
          wholeRestart ((controlWorld directCalls).after (wholeCluster 0)
            (wholeRestart (wholeCluster 0))) →
        sent = request := by
  have applyAccepted : (controlWorld directCalls).Accepts {}
      ((wholeApply 0).1.map liftExchange) := by decide +kernel
  have produced : (apply true "dep-1" (some (wholePlan 0))).Produces
      (wholeApply 0).1 (wholeApply 0).2 := produces_run _ _ _
  have active : ∃ row, (wholeCluster 0).deployments.find "dep-1" = some row ∧
      row.state = .active := ⟨_, rfl, rfl⟩
  have accepted : (controlWorld directCalls).Accepts {}
      ((wholeApply 0).1.map liftExchange ++ ([wholeRestart (wholeCluster 0)].flatten
        ++ wholeRestart ((controlWorld directCalls).after (wholeCluster 0)
          (wholeRestart (wholeCluster 0))))) := by
    rw [flatten_singleton, Interface.accepts_append, Interface.accepts_append]
    exact ⟨applyAccepted, accepts_untroubledRun _ _, accepts_untroubledRun _ _⟩
  have restarted : ∀ trace ∈ [wholeRestart (wholeCluster 0)],
      ∃ deploymentID nodeID outcome,
        (restartEngine deploymentID nodeID).Produces trace outcome := by
    intro trace member
    obtain rfl := mem_singleton.mp member
    exact ⟨"dep-1", "b", _, produces_untroubledRun _ _⟩
  obtain ⟨request, requestEq, sends⟩ := restart_reproduces_iff produced
    (by decide) active restarted
    (produces_untroubledRun _ (restartEngine "dep-1" "b")) accepted
    ⟨_, mem_singleton_self _, rfl⟩
  have zero : requestFor "b" (wholeApply 0).1 =
      some ⟨"model", .host, 0, 0, [], "q4", false⟩ := by decide
  obtain rfl := Option.some.inj (zero.symm.trans requestEq)
  refine ⟨_, zero, ?_⟩
  intro addr sent answer member
  exact (sends addr sent answer member).2.mpr ⟨rfl, rfl, rfl, rfl⟩

end Purser.Orchestrator
