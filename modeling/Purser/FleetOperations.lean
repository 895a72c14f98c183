import Purser.FleetPlanning
import Purser.KeyedStores
import Purser.TransitionRuns

/-!
# Operator decisions about nodes

The operator approves, drains or decommissions a node, and every heartbeat
overwrites the recorded state with the one it reports.
-/

namespace Purser.FleetManager

open ControlPlane KeyedStores TransitionRuns
open Planning (gpuVramGB readyStates)

/-- A state as the registry records it: the name of an enum value, or the number
of a value that has no name. -/
inductive RecordedState
  | named (state : NodeState)
  | numbered (number : ℤ)
deriving DecidableEq

/-- The planner may place work on a node in this state. -/
def RecordedState.accepted : RecordedState → Bool
  | named state => readyStates state
  | numbered _ => false

structure FleetNode where
  id : String
  hostname : String := ""
  os : String := ""
  arch : String := ""
  ramGB : ℚ := 0
  vramGB : ℚ := 0
  state : RecordedState
  advertisedAgentAddr : String := ""
  advertisedInferenceAddr : String := ""
  lastSeen : Time := 0
  hardwareProfile : HardwareProfile := {}
  createdAt : Time := 0

structure Cert where
  serial : String
  subject : String
  issued : Bool := true

structure Registry where
  nodes : Store FleetNode.id := .empty
  certs : Store Cert.serial := .empty

/-- What a machine says about itself. -/
structure JoinProfile where
  hardware : HardwareProfile
  hostname : String := ""
  os : String := ""
  arch : String := ""

structure JoinRequest where
  token : Except String Unit
  profile : Option JoinProfile
  advAgentAddr : String := ""
  advInfAddr : String := ""
  generatedID : String
  serial : String

structure Heartbeat where
  nodeID : String
  ts : Option Time := none
  state : RecordedState

inductive Message
  | join (request : JoinRequest)
  | approve (nodeID : String)
  | drain (nodeID : String)
  | decommission (nodeID : String)
  | heartbeat (heartbeat : Heartbeat)

/-- The calls of an operation that fail, with their errors. -/
structure Faults where
  getNode : Option String := none
  writeNode : Option String := none
  issue : Option String := none
  caCertificate : Option String := none
  listCerts : Option String := none
  /-- Serials of certificates that cannot be revoked. -/
  revoke : List String := []

namespace Registry

variable (registry : Registry) (faults : Faults) (now : Time) (node : FleetNode)

def getNode (id : String) : Except LookupError FleetNode :=
  match faults.getNode with
  | some problem => .error (.failed problem)
  | none =>
    match registry.nodes.find id with
    | some node => .ok node
    | none => .error .notFound

/-- The columns of a node are overwritten, except for the time of its creation. -/
def updateNode : Except String Registry :=
  match faults.writeNode with
  | some problem => .error problem
  | none =>
    match registry.nodes.find node.id with
    | some old =>
      .ok { registry with
        nodes := registry.nodes.replace { node with createdAt := old.createdAt } }
    | none => .error LookupError.notFound.text

def createNode : Except String Registry :=
  match faults.writeNode with
  | some problem => .error problem
  | none => .ok { registry with nodes := registry.nodes.insert { node with createdAt := now } }

end Registry

namespace JoinRequest

def nodeID (request : JoinRequest) : String :=
  let reported := (request.profile.map fun profile => profile.hardware.nodeID).getD ""
  if reported = "" then request.generatedID else reported

def node (request : JoinRequest) : FleetNode :=
  let enrolled : FleetNode :=
    { id := request.nodeID
      state := .named .enrolled
      advertisedAgentAddr := request.advAgentAddr
      advertisedInferenceAddr := request.advInfAddr }
  match request.profile with
  | none => enrolled
  | some profile =>
    { enrolled with
      hostname := profile.hostname
      os := profile.os
      arch := profile.arch
      ramGB := profile.hardware.ramTotalGB
      vramGB := (profile.hardware.gpus.map gpuVramGB).sum
      hardwareProfile := profile.hardware }

end JoinRequest

variable (operation : String) (state : NodeState) (registry : Registry) (faults : Faults)
  (nodeID : String)

def upsertNode (now : Time) (node : FleetNode) : Except String Registry :=
  match registry.getNode faults node.id with
  | .error .notFound =>
    (registry.createNode faults now node).mapError ("fleet: register node: " ++ ·)
  | .error (.failed problem) => .error ("fleet: lookup node: " ++ problem)
  | .ok _ => (registry.updateNode faults node).mapError ("fleet: update node: " ++ ·)

/-- A node that was registered stays so when no certificate can be issued. -/
def join (now : Time) (request : JoinRequest) : Registry × Except String String :=
  match request.token with
  | .error problem => (registry, .error problem)
  | .ok () =>
    match upsertNode registry faults now request.node with
    | .error problem => (registry, .error problem)
    | .ok registered =>
      match faults.issue with
      | some problem => (registered, .error ("fleet: issue cert: " ++ problem))
      | none =>
        let certified := { registered with
          certs := registered.certs.put ⟨request.serial, request.nodeID, true⟩ }
        match faults.caCertificate with
        | some problem => (certified, .error ("fleet: ca cert: " ++ problem))
        | none => (certified, .ok request.nodeID)

/-- The step that approving, draining and decommissioning a node share. -/
def setState : Except String Registry :=
  match registry.getNode faults nodeID with
  | .error error => .error ("fleet: " ++ operation ++ ": " ++ error.text)
  | .ok node => registry.updateNode faults { node with state := .named state }

def approve : Registry → Faults → String → Except String Registry := setState "approve" .ready

def drain : Registry → Faults → String → Except String Registry := setState "drain" .draining

/-- The certificates of the node are revoked as far as possible. -/
def decommission : Except String Registry :=
  (setState "decommission" .decommissioned registry faults nodeID).map fun updated =>
    match faults.listCerts with
    | some _ => updated
    | none =>
      { updated with
        certs := updated.certs.rows.foldl (fun certs cert =>
          if cert.subject = nodeID ∧ cert.issued = true ∧ cert.serial ∉ faults.revoke then
            certs.replace { cert with issued := false }
          else certs) updated.certs }

def Heartbeat.record (heartbeat : Heartbeat) (now : Time) (node : FleetNode) : FleetNode :=
  { node with
    lastSeen := heartbeat.ts.getD now
    state := if heartbeat.state = .named .unspecified then node.state else heartbeat.state }

def applyHeartbeat (now : Time) (heartbeat : Heartbeat) : Registry :=
  if heartbeat.nodeID = "" then registry
  else
    match registry.getNode faults heartbeat.nodeID with
    | .error _ => registry
    | .ok node =>
      match registry.updateNode faults (heartbeat.record now node) with
      | .ok updated => updated
      | .error _ => registry

inductive Decision
  | join
  | approve
  | drain
  | decommission
deriving DecidableEq

/-- The registry, and the decisions that were carried out, the latest one first. -/
structure History where
  registry : Registry := {}
  decisions : List (String × Decision) := []

structure Delivery where
  message : Message
  now : Time
  faults : Faults := {}

namespace History

variable (history : History) (delivery : Delivery)

def latest (nodeID : String) : Option Decision :=
  (history.decisions.find? fun decision => decision.1 = nodeID).map Prod.snd

/-- An operation that failed decided nothing. -/
def carryOut (nodeID : String) (decision : Decision) : Except String Registry → History
  | .ok registry => ⟨registry, (nodeID, decision) :: history.decisions⟩
  | .error _ => history

def deliver : History :=
  match delivery.message with
  | .join request =>
    match join history.registry delivery.faults delivery.now request with
    | (registry, .ok nodeID) => ⟨registry, (nodeID, .join) :: history.decisions⟩
    | (registry, .error _) => { history with registry := registry }
  | .approve nodeID =>
    history.carryOut nodeID .approve (approve history.registry delivery.faults nodeID)
  | .drain nodeID =>
    history.carryOut nodeID .drain (drain history.registry delivery.faults nodeID)
  | .decommission nodeID =>
    history.carryOut nodeID .decommission (decommission history.registry delivery.faults nodeID)
  | .heartbeat heartbeat =>
    { history with
      registry :=
        applyHeartbeat history.registry delivery.faults delivery.now heartbeat }

def step : Option History :=
  some (history.deliver delivery)

/-- A node that is in a state the planner accepts was approved last. -/
def Binding : Prop :=
  ∀ node ∈ history.registry.nodes.rows, node.state.accepted = true →
    history.latest node.id = some .approve

/-- A heartbeat of a registered node reports an accepted state only while the
latest decision about the node is its approval. -/
def Obedient : Prop :=
  match delivery.message with
  | .heartbeat heartbeat =>
    heartbeat.state.accepted = true →
      heartbeat.nodeID ∈ history.registry.nodes.rows.map FleetNode.id →
        history.latest heartbeat.nodeID = some .approve
  | _ => True

end History

/-! ### What an operation writes -/

/-- One row is written, and the others stay. -/
def Registry.Writes (before after : Registry) (id : String) (state : RecordedState) : Prop :=
  ∀ other ∈ after.nodes.rows,
    (other.id = id ∧ other.state = state) ∨ (other.id ≠ id ∧ other ∈ before.nodes.rows)

namespace Registry

variable {registry : Registry} {faults : Faults} {node : FleetNode}

theorem getNode_eq_ok {id : String} (found : registry.getNode faults id = .ok node) :
    registry.nodes.find id = some node := by
  rw [getNode] at found
  split at found
  · cases found
  · split at found
    next held =>
      cases found
      exact held
    next => cases found

theorem find_eq_none_of_notFound {id : String}
    (missed : registry.getNode faults id = .error .notFound) : registry.nodes.find id = none := by
  rw [getNode] at missed
  split at missed
  · cases missed
  · split at missed
    next => cases missed
    next absent => exact absent

theorem writes_of_updateNode {after : Registry}
    (updated : registry.updateNode faults node = .ok after) :
    registry.Writes after node.id node.state := by
  intro other member
  rw [updateNode] at updated
  split at updated
  · cases updated
  · split at updated
    next old found =>
      cases updated
      rcases Store.mem_of_mem_replace member with rfl | ⟨held, different⟩
      · exact .inl ⟨rfl, rfl⟩
      · exact .inr ⟨different, held⟩
    next => cases updated

theorem writes_of_createNode {after : Registry} {now : Time}
    (absent : registry.nodes.find node.id = none)
    (created : registry.createNode faults now node = .ok after) :
    registry.Writes after node.id node.state := by
  intro other member
  rw [createNode] at created
  split at created
  · cases created
  · cases created
    have added : other = { node with createdAt := now } ∨
        (other ∈ registry.nodes.rows ∧ other.id ≠ node.id) :=
      Store.mem_of_mem_insert (by exact absent) member
    rcases added with rfl | ⟨held, different⟩
    · exact .inl ⟨rfl, rfl⟩
    · exact .inr ⟨different, held⟩

end Registry

theorem eq_ok_of_mapError {Value : Type} {result : Except String Value} {value : Value}
    {describe : String → String} (mapped : result.mapError describe = .ok value) :
    result = .ok value := by
  cases result with
  | error => cases mapped
  | ok => exact mapped

variable {registry after : Registry} {faults : Faults}

theorem writes_of_upsertNode {now : Time} {node : FleetNode}
    (written : upsertNode registry faults now node = .ok after) :
    registry.Writes after node.id node.state := by
  rw [upsertNode] at written
  split at written
  next missed =>
    exact Registry.writes_of_createNode (Registry.find_eq_none_of_notFound missed)
      (eq_ok_of_mapError written)
  next => cases written
  next => exact Registry.writes_of_updateNode (eq_ok_of_mapError written)

theorem JoinRequest.node_id (request : JoinRequest) : request.node.id = request.nodeID := by
  unfold JoinRequest.node
  cases request.profile <;> rfl

theorem JoinRequest.node_state (request : JoinRequest) : request.node.state = .named .enrolled := by
  unfold JoinRequest.node
  cases request.profile <;> rfl

theorem join_cases {now : Time} {request : JoinRequest} {reply : Except String String}
    (joined : join registry faults now request = (after, reply)) :
    (registry.Writes after request.nodeID (.named .enrolled) ∧
      ∀ nodeID, reply = .ok nodeID → nodeID = request.nodeID) ∨
    (after = registry ∧ ∃ problem, reply = .error problem) := by
  rw [join] at joined
  split at joined
  · cases joined
    exact .inr ⟨rfl, _, rfl⟩
  · split at joined
    next =>
      cases joined
      exact .inr ⟨rfl, _, rfl⟩
    next registered upserted =>
      have writes := writes_of_upsertNode upserted
      rw [request.node_id, request.node_state] at writes
      left
      split at joined
      · cases joined
        refine ⟨writes, ?_⟩
        rintro nodeID ⟨⟩
      · split at joined
        · cases joined
          refine ⟨writes, ?_⟩
          rintro nodeID ⟨⟩
        · cases joined
          refine ⟨writes, ?_⟩
          rintro nodeID ⟨⟩
          rfl

theorem writes_of_setState {operation : String} {state : NodeState} {nodeID : String}
    (set : setState operation state registry faults nodeID = .ok after) :
    registry.Writes after nodeID (.named state) := by
  rw [setState] at set
  split at set
  next => cases set
  next node found =>
    have writes := Registry.writes_of_updateNode set
    have sameID : node.id = nodeID := Store.key_of_find (Registry.getNode_eq_ok found)
    rw [← sameID]
    exact writes

theorem writes_of_decommission {nodeID : String}
    (decommissioned : decommission registry faults nodeID = .ok after) :
    registry.Writes after nodeID (.named .decommissioned) := by
  rw [decommission] at decommissioned
  cases set : setState "decommission" .decommissioned registry faults nodeID with
  | error => rw [set] at decommissioned; cases decommissioned
  | ok =>
    have writes := writes_of_setState set
    rw [set] at decommissioned
    cases decommissioned
    intro other member
    apply writes
    cases listing : faults.listCerts with
    | some _ | none => simpa [listing] using member

/-- A heartbeat writes the reported state, keeps the recorded one, or changes
nothing. -/
theorem applyHeartbeat_cases (registry : Registry) (faults : Faults) (now : Time)
    (heartbeat : Heartbeat) :
    applyHeartbeat registry faults now heartbeat = registry ∨
      ∃ node, registry.nodes.find heartbeat.nodeID = some node ∧
        registry.Writes (applyHeartbeat registry faults now heartbeat) heartbeat.nodeID
          (if heartbeat.state = .named .unspecified then node.state else heartbeat.state) := by
  rw [applyHeartbeat]
  split
  · exact .inl rfl
  · split
    · exact .inl rfl
    next node found =>
      have held := Registry.getNode_eq_ok found
      split
      next updated written =>
        refine .inr ⟨node, held, ?_⟩
        rw [← Store.key_of_find held]
        exact Registry.writes_of_updateNode written
      next => exact .inl rfl

/-! ### Decisions bind until a heartbeat says otherwise -/

namespace History

variable {history : History} {nodeID : String} {state : RecordedState}

section

variable (binding : history.Binding)

include binding

theorem binding_of_decision {after : Registry} {decision : Decision}
    (writes : history.registry.Writes after nodeID state)
    (approves : state.accepted = true → decision = .approve) :
    Binding ⟨after, (nodeID, decision) :: history.decisions⟩ := by
  intro node member accepted
  rcases writes node member with ⟨sameID, sameState⟩ | ⟨otherID, held⟩
  · simp [latest, sameID, approves (sameState ▸ accepted)]
  · simpa [latest, Ne.symm otherID] using binding node held accepted

theorem binding_of_writes {after : Registry} (writes : history.registry.Writes after nodeID state)
    (approved : state.accepted = true → history.latest nodeID = some .approve) :
    Binding { history with registry := after } := by
  intro node member accepted
  rcases writes node member with ⟨sameID, sameState⟩ | ⟨_, held⟩
  · rw [sameID]
    exact approved (sameState ▸ accepted)
  · exact binding node held accepted

theorem binding_carryOut {decision : Decision} {result : Except String Registry}
    (writes : ∀ after, result = .ok after → history.registry.Writes after nodeID state)
    (approves : state.accepted = true → decision = .approve) :
    (history.carryOut nodeID decision result).Binding := by
  cases result with
  | error => exact binding
  | ok after => exact binding_of_decision binding (writes after rfl) approves

theorem binding_step {after : History} {delivery : Delivery} (obedient : history.Obedient delivery)
    (stepped : history.step delivery = some after) : after.Binding := by
  cases stepped
  obtain ⟨message, now, faults⟩ := delivery
  cases message with
  | join =>
    simp only [deliver]
    split
    next registry nodeID joined =>
      rcases join_cases joined with ⟨writes, named⟩ | ⟨_, problem, failed⟩
      · rw [named nodeID rfl]
        exact binding_of_decision binding writes (by rintro ⟨⟩)
      · cases failed
    next registry problem joined =>
      rcases join_cases joined with ⟨writes, _⟩ | ⟨rfl, _⟩
      · exact binding_of_writes binding writes (by rintro ⟨⟩)
      · exact binding
  | approve =>
    exact binding_carryOut binding (fun _ => writes_of_setState) fun _ => rfl
  | drain =>
    exact binding_carryOut binding (fun _ => writes_of_setState) (by rintro ⟨⟩)
  | decommission =>
    exact binding_carryOut binding (fun _ => writes_of_decommission) (by rintro ⟨⟩)
  | heartbeat heartbeat =>
    simp only [deliver]
    rcases applyHeartbeat_cases history.registry faults now heartbeat with
      unchanged | ⟨node, found, writes⟩
    · rw [unchanged]
      exact binding
    · have held := (Store.find_eq_some_iff.mp found).1
      have sameID : node.id = heartbeat.nodeID := Store.key_of_find found
      apply binding_of_writes binding writes
      intro accepted
      split at accepted
      · rw [← sameID]
        exact binding node held accepted
      · exact obedient accepted (sameID ▸ List.mem_map_of_mem held)

end

/-- A node in a state that the planner accepts was approved last, if no heartbeat
reports such a state at another time. -/
theorem decisions_bind {deliveries : List Delivery} {final : History}
    (ran : run step {} deliveries = some final)
    (conforms : Conforms step Obedient {} deliveries) : final.Binding :=
  run_induction (motive := fun _ history => history.Binding)
    (fun node member => by cases member)
    (fun binding obedient stepped => binding_step binding obedient stepped) ran conforms

instance (history : History) : Decidable history.Binding :=
  inferInstanceAs (Decidable (∀ node ∈ history.registry.nodes.rows, _))

instance (history : History) (delivery : Delivery) : Decidable (history.Obedient delivery) := by
  unfold Obedient
  split <;> infer_instance

def joins : Delivery where
  message := .join
    { token := .ok ()
      profile := some { hardware := { nodeID := "n", ramTotalGB := 64 } }
      generatedID := "node-0"
      serial := "1" }
  now := 1

def reports (state : NodeState) (now : Time) : Delivery where
  message := .heartbeat { nodeID := "n", state := .named state }
  now := now

def obedientNode : List Delivery :=
  [joins, ⟨.approve "n", 2, {}⟩, reports .running 3, ⟨.drain "n", 4, {}⟩, reports .draining 5]

theorem decisions_bind_obedientNode :
    ∃ final, run step {} obedientNode = some final ∧ final.Binding := by
  have conforms : Conforms step Obedient {} obedientNode := by decide +kernel
  exact ⟨_, rfl, decisions_bind rfl conforms⟩

/-- A node that only joined, one that was drained and one that was decommissioned
take work again once they report that they are ready. -/
theorem decisions_overridden : (∃ final, run step {} [joins, reports .ready 2] = some final ∧
      final.latest "n" = some .join ∧ ¬ final.Binding) ∧
    (∃ final, run step {} [joins, ⟨.approve "n", 2, {}⟩, ⟨.drain "n", 3, {}⟩, reports .running 4] =
        some final ∧ final.latest "n" = some .drain ∧ ¬ final.Binding) ∧
    (∃ final, run step {} [joins, ⟨.approve "n", 2, {}⟩, ⟨.decommission "n", 3, {}⟩,
        reports .ready 4] = some final ∧
      final.latest "n" = some .decommission ∧ ¬ final.Binding) :=
  ⟨⟨_, rfl, by decide +kernel⟩, ⟨_, rfl, by decide +kernel⟩, ⟨_, rfl, by decide +kernel⟩⟩

end History

end Purser.FleetManager
