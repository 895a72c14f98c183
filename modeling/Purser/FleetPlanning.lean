import Purser.ControlCalls
import Purser.PlanConversion

/-!
# Planning for the fleet in the registry

A plan is made for the nodes that the registry lists as ready or running.  Their
hardware profiles decide how the planner sees them, down to the identifier.
-/

namespace Purser.Planning

open InteractionPrograms Program TextFormatting
open ControlPlane
open Planner (Constraints Context Link ModelSpec Node PlanError PlanFailure Runtime)

def readyStates (state : NodeState) : Bool := state = .ready ∨ state = .running

def gpuVramGB (gpu : Gpu) : ℚ := gpu.vramGB * if gpu.count = 0 then 1 else gpu.count

def nodeFromHardwareProfile (profile : HardwareProfile) : Node where
  id := profile.nodeID
  ramAvailableGB := profile.ramAvailableGB
  vramGB := (profile.gpus.map gpuVramGB).sum
  unifiedMemory := profile.gpus.any Gpu.unified
  memBandwidthGBs := profile.memBandwidthGBs
  fp4Native := profile.gpus.any Gpu.fp4Native
  diskFreeGB := profile.diskFreeGB
  kvSsdOffload := profile.kvSsdOffload
  prefixCachingFactor := profile.prefixCachingFactor

/-- The node as the planner sees it.  The columns of the registry stand in for
what the profile leaves out. -/
def plannerNode (row : NodeRow) : Except String Node :=
  match row.hardwareProfile with
  | .error problem =>
    .error ("planning: decode hardware profile for node " ++ quoted row.id ++ ": " ++ problem)
  | .ok profile =>
    let node := nodeFromHardwareProfile profile
    let ramTotalGB :=
      if profile.ramTotalGB = 0 then row.ramGB else profile.ramTotalGB
    .ok { node with
      id := if node.id = "" then row.id else node.id
      ramAvailableGB :=
        if node.ramAvailableGB = 0 then
          if 0 < ramTotalGB then ramTotalGB else row.ramGB
        else node.ramAvailableGB
      vramGB := if node.vramGB = 0 then row.vramGB else node.vramGB }

def modelSpec (row : ModelRow) : Except String ModelSpec :=
  match row.spec with
  | .error problem =>
    .error ("planning: decode model spec for " ++ quoted row.id ++ ": " ++ problem)
  | .ok spec => .ok { spec with id := if spec.id = "" then row.id else spec.id }

/-- The nodes of the fleet; the first profile that cannot be read ends it. -/
def readyNodes : List NodeRow → Except String (List Node)
  | [] => .ok []
  | row :: rows =>
    if readyStates row.state then do
      let node ← plannerNode row
      return node :: (← readyNodes rows)
    else readyNodes rows

def loadFleet : Program Reply (Except String (List Node × List Link)) := do
  match ← listNodes with
  | .error problem => return .error ("planning: list nodes: " ++ problem)
  | .ok rows =>
    match readyNodes rows with
    | .error problem => return .error problem
    | .ok nodes =>
      match ← listLinks with
      | .error problem => return .error ("planning: list links: " ++ problem)
      | .ok links => return .ok (nodes, links)

/-- The message about a model that does not fit. -/
def fitError (error : PlanError) : String :=
  if 0 < error.deficitGB then
    error.reason.text ++ " (missing " ++ fixedPoint 1 error.deficitGB ++ " GB)"
  else error.reason.text

def toFitError : PlanFailure → String
  | .cancelled => "context canceled"
  | .rejected error => fitError error

def plan (rt : Runtime) (ctx : Context) (modelID : String) (c : Constraints) :
    Program Reply (Except String Orchestrator.DeploymentPlan) := do
  match ← getModel modelID with
  | .error problem => return .error problem.text
  | .ok row =>
    match modelSpec row with
    | .error problem => return .error problem
    | .ok spec =>
      match ← loadFleet with
      | .error problem => return .error problem
      | .ok (nodes, links) =>
        match Planner.plan rt ctx nodes links spec c with
        | .error failure => return .error (toFitError failure)
        | .ok planned => return .ok planned.toProto

def isFleetRead : Call → Bool
  | .getModel _ => true
  | .listNodes => true
  | .listLinks => true
  | _ => false

theorem uses_loadFleet : loadFleet.Uses (isFleetRead · = true) := by
  refine .bind (.issue rfl) ?_
  rintro (problem | rows)
  · trivial
  · dsimp only
    split
    · trivial
    · refine .bind (.issue rfl) ?_
      rintro (problem | links) <;> trivial

theorem uses_plan (rt : Runtime) (ctx : Context) (modelID : String) (c : Constraints) :
    (plan rt ctx modelID c).Uses (isFleetRead · = true) := by
  refine .bind (.issue rfl) ?_
  rintro (problem | row)
  · trivial
  · dsimp only
    split
    · trivial
    · refine uses_loadFleet.bind ?_
      rintro (problem | ⟨nodes, links⟩)
      · trivial
      · dsimp only
        split <;> trivial

variable {nodes : List Node}

theorem loadFleet_run {trace : CallTrace} {links : List Link}
    (produced : loadFleet.Produces trace (.ok (nodes, links))) :
    ∃ rows, trace = [⟨.listNodes, .ok rows⟩, ⟨.listLinks, .ok links⟩] ∧
      readyNodes rows = .ok nodes := by
  obtain ⟨answer, _, rfl, continued⟩ := produced.of_issue
  cases answer with
  | error => cases continued.2
  | ok rows =>
    dsimp only at continued
    split at continued
    · cases continued.2
    · rename_i ready readyEq
      obtain ⟨answer, _, rfl, continued⟩ := continued
      cases answer with
      | error => cases continued.2
      | ok =>
        obtain ⟨rfl, same⟩ := continued
        obtain ⟨rfl, rfl⟩ := Prod.mk.inj (Except.ok.inj same)
        exact ⟨rows, rfl, readyEq⟩

theorem plan_run {rt : Runtime} {ctx : Context} {modelID : String} {c : Constraints}
    {trace : CallTrace} {result : Orchestrator.DeploymentPlan}
    (produced : (plan rt ctx modelID c).Produces trace (.ok result)) :
    ∃ row spec rows nodes links planned,
      trace = [⟨.getModel modelID, .ok row⟩, ⟨.listNodes, .ok rows⟩, ⟨.listLinks, .ok links⟩] ∧
      modelSpec row = .ok spec ∧ readyNodes rows = .ok nodes ∧
      Planner.plan rt ctx nodes links spec c = .ok planned ∧
      result = planned.toProto := by
  obtain ⟨answer, _, rfl, continued⟩ := produced.of_issue
  cases answer with
  | error => cases continued.2
  | ok row =>
    dsimp only at continued
    split at continued
    · cases continued.2
    · rename_i spec specEq
      obtain ⟨_, fleet, _, rfl, loaded, planning⟩ := continued.of_bind
      cases fleet with
      | error => cases planning.2
      | ok fleet =>
        obtain ⟨nodes, links⟩ := fleet
        obtain ⟨rows, rfl, readyEq⟩ := loadFleet_run loaded
        dsimp only at planning
        split at planning
        · cases planning.2
        · rename_i planned plannedEq
          obtain ⟨rfl, same⟩ := planning
          exact ⟨row, spec, rows, nodes, links, planned, rfl, specEq, readyEq,
            plannedEq, Except.ok.inj same⟩

theorem mem_readyNodes {rows : List NodeRow} (loaded : readyNodes rows = .ok nodes) {node : Node}
    (member : node ∈ nodes) :
    ∃ row ∈ rows, readyStates row.state = true ∧ plannerNode row = .ok node := by
  induction rows generalizing nodes with
  | nil =>
    obtain rfl := Except.ok.inj loaded
    cases member
  | cons row rows induction =>
    rw [readyNodes] at loaded
    by_cases ready : readyStates row.state = true
    · rw [if_pos ready] at loaded
      cases nodeEq : plannerNode row with
      | error =>
        rw [nodeEq] at loaded
        cases loaded
      | ok =>
        cases restEq : readyNodes rows with
        | error =>
          rw [nodeEq, restEq] at loaded
          cases loaded
        | ok =>
          rw [nodeEq, restEq] at loaded
          obtain rfl := Except.ok.inj loaded
          rcases List.mem_cons.mp member with rfl | member
          · exact ⟨row, List.mem_cons_self, ready, nodeEq⟩
          · obtain ⟨found, foundMember, rest⟩ := induction restEq member
            exact ⟨found, List.mem_cons_of_mem _ foundMember, rest⟩
    · rw [if_neg ready] at loaded
      obtain ⟨found, foundMember, rest⟩ := induction loaded member
      exact ⟨found, List.mem_cons_of_mem _ foundMember, rest⟩

end Purser.Planning
