import Purser.OrchestratorApply

/-!
# The calls of the control plane

The calls of the control plane on the registry and the gateway.  Drawing random
digits and walking a Go map are calls as well.  JSON columns are modelled by
what decoding them gives.
-/

namespace Purser.ControlPlane

open InteractionPrograms Program
open Orchestrator (Answer Command Deployment DeploymentPlan)
open Planner (Link ModelSpec)

/-- Nanoseconds since the zero time of Go, which stands for "never". -/
abbrev Time := ℤ

abbrev Duration := ℤ

inductive LookupError where
  | notFound
  | failed (problem : String)

def LookupError.text : LookupError → String
  | .notFound => "registry: not found"
  | .failed problem => problem

inductive NodeState where
  | unspecified
  | provisioning
  | enrolled
  | ready
  | loading
  | running
  | degraded
  | draining
  | unreachable
  | decommissioned
  deriving DecidableEq

structure Gpu where
  vramGB : ℚ := 0
  count : ℕ := 0
  unified : Bool := false
  fp4Native : Bool := false
  deriving DecidableEq

structure HardwareProfile where
  nodeID : String := ""
  ramTotalGB : ℚ := 0
  ramAvailableGB : ℚ := 0
  gpus : List Gpu := []
  memBandwidthGBs : ℚ := 0
  diskFreeGB : ℚ := 0
  prefixCachingFactor : ℚ := 0
  kvSsdOffload : Bool := false
  deriving DecidableEq

structure NodeRow where
  id : String
  ramGB : ℚ := 0
  vramGB : ℚ := 0
  state : NodeState
  lastSeen : Time := 0
  createdAt : Time := 0
  hardwareProfile : Except String HardwareProfile := .ok {}
  deriving DecidableEq

structure ModelRow where
  id : String
  spec : Except String ModelSpec
  deriving DecidableEq

structure PlanRow where
  id : String
  modelID : String
  quantization : String
  plan : Except String DeploymentPlan
  deriving DecidableEq

inductive Call where
  | command (command : Command)
  | getDeployment (id : String)
  | listDeployments
  | getPlan (id : String)
  | createPlan (row : PlanRow)
  | getModel (id : String)
  | listNodes
  | listLinks
  | deleteRoute (modelID : String)
  | listRoutes
  | randomHex (bytes : ℕ)
  | mapOrder (keys : List String)

abbrev Reply : Call → Type
  | .command command => Answer command
  | .getDeployment _ => Except LookupError Deployment
  | .listDeployments => Except String (List Deployment)
  | .getPlan _ => Except LookupError PlanRow
  | .createPlan _ => Option String
  | .getModel _ => Except LookupError ModelRow
  | .listNodes => Except String (List NodeRow)
  | .listLinks => Except String (List Link)
  | .deleteRoute _ => Option String
  | .listRoutes => Except String (List String)
  | .randomHex _ => String
  | .mapOrder keys => { order : List String // order.Perm keys }

abbrev CallTrace := List (Exchange Reply)

def getDeployment (id : String) : Program Reply (Except LookupError Deployment) :=
  issue (Call.getDeployment id)

def listDeployments : Program Reply (Except String (List Deployment)) := issue Call.listDeployments

def getPlan (id : String) : Program Reply (Except LookupError PlanRow) := issue (Call.getPlan id)

def createPlan (row : PlanRow) : Program Reply (Option String) := issue (Call.createPlan row)

def getModel (id : String) : Program Reply (Except LookupError ModelRow) := issue (Call.getModel id)

def listNodes : Program Reply (Except String (List NodeRow)) := issue Call.listNodes

def listLinks : Program Reply (Except String (List Link)) := issue Call.listLinks

def deleteRoute (modelID : String) : Program Reply (Option String) :=
  issue (Call.deleteRoute modelID)

def listRoutes : Program Reply (Except String (List String)) := issue Call.listRoutes

def randomHex (bytes : ℕ) : Program Reply String := issue (Call.randomHex bytes)

def mapOrder (keys : List String) : Program Reply { order : List String // order.Perm keys } :=
  issue (Call.mapOrder keys)

def lift {Value : Type} (program : Program Answer Value) : Program Reply Value :=
  program.embed Call.command

def liftExchange (exchange : Exchange Answer) : Exchange Reply :=
  ⟨.command exchange.command, exchange.answer⟩

theorem produces_of_lift {Value : Type} {program : Program Answer Value} {trace : CallTrace}
    {value : Value} (produced : (lift program).Produces trace value) :
    ∃ inner, trace = inner.map liftExchange ∧ program.Produces inner value :=
  produced.of_embed

end Purser.ControlPlane
