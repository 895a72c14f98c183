import Purser.KeyedStores
import Purser.OrchestratorApply

/-!
# The routing table of the gateway

The gateway holds one route for each model, in memory only.  The control plane
writes it over two calls of the management plane.
-/

namespace Purser.Gateway

open KeyedStores
open Orchestrator (RouteUpdate)

inductive RouteState where
  | active
  | draining

structure ModelRoute where
  endpoint : String
  deploymentID : String
  quantization : String
  state : RouteState

structure RouteEntry where
  modelID : String
  route : ModelRoute

abbrev RouteTable := Store RouteEntry.modelID

variable (table : RouteTable) (modelID other : String) (route : ModelRoute)

def RouteTable.insertRoute : RouteTable :=
  table.put ⟨modelID, route⟩

def RouteTable.removeRoute :
    RouteTable :=
  table.erase modelID

def RouteTable.routeFor : Option ModelRoute :=
  (table.find modelID).map RouteEntry.route

theorem RouteTable.routeFor_insertRoute :
    (table.insertRoute modelID route).routeFor other =
      if modelID = other then some route else table.routeFor other := by
  rw [routeFor, insertRoute, Store.find_put]
  by_cases same : modelID = other <;> simp [same, routeFor]

theorem RouteTable.routeFor_removeRoute :
    (table.removeRoute modelID).routeFor other =
      if other = modelID then none else table.routeFor other := by
  rw [routeFor, removeRoute, Store.find_erase]
  by_cases same : other = modelID <;> simp [same, routeFor]

def isWhiteSpace (c : Char) : Bool :=
  (9 ≤ c.toNat && c.toNat ≤ 13) || c.toNat == 32 || c.toNat == 0x85 ||
    c.toNat == 0xA0 || c.toNat == 0x1680 ||
    (0x2000 ≤ c.toNat && c.toNat ≤ 0x200A) || c.toNat == 0x2028 ||
    c.toNat == 0x2029 || c.toNat == 0x202F || c.toNat == 0x205F ||
    c.toNat == 0x3000

def trim (text : String) : String := String.ofList
    ((text.toList.dropWhile isWhiteSpace).reverse.dropWhile isWhiteSpace).reverse

/-- The handler of `PUT /api/v1/routes`; an error is a status 400. -/
def putRoute (req : RouteUpdate) (table : RouteTable) : Except String RouteTable :=
  if trim req.modelID = "" then .error "`model_id` must not be empty."
  else if req.state = "active" ∨ req.state = "draining" then
    if trim req.endpoint = "" then
      .error "`endpoint` is required for active/draining routes."
    else
      .ok (table.insertRoute req.modelID
        { endpoint := trim req.endpoint
          deploymentID := req.deploymentID
          quantization := req.quantization
          state := if req.state = "active" then .active else .draining })
  else if req.state = "stopped" then .ok (table.removeRoute req.modelID)
  else
    .error ("Invalid `state` '" ++ req.state ++ "'; expected active|draining|stopped.")

/-- What the two calls of the control plane do to the table, an error being a
call that the gateway or the way to it rejects. -/
structure RouteCalls where
  upsert : RouteUpdate → RouteTable → Except String RouteTable
  delete : String → RouteTable → Except String RouteTable

def routeOf (req : RouteUpdate) : ModelRoute where
  endpoint := req.endpoint
  deploymentID := req.deploymentID
  quantization := req.quantization
  state := .active

def directCalls : RouteCalls where
  upsert req table := .ok (table.insertRoute req.modelID (routeOf req))
  delete modelID table := .ok (table.removeRoute modelID)

end Purser.Gateway
