import Purser.ControlEffects
import Purser.GatewayWire

/-!
# The last call about a model

Every call that the gateway takes decides the route of one model, as long as the
identifiers survive the way to it.  So the route of a model after a trace is what
the last call about that model left.
-/

namespace Purser.ControlPlane

open Gateway InteractionPrograms KeyedStores SharedWorlds List
open Orchestrator (RouteUpdate)

variable {modelID : String} {left : Option ModelRoute} {exchange : Exchange Reply}
  {cluster : Cluster}

def writtenRoute (update : RouteUpdate) : ModelRoute where
  endpoint := trim update.endpoint
  deploymentID := update.deploymentID
  quantization := update.quantization
  state := .active

theorem upsert_of_active {update : RouteUpdate} {table : RouteTable}
    (active : update.state = "active") (taken : (httpCalls.upsert update table).isOk = true) :
    httpCalls.upsert update table =
      .ok (table.insertRoute update.modelID (writtenRoute update)) := by
  simp only [httpCalls, putRoute] at taken ⊢
  split at taken
  · cases taken
  · rename_i named
    rw [if_pos (Or.inl active)] at taken ⊢
    split at taken
    · cases taken
    · rename_i located
      rw [if_neg named, if_neg located, if_pos active]
      rfl

theorem delete_of_plain {table : RouteTable} (plain : IsPlain modelID)
    (taken : (httpCalls.delete modelID table).isOk = true) :
    httpCalls.delete modelID table = .ok (table.removeRoute modelID) := by
  simp only [httpCalls] at taken ⊢
  rcases deleteTarget_of_plain plain with refused | target
  · rw [refused] at taken
    cases taken
  · rw [target]

namespace RouteChange

/-- The call means to the gateway what it means to the control plane. -/
def Sound : RouteChange → Prop
  | .upsert update => update.state = "active"
  | .delete modelID => IsPlain modelID

def leaves (modelID : String) : RouteChange → Option (Option ModelRoute)
  | .upsert update =>
    if update.modelID = modelID then some (some (writtenRoute update)) else none
  | .delete deleted => if deleted = modelID then some none else none

theorem leaves_upsert_eq_some_iff {update : RouteUpdate} :
    (RouteChange.upsert update).leaves modelID = some left ↔
      update.modelID = modelID ∧ left = some (writtenRoute update) := by
  rw [leaves, Option.ite_none_right_eq_some, Option.some.injEq, eq_comm (a := left)]

theorem leaves_delete_eq_some_iff {deleted : String} :
    (RouteChange.delete deleted).leaves modelID = some left ↔ deleted = modelID ∧ left = none := by
  rw [leaves, Option.ite_none_right_eq_some, Option.some.injEq, eq_comm (a := left)]

end RouteChange

theorem routeFor_effect {change : RouteChange}
    (allowed : (controlWorld httpCalls).Allows cluster exchange)
    (changed : routeChangeOf exchange = some change) (sound : change.Sound) (modelID : String) :
    ((controlWorld httpCalls).effect cluster exchange).routes.routeFor modelID =
      (change.leaves modelID).getD (cluster.routes.routeFor modelID) := by
  have routesEq : ((controlWorld httpCalls).effect cluster exchange).routes =
      change.apply httpCalls cluster.routes := by
    rw [effect_parts, changed]
    rfl
  rw [routesEq]
  obtain ⟨call, answer⟩ := exchange
  cases call with
  | command command =>
    cases command with
    | upsertRoute update =>
      cases answer with
      | some => cases changed
      | none =>
        obtain rfl : RouteChange.upsert update = change := Option.some.inj changed
        have taken : (httpCalls.upsert update cluster.routes).isOk =
          true := allowed
        simp only [RouteChange.apply, Cluster.tableAfter,
          upsert_of_active sound taken, RouteTable.routeFor_insertRoute]
        by_cases same : update.modelID = modelID <;>
          simp [RouteChange.leaves, same]
    | _ => cases changed
  | deleteRoute deleted =>
    cases answer with
    | some => cases changed
    | none =>
      obtain rfl : RouteChange.delete deleted = change := Option.some.inj changed
      have taken : (httpCalls.delete deleted cluster.routes).isOk = true := allowed
      simp only [RouteChange.apply, Cluster.tableAfter,
        delete_of_plain sound taken, RouteTable.routeFor_removeRoute]
      by_cases same : deleted = modelID
      · simp [RouteChange.leaves, same]
      · simp [RouteChange.leaves, same, Ne.symm same]
  | _ => cases changed

def leftFor (modelID : String) (trace : CallTrace) : List (Option ModelRoute) :=
  (effectsOf trace).routes.filterMap (RouteChange.leaves modelID)

/-- The last call about a model decides its route. -/
theorem routeFor_after {trace : CallTrace}
    (accepted : (controlWorld httpCalls).Accepts cluster trace)
    (sound : ∀ change ∈ (effectsOf trace).routes, change.Sound) (modelID : String) :
    ((controlWorld httpCalls).after cluster trace).routes.routeFor modelID =
      (leftFor modelID trace).getLast?.getD (cluster.routes.routeFor modelID) := by
  induction trace generalizing cluster with
  | nil => rfl
  | cons exchange rest induction =>
    have restSound : ∀ change ∈ (effectsOf rest).routes, change.Sound := by
      intro change member
      obtain ⟨later, laterMember, changed⟩ := mem_filterMap.mp member
      exact sound change (mem_filterMap.mpr ⟨later, mem_cons_of_mem _ laterMember, changed⟩)
    rw [Interface.after_cons, induction accepted.2 restSound]
    cases changed : routeChangeOf exchange with
    | none =>
      have routesEq : (effectsOf (exchange :: rest)).routes =
          (effectsOf rest).routes := filterMap_cons_none changed
      rw [effect_parts, changed, leftFor, leftFor, routesEq]
      rfl
    | some change =>
      have routesEq : (effectsOf (exchange :: rest)).routes = change :: (effectsOf rest).routes :=
        filterMap_cons_some changed
      have changeSound : change.Sound := by
        apply sound
        rw [routesEq]
        exact mem_cons_self
      rw [routeFor_effect accepted.1 changed changeSound, leftFor, leftFor, routesEq]
      cases leaving : change.leaves modelID with
      | none => rw [filterMap_cons_none leaving, Option.getD_none]
      | some =>
        rw [filterMap_cons_some leaving, getLast?_cons, Option.getD_some, Option.getD_some]

/-- If every call about a model leaves what is wanted, the model has it in the
end, provided it had it before or there was a call about it. -/
theorem routeFor_after_settles {trace : CallTrace} {Wanted : Option ModelRoute → Prop}
    (accepted : (controlWorld httpCalls).Accepts cluster trace)
    (sound : ∀ change ∈ (effectsOf trace).routes, change.Sound)
    (settles : ∀ left ∈ leftFor modelID trace, Wanted left)
    (settled : Wanted (cluster.routes.routeFor modelID) ∨ ∃ left, left ∈ leftFor modelID trace) :
    Wanted (((controlWorld httpCalls).after cluster trace).routes.routeFor modelID) := by
  rw [routeFor_after accepted sound]
  cases last : (leftFor modelID trace).getLast? with
  | none =>
    rcases settled with before | ⟨left, member⟩
    · exact before
    · rw [getLast?_eq_none_iff.mp last] at member
      cases member
  | some left => exact settles left (mem_of_getLast? last)

end Purser.ControlPlane
