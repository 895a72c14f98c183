import Purser.KeyedStores
import Purser.RouteEffects

/-!
# The route reconciler

One pass reads the deployments, asks the gateway which models it routes, writes
the route of every active deployment and deletes the others.  If it succeeds, it
leaves one route for every model with an active deployment, if identifiers
survive the way into the path of a URL.
-/

namespace Purser.RouteReconciler

open InteractionPrograms Program KeyedStores List
open ControlPlane
open Orchestrator (Deployment RouteUpdate)

abbrev RouteMap := Store RouteUpdate.modelID

def servedModel (deployment : Deployment) : String :=
  if deployment.modelID = "" then deployment.detail.modelID
  else deployment.modelID

def desiredRoute (deployment : Deployment) : Option RouteUpdate :=
  let detail := deployment.detail
  let modelID := servedModel deployment
  if deployment.state ≠ .active then none
  else if modelID = "" ∨ detail.endpoint = "" then none
  else
    some {
      modelID := modelID
      endpoint := detail.endpoint
      deploymentID := deployment.id
      quantization := detail.quantization
      state := "active" }

/-- Of two deployments of one model the later one counts. -/
def desiredRoutes (deployments : List Deployment) : RouteMap :=
  (deployments.filterMap desiredRoute).foldl Store.put .empty

/-- The models that the gateway routes, as far as the reconciler can tell. -/
def observe (pushed : List String) : Program Reply (List String) := do
  match ← listRoutes with
  | .ok routed => return routed
  | .error _ => do
      let order ← mapOrder pushed
      return order.1

section Loops

variable {Item : Type}

/-- The loop over the routes to write and the one over those to delete: a call
that fails adds an error, one that succeeds changes the set of pushed routes. -/
def sendAll (send : Item → Program Reply (Option String)) (failure : Item → String → String)
    (mark : Item → List String → List String) :
    List Item → List String → Program Reply (List String × List String)
  | [], pushed => return ([], pushed)
  | item :: items, pushed => do
      match ← send item with
      | some problem => do
          let (errs, pushed) ← sendAll send failure mark items pushed
          return (failure item problem :: errs, pushed)
      | none => sendAll send failure mark items (mark item pushed)

end Loops

def upsertAll (updates : List RouteUpdate) (pushed : List String) :
    Program Reply (List String × List String) :=
  sendAll (fun update => issue (Call.command (.upsertRoute update)))
    (fun update problem => "upsert " ++ update.modelID ++ ": " ++ problem)
    (fun update pushed => pushed.insert update.modelID) updates pushed

def deleteAll (stale : List String) (pushed : List String) :
    Program Reply (List String × List String) :=
  sendAll deleteRoute
    (fun modelID problem => "delete " ++ modelID ++ ": " ++ problem)
    (fun modelID pushed => pushed.filter (· ≠ modelID)) stale pushed

def joinErrors : List String → Option String
  | [] => none
  | errs => some ("\n".intercalate errs)

/-- One pass.  It returns its error and the routes it knows to have written. -/
def reconcile (pushed : List String) : Program Reply (Option String × List String) := do
  match ← listDeployments with
  | .error problem =>
    return (some ("route reconcile: list deployments: " ++ problem), pushed)
  | .ok deployments => do
      let desired := desiredRoutes deployments
      let observed ← observe pushed
      let order ← mapOrder (desired.rows.map RouteUpdate.modelID)
      let (upsertErrs, pushed) ← upsertAll (order.1.filterMap desired.find) pushed
      let (deleteErrs, pushed) ←
        deleteAll (observed.filter fun modelID => desired.find modelID = none) pushed
      return (joinErrors (upsertErrs ++ deleteErrs), pushed)

theorem desiredRoute_eq_some_iff {deployment : Deployment}
    {update : RouteUpdate} :
    desiredRoute deployment = some update ↔
      deployment.state = .active ∧ servedModel deployment ≠ "" ∧
        deployment.detail.endpoint ≠ "" ∧
        update = ⟨servedModel deployment, deployment.detail.endpoint,
          deployment.id, deployment.detail.quantization, "active"⟩ := by
  unfold desiredRoute
  by_cases active : deployment.state = .active
  · by_cases unnamed : servedModel deployment = ""
    · simp [active, unnamed]
    · by_cases unlocated : deployment.detail.endpoint = ""
      · simp [active, unlocated]
      · simp [active, unnamed, unlocated, eq_comm]
  · simp [active]

theorem exists_of_find_desiredRoutes {deployments : List Deployment}
    {modelID : String} {update : RouteUpdate}
    (found : (desiredRoutes deployments).find modelID = some update) :
    ∃ deployment ∈ deployments, desiredRoute deployment = some update := by
  rw [desiredRoutes, Store.find_foldl_put, Option.or_eq_some_iff] at found
  rcases found with last | ⟨-, impossible⟩
  · exact mem_filterMap.mp (mem_of_mem_filter (mem_of_getLast? last))
  · cases impossible

theorem find_desiredRoutes_ne_none {deployments : List Deployment}
    {deployment : Deployment} (member : deployment ∈ deployments)
    {update : RouteUpdate} (desired : desiredRoute deployment = some update) :
    (desiredRoutes deployments).find update.modelID ≠ none := by
  rw [desiredRoutes, Store.find_foldl_put]
  intro missing
  obtain ⟨empty, -⟩ := Option.or_eq_none_iff.mp missing
  have kept : update ∈ (deployments.filterMap desiredRoute).filter
      (·.modelID = update.modelID) := by
    rw [mem_filter]
    exact ⟨mem_filterMap.mpr ⟨deployment, member, desired⟩, by simp⟩
  rw [getLast?_eq_none_iff.mp empty] at kept
  cases kept

theorem mem_updates {desired : RouteMap}
    (order : { order : List String // order.Perm (desired.rows.map RouteUpdate.modelID) })
    {update : RouteUpdate} :
    update ∈ order.1.filterMap desired.find ↔ desired.find update.modelID = some update := by
  rw [mem_filterMap]
  constructor
  · rintro ⟨modelID, -, found⟩
    rwa [Store.key_of_find found]
  · intro found
    refine ⟨update.modelID, order.2.mem_iff.mpr ?_, found⟩
    exact mem_map_of_mem (Store.find_eq_some_iff.mp found).1

def upsertExchange (update : RouteUpdate) (answer : Option String) : Exchange Reply :=
  ⟨.command (.upsertRoute update), answer⟩

def deleteExchange (modelID : String) (answer : Option String) : Exchange Reply :=
  ⟨.deleteRoute modelID, answer⟩

inductive Observes (pushed : List String) : CallTrace → List String → Prop
  | listed (routed : List String) : Observes pushed [⟨.listRoutes, .ok routed⟩] routed
  | recalled (problem : String)
      (order : { order : List String // order.Perm pushed }) :
      Observes pushed [⟨.listRoutes, .error problem⟩, ⟨.mapOrder pushed, order⟩] order.1

theorem observe_run {pushed : List String} {trace : CallTrace}
    {observed : List String}
    (produced : (observe pushed).Produces trace observed) :
    Observes pushed trace observed := by
  obtain ⟨answer, rest, rfl, continued⟩ := produced.of_issue
  cases answer with
  | ok =>
    obtain ⟨rfl, rfl⟩ := continued
    exact .listed observed
  | error problem =>
    obtain ⟨order, rest, rfl, rfl, rfl⟩ := continued
    exact .recalled problem order

/-- A loop only makes calls for its items, and without errors every one of them
has succeeded. -/
theorem sendAll_run {Item : Type} {send : Item → Program Reply (Option String)}
    {failure : Item → String → String}
    {mark : Item → List String → List String}
    {exchange : Item → Option String → Exchange Reply}
    (sends : ∀ item trace answer,
      (send item).Produces trace answer ↔ trace = [exchange item answer])
    {items : List Item} {pushed : List String} {trace : CallTrace}
    {result : List String × List String}
    (produced : (sendAll send failure mark items pushed).Produces trace result) :
    (∀ sent ∈ trace, ∃ item ∈ items, ∃ answer, sent = exchange item answer) ∧
      (result.1 = [] → trace = items.map fun item => exchange item none) := by
  induction items generalizing pushed trace result with
  | nil =>
    obtain ⟨rfl, rfl⟩ := produced
    simp
  | cons item items induction =>
    obtain ⟨_, answer, rest, rfl, sent, continued⟩ := produced.of_bind
    obtain rfl := (sends _ _ _).mp sent
    have extend : ∀ {looped : CallTrace},
        (∀ sent ∈ looped, ∃ item ∈ items, ∃ answer, sent = exchange item answer) →
        ∀ sent ∈ exchange item answer :: looped,
          ∃ other ∈ item :: items, ∃ answer, sent = exchange other answer := by
      intro looped calls
      rw [forall_mem_cons]
      refine ⟨⟨item, mem_cons_self, answer, rfl⟩, ?_⟩
      intro later member
      obtain ⟨other, otherMember, given, laterEq⟩ := calls later member
      exact ⟨other, mem_cons_of_mem _ otherMember, given, laterEq⟩
    cases answer with
    | none =>
      obtain ⟨calls, complete⟩ := induction continued
      refine ⟨extend calls, fun noErrors => ?_⟩
      rw [complete noErrors, map_cons, singleton_append]
    | some =>
      obtain ⟨_, _, _, rfl, looped, rfl, rfl⟩ := continued.of_bind
      obtain ⟨calls, -⟩ := induction looped
      rw [append_nil]
      exact ⟨extend calls, fun noErrors => by cases noErrors⟩

/-- The calls of a pass that change the gateway. -/
inductive Sends (desired : RouteMap) (observed : List String) :
    Exchange Reply → Prop
  | upsert (update : RouteUpdate) (answer : Option String)
      (found : desired.find update.modelID = some update) :
      Sends desired observed (upsertExchange update answer)
  | delete (modelID : String) (answer : Option String)
      (seen : modelID ∈ observed) (stale : desired.find modelID = none) :
      Sends desired observed (deleteExchange modelID answer)

inductive PassRun (pushed : List String) : CallTrace → Option String → Prop
  | unread (problem : String) :
      PassRun pushed [⟨.listDeployments, .error problem⟩]
        (some ("route reconcile: list deployments: " ++ problem))
  | synced (deployments : List Deployment) (observing : CallTrace)
      (observed : List String)
      (order : { order : List String // order.Perm
        ((desiredRoutes deployments).rows.map RouteUpdate.modelID) })
      (sending : CallTrace) (result : Option String)
      (observes : Observes pushed observing observed)
      (sends : ∀ sent ∈ sending, Sends (desiredRoutes deployments) observed sent)
      (upserts : result = none → ∀ modelID update,
        (desiredRoutes deployments).find modelID = some update →
        upsertExchange update none ∈ sending)
      (deletes : result = none → ∀ modelID ∈ observed,
        (desiredRoutes deployments).find modelID = none →
        deleteExchange modelID none ∈ sending) :
      PassRun pushed (⟨.listDeployments, .ok deployments⟩ :: (observing ++
          ⟨.mapOrder ((desiredRoutes deployments).rows.map RouteUpdate.modelID),
            order⟩ :: sending)) result

theorem joinErrors_eq_none_iff (errs : List String) : joinErrors errs = none ↔ errs = [] := by
  cases errs <;> simp [joinErrors]

theorem reconcile_run {pushed later : List String} {trace : CallTrace}
    {result : Option String}
    (produced : (reconcile pushed).Produces trace (result, later)) :
    PassRun pushed trace result := by
  obtain ⟨answer, rest, rfl, continued⟩ := produced.of_issue
  cases answer with
  | error problem =>
    obtain ⟨rfl, resultEq⟩ := continued
    obtain ⟨rfl, -⟩ := Prod.mk.inj resultEq
    exact .unread problem
  | ok deployments =>
    simp only [produces_bind] at continued
    obtain ⟨observing, observed, _, rfl, observes, ordering, order, _, rfl,
      ordered, upserts, upserted, _, rfl, upserting, deletes, deleted, _, rfl,
      deleting, rfl, resultEq⟩ := continued
    obtain rfl := (produces_issue _ _ _).mp ordered
    obtain ⟨rfl, -⟩ := Prod.mk.inj resultEq
    obtain ⟨upsertCalls, upsertComplete⟩ :=
      @sendAll_run _ _ _ _ upsertExchange (fun _ _ _ => produces_issue _ _ _) _ _ _ _ upserting
    obtain ⟨deleteCalls, deleteComplete⟩ :=
      @sendAll_run _ _ _ _ deleteExchange (fun _ _ _ => produces_issue _ _ _) _ _ _ _ deleting
    rw [append_nil]
    refine .synced deployments observing observed order (upserts ++ deletes) _
      (observe_run observes) ?_ ?_ ?_
    · rw [forall_mem_append]
      refine ⟨fun sent member => ?_, fun sent member => ?_⟩
      · obtain ⟨update, updateMember, answer, rfl⟩ := upsertCalls sent member
        exact .upsert update answer ((mem_updates order).mp updateMember)
      · obtain ⟨modelID, stale, answer, rfl⟩ := deleteCalls sent member
        simp only [mem_filter, decide_eq_true_eq] at stale
        exact .delete modelID answer stale.1 stale.2
    · intro succeeded modelID update found
      rw [joinErrors_eq_none_iff, append_eq_nil_iff] at succeeded
      rw [upsertComplete succeeded.1]
      apply mem_append_left
      refine mem_map_of_mem ((mem_updates order).mpr ?_)
      rwa [Store.key_of_find found]
    · intro succeeded modelID member stale
      rw [joinErrors_eq_none_iff, append_eq_nil_iff] at succeeded
      rw [deleteComplete succeeded.2]
      apply mem_append_right
      refine mem_map_of_mem ?_
      simpa using ⟨member, stale⟩

open ControlPlane Gateway InteractionPrograms KeyedStores SharedWorlds
open InteractionPrograms.Program

def RoutesTo (deployments : List Deployment) (modelID endpoint : String) :
    Prop :=
  ∃ deployment ∈ deployments, deployment.state = .active ∧
    servedModel deployment = modelID ∧ deployment.detail.endpoint = endpoint ∧
    modelID ≠ "" ∧ endpoint ≠ ""

structure Converged (deployments : List Deployment) (table : RouteTable) :
    Prop where
  routed : ∀ modelID endpoint, RoutesTo deployments modelID endpoint → table.routeFor modelID ≠ none
  justified : ∀ modelID route, table.routeFor modelID = some route →
    RoutesTo deployments modelID route.endpoint

def deploymentListing : Exchange Reply → Option (List Deployment)
  | ⟨.listDeployments, .ok deployments⟩ => some deployments
  | _ => none

def routeListing : Exchange Reply → Option (List String)
  | ⟨.listRoutes, .ok routed⟩ => some routed
  | _ => none

def ListsRoutes (trace : CallTrace) : Prop :=
  ∃ exchange ∈ trace, (routeListing exchange).isSome = true

instance (trace : CallTrace) : Decidable (ListsRoutes trace) :=
  inferInstanceAs (Decidable (∃ _ ∈ _, _))

/-- Both passes saw the deployments in the same order. -/
def SameListing (trace again : CallTrace) : Prop := ∀ first ∈ trace.filterMap deploymentListing,
    ∀ second ∈ again.filterMap deploymentListing, first = second

instance (trace again : CallTrace) : Decidable (SameListing trace again) :=
  inferInstanceAs (Decidable (∀ _ ∈ _, ∀ _ ∈ _, _))

variable {deployments : List Deployment} {observed : List String}

variable {others : List Deployment} {modelID : String} {update : RouteUpdate} {trace : CallTrace}

theorem routesTo_of_find (found : (desiredRoutes deployments).find modelID = some update) :
    RoutesTo deployments modelID update.endpoint := by
  obtain ⟨deployment, member, desired⟩ := exists_of_find_desiredRoutes found
  obtain ⟨active, named, located, rfl⟩ := desiredRoute_eq_some_iff.mp desired
  obtain rfl := Store.key_of_find found
  exact ⟨deployment, member, active, rfl, rfl, named, located⟩

theorem find_ne_none_of_routesTo {endpoint : String}
    (routes : RoutesTo deployments modelID endpoint) :
    (desiredRoutes deployments).find modelID ≠ none := by
  obtain ⟨deployment, member, active, rfl, rfl, named, located⟩ := routes
  exact find_desiredRoutes_ne_none member
    (desiredRoute_eq_some_iff.mpr ⟨active, named, located, rfl⟩)

theorem routesTo_perm (perm : deployments.Perm others) {endpoint : String} :
    RoutesTo deployments modelID endpoint ↔ RoutesTo others modelID endpoint := by
  simp only [RoutesTo, perm.mem_iff]

theorem active_of_find (found : (desiredRoutes deployments).find modelID = some update) :
    update.state = "active" := by
  obtain ⟨deployment, -, desired⟩ := exists_of_find_desiredRoutes found
  obtain ⟨-, -, -, rfl⟩ := desiredRoute_eq_some_iff.mp desired
  rfl

def Follows (desired : RouteMap) (observed : List String) : RouteChange → Prop
  | .upsert update => desired.find update.modelID = some update
  | .delete modelID => modelID ∈ observed ∧ desired.find modelID = none

theorem follows_of_sends {desired : RouteMap} {sending : CallTrace}
    (sends : ∀ sent ∈ sending, Sends desired observed sent) :
    ∀ change ∈ (effectsOf sending).routes, Follows desired observed change := by
  intro change member
  obtain ⟨sent, sentMember, changed⟩ := mem_filterMap.mp member
  cases sends sent sentMember with
  | upsert _ answer found =>
    cases answer <;> cases changed
    exact found
  | delete _ answer seen stale =>
    cases answer <;> cases changed
    exact ⟨seen, stale⟩

theorem Follows.sound (plain : ∀ modelID ∈ observed,
      (desiredRoutes deployments).find modelID = none → IsPlain modelID) {change : RouteChange}
    (follows : Follows (desiredRoutes deployments) observed change) : change.Sound := by
  cases change with
  | upsert => exact active_of_find follows
  | delete modelID => exact plain modelID follows.1 follows.2

theorem Follows.leaves_eq {desired : RouteMap} {change : RouteChange}
    (follows : Follows desired observed change) {left : Option ModelRoute}
    (leaving : change.leaves modelID = some left) :
    left = (desired.find modelID).map writtenRoute := by
  cases change with
  | upsert update =>
    obtain ⟨rfl, rfl⟩ := RouteChange.leaves_upsert_eq_some_iff.mp leaving
    have found : desired.find update.modelID = some update := follows
    rw [found]
    rfl
  | delete =>
    obtain ⟨rfl, rfl⟩ := RouteChange.leaves_delete_eq_some_iff.mp leaving
    rw [follows.2]
    rfl

theorem left_of_upsert (member : upsertExchange update none ∈ trace) :
    some (writtenRoute update) ∈ leftFor update.modelID trace :=
  mem_filterMap.mpr ⟨.upsert update, mem_filterMap.mpr ⟨_, member, rfl⟩, if_pos rfl⟩

theorem left_of_delete (member : deleteExchange modelID none ∈ trace) :
    none ∈ leftFor modelID trace :=
  mem_filterMap.mpr ⟨.delete modelID, mem_filterMap.mpr ⟨_, member, rfl⟩, if_pos rfl⟩

theorem routeFor_of_follows {cluster : Cluster}
    (accepted : (controlWorld httpCalls).Accepts cluster trace)
    (follows : ∀ change ∈ (effectsOf trace).routes,
      Follows (desiredRoutes deployments) observed change) (plain : ∀ modelID ∈ observed,
      (desiredRoutes deployments).find modelID = none → IsPlain modelID)
    (settled : cluster.routes.routeFor modelID =
        ((desiredRoutes deployments).find modelID).map writtenRoute ∨
      ∃ left, left ∈ leftFor modelID trace) :
    ((controlWorld httpCalls).after cluster trace).routes.routeFor modelID =
      ((desiredRoutes deployments).find modelID).map writtenRoute := by
  refine @routeFor_after_settles modelID cluster trace
    (· = ((desiredRoutes deployments).find modelID).map writtenRoute) accepted (fun change member => (follows change member).sound plain) ?_ settled
  intro left member
  obtain ⟨change, changed, leaving⟩ := mem_filterMap.mp member
  exact (follows change changed).leaves_eq leaving

theorem mem_modelIDs_iff {table : RouteTable} :
    modelID ∈ table.rows.map RouteEntry.modelID ↔ table.routeFor modelID ≠ none := by
  rw [RouteTable.routeFor, Ne, Option.map_eq_none_iff, Store.find_eq_none_iff, not_not]

theorem listed_run {pushed : List String} {result : Option String}
    (run : PassRun pushed trace result) (listed : ListsRoutes trace) :
    ∃ deployments observed order sending,
      trace = ⟨.listDeployments, .ok deployments⟩ :: ⟨.listRoutes, .ok observed⟩ ::
        ⟨.mapOrder ((desiredRoutes deployments).rows.map RouteUpdate.modelID), order⟩ :: sending ∧
      (∀ sent ∈ sending, Sends (desiredRoutes deployments) observed sent) ∧
      (result = none → ∀ modelID update, (desiredRoutes deployments).find modelID = some update →
        upsertExchange update none ∈ sending) ∧
      (result = none → ∀ modelID ∈ observed, (desiredRoutes deployments).find modelID = none →
        deleteExchange modelID none ∈ sending) := by
  obtain ⟨exchange, member, isListing⟩ := listed
  cases run with
  | unread =>
    obtain rfl := mem_singleton.mp member
    cases isListing
  | synced deployments observing observed order sending result observes sends
      upserts deletes =>
      cases observes with
      | listed => exact ⟨_, _, _, _, rfl, sends, upserts, deletes⟩
      | recalled =>
        simp only [cons_append, nil_append, mem_cons] at member
        rcases member with rfl | rfl | rfl | rfl | sent
        iterate 4 cases isListing
        cases sends _ sent <;> cases isListing

theorem converged_of_routeFor (perm : deployments.Perm others)
    (trimmed : ∀ row ∈ others, row.state = .active →
      trim row.detail.endpoint = row.detail.endpoint) {table : RouteTable}
    (routes : ∀ modelID, table.routeFor modelID =
      ((desiredRoutes deployments).find modelID).map writtenRoute) :
    Converged others table where
  routed modelID endpoint wanted := by
    rw [routes, Ne, Option.map_eq_none_iff]
    exact find_ne_none_of_routesTo ((routesTo_perm perm).mpr wanted)
  justified modelID route found := by
    rw [routes] at found
    obtain ⟨update, desired, rfl⟩ := Option.map_eq_some_iff.mp found
    have wanted := (routesTo_perm perm).mp (routesTo_of_find desired)
    obtain ⟨row, member, active, served, endpointEq, -, -⟩ := id wanted
    have written : (writtenRoute update).endpoint = update.endpoint := by
      rw [← endpointEq]
      exact (congrArg trim endpointEq.symm).trans (trimmed row member active)
    rwa [written]

section Passes

variable {cluster : Cluster} {sending : CallTrace}

section

variable (accepted : (controlWorld httpCalls).Accepts cluster sending)
  (observes : observed.Perm (cluster.routes.rows.map RouteEntry.modelID))
  (sends : ∀ sent ∈ sending, Sends (desiredRoutes deployments) observed sent)

include accepted observes sends

/-- Where the desired routes are in place, the calls of a pass keep them, whether
they succeed or not. -/
theorem routeFor_after_resending (routes : ∀ modelID, cluster.routes.routeFor modelID =
      ((desiredRoutes deployments).find modelID).map writtenRoute) (modelID : String) :
    ((controlWorld httpCalls).after cluster sending).routes.routeFor modelID =
      cluster.routes.routeFor modelID := by
  rw [routes]
  refine routeFor_of_follows accepted (follows_of_sends sends) ?_ (Or.inl (routes modelID))
  -- nothing that is routed is stale
  intro other seen stale
  have routed := mem_modelIDs_iff.mp (observes.mem_iff.mp seen)
  rw [routes, stale] at routed
  exact absurd rfl routed

end

end Passes

def llamaRow : Deployment where
  id := "dep-1"
  modelID := "llama"
  planID := "plan-1"
  state := .active
  detail := { modelID := "llama", quantization := "Q4", endpoint := "http://n1:8000" }

def llamaRoute : ModelRoute := ⟨"http://n1:8000", "dep-1", "Q4", .active⟩

def staleCluster (stale : String) : Cluster where
  deployments := Store.empty.insert llamaRow
  routes := (RouteTable.insertRoute .empty "llama" llamaRoute).insertRoute stale
    ⟨"http://n2:8000", "dep-0", "Q4", .active⟩

def wirePass (cluster : Cluster) (pushed : List String) : CallTrace × Option String × List String :=
  (controlWorld httpCalls).play Cluster.untroubledReply cluster (reconcile pushed)

theorem produces_wirePass (cluster : Cluster) (pushed : List String) :
    (reconcile pushed).Produces (wirePass cluster pushed).1
      ((wirePass cluster pushed).2.1, (wirePass cluster pushed).2.2) :=
  Interface.produces_play _ cluster _

def settledCluster : Cluster := (controlWorld httpCalls).after (staleCluster "old model")
    (wirePass (staleCluster "old model") []).1

end Purser.RouteReconciler
