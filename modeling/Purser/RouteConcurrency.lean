import Purser.RouteConvergence

/-!
# Route passes next to deployments that come and go

A pass knows what it read at its beginning, while plans are applied and
deployments torn down.  It may delete the route that has just been published.
-/

namespace Purser.RouteReconciler

open ControlPlane Gateway InteractionPrograms KeyedStores SharedWorlds List
open InteractionPrograms.Program
open Orchestrator (ApplyError ApplyResult Deployment DeploymentPlan RouteUpdate applyPlan teardown)

variable {exchange : Exchange Reply} {deployments : List Deployment} {final : Cluster}

/-- What runs next to a pass. -/
inductive Change where
  | apply (agentsConfigured : Bool) (plan : Option DeploymentPlan)
  | teardown (deploymentID : String)

def Change.program : Change → Program Reply (Option String)
  | .apply agentsConfigured plan => do
      let result ← applyPlan agentsConfigured plan
      return result.error.map ApplyError.text
  | .teardown deploymentID => Orchestrator.teardown deploymentID

section Histories

variable {Thread : Type}

def routeSync (pushed : List String) (changes : Thread → Change) :
    Option Thread → Program Reply (Option String)
  | none => do
      let result ← reconcile pushed
      return result.1
  | some thread => (changes thread).program

def HasActive (deployments : List Deployment) (modelID : String) : Prop :=
  ∃ deployment ∈ deployments, deployment.state = .active ∧ servedModel deployment = modelID

instance (deployments : List Deployment) (modelID : String) :
    Decidable (HasActive deployments modelID) :=
  inferInstanceAs (Decidable (∃ _ ∈ _, _))

/-- The gateway routes the model exactly if an active deployment serves it. -/
def RouteAgrees (cluster : Cluster) (modelID : String) : Prop :=
  cluster.routes.routeFor modelID ≠ none ↔ HasActive cluster.deployments.rows modelID

instance (cluster : Cluster) (modelID : String) : Decidable (RouteAgrees cluster modelID) :=
  inferInstanceAs (Decidable (_ ↔ _))

def publishedModel : Exchange Reply → Option String
  | ⟨.command (.upsertRoute update), _⟩ => some update.modelID
  | _ => none

def deletedModel : Exchange Reply → Option String
  | ⟨.deleteRoute modelID, _⟩ => some modelID
  | _ => none

/-- What the pass has read about a model stays true, and the later calls of the
changes agree with it. -/
structure StaysTrue (listed : List Deployment)
    (rest : History (Option Thread) Reply) (final : Cluster) (modelID : String) :
    Prop where
  current : HasActive listed modelID ↔ HasActive final.deployments.rows modelID
  kept : HasActive listed modelID → ∀ entry ∈ rest, entry.1 ≠ none →
    deletedModel entry.2 ≠ some modelID
  withheld : ¬HasActive listed modelID → ∀ entry ∈ rest, entry.1 ≠ none →
    publishedModel entry.2 ≠ some modelID

theorem Change.active_of_upsert {change : Change} {trace : CallTrace} {result : Option String}
    (produced : change.program.Produces trace result) {update : RouteUpdate}
    (member : RouteChange.upsert update ∈ (effectsOf trace).routes) : update.state = "active" := by
  cases change with
  | apply =>
    obtain ⟨_, _, _, rfl, applied, rfl, -⟩ := produced.of_bind
    obtain ⟨digits, rest, rfl, lifted⟩ := applied
    obtain ⟨inner, rfl, innerProduced⟩ := produces_of_lift lifted
    rw [append_nil] at member
    obtain ⟨detail, same⟩ := (effects_of_apply innerProduced).2 _ member
    obtain rfl := RouteChange.upsert.inj same
    rfl
  | teardown deploymentID =>
    cases Orchestrator.teardown_run produced with
    | missing => cases member
    | stopped deployment stops removal marked noted finished closed rolledBack
        removed =>
        obtain ⟨changes, effects, -, -⟩ := effectsOf_teardownTrace rolledBack removed
        rw [effects] at member
        cases removed with
        | unnamed => cases member
        | named _ answer =>
          cases answer
          · cases mem_singleton.mp member
          · cases member

def taken : RouteChange → Exchange Reply
  | .upsert update => upsertExchange update none
  | .delete modelID => deleteExchange modelID none

theorem exchange_of_routeChangeOf {change : RouteChange}
    (changed : routeChangeOf exchange = some change) : exchange = taken change := by
  obtain ⟨call, answer⟩ := exchange
  cases call with
  | command command => cases command <;> cases answer <;> cases changed; rfl
  | deleteRoute => cases answer <;> cases changed; rfl
  | _ => cases changed

variable {modelID : String} {listed : List Deployment} {rest : History (Option Thread) Reply}

theorem find_ne_none_iff_hasActive (named : modelID ≠ "")
    (located : ∀ deployment ∈ deployments, deployment.state = .active →
      servedModel deployment = modelID → deployment.detail.endpoint ≠ "") :
    (desiredRoutes deployments).find modelID ≠ none ↔ HasActive deployments modelID := by
  constructor
  · intro desired
    obtain ⟨update, found⟩ := Option.ne_none_iff_exists'.mp desired
    obtain ⟨deployment, member, active, served, -, -, -⟩ := routesTo_of_find found
    exact ⟨deployment, member, active, served⟩
  · rintro ⟨deployment, member, active, served⟩
    exact find_ne_none_of_routesTo ⟨deployment, member, active, served, rfl, named,
      located deployment member active served⟩

theorem reads_once {observed keys : List String} {desired : RouteMap}
    {order : { order : List String // order.Perm keys }} {earlier later sending : CallTrace}
    (shape : earlier ++ ⟨.listDeployments, .ok listed⟩ :: later =
      ⟨.listDeployments, .ok deployments⟩ :: ⟨.listRoutes, .ok observed⟩ ::
        ⟨.mapOrder keys, order⟩ :: sending)
    (sends : ∀ sent ∈ sending, Sends desired observed sent) :
    listed = deployments ∧
      later = ⟨.listRoutes, .ok observed⟩ :: ⟨.mapOrder keys, order⟩ :: sending := by
  cases earlier with
  | nil =>
    obtain ⟨same, laterEq⟩ := List.cons.inj shape
    cases same
    exact ⟨rfl, laterEq⟩
  | cons =>
    have again : (⟨.listDeployments, .ok listed⟩ : Exchange Reply) ∈
        ⟨.listRoutes, .ok observed⟩ :: ⟨.mapOrder keys, order⟩ :: sending := by
      rw [← (List.cons.inj shape).2]
      simp
    rcases mem_cons.mp again with same | again
    · cases same
    rcases mem_cons.mp again with same | sent
    · cases same
    cases sends _ sent

theorem exists_entry_of_change {change : RouteChange}
    (member : change ∈ (effectsOf (rest.map Prod.snd)).routes) :
    ∃ thread exchange, (thread, exchange) ∈ rest ∧ routeChangeOf exchange = some change := by
  obtain ⟨exchange, exchanged, changed⟩ := mem_filterMap.mp member
  obtain ⟨⟨thread, _⟩, entry, rfl⟩ := mem_map.mp exchanged
  exact ⟨thread, _, entry, changed⟩

theorem StaysTrue.mono {later : History (Option Thread) Reply}
    (staysTrue : StaysTrue listed rest final modelID) (subset : later ⊆ rest) :
    StaysTrue listed later final modelID where
  current := staysTrue.current
  kept active entry member := staysTrue.kept active entry (subset member)
  withheld inactive entry member := staysTrue.withheld inactive entry (subset member)

structure Race (listed : List Deployment) (observed : List String)
    (rest : History (Option Thread) Reply) : Prop where
  passes : ∀ exchange change, (none, exchange) ∈ rest →
    routeChangeOf exchange = some change →
    Follows (desiredRoutes listed) observed change
  publishes : ∀ thread update,
    (some thread, upsertExchange update none) ∈ rest → update.state = "active"
  plain : ∀ entry ∈ rest, ∀ deleted ∈ deletedModel entry.2, IsPlain deleted
  upserts : ∀ modelID update,
    (desiredRoutes listed).find modelID = some update →
    (none, upsertExchange update none) ∈ rest
  deletes : ∀ modelID ∈ observed,
    (desiredRoutes listed).find modelID = none →
    (none, deleteExchange modelID none) ∈ rest

namespace Race

variable {listed : List Deployment} {observed : List String}
  {rest : History (Option Thread) Reply}

theorem sound (race : Race listed observed rest) :
    ∀ change ∈ (effectsOf (rest.map Prod.snd)).routes, change.Sound := by
  intro change member
  obtain ⟨thread, exchange, entry, changed⟩ := exists_entry_of_change member
  cases change with
  | delete deleted =>
    obtain rfl := exchange_of_routeChangeOf changed
    exact race.plain _ entry deleted rfl
  | upsert update =>
    cases thread with
    | none =>
      have found : (desiredRoutes listed).find update.modelID = some update :=
        race.passes exchange _ entry changed
      exact active_of_find found
    | some thread =>
      obtain rfl := exchange_of_routeChangeOf changed
      exact race.publishes thread update entry

/-- Every call about the model leaves what the deployments that were read ask
for. -/
theorem settles (race : Race listed observed rest) {modelID : String}
    (staysTrue : StaysTrue listed rest final modelID)
    (desired : (desiredRoutes listed).find modelID ≠ none ↔ HasActive listed modelID) :
    ∀ left ∈ leftFor modelID (rest.map Prod.snd), left ≠ none ↔ HasActive listed modelID := by
  intro left member
  obtain ⟨change, changeMember, leaving⟩ := mem_filterMap.mp member
  obtain ⟨thread, exchange, entry, changed⟩ := exists_entry_of_change changeMember
  cases thread with
  | none =>
    rw [(race.passes exchange change entry changed).leaves_eq leaving, Ne, Option.map_eq_none_iff]
    exact desired
  | some =>
    cases change with
    | upsert =>
      obtain rfl := exchange_of_routeChangeOf changed
      obtain ⟨same, rfl⟩ := RouteChange.leaves_upsert_eq_some_iff.mp leaving
      refine iff_of_true (Option.some_ne_none _) ?_
      by_contra inactive
      exact staysTrue.withheld inactive _ entry (Option.some_ne_none _) (congrArg some same)
    | delete =>
      obtain rfl := exchange_of_routeChangeOf changed
      obtain ⟨rfl, rfl⟩ := RouteChange.leaves_delete_eq_some_iff.mp leaving
      refine iff_of_false (not_not.mpr rfl) ?_
      intro active
      exact staysTrue.kept active _ entry (Option.some_ne_none _) rfl

/-- The race ends with the route that the deployments ask for. -/
theorem routed_iff (race : Race listed observed rest) {cluster : Cluster} {modelID : String}
    (accepted : (controlWorld httpCalls).Accepts cluster (rest.map Prod.snd))
    (observes : observed.Perm (cluster.routes.rows.map RouteEntry.modelID))
    (staysTrue : StaysTrue listed rest final modelID)
    (desired : (desiredRoutes listed).find modelID ≠ none ↔ HasActive listed modelID) :
    ((controlWorld httpCalls).after cluster (rest.map Prod.snd)).routes.routeFor modelID ≠ none ↔
      HasActive listed modelID := by
  refine @routeFor_after_settles modelID _ _
    (fun route => route ≠ none ↔ HasActive listed modelID) accepted
    race.sound (race.settles staysTrue desired) ?_
  cases found : (desiredRoutes listed).find modelID with
  | some update =>
    obtain rfl := Store.key_of_find found
    exact Or.inr ⟨_, left_of_upsert (mem_map_of_mem (race.upserts _ update found))⟩
  | none =>
    by_cases routed : cluster.routes.routeFor modelID = none
    · rw [routed, ← desired, found]
      exact Or.inl (iff_of_false (not_not.mpr rfl) (not_not.mpr rfl))
    · have seen := observes.mem_iff.mpr (mem_modelIDs_iff.mpr routed)
      exact Or.inr ⟨_, left_of_delete (mem_map_of_mem (race.deletes modelID seen found))⟩

end Race

variable [DecidableEq Thread]

/-- The pass and the changes have all come to their end without an error. -/
structure Finishes (pushed : List String) (changes : Thread → Change)
    (cluster : Cluster) (history : History (Option Thread) Reply) : Prop where
  interleaves : Interleaves (controlWorld httpCalls) (routeSync pushed changes) cluster history
  succeeded : ∀ thread, (routeSync pushed changes thread).Produces (ownPart thread history) none

/-- From the listing of the routes on, the pass only sends what it desires. -/
theorem exists_race {pushed : List String} {changes : Thread → Change} {cluster : Cluster}
    {history before : History (Option Thread) Reply}
    (finishes : Finishes pushed changes cluster history)
    (couldList : ListsRoutes (ownPart none history))
    (split : history = before ++ (none, ⟨.listDeployments, .ok listed⟩) :: rest)
    (plain : ∀ entry ∈ rest, ∀ deleted ∈ deletedModel entry.2, IsPlain deleted) :
    ∃ reading observed racing,
      rest = reading ++ (none, ⟨.listRoutes, .ok observed⟩) :: racing ∧
        Race listed observed racing := by
  have passed := finishes.succeeded none
  obtain ⟨trace, ⟨result, later⟩, _, traceEq, produced, rfl, resultEq⟩ := passed.of_bind
  obtain rfl : none = result := resultEq
  rw [append_nil] at traceEq
  rw [traceEq] at couldList
  obtain ⟨deployments, observed, order, sending, rfl, sends, upserts, deletes⟩ :=
    listed_run (reconcile_run produced) couldList
  rw [split, ownPart_append] at traceEq
  obtain ⟨rfl, restOwn⟩ := reads_once traceEq sends
  obtain ⟨reading, racing, rfl, -, racingOwn⟩ := exists_of_ownPart_eq_cons restOwn
  have later : ∀ entry ∈ racing,
      entry ∈ reading ++ (none, ⟨.listRoutes, .ok observed⟩) :: racing := by
    intro entry member
    simp [member]
  have sent : ∀ {exchange}, exchange ∈ sending → (none, exchange) ∈ racing := by
    intro exchange member
    rw [← mem_ownPart, racingOwn]
    exact mem_cons_of_mem _ member
  refine ⟨reading, observed, racing, rfl, ?_, ?_, ?_, ?_, ?_⟩
  · intro exchange change member changed
    rw [← mem_ownPart, racingOwn] at member
    rcases mem_cons.mp member with rfl | member
    · cases changed
    · exact follows_of_sends sends change (mem_filterMap.mpr ⟨exchange, member, changed⟩)
  · intro thread update member
    apply Change.active_of_upsert (finishes.succeeded (some thread))
    refine mem_filterMap.mpr ⟨upsertExchange update none, ?_, rfl⟩
    rw [mem_ownPart, split]
    exact mem_append_right _ (mem_cons_of_mem _ (later _ member))
  · exact fun entry member => plain entry (later entry member)
  · exact fun modelID update found => sent (upserts rfl modelID update found)
  · exact fun modelID seen stale => sent (deletes rfl modelID seen stale)

/-- Whatever else comes and goes, a model is routed in the end exactly if it has an
active deployment, provided the pass is not overtaken on that model. -/
theorem sync_agrees {pushed : List String} {changes : Thread → Change}
    {cluster : Cluster} {history before rest : History (Option Thread) Reply}
    {listed : List Deployment} {modelID : String}
    (finishes : Finishes pushed changes cluster history)
    (couldList : ListsRoutes (ownPart none history))
    (split : history = before ++ (none, ⟨.listDeployments, .ok listed⟩) :: rest)
    (named : modelID ≠ "")
    (located : ∀ deployment ∈ listed, deployment.state = .active →
      servedModel deployment = modelID → deployment.detail.endpoint ≠ "")
    (plain : ∀ entry ∈ rest, ∀ deleted ∈ deletedModel entry.2, IsPlain deleted)
    (staysTrue : StaysTrue listed rest
      ((controlWorld httpCalls).after cluster (history.map Prod.snd)) modelID) :
    RouteAgrees ((controlWorld httpCalls).after cluster (history.map Prod.snd))
      modelID := by
  obtain ⟨reading, observed, racing, rfl, race⟩ :=
    exists_race finishes couldList split plain
  have shape : history.map Prod.snd =
      (before ++ (none, ⟨.listDeployments, .ok listed⟩) :: reading).map Prod.snd ++
        ⟨.listRoutes, .ok observed⟩ :: racing.map Prod.snd := by
    rw [split]
    simp
  have accepted := finishes.interleaves.accepted
  have current := staysTrue.current
  rw [shape] at accepted current ⊢
  obtain ⟨-, observedPerm, racingAccepted⟩ := accepted.of_append
  have later : racing ⊆ reading ++ (none, ⟨.listRoutes, .ok observed⟩) :: racing := by
    intro entry member
    simp [member]
  rw [RouteAgrees, ← current, Interface.after_append]
  exact race.routed_iff racingAccepted observedPerm (staysTrue.mono later)
    (find_ne_none_iff_hasActive named located)

end Histories

def singlePlan (modelID : String) : DeploymentPlan where
  planID := "plan-1"
  modelID := modelID
  quantization := "Q4"
  assignments := [{ nodeID := "a", role := .host, layerStart := 0, layerEnd := 32 }]

def singleChange (modelID : String) (_ : Unit) : Change := .apply true (some (singlePlan modelID))

section Overtaking

variable (cluster : Cluster) (modelID : String) (asked : ℕ)

def applied : CallTrace × Option String :=
  (controlWorld httpCalls).play Cluster.untroubledReply cluster (singleChange modelID ()).program

/-- The world when the record of the new deployment has just been made. -/
def opened : Cluster := (controlWorld httpCalls).after cluster ((applied cluster modelID).1.take 2)

def activated : Cluster := (controlWorld httpCalls).after cluster (applied cluster modelID).1

/-- A pass that makes its first calls when the record has just been made, and the
others when the plan is applied. -/
def overtaken : CallTrace × Option String × List String :=
  (reconcile []).run (fun said call =>
    (if said.length < asked then opened cluster modelID
      else activated cluster modelID).untroubledReply call) []

def overtaking : History (Option Unit) Reply :=
  tagged (some ()) ((applied cluster modelID).1.take 2) ++
    (tagged none ((overtaken cluster modelID asked).1.take asked) ++
      (tagged (some ()) ((applied cluster modelID).1.drop 2) ++
        tagged none ((overtaken cluster modelID asked).1.drop asked)))

variable {cluster modelID asked}

theorem finishes_overtaking (appliedWell : (applied cluster modelID).2 = none)
    (passedWell : (overtaken cluster modelID asked).2.1 = none)
    (accepted : (controlWorld httpCalls).Accepts cluster
      ((overtaking cluster modelID asked).map Prod.snd)) :
    Finishes [] (singleChange modelID) cluster (overtaking cluster modelID asked) := by
  have succeeded : ∀ thread, (routeSync [] (singleChange modelID) thread).Produces
      (ownPart thread (overtaking cluster modelID asked)) none := by
    intro thread
    rw [overtaking, ownPart_append, ownPart_append, ownPart_append]
    cases thread with
    | none =>
      rw [ownPart_tagged_of_ne (by decide), ownPart_tagged_self,
        ownPart_tagged_of_ne (by decide), ownPart_tagged_self, nil_append,
        nil_append, take_append_drop, routeSync, produces_bind]
      exact ⟨_, _, [], (append_nil _).symm, produces_run _ _ _, rfl, passedWell.symm⟩
    | some =>
      rw [ownPart_tagged_self, ownPart_tagged_of_ne (Option.some_ne_none _).symm,
        ownPart_tagged_self, ownPart_tagged_of_ne (Option.some_ne_none _).symm,
        nil_append, append_nil, ← appliedWell]
      exact Interface.produces_play _ cluster _
  exact ⟨⟨accepted, fun thread => (succeeded thread).performs⟩, succeeded⟩

end Overtaking

/-- The pass reads that the deployment is not active yet, and deletes the route
that is published right afterwards. -/
theorem pass_deletes_published_route :
    Finishes [] (singleChange "llama") {} (overtaking {} "llama" 1) ∧
      ListsRoutes (ownPart none (overtaking {} "llama" 1)) ∧
      ¬RouteAgrees ((controlWorld httpCalls).after {}
        ((overtaking {} "llama" 1).map Prod.snd)) "llama" :=
  ⟨finishes_overtaking (by decide +kernel) (by decide +kernel) (by decide +kernel),
    by decide +kernel, by decide +kernel⟩

/-- Another model may come up in the meantime. -/
theorem sync_agrees_llama : HasActive (staleCluster "old model").deployments.rows "llama" ∧
      RouteAgrees ((controlWorld httpCalls).after (staleCluster "old model")
        ((overtaking (staleCluster "old model") "mistral" 2).map Prod.snd))
        "llama" := by
  have finishes : Finishes [] (singleChange "mistral") (staleCluster "old model")
      (overtaking (staleCluster "old model") "mistral" 2) :=
    finishes_overtaking (by decide +kernel) (by decide +kernel) (by decide +kernel)
  have split : overtaking (staleCluster "old model") "mistral" 2 =
      tagged (some ()) ((applied (staleCluster "old model") "mistral").1.take 2) ++
        (none, ⟨.listDeployments,
          .ok (opened (staleCluster "old model") "mistral").deployments.rows⟩) ::
        (overtaking (staleCluster "old model") "mistral" 2).drop 3 := rfl
  refine ⟨by decide +kernel, ?_⟩
  exact sync_agrees finishes (by decide +kernel) split (by decide)
    (by decide +kernel) (by decide +kernel)
    ⟨by decide +kernel, by decide +kernel, by decide +kernel⟩

end Purser.RouteReconciler
