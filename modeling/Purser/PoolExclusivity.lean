import Purser.FailoverConduct
import Purser.FailoverPlacement
import Purser.ModelDeployment

/-!
# Exclusive pools

The pools restrict only the plans that the server makes itself, and only if the
lookup finds a node.  Plans that come with the request, stored plans and
replacement plans are not checked.
-/

namespace Purser.Management

open List

open ControlPlane (Cluster Reply controlWorld)
open Gateway (RouteCalls)
open InteractionPrograms Program SharedWorlds RelyGuarantee
open KeyedStores (Store)
open Orchestrator (DeploymentPlan)
open Reconciler (FailoverPlanner PlansClear ReplacementsClear ResolvesOnly StaysClear bigNode
  fleetCluster fleetPlanner handleNodeDown nodeDownEvent orchestratorActuator
  replacementConduct)

/-- The control plane: its server, its orchestrator and its reconciler. -/
structure Operations where
  setup : Setup
  agentsConfigured : Bool := true
  planner : Option FailoverPlanner := none

inductive Work where
  | deploy (request : Request) (identity : Identity) (modelID : String)
      (body : Except String DeployRequest)
  | failover (event : Reconciler.Event)

inductive WorkResult where
  | answered (response : Response)
  | handled (acted : Bool)

def Work.program (operations : Operations) : Work → Program ServerReply WorkResult
  | .deploy request identity modelID body => do
      let response ← handleDeployModel
        { operations.setup with
          deployer := some (orchestratorDeployer operations.agentsConfigured) }
        request identity modelID body
      return .answered response
  | .failover event => do
      let acted ← callControl (handleNodeDown
        (orchestratorActuator operations.agentsConfigured) operations.planner event)
      return .handled acted

def lookedUp : Exchange ServerReply → Option (String × String)
  | ⟨.control (.command (.resolve nodeID)), .ok endpoint⟩ => some (nodeID, endpoint.agentAddr)
  | _ => none

def startedAt : Exchange ServerReply → Option String
  | ⟨.control (.command (.startEngine addr _)), _⟩ => some addr
  | _ => none

def Receives (trace : ServerTrace) (nodeID : String) : Prop :=
  ∃ addr ∈ trace.filterMap startedAt, (nodeID, addr) ∈ trace.filterMap lookedUp

instance (trace : ServerTrace) (nodeID : String) : Decidable (Receives trace nodeID) :=
  inferInstanceAs (Decidable (∃ addr ∈ trace.filterMap startedAt, _))

section Histories

variable {Thread : Type} [DecidableEq Thread]

/-- The deployment that a thread sets up was requested with a key of the tenant: it is
the one that was asked for, or one that replaces it. -/
inductive WorksFor (work : Thread → Work) (history : History Thread ServerReply) :
    Thread → String → Prop
  | deploy (thread : Thread) (request : Request) (identity : Identity) (modelID : String)
      (body : Except String DeployRequest) (key : APIKey)
      (asked : work thread = .deploy request identity modelID body)
      (caller : identity.apiKey = some key) : WorksFor work history thread key.tenant
  | failover (thread other : Thread) (event : Reconciler.Event) (tenant : String)
      (asked : work thread = .failover event) (earlier : WorksFor work history other tenant)
      (created : Creates (ownPart other history) event.deploymentID) :
      WorksFor work history thread tenant

/-- No node of an exclusive pool works for another tenant than its owner. -/
def PoolsExclusive (work : Thread → Work) (pools : PoolTables)
    (history : History Thread ServerReply) : Prop :=
  ∀ thread tenant, WorksFor work history thread tenant → tenant ≠ "" →
    ∀ nodeID, Receives (ownPart thread history) nodeID →
      ∀ pool owner, pools.getPoolForNode nodeID = some pool → pool.OwnedBy owner → owner = tenant

end Histories

/-- The node is for everybody, or for the tenant. -/
def PoolTables.OpenTo (tables : PoolTables) (tenant nodeID : String) : Prop :=
  ∀ pool owner, tables.getPoolForNode nodeID = some pool → pool.OwnedBy owner → owner = tenant

/-- The node is not exclusively for a team. -/
def PoolTables.Common (tables : PoolTables) (nodeID : String) : Prop :=
  ∀ pool owner, tables.getPoolForNode nodeID = some pool → ¬pool.OwnedBy owner

def FindsNodes : Exchange ServerReply → Prop
  | ⟨.getAllowedNodeIDs _, .ok nodes⟩ => nodes ≠ []
  | ⟨.getAllowedNodeIDs _, .error _⟩ => False
  | _ => True

instance : DecidablePred FindsNodes := by
  intro exchange
  unfold FindsNodes
  split <;> infer_instance

/-- A request with a key of a tenant leaves planning to the server. -/
def Work.Planned : Work → Prop
  | .deploy _ identity _ (.ok body) =>
    (∃ key, identity.apiKey = some key ∧ key.tenant ≠ "") → body.plan = none ∧ body.planID = ""
  | _ => True

/-- Pools stay, and replacement plans use common nodes only. -/
def siteConduct (pools : PoolTables) : Conduct Site where
  Evolves first second := second.pools = first.pools ∧
    (replacementConduct pools.Common).Evolves first.cluster second.cluster
  refl site := ⟨rfl, (replacementConduct pools.Common).refl site.cluster⟩
  trans := by
    rintro first second third ⟨same, evolves⟩ ⟨laterSame, further⟩
    exact ⟨laterSame.trans same, (replacementConduct pools.Common).trans evolves further⟩

/-- Agents are only looked up for these nodes. -/
def Places (free : String → Prop) (exchange : Exchange ServerReply) : Prop :=
  ∀ nodeID, exchange.command = .control (.command (.resolve nodeID)) → free nodeID

def ServerCall.isBeside : ServerCall → Bool
  | .control inner => Reconciler.isPassive inner
  | .createModel _ => false
  | _ => true

section Guarantees

variable {calls : RouteCalls} {pools : PoolTables} {free : String → Prop} {site : Site}

abbrev KeepsPools (calls : RouteCalls) (pools : PoolTables) (free : String → Prop) {Value : Type} :
    (Value → Site → Prop) → Program ServerReply Value → Site → Prop :=
  Guarantees (restricted (siteWorld calls) FindsNodes) (siteConduct pools) (Places free)

theorem guarantees_callControl {Value : Type} {program : Program Reply Value}
    {post : Value → Cluster → Prop}
    (guarantees : Guarantees (controlWorld calls) (replacementConduct pools.Common)
      (ResolvesOnly free) post program site.cluster) :
    KeepsPools calls pools free (fun value later => post value later.cluster) (callControl program) site := by
  induction program generalizing site with
  | done => exact fun later evolves => guarantees later.cluster evolves.2
  | call command next induction =>
    intro later evolves answer allowed
    obtain ⟨resolves, changes, rest⟩ := guarantees later.cluster evolves.2 answer allowed.1
    refine ⟨fun nodeID same => ?_, ⟨rfl, changes⟩, induction answer rest⟩
    cases same
    exact resolves nodeID rfl

theorem beside {asked : ServerCall} (isBeside : asked.isBeside = true) (later : Site)
    (answer : ServerReply asked) :
    Places free ⟨asked, answer⟩ ∧
      (siteConduct pools).Evolves later (later.effect calls ⟨asked, answer⟩) := by
  have conduct := (replacementConduct pools.Common).refl later.cluster
  cases asked with
  | control inner =>
    obtain ⟨resolves, evolves⟩ := @Reconciler.passive calls pools.Common free inner isBeside
      later.cluster answer
    refine ⟨?_, rfl, evolves⟩
    intro nodeID same
    cases same
    exact resolves nodeID rfl
  | createModel => cases isBeside
  | requestDeploymentApproval | recordApprovalVote | updateDeploymentApprovalStatus =>
    refine ⟨fun nodeID same => (by cases same), (by unfold Site.effect; split <;> rfl), ?_⟩
    cases answer <;> exact conduct
  | _ => exact ⟨fun nodeID same => (by cases same), rfl, conduct⟩

theorem guarantees_of_beside {Value : Type} {final : Value → Prop}
    {program : Program ServerReply Value} (uses : program.Uses (·.isBeside = true))
    (results : ∀ trace value, program.Produces trace value → final value) :
    KeepsPools calls pools free (fun value _ => final value) program site :=
  guarantees_of_uses uses (fun _ isBeside later answer _ => beside isBeside later answer) results

theorem isBeside_of_isPlanning (asked : ServerCall) (planning : asked.isPlanning = true) :
    asked.isBeside = true := by
  cases asked with
  | control inner => cases inner <;> first | rfl | cases planning
  | createModel => cases planning
  | _ => rfl

variable {modelID : String} {identity : Identity}

theorem allowed_of_plan {rt : Planner.Runtime} {ctx : Planner.Context} {c : Planner.Constraints}
    {trace : ControlPlane.CallTrace} {plan : DeploymentPlan}
    (produced : (Planning.plan rt ctx modelID c).Produces trace (.ok plan))
    (some : c.allowedNodeIDs ≠ []) :
    ∀ shard ∈ plan.assignments, shard.nodeID ∈ c.allowedNodeIDs := by
  obtain ⟨row, spec, rows, nodes, links, planned, -, -, -, plannedEq, rfl⟩ :=
    Planning.plan_run produced
  intro shard member
  obtain ⟨origin, originMember, rfl⟩ := mem_map.mp member
  exact ((Planner.plan_isValid plannedEq).admitted origin originMember).2 some

theorem guarantees_planFromFleet {c : Planner.Constraints} (some : c.allowedNodeIDs ≠ [])
    (isFree : ∀ nodeID ∈ c.allowedNodeIDs, free nodeID) :
    KeepsPools calls pools free (fun result _ => ∀ plan, result = .ok plan → StaysClear free plan)
      (planFromFleet modelID c) site := by
  have planned : KeepsPools calls pools free (fun answer _ => ∀ plan, answer = .ok plan → StaysClear free plan)
      (callPlanner modelID c) site := by
    refine guarantees_issue fun later _ answer allowed => ?_
    obtain ⟨quiet, evolves⟩ := @beside calls pools free (.plan modelID c) rfl later answer
    refine ⟨quiet, evolves, ?_⟩
    rintro _ _ plan rfl
    obtain ⟨rt, ctx, trace, produced⟩ := allowed.1
    intro shard member
    exact isFree _ (allowed_of_plan produced some shard member)
  refine guarantees_bind planned ?_
  rintro ((_ | error | problem) | produced) later _ clear
  · exact fun _ _ plan impossible => by cases impossible
  · exact fun _ _ plan impossible => by cases impossible
  · exact fun _ _ plan impossible => by cases impossible
  · refine guarantees_of_beside ⟨rfl, fun digits => ⟨rfl, ?_⟩⟩ ?_
    · rintro (_ | problem) <;> trivial
    · rintro trace value ⟨digits, _, rfl, stored, _, rfl, finished⟩ plan rfl
      cases stored with
      | some => cases finished.2
      | none =>
        obtain rfl := Except.ok.inj finished.2
        exact clear produced rfl

theorem guarantees_poolConstraints {key : APIKey} (caller : identity.apiKey = some key)
    (tenanted : key.tenant ≠ "") (same : site.pools = pools) :
    KeepsPools calls pools free (fun c _ => c.allowedNodeIDs ≠ [] ∧
        ∀ nodeID ∈ c.allowedNodeIDs, pools.OpenTo key.tenant nodeID)
      (poolConstraints identity) site := by
  rw [poolConstraints, caller, Option.filter_some_pos (by simpa using tenanted)]
  have looked : KeepsPools calls pools free (fun answer _ => ∃ nodes, answer = .ok nodes ∧ nodes ≠ [] ∧
        ∀ nodeID ∈ nodes, pools.OpenTo key.tenant nodeID)
      (getAllowedNodeIDs key.tenant) site := by
    refine guarantees_issue fun later earlier answer allowed => ?_
    obtain ⟨quiet, evolves⟩ := @beside calls pools free (.getAllowedNodeIDs key.tenant) rfl
      later answer
    refine ⟨quiet, evolves, fun _ _ => ?_⟩
    cases answer with
    | error => exact absurd allowed.2 id
    | ok nodes =>
      obtain ⟨permuted, found⟩ := allowed
      refine ⟨nodes, rfl, found, ?_⟩
      intro nodeID member pool owner inPool owned
      change nodes.Perm (later.pools.getAllowedNodeIDs key.tenant) at permuted
      rw [earlier.1, same] at permuted
      exact PoolTables.owner_of_allowed (permuted.mem_iff.mp member) inPool owned
  refine guarantees_bind looked ?_
  rintro _ later _ ⟨nodes, rfl, found, isOpen⟩
  exact fun _ _ => ⟨found, isOpen⟩

/-- A rollout starts on free nodes if the plan of the request names only these. -/
theorem guarantees_handleDeployModel {setup : Setup} {agentsConfigured : Bool}
    (deployer : setup.deployer = some (orchestratorDeployer agentsConfigured)) (request : Request)
    {body : Except String DeployRequest} (resolved : ∀ given, body = .ok given →
      KeepsPools calls pools free (fun result _ => ∀ plan, result = .ok plan → StaysClear free plan)
        (resolvePlan setup identity modelID given) site) :
    KeepsPools calls pools free (fun _ _ => True) (handleDeployModel setup request identity modelID body) site := by
  unfold handleDeployModel
  rw [deployer]
  cases body with
  | error => exact fun _ _ => trivial
  | ok given =>
    refine guarantees_bind (resolved given rfl) ?_
    rintro (response | plan) later _ clear
    · exact fun _ _ => trivial
    · dsimp only
      split
      · refine guarantees_of_beside ⟨rfl, fun digits => ⟨rfl, ?_⟩⟩ fun _ _ _ => trivial
        rintro (_ | problem)
        · exact ⟨rfl, fun _ => trivial⟩
        · trivial
      · have placed : StaysClear free (withModel modelID plan) := by
          unfold withModel
          split <;> exact clear plan rfl
        refine guarantees_bind
          (guarantees_callControl (Reconciler.guarantees_applyPlan agentsConfigured placed)) ?_
        intro result last _ _
        split <;> exact fun _ _ => trivial

/-- The nodes that a piece of work may use: a request with a key of a team those that
are open to the team, and a failover the common ones. -/
def Work.MayUse (pools : PoolTables) : Work → String → Prop
  | .deploy _ identity _ _, nodeID =>
    ∀ key, identity.apiKey = some key → key.tenant ≠ "" → pools.OpenTo key.tenant nodeID
  | .failover _, nodeID => pools.Common nodeID

theorem guarantees_work {operations : Operations} {work : Work} (planned : work.Planned)
    (plansClear : ∀ given, operations.planner = some given → PlansClear pools.Common given)
    (same : site.pools = pools) (holds : ReplacementsClear pools.Common site.cluster) :
    KeepsPools calls pools (work.MayUse pools) (fun _ _ => True) (work.program operations) site := by
  cases work with
  | failover event =>
    refine guarantees_bind (guarantees_callControl (Reconciler.guarantees_handleNodeDown
      operations.agentsConfigured event plansClear holds)) ?_
    exact fun _ _ _ _ _ _ => trivial
  | deploy request identity modelID =>
    refine guarantees_bind (guarantees_handleDeployModel rfl request ?_) ?_
    · rintro given rfl
      by_cases tenanted : ∃ key, identity.apiKey = some key ∧ key.tenant ≠ ""
      · obtain ⟨noPlan, noPlanID⟩ := planned tenanted
        obtain ⟨key, caller, named⟩ := tenanted
        have use : Work.MayUse pools (.deploy request identity modelID (.ok given)) =
            pools.OpenTo key.tenant := by
          funext nodeID
          refine propext ⟨fun mayUse => mayUse key caller named, ?_⟩
          intro isOpen other otherCaller _
          obtain rfl := Option.some.inj (caller.symm.trans otherCaller)
          exact isOpen
        rw [use, resolvePlan, noPlan]
        dsimp only
        rw [if_neg (not_not.mpr noPlanID)]
        split
        · refine guarantees_bind (guarantees_poolConstraints caller named same) ?_
          rintro c later _ ⟨some, isOpen⟩
          exact guarantees_planFromFleet some isOpen
        · exact fun _ _ plan impossible => by cases impossible
      · -- Without a team there is nothing to keep to.
        have every : ∀ nodeID,
            Work.MayUse pools (.deploy request identity modelID (.ok given)) nodeID :=
          fun nodeID key caller named => absurd ⟨key, caller, named⟩ tenanted
        refine guarantees_of_beside ?_ fun _ _ _ plan _ shard _ => every shard.nodeID
        exact (uses_resolvePlan _ identity modelID given).mono isBeside_of_isPlanning
    · exact fun _ _ _ _ _ _ => trivial

end Guarantees

/-- The pools are kept to as long as requests with a key of a team leave planning to
the server, every lookup of nodes finds some, and replacement plans stay on common
nodes. -/
theorem pools_exclusive {Thread : Type} [DecidableEq Thread] (calls : RouteCalls)
    (operations : Operations) (work : Thread → Work) (start : Site)
    (history : History Thread ServerReply)
    (interleaves : Interleaves (siteWorld calls) (fun thread => (work thread).program operations)
      start history)
    (planned : ∀ thread, (work thread).Planned)
    (found : ∀ entry ∈ history, FindsNodes entry.2)
    (plansClear : ∀ given, operations.planner = some given → PlansClear start.pools.Common given)
    (clear : ReplacementsClear start.pools.Common start.cluster) :
    PoolsExclusive work start.pools history := by
  obtain ⟨placed, -⟩ := good_of_interleaves
    (fun thread => guarantees_work (planned thread) plansClear rfl clear)
    ⟨accepts_restricted interleaves.accepted fun exchange member => by
      obtain ⟨entry, inside, rfl⟩ := mem_map.mp member
      exact found entry inside, interleaves.performed⟩
  rintro thread tenant worksFor tenanted nodeID ⟨addr, -, looked⟩ pool owner inPool owned
  obtain ⟨exchange, member, isLookup⟩ := mem_filterMap.mp looked
  have mayUse : (work thread).MayUse start.pools nodeID :=
    placed (thread, exchange) (mem_ownPart.mp member) nodeID (by
      unfold lookedUp at isLookup
      split at isLookup
      · obtain ⟨rfl, -⟩ := Prod.mk.inj (Option.some.inj isLookup)
        rfl
      · cases isLookup)
  cases worksFor with
  | deploy _ _ _ _ _ key asked caller =>
    rw [asked] at mayUse
    exact mayUse key caller tenanted pool owner inPool owned
  | failover _ _ _ _ asked =>
    rw [asked] at mayUse
    exact absurd owned (mayUse pool owner inPool)

def pooledSite : Site where
  cluster :=
    { fleetCluster [bigNode "a" .ready 0, bigNode "b" .ready 0, bigNode "c" .ready 0] with
      deployments := .empty }
  pools :=
    { pools := [⟨"pool-a", .team, "team-a", .exclusive⟩,
        ⟨"pool-b", .team, "team-b", .exclusive⟩].foldl Store.insert .empty
      members := [⟨"a", "pool-a"⟩, ⟨"b", "pool-b"⟩].foldl Store.insert .empty }

def secondTeamKey : APIKey where
  id := "key-b"
  keyHash := ""
  tenant := "team-b"

def deployAndReplace (body : DeployRequest) : Bool → Work
  | false =>
    .deploy { method := "POST", path := "/api/v1/models/model/deploy" }
      { apiKey := some secondTeamKey } "model" (.ok body)
  | true => .failover (nodeDownEvent "dep-" "b")

theorem worksFor_secondTeam (body : DeployRequest) (history : History Bool ServerReply) :
    WorksFor (deployAndReplace body) history false "team-b" :=
  .deploy false _ _ _ _ secondTeamKey rfl rfl

def pooledOperations (c : Planner.Constraints) : Operations where
  setup := { deployer := none }
  planner := some (fleetPlanner .default .background c)

def pooledHistory (c : Planner.Constraints) (body : DeployRequest) : History Bool ServerReply :=
  (scheduled (siteWorld Gateway.directCalls) Site.untroubledReply
    (List.replicate 14 false ++ List.replicate 23 true) pooledSite
    fun thread => (deployAndReplace body thread).program (pooledOperations c)).1

theorem interleaves_pooledHistory (c : Planner.Constraints) (body : DeployRequest) :
    Interleaves (siteWorld Gateway.directCalls)
      (fun thread => (deployAndReplace body thread).program (pooledOperations c)) pooledSite
      (pooledHistory c body) :=
  interleaves_scheduled allows_siteReply _ _ _

/-- A team that deploys on its own node, with a planner for replacements that is
confined to the common one. -/
theorem pools_exclusive_confined : PoolsExclusive (deployAndReplace {}) pooledSite.pools
        (pooledHistory { allowedNodeIDs := ["c"] } {}) ∧
      Receives (ownPart false (pooledHistory { allowedNodeIDs := ["c"] } {})) "b" ∧
      Receives (ownPart true (pooledHistory { allowedNodeIDs := ["c"] } {})) "c" := by
  refine ⟨?_, by decide +kernel⟩
  refine pools_exclusive Gateway.directCalls _ _ pooledSite _ (interleaves_pooledHistory _ _) ?_
    (by decide +kernel) ?_ ?_
  · rintro (_ | _)
    · exact fun _ => ⟨rfl, rfl⟩
    · trivial
  · intro given same
    obtain rfl := Option.some.inj same
    refine fun modelID => ⟨(Planning.uses_plan _ _ modelID _).mono ?_, ?_⟩
    · intro asked reads
      cases asked <;> first | rfl | cases reads
    · intro trace plan produced shard member pool owner found
      have allowed := allowed_of_plan produced (cons_ne_nil _ _) shard member
      rw [mem_singleton.mp allowed] at found
      cases found
  · exact fun deployment member => absurd member not_mem_nil

def intrudingPlan : DeploymentPlan where
  planID := "plan-1"
  modelID := "model"
  quantization := "q4"
  assignments := [{ nodeID := "a", role := .host, layerStart := 0, layerEnd := 3 }]

/-- The second team gets the node of the first one, by a plan of its own or by an
automatic replacement. -/
theorem pools_not_exclusive : (∀ body, Interleaves (siteWorld Gateway.directCalls)
        (fun thread => (deployAndReplace body thread).program (pooledOperations {})) pooledSite
        (pooledHistory {} body)) ∧
      ¬PoolsExclusive (deployAndReplace { plan := some (.ok intrudingPlan) }) pooledSite.pools
        (pooledHistory {} { plan := some (.ok intrudingPlan) }) ∧
      ¬PoolsExclusive (deployAndReplace {}) pooledSite.pools (pooledHistory {} {}) := by
  refine ⟨interleaves_pooledHistory {}, ?_, ?_⟩
  · intro exclusive
    have same := exclusive false "team-b" (worksFor_secondTeam _ _) (by decide) "a"
      (by decide +kernel) ⟨"pool-a", .team, "team-a", .exclusive⟩ "team-a" (by decide) (by decide)
    exact absurd same (by decide)
  · intro exclusive
    have same := exclusive true "team-b"
      (.failover true false _ "team-b" rfl (worksFor_secondTeam _ _)
        (show Creates _ "dep-" by decide +kernel))
      (by decide) "a" (by decide +kernel) ⟨"pool-a", .team, "team-a", .exclusive⟩ "team-a" (by decide)
      (by decide)
    exact absurd same (by decide)

end Purser.Management
