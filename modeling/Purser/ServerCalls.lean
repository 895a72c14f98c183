import Mathlib.Data.List.Dedup
import Purser.APIKeyTable
import Purser.ControlWorld
import Purser.FleetPlanning
import Purser.RequestAdmission

/-!
# The calls of the management server

The world around the handlers is the cluster together with the pools, the keys
and the approvals.  The status of an approval is overwritten without a look at
what it was.
-/

namespace Purser.Management

open List
open ControlPlane (Time)
open KeyedStores TextFormatting

variable {tables : ApprovalTables} {approval : DeploymentApproval}

inductive ApprovalStatus where
  | pending
  | approved
  | rejected
deriving DecidableEq

def ApprovalStatus.text : ApprovalStatus → String
  | pending => "pending"
  | approved => "approved"
  | rejected => "rejected"

inductive Vote where
  | approved
  | rejected
deriving DecidableEq

structure DeploymentApproval where
  id : ℕ
  deploymentID : String
  modelID : String
  /-- The digest of the bearer value of the deploy request. -/
  requester : String
  status : ApprovalStatus := .pending
  reviewer : String := ""
  notes : String := ""
  requiredApprovals : ℤ := 1
  expiresAt : Option Time := none
deriving DecidableEq

structure ApprovalVote where
  approvalID : ℕ
  reviewer : String
  vote : Vote
  notes : String := ""
  votedAt : Time

/-- The columns of the unique index. -/
def ApprovalVote.ballot (vote : ApprovalVote) : ℕ × String := (vote.approvalID, vote.reviewer)

structure ApprovalRequest where
  deploymentID : String
  modelID : String
  requester : String
  requiredApprovals : ℤ := 0
  expiresAt : Option Time := none

/-- The outcome of counting votes. -/
structure QuorumCheck where
  reached : Bool
  approved : ℕ
  required : ℤ

/-- The two tables.  Identifiers are handed out in order, and a vote refers to a
row. -/
structure ApprovalTables where
  approvals : Store DeploymentApproval.id
  lastID : ℕ
  votes : Store ApprovalVote.ballot
  issued : ∀ approval ∈ approvals.rows, approval.id ≤ lastID
  known : ∀ vote ∈ votes.rows, ∃ approval ∈ approvals.rows, approval.id = vote.approvalID

def positiveOr (fallback number : ℤ) : ℤ :=
  if 0 < number then number else fallback

namespace ApprovalTables

def empty : ApprovalTables where
  approvals := .empty
  lastID := 0
  votes := .empty
  issued := by
    intro approval member
    cases member
  known := by
    intro vote member
    cases member

section

variable (tables : ApprovalTables) (deploymentID : String) (status : ApprovalStatus)
  (reviewer notes : String)

def queuedRow (request : ApprovalRequest) : DeploymentApproval where
  id := tables.lastID + 1
  deploymentID := request.deploymentID
  modelID := request.modelID
  requester := request.requester
  requiredApprovals := positiveOr 1 request.requiredApprovals
  -- The zero time stands for none.
  expiresAt := request.expiresAt.filter fun expiry => expiry ≠ 0

theorem find_queuedRow (request : ApprovalRequest) :
    tables.approvals.find (tables.queuedRow request).id = none := by
  rw [Store.find_eq_none_iff]
  intro member
  obtain ⟨approval, held, same⟩ := mem_map.mp member
  have bounded := tables.issued approval held
  change approval.id = tables.lastID + 1 at same
  omega

def requestDeploymentApproval (request : ApprovalRequest) : ApprovalTables where
  approvals := tables.approvals.insert (tables.queuedRow request)
  lastID := tables.lastID + 1
  votes := tables.votes
  issued := by
    intro approval member
    rcases Store.mem_insert_iff.mp member with held | ⟨rfl, -⟩
    · exact Nat.le_succ_of_le (tables.issued approval held)
    · exact Nat.le_refl _
  known := by
    intro vote member
    obtain ⟨approval, held, same⟩ := tables.known vote member
    exact ⟨approval, Store.mem_insert_iff.mpr (.inl held), same⟩

/-- The columns as they are read back. -/
def scanApproval (row : DeploymentApproval) : DeploymentApproval :=
  { row with requiredApprovals := positiveOr 1 row.requiredApprovals }

def getDeploymentApproval : Option DeploymentApproval :=
  (tables.approvals.rows.find? fun row => row.deploymentID = deploymentID).map scanApproval

def reviewedRow (row : DeploymentApproval) : DeploymentApproval :=
  if row.deploymentID = deploymentID then
    { row with status := status, reviewer := reviewer, notes := notes }
  else row

@[simp] theorem reviewedRow_id (row : DeploymentApproval) :
    (reviewedRow deploymentID status reviewer notes row).id = row.id := by
  rw [reviewedRow]
  split <;> rfl

def updateDeploymentApprovalStatus : ApprovalTables where
  approvals :=
    { rows := tables.approvals.rows.map (reviewedRow deploymentID status reviewer notes)
      unique := by
        rw [map_map]
        have same : DeploymentApproval.id ∘ reviewedRow deploymentID status reviewer notes =
            DeploymentApproval.id := by
          funext row
          exact reviewedRow_id _ _ _ _ row
        rw [same]
        exact tables.approvals.unique }
  lastID := tables.lastID
  votes := tables.votes
  issued := by
    intro approval member
    obtain ⟨row, held, rfl⟩ := mem_map.mp member
    rw [reviewedRow_id]
    exact tables.issued row held
  known := by
    intro vote member
    obtain ⟨row, held, same⟩ := tables.known vote member
    refine ⟨_, mem_map_of_mem held, ?_⟩
    rw [reviewedRow_id]
    exact same

def voteTarget : Except String DeploymentApproval :=
  match tables.getDeploymentApproval deploymentID with
  | none => .error ControlPlane.LookupError.notFound.text
  | some approval =>
    if approval.status ≠ .pending then
      .error ("registry: approval " ++ quoted deploymentID ++ " is not pending (status: " ++
        approval.status.text ++ ")")
    else if approval.requester = reviewer then
      .error ("registry: self_approval_denied: reviewer " ++ quoted reviewer ++
        " is also the requester")
    else if tables.votes.find (approval.id, reviewer) ≠ none then
      .error ("registry: record approval vote " ++ quoted deploymentID ++
        ": UNIQUE constraint failed: deployment_approval_votes.approval_id, " ++
        "deployment_approval_votes.reviewer")
    else .ok approval

end

theorem row_of_getDeploymentApproval {deploymentID : String}
    (found : tables.getDeploymentApproval deploymentID = some approval) :
    ∃ row ∈ tables.approvals.rows, row.deploymentID = deploymentID ∧
      scanApproval row = approval := by
  obtain ⟨row, held, rfl⟩ := Option.map_eq_some_iff.mp found
  have named := find?_some held
  exact ⟨row, mem_of_find?_eq_some held, of_decide_eq_true named, rfl⟩

theorem voteTarget_eq_ok {deploymentID reviewer : String}
    (accepted : tables.voteTarget deploymentID reviewer = .ok approval) :
    tables.getDeploymentApproval deploymentID = some approval ∧ approval.status = .pending ∧
      approval.requester ≠ reviewer ∧ tables.votes.find (approval.id, reviewer) = none := by
  rw [voteTarget] at accepted
  cases found : tables.getDeploymentApproval deploymentID with
  | none =>
    rw [found] at accepted
    cases accepted
  | some =>
    rw [found] at accepted
    dsimp only at accepted
    split at accepted
    · cases accepted
    next pending =>
      split at accepted
      · cases accepted
      next other =>
        split at accepted
        · cases accepted
        next fresh =>
          cases accepted
          exact ⟨rfl, not_not.mp pending, other, not_not.mp fresh⟩

section

variable (tables : ApprovalTables) (deploymentID reviewer : String)

def castVote (approval : DeploymentApproval)
    (held : ∃ row ∈ tables.approvals.rows, row.id = approval.id)
    (reviewer : String) (vote : Vote) (notes : String) (votedAt : Time) : ApprovalTables where
  approvals := tables.approvals
  lastID := tables.lastID
  votes := tables.votes.insert ⟨approval.id, reviewer, vote, notes, votedAt⟩
  issued := tables.issued
  known := by
    intro given member
    rcases Store.mem_insert_iff.mp member with older | ⟨rfl, -⟩
    · exact tables.known given older
    · exact held

def recordApprovalVote (vote : Vote)
    (notes : String) (votedAt : Time) : Except String ApprovalTables :=
  match accepted : tables.voteTarget deploymentID reviewer with
  | .error problem => .error problem
  | .ok approval =>
    .ok (tables.castVote approval (by
        obtain ⟨row, member, -, rfl⟩ := row_of_getDeploymentApproval (voteTarget_eq_ok accepted).1
        exact ⟨row, member, rfl⟩)
      reviewer vote notes votedAt)

def getApprovalVotes (approvalID : ℕ) : List ApprovalVote :=
  tables.votes.rows.filter fun vote => vote.approvalID = approvalID

def countedVotes (approvalID : ℕ) (reviewerKeys : List String) : List ApprovalVote :=
  (tables.getApprovalVotes approvalID).filter fun vote =>
    vote.vote = .approved ∧ (reviewerKeys = [] ∨ vote.reviewer ∈ reviewerKeys)

def checkApprovalQuorumFiltered
    (reviewerKeys : List String) (minApprovers : ℤ) : Option QuorumCheck :=
  (tables.getDeploymentApproval deploymentID).map fun approval =>
    let required := positiveOr (positiveOr 1 approval.requiredApprovals) minApprovers
    let count := (tables.countedVotes approval.id reviewerKeys).length
    { reached := required ≤ count, approved := count, required := required }

end

end ApprovalTables

inductive OwnerType where
  | platform
  | org
  | team
deriving DecidableEq

inductive PoolPolicy where
  | exclusive
  | shared
deriving DecidableEq

structure NodePool where
  id : String
  ownerType : OwnerType := .platform
  ownerID : String := ""
  policy : PoolPolicy := .shared
deriving DecidableEq

structure PoolMember where
  nodeID : String
  poolID : String

structure PoolTeamQuota where
  poolID : String
  teamID : String
deriving DecidableEq

structure PoolTables where
  pools : Store NodePool.id := .empty
  members : Store PoolMember.nodeID := .empty
  quotas : List PoolTeamQuota := []

def NodePool.OwnedBy (pool : NodePool) (teamID : String) : Prop :=
  pool.ownerType = .team ∧ pool.ownerID = teamID ∧ pool.policy = .exclusive

instance (pool : NodePool) (teamID : String) : Decidable (pool.OwnedBy teamID) :=
  inferInstanceAs (Decidable (_ ∧ _))

namespace PoolTables

def getPoolForNode (tables : PoolTables) (nodeID : String) : Option NodePool :=
  (tables.members.find nodeID).bind fun member => tables.pools.find member.poolID

def nodesOf (tables : PoolTables) (wanted : NodePool → Bool) : List String :=
  (tables.members.rows.filter fun member =>
    (tables.pools.find member.poolID).any wanted).map PoolMember.nodeID

def getAllowedNodeIDs (tables : PoolTables) (teamID : String) : List String :=
  (tables.nodesOf (fun pool => pool.OwnedBy teamID) ++ tables.nodesOf fun pool =>
      pool.policy = .shared ∧ ⟨pool.id, teamID⟩ ∈ tables.quotas).dedup

theorem mem_nodesOf {tables : PoolTables} {wanted : NodePool → Bool} {nodeID : String}
    (member : nodeID ∈ tables.nodesOf wanted) :
    ∃ pool, tables.getPoolForNode nodeID = some pool ∧ wanted pool = true := by
  obtain ⟨row, held, rfl⟩ := List.mem_map.mp member
  obtain ⟨joined, fits⟩ := List.mem_filter.mp held
  cases found : tables.pools.find row.poolID with
  | none =>
    rw [found] at fits
    cases fits
  | some pool =>
    rw [found] at fits
    refine ⟨pool, ?_, fits⟩
    rw [getPoolForNode, Store.find_eq_some_iff.mpr ⟨joined, rfl⟩]
    exact found

theorem owner_of_allowed {tables : PoolTables} {teamID owner nodeID : String} {pool : NodePool}
    (allowed : nodeID ∈ tables.getAllowedNodeIDs teamID)
    (found : tables.getPoolForNode nodeID = some pool) (owned : pool.OwnedBy owner) :
    owner = teamID := by
  rw [getAllowedNodeIDs, List.mem_dedup, List.mem_append] at allowed
  rcases allowed with own | shared
  · obtain ⟨other, otherFound, ownedToo⟩ := mem_nodesOf own
    obtain rfl := Option.some.inj (found.symm.trans otherFound)
    have mine : pool.OwnedBy teamID := of_decide_eq_true ownedToo
    exact owned.2.1.symm.trans mine.2.1
  · obtain ⟨other, otherFound, fits⟩ := mem_nodesOf shared
    obtain rfl := Option.some.inj (found.symm.trans otherFound)
    have policy := (of_decide_eq_true fits).1
    rw [owned.2.2] at policy
    cases policy

end PoolTables

open ControlPlane (Cluster LookupError ModelRow Reply Time)
open InteractionPrograms Program SharedWorlds
open Gateway (RouteCalls)
open Orchestrator (ApplyResult DeploymentPlan)
open Planner (Constraints PlanError)

/-- Why there is no plan: the model is unknown, it does not fit, or planning
failed. -/
inductive PlanningError where
  | notFound
  | doesNotFit (error : PlanError)
  | failed (problem : String)

inductive ServerCall where
  | control (call : ControlPlane.Call)
  | getAllowedNodeIDs (teamID : String)
  | plan (modelID : String) (constraints : Constraints)
  /-- A call of the orchestrator, seen from the server. -/
  | apply (plan : DeploymentPlan)
  | now
  | listAPIKeys
  | listModels
  | listOrganizations
  | listNodePools
  | createModel (row : ModelRow)
  | requestDeploymentApproval (request : ApprovalRequest)
  | getDeploymentApproval (deploymentID : String)
  | recordApprovalVote (deploymentID reviewer : String) (vote : Vote) (notes : String)
  | getApprovalVotes (approvalID : ℕ)
  | checkApprovalQuorumFiltered (deploymentID : String) (reviewerKeys : List String)
      (minApprovers : ℤ)
  | updateDeploymentApprovalStatus (deploymentID : String) (status : ApprovalStatus)
      (reviewer notes : String)

/-- What a call returns.  A vote that is recorded is answered with its time stamp,
which the handlers do not see. -/
abbrev ServerReply : ServerCall → Type
  | .control inner => Reply inner
  | .getAllowedNodeIDs _ => Except String (List String)
  | .plan _ _ => Except PlanningError DeploymentPlan
  | .apply _ => ApplyResult
  | .now => Time
  | .listAPIKeys => Except String (List APIKey)
  | .listModels => Except String (List String)
  | .listOrganizations => Except String (List String)
  | .listNodePools => Except String (List String)
  | .createModel _ => Option String
  | .requestDeploymentApproval _ => Option String
  | .getDeploymentApproval _ => Except LookupError DeploymentApproval
  | .recordApprovalVote _ _ _ _ => Except String Time
  | .getApprovalVotes _ => Except String (List ApprovalVote)
  | .checkApprovalQuorumFiltered _ _ _ => Except String QuorumCheck
  | .updateDeploymentApprovalStatus _ _ _ _ => Option String

abbrev ServerTrace := List (Exchange ServerReply)

def callControl {Value : Type} (program : Program Reply Value) : Program ServerReply Value :=
  program.embed ServerCall.control

def controlExchange (exchange : Exchange Reply) : Exchange ServerReply :=
  ⟨.control exchange.command, exchange.answer⟩

def getAllowedNodeIDs (teamID : String) : Program ServerReply (Except String (List String)) :=
  issue (ServerCall.getAllowedNodeIDs teamID)

def callPlanner (modelID : String) (c : Constraints) :
    Program ServerReply (Except PlanningError DeploymentPlan) :=
  issue (ServerCall.plan modelID c)

def callOrchestrator (plan : DeploymentPlan) : Program ServerReply ApplyResult :=
  issue (ServerCall.apply plan)

def readClock : Program ServerReply Time := issue ServerCall.now

def listAPIKeys : Program ServerReply (Except String (List APIKey)) := issue ServerCall.listAPIKeys

def listModels : Program ServerReply (Except String (List String)) := issue ServerCall.listModels

def listOrganizations : Program ServerReply (Except String (List String)) :=
  issue ServerCall.listOrganizations

def listNodePools : Program ServerReply (Except String (List String)) :=
  issue ServerCall.listNodePools

def createModel (row : ModelRow) : Program ServerReply (Option String) :=
  issue (ServerCall.createModel row)

def requestDeploymentApproval (request : ApprovalRequest) : Program ServerReply (Option String) :=
  issue (ServerCall.requestDeploymentApproval request)

def getDeploymentApproval (deploymentID : String) :
    Program ServerReply (Except LookupError DeploymentApproval) :=
  issue (ServerCall.getDeploymentApproval deploymentID)

def recordApprovalVote (deploymentID reviewer : String) (vote : Vote) (notes : String) :
    Program ServerReply (Except String Time) :=
  issue (ServerCall.recordApprovalVote deploymentID reviewer vote notes)

def getApprovalVotes (approvalID : ℕ) : Program ServerReply (Except String (List ApprovalVote)) :=
  issue (ServerCall.getApprovalVotes approvalID)

def checkApprovalQuorumFiltered (deploymentID : String) (reviewerKeys : List String)
    (minApprovers : ℤ) : Program ServerReply (Except String QuorumCheck) :=
  issue (ServerCall.checkApprovalQuorumFiltered deploymentID reviewerKeys minApprovers)

def updateDeploymentApprovalStatus (deploymentID : String) (status : ApprovalStatus)
    (reviewer notes : String) : Program ServerReply (Option String) :=
  issue (ServerCall.updateDeploymentApprovalStatus deploymentID status reviewer notes)

/-- Note an event in the audit log, whatever the log answers. -/
def appendAudit (actor action target : String) : Program ServerReply Unit := do
  let _ ← issue (ServerCall.control (.command (.appendAudit ⟨actor, action, target, []⟩)))
  return ()

def randHex (bytes : ℕ) : Program ServerReply String := callControl (ControlPlane.randomHex bytes)

/-- What the handlers can see and change. -/
structure Site where
  cluster : Cluster := {}
  pools : PoolTables := {}
  registry : Registry := {}
  approvals : ApprovalTables := .empty
  clock : Time := 0

namespace Site

def Allows (calls : RouteCalls) (site : Site) : Exchange ServerReply → Prop
  | ⟨.control inner, answer⟩ => site.cluster.Allows calls ⟨inner, answer⟩
  | ⟨.getAllowedNodeIDs teamID, .ok ids⟩ => ids.Perm (site.pools.getAllowedNodeIDs teamID)
  -- The planner reads the fleet on its own.
  | ⟨.plan modelID constraints, .ok plan⟩ => ∃ rt ctx trace,
      (Planning.plan rt ctx modelID constraints).Produces trace (.ok plan)
  | ⟨.now, time⟩ => site.clock ≤ time
  | ⟨.listAPIKeys, .ok keys⟩ => keys = site.registry.keys.listAPIKeys
  | ⟨.listModels, .ok ids⟩ => ids.Perm (site.cluster.models.rows.map ModelRow.id)
  | ⟨.listNodePools, .ok ids⟩ => ids.Perm (site.pools.pools.rows.map NodePool.id)
  | ⟨.createModel row, none⟩ => site.cluster.models.find row.id = none
  | ⟨.getDeploymentApproval id, answer⟩ =>
    Cluster.LooksUp (site.approvals.getDeploymentApproval id) answer
  | ⟨.recordApprovalVote id reviewer _ _, .ok votedAt⟩ =>
    (∃ approval, site.approvals.voteTarget id reviewer = .ok approval) ∧ site.clock ≤ votedAt
  | ⟨.getApprovalVotes id, .ok votes⟩ => votes.Perm (site.approvals.getApprovalVotes id)
  | ⟨.checkApprovalQuorumFiltered id reviewerKeys minApprovers, .ok check⟩ =>
    site.approvals.checkApprovalQuorumFiltered id reviewerKeys minApprovers = some check
  | ⟨.updateDeploymentApprovalStatus id _ _ _, none⟩ =>
    site.approvals.getDeploymentApproval id ≠ none
  | _ => True

def effect (calls : RouteCalls) (site : Site) : Exchange ServerReply → Site
  | ⟨.control inner, answer⟩ => { site with cluster := site.cluster.effect calls ⟨inner, answer⟩ }
  | ⟨.now, time⟩ => { site with clock := time }
  | ⟨.createModel row, none⟩ =>
    { site with cluster := { site.cluster with models := site.cluster.models.insert row } }
  | ⟨.requestDeploymentApproval request, none⟩ =>
    { site with approvals := site.approvals.requestDeploymentApproval request }
  | ⟨.recordApprovalVote id reviewer vote notes, .ok votedAt⟩ =>
    { site with
      approvals :=
        match site.approvals.recordApprovalVote id reviewer vote notes votedAt with
        | .ok recorded => recorded
        | .error _ => site.approvals
      clock := votedAt }
  | ⟨.updateDeploymentApprovalStatus id status reviewer notes, none⟩ =>
    { site with
      approvals := site.approvals.updateDeploymentApprovalStatus id status reviewer notes }
  | _ => site

end Site

def siteWorld (calls : RouteCalls) : Interface ServerReply Site where
  Allows site := site.Allows calls
  effect site := site.effect calls

/-- Programs of the control plane see and change the cluster only. -/
theorem accepts_controlTrace {calls : RouteCalls} {site : Site} {inner : List (Exchange Reply)} :
    (siteWorld calls).Accepts site (inner.map controlExchange) ↔
      (ControlPlane.controlWorld calls).Accepts site.cluster inner := by
  induction inner generalizing site with
  | nil => exact Iff.rfl
  | cons _ _ induction => exact and_congr_right fun _ => induction

theorem after_controlTrace {calls : RouteCalls} {site : Site} {inner : List (Exchange Reply)} :
    (siteWorld calls).after site (inner.map controlExchange) =
      { site with cluster := (ControlPlane.controlWorld calls).after site.cluster inner } := by
  induction inner generalizing site with
  | nil => rfl
  | cons _ _ induction =>
    rw [List.map_cons, Interface.after_cons, induction]
    rfl

def Site.untroubledReply (site : Site) : (asked : ServerCall) → ServerReply asked
  | .control inner => site.cluster.untroubledReply inner
  | .getAllowedNodeIDs teamID => .ok (site.pools.getAllowedNodeIDs teamID)
  | .plan modelID constraints =>
    match (ControlPlane.untroubledRun site.cluster
      (Planning.plan .default .background modelID constraints)).2 with
    | .ok plan => .ok plan
    | .error problem => .error (.failed problem)
  | .apply plan => ⟨"dep-" ++ plan.planID, none⟩
  | .now => site.clock
  | .listAPIKeys => .ok site.registry.keys.listAPIKeys
  | .listModels => .ok (site.cluster.models.rows.map ModelRow.id)
  | .listOrganizations => .ok []
  | .listNodePools => .ok (site.pools.pools.rows.map NodePool.id)
  | .createModel row =>
    if site.cluster.models.find row.id = none then none
    else some "UNIQUE constraint failed: models.id"
  | .requestDeploymentApproval _ => none
  | .getDeploymentApproval id =>
    ControlPlane.lookupReply (site.approvals.getDeploymentApproval id)
  | .recordApprovalVote id reviewer _ _ =>
    match site.approvals.voteTarget id reviewer with
    | .ok _ => .ok site.clock
    | .error problem => .error problem
  | .getApprovalVotes id => .ok (site.approvals.getApprovalVotes id)
  | .checkApprovalQuorumFiltered id reviewerKeys minApprovers =>
    match site.approvals.checkApprovalQuorumFiltered id reviewerKeys minApprovers with
    | some check => .ok check
    | none => .error LookupError.notFound.text
  | .updateDeploymentApprovalStatus id _ _ _ =>
    if site.approvals.getDeploymentApproval id = none then some LookupError.notFound.text
    else none

theorem allows_siteReply (site : Site) (asked : ServerCall) :
    (siteWorld Gateway.directCalls).Allows site ⟨asked, site.untroubledReply asked⟩ := by
  cases asked with
  | control inner => exact ControlPlane.allows_untroubledReply site.cluster inner
  | getAllowedNodeIDs | listModels | listNodePools | getApprovalVotes id => exact List.Perm.refl _
  | plan modelID constraints =>
    simp only [Site.untroubledReply]
    split
    next plan planned =>
      have produced := ControlPlane.produces_untroubledRun site.cluster
        (Planning.plan .default .background modelID constraints)
      rw [planned] at produced
      exact ⟨.default, .background, _, produced⟩
    next => trivial
  | now => exact Int.le_refl _
  | listAPIKeys => rfl
  | createModel =>
    simp only [Site.untroubledReply]
    split
    next absent => exact absent
    next => trivial
  | getDeploymentApproval id => exact ControlPlane.looksUp_lookupReply _
  | recordApprovalVote =>
    simp only [Site.untroubledReply]
    split
    next approval accepted => exact ⟨⟨approval, accepted⟩, Int.le_refl _⟩
    next => trivial
  | checkApprovalQuorumFiltered =>
    simp only [Site.untroubledReply]
    split
    next check checked => exact checked
    next => trivial
  | updateDeploymentApprovalStatus =>
    simp only [Site.untroubledReply]
    split
    next => trivial
    next present => exact present
  | _ => trivial

end Purser.Management
