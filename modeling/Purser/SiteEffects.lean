import Purser.DeploymentApprovals

/-!
# The traces of reviews, and what they change

Every review first reads.  An approval then records its vote and writes the
status last; a rejection writes the status whatever became of its vote.
-/

namespace Purser.Management

open ControlPlane (Time)
open Gateway (RouteCalls)
open InteractionPrograms Program SharedWorlds KeyedStores

/-- The calls of a review that only read. -/
def ServerCall.isReading : ServerCall → Bool
  | .listAPIKeys => true
  | .getDeploymentApproval _ => true
  | .now => true
  | _ => false

def Response.isReview : Response → Bool
  | .voted _ _ _ _ => true
  | .approval _ _ => true
  | _ => false

def Reads (trace : ServerTrace) : Prop := ∀ exchange ∈ trace, exchange.command.isReading = true

theorem uses_requestIsAdmin (setup : Setup) (request : Request) :
    (requestIsAdmin setup request).Uses (·.isReading = true) := by
  rw [requestIsAdmin]
  split
  · trivial
  · split
    · trivial
    · refine .bind (.issue rfl) ?_
      rintro (problem | keys)
      · trivial
      · dsimp only
        split <;> trivial

theorem uses_resolveReviewerKeyHashes (keyIDs : List String) :
    (resolveReviewerKeyHashes keyIDs).Uses (·.isReading = true) := by
  rw [resolveReviewerKeyHashes]
  split
  · trivial
  · refine .bind (.issue rfl) ?_
    rintro (problem | keys) <;> trivial

variable {trace : ServerTrace} {setup : Setup} {request : Request} {deploymentID : String}
  {body : Except String String} {response : Response}

theorem reads_of_uses {Value : Type} {program : Program ServerReply Value}
    (uses : program.Uses (·.isReading = true)) {value : Value}
    (produced : program.Produces trace value) : Reads trace :=
  fun _ member => uses.of_mem produced member

theorem uses_pendingApproval (setup : Setup) (request : Request) (verb deploymentID : String)
    (body : Except String String) :
    (pendingApproval setup request verb deploymentID body).Uses (·.isReading = true) := by
  unfold pendingApproval
  split
  · refine (uses_requestIsAdmin setup request).bind ?_
    rintro (_ | _)
    · trivial
    · cases body with
      | error => trivial
      | ok =>
        refine .bind (.issue rfl) ?_
        rintro ((_ | problem) | approval)
        · trivial
        · trivial
        · dsimp only
          split
          · trivial
          · split
            · trivial
            · refine .bind (.issue rfl) fun time => ?_
              split <;> trivial
  · trivial

theorem uses_handleGetApproval {allowed : ServerCall → Prop}
    (reading : ∀ asked : ServerCall, asked.isReading = true → allowed asked)
    (votes : ∀ approvalID, allowed (.getApprovalVotes approvalID)) (setup : Setup)
    (deploymentID : String) : (handleGetApproval setup deploymentID).Uses allowed := by
  unfold handleGetApproval
  split
  · refine .bind (.issue (reading _ rfl)) ?_
    rintro ((_ | problem) | approval)
    · trivial
    · trivial
    · refine .bind (.issue (votes _)) ?_
      rintro (problem | votes)
      · trivial
      · refine Uses.bind ?_ fun _ => trivial
        unfold reviewerKeySet
        split
        · trivial
        · exact ((uses_resolveReviewerKeyHashes _).mono reading).bind fun _ => trivial
  · trivial

inductive PendingRun (deploymentID : String) (reads : ServerTrace) :
    Except Response (DeploymentApproval × String) → Prop
  | refused (response : Response) (unreviewed : response.isReview = false) :
      PendingRun deploymentID reads (.error response)
  | pending (approval : DeploymentApproval) (notes : String)
      (found : ⟨.getDeploymentApproval deploymentID, .ok approval⟩ ∈ reads)
      (isPending : approval.status = .pending) :
      PendingRun deploymentID reads (.ok (approval, notes))

theorem pendingApproval_run {verb : String} {result : Except Response (DeploymentApproval × String)}
    (produced : (pendingApproval setup request verb deploymentID body).Produces trace result) :
    PendingRun deploymentID trace result := by
  unfold pendingApproval at produced
  split at produced
  · obtain ⟨asking, isAdmin, rest, rfl, asked, continued⟩ := produced.of_bind
    cases isAdmin with
    | false =>
      obtain ⟨rfl, rfl⟩ := continued
      exact .refused _ rfl
    | true =>
      cases body with
      | error =>
        obtain ⟨rfl, rfl⟩ := continued
        exact .refused _ rfl
      | ok =>
        obtain ⟨answer, rest, rfl, looked⟩ := continued.of_issue
        rcases answer with (_ | problem) | approval
        · obtain ⟨rfl, rfl⟩ := looked
          exact .refused _ rfl
        · obtain ⟨rfl, rfl⟩ := looked
          exact .refused _ rfl
        · have found : (⟨.getDeploymentApproval deploymentID, .ok approval⟩ :
              Exchange ServerReply) ∈
              asking ++ ([⟨.getDeploymentApproval deploymentID, .ok approval⟩] ++ rest) :=
            List.mem_append_right _ List.mem_cons_self
          dsimp only at looked
          split at looked
          · obtain ⟨rfl, rfl⟩ := looked
            exact .refused _ rfl
          next pending =>
            cases expires : approval.expiresAt with
            | none =>
              rw [expires] at looked
              obtain ⟨rfl, rfl⟩ := looked
              exact .pending _ _ found (not_not.mp pending)
            | some =>
              rw [expires] at looked
              obtain ⟨_, time, rest, rfl, read, timed⟩ := looked.of_bind
              split at timed
              · obtain ⟨rfl, rfl⟩ := timed
                exact .refused _ rfl
              · obtain ⟨rfl, rfl⟩ := timed
                exact .pending _ _ found (not_not.mp pending)
  · obtain ⟨rfl, rfl⟩ := produced
    exact .refused _ rfl

/-- The checks of a review pass only for those that are taken for administrators. -/
theorem requestIsAdmin_of_pendingApproval {verb : String} {found : DeploymentApproval × String}
    (produced : (pendingApproval setup request verb deploymentID body).Produces trace (.ok found)) :
    ∃ asking rest, trace = asking ++ rest ∧
      (requestIsAdmin setup request).Produces asking true := by
  unfold pendingApproval at produced
  split at produced
  · obtain ⟨asking, isAdmin, rest, rfl, asked, continued⟩ := produced.of_bind
    cases isAdmin with
    | false => cases continued.2
    | true => exact ⟨asking, rest, rfl, asked⟩
  · cases produced.2

section

variable (setup : Setup) (deploymentID reviewer : String)

def updateExchange (status : ApprovalStatus) (reviewer notes : String)
    (answer : Option String) : Exchange ServerReply :=
  ⟨.updateDeploymentApprovalStatus deploymentID status reviewer notes, answer⟩

def voteExchange (vote : Vote) (notes : String)
    (answer : Except String ControlPlane.Time) : Exchange ServerReply :=
  ⟨.recordApprovalVote deploymentID reviewer vote notes, answer⟩

def quorumExchange (hashes : List String)
    (answer : Except String QuorumCheck) : Exchange ServerReply :=
  ⟨.checkApprovalQuorumFiltered deploymentID hashes setup.minApprovers, answer⟩

def reviewAudit (reviewer action deploymentID : String) (answer : Option String) :
    Exchange ServerReply :=
  ⟨.control (.command (.appendAudit ⟨reviewer, action, deploymentID, []⟩)), answer⟩

inductive SettleRun :
    ServerTrace → Response → Prop
  | unchecked (resolving : ServerTrace) (hashes : List String) (problem : String)
      (resolved : (resolveReviewerKeyHashes setup.reviewerKeys).Produces resolving hashes) :
      SettleRun
        (resolving ++ [quorumExchange setup deploymentID hashes (.error problem)])
        (.failed 500 "quorum_check_failed" problem)
  | waiting (resolving : ServerTrace) (hashes : List String) (check : QuorumCheck)
      (resolved : (resolveReviewerKeyHashes setup.reviewerKeys).Produces resolving hashes)
      (undecided : check.reached = false) :
      SettleRun
        (resolving ++ [quorumExchange setup deploymentID hashes (.ok check)])
        (voteRecorded check)
  | notUpdated (resolving : ServerTrace) (hashes : List String) (check : QuorumCheck)
      (problem : String)
      (resolved : (resolveReviewerKeyHashes setup.reviewerKeys).Produces resolving hashes)
      (reached : check.reached = true) :
      SettleRun
        (resolving ++ [quorumExchange setup deploymentID hashes (.ok check),
          updateExchange deploymentID .approved reviewer (quorumNotes check) (some problem)])
        (.failed 500 "update_approval_failed" problem)
  | approved (resolving : ServerTrace) (hashes : List String) (check : QuorumCheck)
      (audited : Option String)
      (resolved : (resolveReviewerKeyHashes setup.reviewerKeys).Produces resolving hashes)
      (reached : check.reached = true) :
      SettleRun
        (resolving ++ [quorumExchange setup deploymentID hashes (.ok check),
          updateExchange deploymentID .approved reviewer (quorumNotes check) none,
          reviewAudit reviewer "deployment.approval.approved" deploymentID audited])
        (voteRecorded check)

end

theorem settleVote_run {reviewer : String}
    (produced : (settleVote setup deploymentID reviewer).Produces trace response) :
    SettleRun setup deploymentID reviewer trace response := by
  obtain ⟨resolving, hashes, rest, rfl, resolved, settled⟩ := produced.of_bind
  obtain ⟨answer, rest, rfl, continued⟩ := settled.of_issue
  cases answer with
  | error problem =>
    obtain ⟨rfl, rfl⟩ := continued
    exact .unchecked resolving hashes problem resolved
  | ok check =>
    dsimp only at continued
    cases reached : check.reached with
    | false =>
      rw [reached] at continued
      obtain ⟨rfl, rfl⟩ := continued
      exact .waiting resolving hashes check resolved reached
    | true =>
      rw [if_pos reached] at continued
      obtain ⟨answer, rest, rfl, continued⟩ := continued
      cases answer with
      | some problem =>
        obtain ⟨rfl, rfl⟩ := continued
        exact .notUpdated resolving hashes check problem resolved reached
      | none =>
        obtain ⟨audited, _, rfl, rfl, rfl⟩ := continued
        exact .approved resolving hashes check audited resolved reached

inductive ApproveRun (setup : Setup) (request : Request) (deploymentID : String) :
    ServerTrace → Response → Prop
  | refused (reads : ServerTrace) (response : Response) (reading : Reads reads)
      (unreviewed : response.isReview = false) :
      ApproveRun setup request deploymentID reads response
  | notRecorded (reads : ServerTrace) (notes problem : String) (reading : Reads reads) :
      ApproveRun setup request deploymentID
        (reads ++ [voteExchange deploymentID (apiKeyHashFromRequest request) .approved notes
          (.error problem)])
        (voteRefused problem)
  | recorded (reads : ServerTrace) (notes : String) (votedAt : ControlPlane.Time)
      (settling : ServerTrace) (response : Response) (reading : Reads reads)
      (permitted : ∃ asking rest, reads = asking ++ rest ∧
        (requestIsAdmin setup request).Produces asking true)
      (settled : SettleRun setup deploymentID (apiKeyHashFromRequest request) settling response) :
      ApproveRun setup request deploymentID
        (reads ++ voteExchange deploymentID (apiKeyHashFromRequest request) .approved notes
          (.ok votedAt) :: settling)
        response

theorem handleApproveDeployment_run
    (produced : (handleApproveDeployment setup request deploymentID body).Produces trace
      response) : ApproveRun setup request deploymentID trace response := by
  obtain ⟨reads, result, rest, rfl, checked, continued⟩ := produced.of_bind
  have reading := reads_of_uses (uses_pendingApproval _ _ _ _ _) checked
  cases pendingApproval_run checked with
  | refused _ unreviewed =>
    obtain ⟨rfl, rfl⟩ := continued
    rw [List.append_nil]
    exact .refused reads _ reading unreviewed
  | pending _ notes =>
    obtain ⟨answer, rest, rfl, continued⟩ := continued
    cases answer with
    | error problem =>
      obtain ⟨rfl, rfl⟩ := continued
      exact .notRecorded reads notes problem reading
    | ok votedAt =>
      exact .recorded reads notes votedAt rest response reading
        (requestIsAdmin_of_pendingApproval checked) (settleVote_run continued)

inductive RejectRun (request : Request) (deploymentID : String) :
    ServerTrace → Response → Prop
  | refused (reads : ServerTrace) (response : Response) (reading : Reads reads)
      (unreviewed : response.isReview = false) :
      RejectRun request deploymentID reads response
  | notUpdated (reads : ServerTrace) (notes problem : String)
      (voted : Except String ControlPlane.Time) (reading : Reads reads) :
      RejectRun request deploymentID
        (reads ++ [voteExchange deploymentID (apiKeyHashFromRequest request) .rejected notes voted,
          updateExchange deploymentID .rejected (apiKeyHashFromRequest request) notes
            (some problem)])
        (.failed 500 "update_approval_failed" problem)
  | rejected (reads : ServerTrace) (notes : String) (voted : Except String ControlPlane.Time)
      (audited : Option String) (again : Except ControlPlane.LookupError DeploymentApproval)
      (shown : DeploymentApproval) (reading : Reads reads) :
      RejectRun request deploymentID
        (reads ++ [voteExchange deploymentID (apiKeyHashFromRequest request) .rejected notes voted,
          updateExchange deploymentID .rejected (apiKeyHashFromRequest request) notes none,
          reviewAudit (apiKeyHashFromRequest request) "deployment.approval.rejected"
            deploymentID audited,
          ⟨.getDeploymentApproval deploymentID, again⟩])
        (.approval shown none)

theorem handleRejectDeployment_run
    (produced : (handleRejectDeployment setup request deploymentID body).Produces trace
      response) : RejectRun request deploymentID trace response := by
  obtain ⟨reads, result, rest, rfl, checked, continued⟩ := produced.of_bind
  have reading := reads_of_uses (uses_pendingApproval _ _ _ _ _) checked
  cases pendingApproval_run checked with
  | refused _ unreviewed =>
    obtain ⟨rfl, rfl⟩ := continued
    rw [List.append_nil]
    exact .refused reads _ reading unreviewed
  | pending _ notes =>
    dsimp only at continued
    split at continued
    · obtain ⟨rfl, rfl⟩ := continued
      rw [List.append_nil]
      exact .refused reads _ reading rfl
    · obtain ⟨voted, _, rfl, updated, _, rfl, continued⟩ := continued
      cases updated with
      | some problem =>
        obtain ⟨rfl, rfl⟩ := continued
        exact .notUpdated reads notes problem voted reading
      | none =>
        obtain ⟨audited, _, rfl, again, _, rfl, continued⟩ := continued
        cases again with
        | error | ok =>
          obtain ⟨rfl, rfl⟩ := continued
          exact .rejected reads notes voted audited _ _ reading

def ServerCall.writesApprovals : ServerCall → Bool
  | .requestDeploymentApproval _ => true
  | .recordApprovalVote _ _ _ _ => true
  | .updateDeploymentApprovalStatus _ _ _ _ => true
  | _ => false

variable {calls : RouteCalls}

namespace Site

theorem registry_effect (site : Site) (exchange : Exchange ServerReply) :
    (site.effect calls exchange).registry = site.registry := by
  unfold effect
  split <;> rfl

theorem approvals_effect (site : Site) {exchange : Exchange ServerReply}
    (keeps : exchange.command.writesApprovals = false) :
    (site.effect calls exchange).approvals = site.approvals := by
  unfold effect
  split
  case h_4 => cases keeps
  case h_5 => cases keeps
  case h_6 => cases keeps
  all_goals rfl

theorem registry_after (site : Site) (trace : ServerTrace) :
    ((siteWorld calls).after site trace).registry = site.registry :=
  Interface.view_after Site.registry (fun exchange _ site => registry_effect site exchange) site

theorem approvals_after {trace : ServerTrace}
    (keeps : ∀ exchange ∈ trace, exchange.command.writesApprovals = false) (site : Site) :
    ((siteWorld calls).after site trace).approvals = site.approvals :=
  Interface.view_after Site.approvals
    (fun exchange member site => approvals_effect site (keeps exchange member)) site

def statusOf (site : Site) (deploymentID : String) : Option ApprovalStatus :=
  (site.approvals.getDeploymentApproval deploymentID).map DeploymentApproval.status

end Site

theorem Reads.keeps {trace : ServerTrace} (reads : Reads trace) :
    ∀ exchange ∈ trace, exchange.command.writesApprovals = false := by
  intro exchange member
  have reading := reads exchange member
  obtain ⟨command, answer⟩ := exchange
  cases command <;> first | rfl | cases reading

namespace ApprovalTables

theorem getDeploymentApproval_update (tables : ApprovalTables) (deploymentID : String)
    (status : ApprovalStatus) (reviewer notes : String) :
    (tables.updateDeploymentApprovalStatus deploymentID status reviewer
        notes).getDeploymentApproval deploymentID =
      (tables.getDeploymentApproval deploymentID).map fun approval =>
        { approval with status := status, reviewer := reviewer, notes := notes } := by
  change ((tables.approvals.rows.map (reviewedRow deploymentID status reviewer notes)).find?
    fun row => row.deploymentID = deploymentID).map scanApproval = _
  rw [List.find?_map]
  have samePredicate : (fun row : DeploymentApproval => decide (row.deploymentID = deploymentID)) ∘
      reviewedRow deploymentID status reviewer notes =
      fun row => decide (row.deploymentID = deploymentID) := by
    funext row
    rw [Function.comp_apply, reviewedRow]
    split <;> rfl
  rw [samePredicate, getDeploymentApproval]
  cases found : tables.approvals.rows.find? fun row => row.deploymentID = deploymentID with
  | none => rfl
  | some row =>
    have named : row.deploymentID = deploymentID := by simpa using List.find?_some found
    rw [Option.map_some, reviewedRow, if_pos named]
    rfl

theorem recordApprovalVote_eq_ok {tables : ApprovalTables} {deploymentID reviewer : String}
    {approval : DeploymentApproval}
    (accepted : tables.voteTarget deploymentID reviewer = .ok approval) (vote : Vote)
    (notes : String) (votedAt : Time) :
    ∃ recorded, tables.recordApprovalVote deploymentID reviewer vote notes votedAt = .ok recorded ∧
      recorded.approvals = tables.approvals ∧
      recorded.votes = tables.votes.insert ⟨approval.id, reviewer, vote, notes, votedAt⟩ := by
  unfold recordApprovalVote
  split
  next problem refused => rw [accepted] at refused; cases refused
  next given same =>
    obtain rfl := Except.ok.inj (accepted.symm.trans same)
    exact ⟨_, rfl, rfl, rfl⟩

end ApprovalTables

namespace Site

theorem statusOf_update (site : Site) (deploymentID : String) (status : ApprovalStatus)
    (reviewer notes : String) :
    (site.effect calls
        (updateExchange deploymentID status reviewer notes none)).statusOf deploymentID =
      (site.statusOf deploymentID).map fun _ => status := by
  change ((site.approvals.updateDeploymentApprovalStatus deploymentID status reviewer
    notes).getDeploymentApproval deploymentID).map _ = _
  rw [ApprovalTables.getDeploymentApproval_update, statusOf, Option.map_map, Option.map_map]
  rfl

theorem approvals_vote {site : Site} {deploymentID reviewer : String} {vote : Vote} {notes : String}
    {votedAt : Time} {approval : DeploymentApproval}
    (accepted : site.approvals.voteTarget deploymentID reviewer = .ok approval) :
    (site.effect calls (voteExchange deploymentID reviewer vote notes
        (.ok votedAt))).approvals.approvals = site.approvals.approvals ∧
      (site.effect calls (voteExchange deploymentID reviewer vote notes
        (.ok votedAt))).approvals.votes =
        site.approvals.votes.insert ⟨approval.id, reviewer, vote, notes, votedAt⟩ := by
  obtain ⟨recorded, done, rows, votes⟩ :=
    ApprovalTables.recordApprovalVote_eq_ok accepted vote notes votedAt
  have after : (site.effect calls (voteExchange deploymentID reviewer vote notes
      (.ok votedAt))).approvals = recorded := by
    simp only [voteExchange, Site.effect, done]
  rw [after]
  exact ⟨rows, votes⟩

theorem statusOf_effect {site : Site} {exchange : Exchange ServerReply}
    (allowed : site.Allows calls exchange)
    (unqueued : ∀ request, exchange.command ≠ .requestDeploymentApproval request)
    (unwritten : ∀ deploymentID status reviewer notes,
      exchange ≠ updateExchange deploymentID status reviewer notes none) (deploymentID : String) :
    (site.effect calls exchange).statusOf deploymentID = site.statusOf deploymentID := by
  by_cases keeps : exchange.command.writesApprovals = false
  · rw [statusOf, approvals_effect site keeps, statusOf]
  · obtain ⟨command, answer⟩ := exchange
    cases command with
    | requestDeploymentApproval request => exact absurd rfl (unqueued request)
    | recordApprovalVote id reviewer vote notes =>
      cases answer with
      | error => rfl
      | ok votedAt =>
        obtain ⟨⟨approval, accepted⟩, -⟩ := allowed
        have rows := (@approvals_vote calls site id reviewer vote notes votedAt approval accepted).1
        change (((site.effect calls (voteExchange id reviewer vote notes
          (.ok votedAt))).approvals.approvals.rows.find? _).map _).map _ = _
        rw [rows]
        rfl
    | updateDeploymentApprovalStatus id status reviewer notes =>
      cases answer with
      | some => rfl
      | none => exact absurd rfl (unwritten id status reviewer notes)
    | _ => exact absurd rfl keeps

end Site

end Purser.Management
