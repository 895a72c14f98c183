import Purser.ModelDeployment

/-!
# Approving and rejecting deployments

Who reviews is the digest of the bearer value, and whoever is not known to lack
the role of an administrator may review.
-/

namespace Purser.Management

open ControlPlane (LookupError Time)
open InteractionPrograms Program

def featureDeploymentApprovals : String := "deployment_approvals"

/-- The digests of the keys that are listed as reviewers.  None of them stands for
any reviewer, also if the keys cannot be read or no longer exist. -/
def resolveReviewerKeyHashes (keyIDs : List String) : Program ServerReply (List String) :=
  if keyIDs = [] then return []
  else do
    match ← listAPIKeys with
    | .error _ => return []
    | .ok keys => return (keys.filter fun key => key.id ∈ keyIDs).map APIKey.keyHash

/-- The key has the role of an administrator, which is also the role of a key
without any. -/
def APIKey.isAdmin (key : APIKey) : Bool := key.role = "admin" ∨ key.role = ""

variable (setup : Setup) (request : Request) (verb deploymentID : String)
  (body : Except String String)

/-- A bearer value that is missing, unknown or cannot be looked up passes. -/
def requestIsAdmin : Program ServerReply Bool :=
  if bearerToken request = "" then return true
  else if setup.server.validateInternalToken (bearerToken request) then return true
  else do
    match ← listAPIKeys with
    | .error _ => return true
    | .ok keys =>
      match keys.find? fun key => key.keyHash = hashOf (bearerToken request) with
      | some key => return key.isAdmin
      | none => return true

/-- The checks that both reviews begin with, and the notes in the body. -/
def pendingApproval : Program ServerReply (Except Response (DeploymentApproval × String)) :=
  if setup.deploymentApprovals then do
    if ← requestIsAdmin setup request then
      match body with
      | .error problem =>
        return .error (.failed 400 "bad_request" ("invalid JSON body: " ++ problem))
      | .ok notes =>
        match ← getDeploymentApproval deploymentID with
        | .error .notFound => return .error (.failed 404 "not_found" "approval not found")
        | .error (.failed problem) => return .error (.failed 500 "get_approval_failed" problem)
        | .ok approval =>
          if approval.status ≠ .pending then
            return .error (.notPending ("approval is not in pending status (current: " ++
              approval.status.text ++ ")") approval.status)
          else
            match approval.expiresAt with
            | none => return .ok (approval, notes)
            | some expiry => do
                if expiry < (← readClock) then
                  return .error (.failed 410 "approval_expired" "this approval request has expired")
                else return .ok (approval, notes)
    else
      return .error (.failed 403 "forbidden" ("only admin role can " ++ verb ++ " deployments"))
  else return .error (.licenseRequired featureDeploymentApprovals)

def voteRefused (problem : String) : Response :=
  if Server.containsText "self_approval_denied".toList problem.toList then
    .failed 409 "self_approval_denied" "the requester cannot approve their own deployment"
  else if Server.containsText "UNIQUE constraint".toList problem.toList then
    .failed 409 "already_voted" "you have already voted on this approval"
  else .failed 500 "vote_failed" problem

def Setup.reviewerKeys : List String :=
  (setup.quorum.map QuorumConfig.reviewerKeys).getD []

def Setup.minApprovers : ℤ := (setup.quorum.map QuorumConfig.minApprovers).getD 0

def quorumNotes (check : QuorumCheck) : String :=
  "quorum reached (" ++ toString check.approved ++ "/" ++ toString check.required ++ ")"

def voteRecorded (check : QuorumCheck) : Response :=
  .voted check.reached check.approved check.required
    (if check.reached then "Deployment approved and starting."
      else "Vote recorded. Waiting for " ++ toString (check.required - check.approved) ++
        " more approval(s).")

/-- What follows a recorded vote: the votes are counted, and with enough of them
the status is written. -/
def settleVote (deploymentID reviewer : String) : Program ServerReply Response := do
  let reviewerKeyHashes ← resolveReviewerKeyHashes setup.reviewerKeys
  match ← checkApprovalQuorumFiltered deploymentID reviewerKeyHashes setup.minApprovers with
  | .error problem => return .failed 500 "quorum_check_failed" problem
  | .ok check =>
    if check.reached then
      match ← updateDeploymentApprovalStatus deploymentID .approved reviewer
        (quorumNotes check) with
      | some problem => return .failed 500 "update_approval_failed" problem
      | none =>
        appendAudit reviewer "deployment.approval.approved" deploymentID
        return voteRecorded check
    else return voteRecorded check

def handleApproveDeployment : Program ServerReply Response := do
  let reviewer := apiKeyHashFromRequest request
  match ← pendingApproval setup request "approve" deploymentID body with
  | .error response => return response
  | .ok (_, notes) =>
    match ← recordApprovalVote deploymentID reviewer .approved notes with
    | .error problem => return voteRefused problem
    | .ok _ => settleVote setup deploymentID reviewer

/-- What follows the checks of a rejection: whether the vote is recorded does not
matter. -/
def veto (deploymentID reviewer notes : String) (approval : DeploymentApproval) :
    Program ServerReply Response := do
  let _ ← recordApprovalVote deploymentID reviewer .rejected notes
  match ← updateDeploymentApprovalStatus deploymentID .rejected reviewer notes with
  | some problem => return .failed 500 "update_approval_failed" problem
  | none =>
    appendAudit reviewer "deployment.approval.rejected" deploymentID
    match ← getDeploymentApproval deploymentID with
    | .error _ => return .approval { approval with status := .rejected } none
    | .ok updated => return .approval updated none

def handleRejectDeployment : Program ServerReply Response := do
  let reviewer := apiKeyHashFromRequest request
  match ← pendingApproval setup request "reject" deploymentID body with
  | .error response => return response
  | .ok (approval, notes) =>
    if approval.requester = reviewer then
      return .failed 409 "self_approval_denied" "the requester cannot reject their own deployment"
    else veto deploymentID reviewer notes approval

/-- The digests by which votes are filtered for display: none of them at all if
reviewers are configured and not found. -/
def reviewerKeySet : Program ServerReply (Option (List String)) :=
  if setup.reviewerKeys = [] then return none
  else do
    let hashes ← resolveReviewerKeyHashes setup.reviewerKeys
    return some hashes

def quorumStatus (required : ℤ) (filter : Option (List String)) (votes : List ApprovalVote) :
    QuorumStatus :=
  let counted := votes.filter fun vote =>
    vote.vote = .approved ∧ filter.all (vote.reviewer ∈ ·)
  { required := required
    received := counted.length
    remaining := max 0 (required - counted.length)
    approvers := counted.map fun vote => (vote.reviewer, vote.votedAt) }

def Setup.required (approval : DeploymentApproval) : ℤ :=
  positiveOr (positiveOr 1 approval.requiredApprovals) setup.minApprovers

def handleGetApproval : Program ServerReply Response :=
  if setup.deploymentApprovals then do
    match ← getDeploymentApproval deploymentID with
    | .error .notFound => return .failed 404 "not_found" "approval not found"
    | .error (.failed problem) => return .failed 500 "get_approval_failed" problem
    | .ok approval =>
      match ← getApprovalVotes approval.id with
      | .error _ => return .approval approval none
      | .ok votes =>
        let filter ← reviewerKeySet setup
        return .approval approval (some (quorumStatus (setup.required approval) filter votes))
  else return .licenseRequired featureDeploymentApprovals

end Purser.Management
