import Purser.ApprovalGate
import Purser.VoteBacking

/-!
# Dual control

With a key behind every vote, a deployment becomes approved by the votes of
enough administrators, and the counts that are shown are those of the decision.
-/

namespace Purser.Management

open List

open Gateway (RouteCalls)
open InteractionPrograms Program SharedWorlds

/-- The counts that are shown, and the decision that was taken. -/
def Agrees (status : QuorumStatus) (reached : Bool) (soFar : ℕ) (needed : ℤ) : Prop :=
  status.received = soFar ∧ status.required = needed ∧
    (reached = true ↔ status.required ≤ status.received)

variable {setup : Setup} {deploymentID : String} {trace : ServerTrace} {calls : RouteCalls}
  {site : Site}

theorem handleGetApproval_run {shown : DeploymentApproval} {status : QuorumStatus}
    (produced : (handleGetApproval setup deploymentID).Produces trace
      (.approval shown (some status))) :
    ∃ votes filter resolving,
      trace = ⟨.getDeploymentApproval deploymentID, .ok shown⟩ ::
        ⟨.getApprovalVotes shown.id, .ok votes⟩ :: resolving ∧
      (reviewerKeySet setup).Produces resolving filter ∧
      status = quorumStatus (setup.required shown) filter votes := by
  unfold handleGetApproval at produced
  split at produced
  · obtain ⟨answer, rest, rfl, continued⟩ := produced.of_issue
    rcases answer with (_ | problem) | approval
    · cases continued.2
    · cases continued.2
    · obtain ⟨answer, rest, rfl, counting⟩ := continued.of_issue
      cases answer with
      | error => cases counting.2
      | ok votes =>
        obtain ⟨resolving, filter, rest, rfl, resolved, rfl, same⟩ := counting.of_bind
        cases same
        exact ⟨votes, filter, resolving, by simp, resolved, rfl⟩
  · cases produced.2

theorem reviewerKeySet_eq {filter : Option (List String)}
    (accepted : (siteWorld calls).Accepts site trace) (listed : Listed trace)
    (produced : (reviewerKeySet setup).Produces trace filter) :
    filter = if setup.reviewerKeys = [] then none
      else some (site.registry.keys.hashesOf setup.reviewerKeys) := by
  rw [reviewerKeySet] at produced
  split at produced
  next none =>
    rw [if_pos none]
    exact produced.2
  next configured =>
    rw [if_neg configured]
    obtain ⟨resolving, hashes, rest, rfl, resolved, rfl, rfl⟩ := produced.of_bind
    rw [append_nil] at accepted listed
    rw [resolved_of_listed accepted listed resolved]

/-- Without failures the votes that are shown are those that count. -/
theorem received_eq {keys : KeyTable} {tables : ApprovalTables} {approvalID : ℕ}
    {votes : List ApprovalVote} {required : ℤ}
    (present : setup.reviewerKeys ≠ [] → ∃ key ∈ keys.rows, key.id ∈ setup.reviewerKeys)
    (read : votes.Perm (tables.getApprovalVotes approvalID)) :
    (quorumStatus required (if setup.reviewerKeys = [] then none
        else some (keys.hashesOf setup.reviewerKeys)) votes).received =
      (tables.countedVotes approvalID (keys.hashesOf setup.reviewerKeys)).length := by
  change (votes.filter _).length = (List.filter _ _).length
  rw [(read.filter _).length_eq]
  by_cases configured : setup.reviewerKeys = []
  · have none : keys.hashesOf setup.reviewerKeys = [] := by
      rw [configured, KeyTable.hashesOf]
      simp
    rw [if_pos configured, none]
    simp
  · obtain ⟨key, held, named⟩ := present configured
    have some : keys.hashesOf setup.reviewerKeys ≠ [] :=
      ne_nil_of_mem (KeyTable.mem_hashesOf.mpr ⟨key, held, named, rfl⟩)
    rw [if_neg configured]
    simp [some]

/-- What a vote leaves behind, if it was answered with a count. -/
theorem counted_of_approving {request : Request} {message : String} {after : ApprovalTables}
    {reached : Bool} {soFar : ℕ} {needed : ℤ}
    (approving : Approving setup site request deploymentID trace after
      (.voted reached soFar needed message)) (listed : Listed trace) :
    ∃ approval, after.getDeploymentApproval deploymentID = some approval ∧
      needed = setup.required approval ∧
      soFar = (after.countedVotes approval.id
        (site.registry.keys.hashesOf setup.reviewerKeys)).length ∧
      (reached = true ↔ needed ≤ soFar) := by
  cases approving with
  | unchanged unreviewed => cases unreviewed
  | recorded _ _ _ _ _ _ _ _ _ settled =>
    cases settled with
    | failed unreviewed => cases unreviewed
    | waiting _ _ resolved counted _ same answered =>
      obtain rfl := resolved listed
      cases answered
      obtain ⟨found, present, required, count, decided⟩ := check_eq_some counted
      rw [same]
      exact ⟨found, present, required, count, decided⟩
    | approved _ _ resolved counted _ written answered =>
      obtain rfl := resolved listed
      cases answered
      obtain ⟨found, present, required, count, decided⟩ := check_eq_some counted
      rw [written, ApprovalTables.getDeploymentApproval_update, present]
      exact ⟨_, rfl, required, count, decided⟩

theorem agrees_of_happens {approve get : Event} {earlier later : List Event}
    (approved : Happens calls setup approve) (shows : Happens calls setup get)
    (properApprove : Proper setup earlier approve) (properGet : Proper setup later get)
    {message : String} {body : Except String String} {reached : Bool} {soFar : ℕ} {needed : ℤ}
    {shown : DeploymentApproval} {status : QuorumStatus}
    (approveAsked : approve.action = .server (.approve deploymentID body))
    (approveAnswered : approve.response = some (.voted reached soFar needed message))
    (getAsked : get.action = .server (.getApproval deploymentID))
    (getAnswered : get.response = some (.approval shown (some status)))
    (approvals : get.before.approvals = approve.after.approvals)
    (registry : get.before.registry = approve.after.registry) :
    Agrees status reached soFar needed := by
  obtain ⟨_, approving, approveAccepted, after⟩ :=
    approved.served_of_response approveAsked approveAnswered
  obtain ⟨approval, found, required, count, decided⟩ := counted_of_approving
    (approving_of_run approveAccepted (handleApproveDeployment_run approving))
    properApprove.listed
  obtain ⟨_, getting, getAccepted, -⟩ := shows.served_of_response getAsked getAnswered
  obtain ⟨votes, filter, resolving, split, resolved, rfl⟩ := handleGetApproval_run getting
  have listed := properGet.listed
  rw [split] at getAccepted listed
  obtain ⟨looked, read, resolveAccepted⟩ := getAccepted
  have filtered : filter = if setup.reviewerKeys = [] then none
      else some (get.before.registry.keys.hashesOf setup.reviewerKeys) :=
    reviewerKeySet_eq resolveAccepted listed.tail.tail resolved
  -- The GET request finds the row and the keys that the vote left behind.
  have kept : approve.after.registry = approve.before.registry := by
    rw [after, Site.registry_after]
  have keys := registry.trans kept
  rw [← after, ← approvals] at found count
  rw [← keys] at count
  have same : get.before.approvals.getDeploymentApproval deploymentID = some shown := looked
  obtain rfl := Option.some.inj (same.symm.trans found)
  have received : (quorumStatus (setup.required shown) filter votes).received = soFar := by
    rw [filtered, count]
    exact received_eq properGet.reviewers read
  refine ⟨received, required.symm, ?_⟩
  rw [received, ← required]
  exact decided

theorem backed_of_runs {start : Site} {events : List Event} (orchestrated : setup.Orchestrated)
    (run : Runs calls setup start events site) (empty : start.approvals = .empty)
    (proper : ∀ earlier event later, events = earlier ++ event :: later →
      Proper setup earlier event) : Backed events site.approvals site.registry.keys := by
  induction run with
  | start =>
    rw [empty]
    refine ⟨nodup_nil, ?_, ?_⟩
    · intro row member
      cases member
    · intro row member
      cases member
  | @step earlier event run happens induction =>
    have before := induction fun first given rest split => by
      refine proper first given (rest ++ [event]) ?_
      rw [split, append_assoc, cons_append]
    exact before.step (proper earlier event [] rfl) (effect_of_happens orchestrated happens)

/-- A deployment becomes approved only by the votes of enough administrators, and the
counts that are shown after a vote agree with the decision. -/
theorem dual_control {calls : RouteCalls} {setup : Setup} {start site : Site}
    {events : List Event} (orchestrated : setup.Orchestrated)
    (run : Runs calls setup start events site) (empty : start.approvals = .empty)
    (proper : ∀ earlier event later, events = earlier ++ event :: later →
      Proper setup earlier event) :
    (∀ earlier event later, events = earlier ++ event :: later → ∀ row, event.Approves row →
      DualControlled setup (earlier ++ [event]) event.after row) ∧
    ∀ approve ∈ events, ∀ get ∈ events,
      ∀ deploymentID body reached soFar needed message shown status,
        approve.action = .server (.approve deploymentID body) →
        approve.response = some (.voted reached soFar needed message) →
        get.action = .server (.getApproval deploymentID) →
        get.response = some (.approval shown (some status)) →
        get.before.approvals = approve.after.approvals →
        get.before.registry = approve.after.registry → Agrees status reached soFar needed := by
  constructor
  · rintro earlier event later rfl row approves
    obtain ⟨before, happens⟩ := run.of_split rfl
    have backed := backed_of_runs orchestrated before empty fun first given rest split => by
      refine proper first given (rest ++ event :: later) ?_
      rw [split, append_assoc, cons_append]
    exact controlled_of_effect backed (proper earlier event later rfl)
      (effect_of_happens orchestrated happens) approves
  · intro approve approveMember get getMember deploymentID body reached soFar needed message
      shown status approveAsked approveAnswered getAsked getAnswered approvals registry
    obtain ⟨beforeApprove, afterApprove, splitApprove⟩ := append_of_mem approveMember
    obtain ⟨beforeGet, afterGet, splitGet⟩ := append_of_mem getMember
    exact agrees_of_happens (run.of_split splitApprove).2 (run.of_split splitGet).2
      (proper _ _ _ splitApprove) (proper _ _ _ splitGet) approveAsked approveAnswered getAsked
      getAnswered approvals registry

/-- What is asked of the calls of a request, for evaluation. -/
def properCall (setup : Setup) (event : Event) : Exchange ServerReply → Bool
  | ⟨.listAPIKeys, .error _⟩ => false
  | ⟨.requestDeploymentApproval request, none⟩ =>
    event.before.approvals.approvals.rows.all (·.deploymentID ≠ request.deploymentID)
  | ⟨.recordApprovalVote _ reviewer .approved _, .ok _⟩ =>
    bearerToken event.call.request ≠ "" ∧
    setup.server.validateInternalToken (bearerToken event.call.request) = false ∧
    event.before.registry.keys.rows.any fun key => key.keyHash = reviewer ∧ key.enabled
  | _ => true

/-- Without rotated keys nobody stands in for anybody. -/
theorem not_successor {sites : List Site}
    (original : ∀ site ∈ sites, ∀ key ∈ site.registry.keys.rows, key.predecessorID = "")
    (old new : String) : ¬Successor sites old new := by
  intro successor
  obtain ⟨between, -, site, member, first, firstMember, second, secondMember, -, -, rotated, -⟩ :=
    Relation.TransGen.tail'_iff.mp successor
  exact rotated (original site member second secondMember)

theorem proper_of_evaluated {setup : Setup} {earlier : List Event} {event : Event}
    (anyone : setup.reviewerKeys = []) (evaluated : event.trace.all (properCall setup event) = true)
    (served : ∃ action, event.action = .server action)
    (original : ∀ site ∈ statesUpTo earlier event, ∀ key ∈ site.registry.keys.rows,
      key.predecessorID = "") : Proper setup earlier event := by
  have checked := all_eq_true.mp evaluated
  refine ⟨?_, ?_, ?_, ?_, ?_⟩
  · intro problem member
    cases checked _ member
  · intro configured
    exact absurd anyone configured
  · intro request member row held
    have fresh := all_eq_true.mp (checked _ member) row held
    exact of_decide_eq_true fresh
  · intro deploymentID reviewer notes votedAt member
    obtain ⟨bearer, external, known⟩ := of_decide_eq_true (checked _ member)
    obtain ⟨key, held, own⟩ := any_eq_true.mp known
    have enabled := of_decide_eq_true own
    exact ⟨bearer, external, ⟨key, held, enabled⟩, fun row held named => not_successor original _ _⟩
  · intro id removed
    obtain ⟨action, asked⟩ := served
    rw [asked] at removed
    rcases removed with impossible | impossible
    · cases impossible
    · cases impossible

theorem proper_untroubledEvents {setup : Setup} {site : Site}
    {requests : List (Call × ServerAction)} (anyone : setup.reviewerKeys = [])
    (evaluated : ∀ event ∈ untroubledEvents setup site requests,
      event.trace.all (properCall setup event) = true ∧
        ∀ key ∈ event.before.registry.keys.rows, key.predecessorID = "") (earlier : List Event)
    (event : Event) (later : List Event)
    (split : untroubledEvents setup site requests = earlier ++ event :: later) :
    Proper setup earlier event := by
  have inside : ∀ given ∈ earlier ++ [event], given ∈ untroubledEvents setup site requests := by
    intro given member
    rw [split, append_cons]
    exact mem_append_left _ member
  have member := inside event (mem_append_right _ mem_cons_self)
  refine proper_of_evaluated anyone (evaluated event member).1
    (server_of_mem_untroubledEvents member) ?_
  intro site visited
  obtain ⟨given, givenMember, rfl⟩ := mem_map.mp visited
  exact (evaluated given (inside given givenMember)).2

/-- There are two administrators. -/
def keyedSite : Site := { gatedSite with registry := reviewSite.registry }

def firstDeploys : Call × ServerAction := (postRequest "/api/v1/models/model/deploy" "Bearer first",
    .deploy "model" (.ok { plan := some (.ok inlinePlan) }))

def approvesWith (token : String) : Call × ServerAction :=
  (postRequest "/api/v1/approvals/0/approve" ("Bearer " ++ token), .approve "0" (.ok ""))

def firstLooks : Call × ServerAction :=
  ({ request :=
      { method := "GET", path := "/api/v1/approvals/0", authorization := "Bearer first" } },
    .getApproval "0")

def deployEvent : Event := untroubledEvent gatedSetup keyedSite firstDeploys.1 firstDeploys.2

def approveEvent (token : String) : Event :=
  untroubledEvent gatedSetup deployEvent.after (approvesWith token).1 (approvesWith token).2

def lookEvent (token : String) : Event :=
  untroubledEvent gatedSetup (approveEvent token).after firstLooks.1 firstLooks.2

def keyedEvents (token : String) : List Event :=
  untroubledEvents gatedSetup keyedSite [firstDeploys, approvesWith token, firstLooks]

theorem keyedEvents_eq (token : String) :
    keyedEvents token = [deployEvent, approveEvent token, lookEvent token] := by
  rfl

def approvedBy (reviewer : String) : DeploymentApproval where
  id := 1
  deploymentID := "0"
  modelID := "model"
  requester := "a7937b64b8caa58f03721bb6bacf5c78cb235febe0e70b1b84cd99541461a08e"
  status := .approved
  reviewer := reviewer
  notes := "quorum reached (1/1)"

def secondHash : String := "16367aacb67a4a017c8da8ab95682ccb390863780f7114dda0a0e0c55644c7c4"

def shownStatus : QuorumStatus where
  required := 1
  received := 1
  remaining := 0
  approvers := [(secondHash, 0)]

theorem orchestrated_gatedSetup : gatedSetup.Orchestrated := by
  intro deployer same plan
  cases same
  exact .issue rfl

instance decidableApproves (event : Event) (row : DeploymentApproval) :
    Decidable (event.Approves row) :=
  inferInstanceAs (Decidable (_ ∧ _ ∧ _))

/-- The second administrator approves what the first one asked for. -/
theorem dual_control_twoKeys : DualControlled gatedSetup [deployEvent, approveEvent "second"]
        (approveEvent "second").after (approvedBy secondHash) ∧
      Agrees shownStatus true 1 1 := by
  have checked : ∀ event ∈ [deployEvent, approveEvent "second", lookEvent "second"],
        event.trace.all (properCall gatedSetup event) = true ∧
          ∀ key ∈ event.before.registry.keys.rows, key.predecessorID = "" := by
    decide +kernel
  rw [← keyedEvents_eq] at checked
  obtain ⟨final, run⟩ : ∃ final, Runs Gateway.directCalls gatedSetup keyedSite
      (keyedEvents "second") final :=
    runs_untroubledEvents .start [firstDeploys, approvesWith "second", firstLooks]
  have controlled := dual_control orchestrated_gatedSetup run rfl
    (proper_untroubledEvents rfl checked)
  rw [keyedEvents_eq] at controlled
  constructor
  · exact controlled.1 [deployEvent] (approveEvent "second") [lookEvent "second"] rfl _
      (by decide +kernel)
  · refine controlled.2 (approveEvent "second") ?_ (lookEvent "second") ?_ "0" (.ok "") true 1 1
      "Deployment approved and starting." (approvedBy secondHash) shownStatus
      (action_untroubledEvent _ _ _ _) (by decide +kernel) (action_untroubledEvent _ _ _ _)
      (by decide +kernel) ?_ ?_
    · exact mem_cons_of_mem _ mem_cons_self
    · exact mem_cons_of_mem _ (mem_cons_of_mem _ mem_cons_self)
    · exact congrArg Site.approvals (before_untroubledEvent _ _ _ _)
    · exact congrArg Site.registry (before_untroubledEvent _ _ _ _)

/-- A bearer value that is nobody's key approves as well. -/
theorem dual_control_madeUp : (∃ final, Runs Gateway.directCalls gatedSetup keyedSite
      [deployEvent, approveEvent "made-up"] final) ∧
    keyedSite.approvals = .empty ∧
    ∃ row, (approveEvent "made-up").Approves row ∧
      ¬DualControlled gatedSetup [deployEvent, approveEvent "made-up"]
        (approveEvent "made-up").after row := by
  have evaluated : (approveEvent "made-up").Approves
        (approvedBy "da53422a4618735f8ae72abdb21c16d340849b1a510ef20768b131171f8f7122") ∧
      ∀ vote ∈ (approveEvent "made-up").after.approvals.votes.rows,
        ∀ key ∈ (approveEvent "made-up").after.registry.keys.rows, key.keyHash ≠ vote.reviewer := by
    decide +kernel
  obtain ⟨approves, unknown⟩ := evaluated
  refine ⟨runs_untroubledEvents .start [firstDeploys, approvesWith "made-up"], rfl, _, approves, ?_⟩
  rintro ⟨voters, -, enough, each⟩
  cases voters with
  | nil => exact absurd enough (by decide)
  | cons key =>
    obtain ⟨-, vote, cast, -, -, -, backs⟩ := each key mem_cons_self
    exact unknown vote cast key backs.held backs.own

end Purser.Management
