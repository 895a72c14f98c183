import Purser.RequestHistories
import Purser.SiteEffects

/-!
# What a request does to approvals

Requests are sorted by what they do to the queue of approvals and to the keys.
-/

namespace Purser.Management

open List

open ControlPlane (Time)
open Gateway (RouteCalls)
open InteractionPrograms Program SharedWorlds
open KeyedStores (Store)
open Interface (after_append)

/-- The keys can be read in every call for them. -/
def Listed (trace : ServerTrace) : Prop := ∀ problem, ⟨.listAPIKeys, .error problem⟩ ∉ trace

theorem Listed.append {first second : ServerTrace} (listed : Listed (first ++ second)) :
    Listed first ∧ Listed second :=
  ⟨fun problem member => listed problem (mem_append_left _ member),
    fun problem member => listed problem (mem_append_right _ member)⟩

theorem Listed.tail {exchange : Exchange ServerReply} {trace : ServerTrace}
    (listed : Listed (exchange :: trace)) : Listed trace :=
  fun problem member => listed problem (mem_cons_of_mem _ member)

/-- The digests of the keys with these identifiers. -/
def KeyTable.hashesOf (table : KeyTable) (keyIDs : List String) : List String :=
  (table.listAPIKeys.filter fun key => key.id ∈ keyIDs).map APIKey.keyHash

theorem KeyTable.mem_listAPIKeys {table : KeyTable} {key : APIKey} :
    key ∈ table.listAPIKeys ↔ ∃ row ∈ table.rows, KeyTable.scanAPIKey row = key := by
  rw [listAPIKeys, mem_insertionSort, mem_map]

theorem KeyTable.mem_hashesOf {table : KeyTable} {keyIDs : List String} {hash : String} :
    hash ∈ table.hashesOf keyIDs ↔ ∃ key ∈ table.rows, key.id ∈ keyIDs ∧ key.keyHash = hash := by
  simp only [hashesOf, mem_map, mem_filter, mem_listAPIKeys, decide_eq_true_eq]
  constructor
  · rintro ⟨_, ⟨⟨row, member, rfl⟩, named⟩, rfl⟩
    exact ⟨row, member, named, rfl⟩
  · rintro ⟨row, member, named, rfl⟩
    exact ⟨_, ⟨⟨row, member, rfl⟩, named⟩, rfl⟩

variable {calls : RouteCalls} {site : Site} {trace : ServerTrace}

section

variable (accepted : (siteWorld calls).Accepts site trace)

include accepted

theorem keys_of_listed {keys : List APIKey} (member : ⟨.listAPIKeys, .ok keys⟩ ∈ trace) :
    keys = site.registry.keys.listAPIKeys := by
  obtain ⟨before, rest, -, allowed⟩ := accepted.exists_allows member
  have same : keys = ((siteWorld calls).after site before).registry.keys.listAPIKeys := allowed
  rw [same, Site.registry_after]

theorem resolved_of_listed (listed : Listed trace) {keyIDs hashes : List String}
    (produced : (resolveReviewerKeyHashes keyIDs).Produces trace hashes) :
    hashes = site.registry.keys.hashesOf keyIDs := by
  rw [resolveReviewerKeyHashes] at produced
  split at produced
  next none =>
    obtain ⟨rfl, rfl⟩ := produced
    rw [none, KeyTable.hashesOf]
    simp
  next some =>
    obtain ⟨answer, rest, rfl, continued⟩ := produced.of_issue
    cases answer with
    | error problem => exact absurd mem_cons_self (listed problem)
    | ok =>
      obtain ⟨rfl, rfl⟩ := continued
      rw [keys_of_listed accepted mem_cons_self]
      rfl

theorem isAdmin_of_listed {setup : Setup} {request : Request} {key : APIKey} (listed : Listed trace)
    (produced : (requestIsAdmin setup request).Produces trace true)
    (bearer : bearerToken request ≠ "")
    (external : setup.server.validateInternalToken (bearerToken request) = false)
    (member : key ∈ site.registry.keys.rows) (own : key.keyHash = hashOf (bearerToken request)) :
    key.isAdmin = true := by
  rw [requestIsAdmin, if_neg bearer, external] at produced
  obtain ⟨answer, rest, rfl, continued⟩ := produced.of_issue
  cases answer with
  | error problem => exact absurd mem_cons_self (listed problem)
  | ok =>
    obtain rfl := keys_of_listed accepted mem_cons_self
    dsimp only at continued
    split at continued
    next held =>
      obtain ⟨rfl, isAdmin⟩ := continued
      obtain ⟨row, rowMember, rfl⟩ := KeyTable.mem_listAPIKeys.mp (mem_of_find?_eq_some held)
      have found := find?_some held
      have same : row.keyHash = hashOf (bearerToken request) := of_decide_eq_true found
      rw [KeyTable.keyHash_inj member rowMember (own.trans same.symm)]
      exact isAdmin.symm
    next absent =>
      have missing := find?_eq_none.mp absent _ (KeyTable.mem_listAPIKeys.mpr ⟨key, member, rfl⟩)
      exact absurd (decide_eq_true own) missing

end

/-- What follows a vote that was recorded. -/
inductive Settled (setup : Setup) (keys : KeyTable) (deploymentID reviewer : String)
    (trace : ServerTrace) (tables after : ApprovalTables) (response : Response) : Prop
  | failed (unreviewed : response.isReview = false) (same : after = tables)
  | waiting (hashes : List String) (check : QuorumCheck)
      (resolved : Listed trace → hashes = keys.hashesOf setup.reviewerKeys)
      (counted : tables.checkApprovalQuorumFiltered deploymentID hashes setup.minApprovers =
        some check)
      (undecided : check.reached = false) (same : after = tables)
      (answered : response = voteRecorded check)
  | approved (hashes : List String) (check : QuorumCheck)
      (resolved : Listed trace → hashes = keys.hashesOf setup.reviewerKeys)
      (counted : tables.checkApprovalQuorumFiltered deploymentID hashes setup.minApprovers =
        some check)
      (reached : check.reached = true)
      (written : after = tables.updateDeploymentApprovalStatus deploymentID .approved reviewer
        (quorumNotes check))
      (answered : response = voteRecorded check)

inductive Approving (setup : Setup) (site : Site) (request : Request) (deploymentID : String)
    (trace : ServerTrace) (after : ApprovalTables) (response : Response) : Prop
  | unchanged (unreviewed : response.isReview = false) (same : after = site.approvals)
  | recorded (approval : DeploymentApproval) (notes : String) (votedAt : Time)
      (tables : ApprovalTables)
      (isAdmin : ∀ key ∈ site.registry.keys.rows, Listed trace → bearerToken request ≠ "" →
        setup.server.validateInternalToken (bearerToken request) = false →
          key.keyHash = apiKeyHashFromRequest request → key.isAdmin = true)
      (accepted : site.approvals.voteTarget deploymentID (apiKeyHashFromRequest request) =
        .ok approval)
      (voted : voteExchange deploymentID (apiKeyHashFromRequest request) .approved notes
        (.ok votedAt) ∈ trace)
      (rows : tables.approvals = site.approvals.approvals)
      (votes : tables.votes = site.approvals.votes.insert
        ⟨approval.id, apiKeyHashFromRequest request, .approved, notes, votedAt⟩)
      (settled : Settled setup site.registry.keys deploymentID (apiKeyHashFromRequest request)
        trace tables after response)

inductive Rejecting (site : Site) (deploymentID : String) (after : ApprovalTables) : Prop
  | vetoed (tables : ApprovalTables) (rows : tables.approvals = site.approvals.approvals)
      (votes : ∀ vote ∈ tables.votes.rows, vote ∈ site.approvals.votes.rows ∨ vote.vote = .rejected)
      (written : after = tables ∨ ∃ reviewer notes,
        after = tables.updateDeploymentApprovalStatus deploymentID .rejected reviewer notes)

variable {setup : Setup}

section Reviews

variable {deploymentID reviewer : String} {response : Response}

theorem settled_of_run {whole : ServerTrace} (accepted : (siteWorld calls).Accepts site trace)
    (run : SettleRun setup deploymentID reviewer trace response)
    (part : Listed whole → Listed trace) :
    Settled setup site.registry.keys deploymentID reviewer whole site.approvals
      ((siteWorld calls).after site trace).approvals response := by
  -- Resolving the reviewers comes first and only reads.
  have resolving : ∀ {first rest hashes}, trace = first ++ rest →
      (resolveReviewerKeyHashes setup.reviewerKeys).Produces first hashes →
        (Listed whole → hashes = site.registry.keys.hashesOf setup.reviewerKeys) ∧
          ((siteWorld calls).after site first).approvals = site.approvals := by
    rintro first rest hashes rfl resolved
    have firstAccepted := accepted.of_append.1
    refine ⟨fun listed => resolved_of_listed firstAccepted (part listed).append.1 resolved, ?_⟩
    exact Site.approvals_after (reads_of_uses (uses_resolveReviewerKeyHashes _) resolved).keeps site
  cases run with
  | unchecked _ _ _ resolved | notUpdated _ _ _ _ resolved =>
    obtain ⟨-, kept⟩ := resolving rfl resolved
    refine .failed rfl ?_
    rw [after_append]
    exact kept
  | waiting _ hashes check resolved undecided =>
    obtain ⟨known, kept⟩ := resolving rfl resolved
    have counted := accepted.of_append.2.1
    refine .waiting hashes check known ?_ undecided ?_ rfl
    · rw [← kept]
      exact counted
    · rw [after_append]
      exact kept
  | approved _ hashes check _ resolved reached =>
    obtain ⟨known, kept⟩ := resolving rfl resolved
    have counted := accepted.of_append.2.1
    refine .approved hashes check known ?_ reached ?_ rfl
    · rw [← kept]
      exact counted
    · rw [after_append, ← kept]
      rfl

theorem isReview_voteRefused (problem : String) : (voteRefused problem).isReview = false := by
  rw [voteRefused]
  split
  · rfl
  · split <;> rfl

theorem approving_of_run {request : Request} (accepted : (siteWorld calls).Accepts site trace)
    (run : ApproveRun setup request deploymentID trace response) :
    Approving setup site request deploymentID trace
      ((siteWorld calls).after site trace).approvals response := by
  cases run with
  | refused _ _ reading unreviewed =>
    exact .unchanged unreviewed (Site.approvals_after reading.keeps site)
  | notRecorded _ _ problem reading =>
    refine .unchanged (isReview_voteRefused problem) ?_
    rw [after_append]
    exact Site.approvals_after reading.keeps site
  | recorded _ notes votedAt settling _ reading permitted settled =>
    obtain ⟨asking, rest, rfl, permitted⟩ := permitted
    obtain ⟨readAccepted, voteAllowed, settleAccepted⟩ :=
      accepted.of_append
    have kept := @Site.approvals_after calls _ reading.keeps site
    obtain ⟨⟨approval, target⟩, -⟩ := voteAllowed
    obtain ⟨rows, votes⟩ := @Site.approvals_vote calls _ deploymentID _ .approved notes
      votedAt approval target
    have part : Listed (asking ++ rest ++ voteExchange deploymentID
        (apiKeyHashFromRequest request) .approved notes (.ok votedAt) :: settling) →
        Listed settling :=
      fun listed => listed.append.2.tail
    have followed := settled_of_run settleAccepted settled part
    have registry : ((siteWorld calls).effect ((siteWorld calls).after site (asking ++ rest))
        (voteExchange deploymentID (apiKeyHashFromRequest request) .approved notes
          (.ok votedAt))).registry = site.registry :=
      (Site.registry_effect _ _).trans (Site.registry_after _ _)
    rw [kept] at target rows votes
    rw [registry] at followed
    rw [after_append]
    refine .recorded approval notes votedAt _ ?_ target ?_ rows votes followed
    · intro key member listed bearer external own
      rw [apiKeyHashFromRequest, if_neg bearer] at own
      exact isAdmin_of_listed readAccepted.of_append.1
        listed.append.1.append.1 permitted bearer external member own
    · exact mem_append_right _ mem_cons_self

theorem rejecting_of_vote {reads rest : ServerTrace} {notes : String} {voted : Except String Time}
    {after : ApprovalTables} (reading : Reads reads) (accepted : (siteWorld calls).Accepts site
      (reads ++ voteExchange deploymentID reviewer .rejected notes voted :: rest))
    (written : after = (((siteWorld calls).after site reads).effect calls
        (voteExchange deploymentID reviewer .rejected notes voted)).approvals ∨
      ∃ reviewer' notes', after = (((siteWorld calls).after site reads).effect calls
        (voteExchange deploymentID reviewer .rejected notes
          voted)).approvals.updateDeploymentApprovalStatus deploymentID .rejected reviewer'
            notes') : Rejecting site deploymentID after := by
  have kept := @Site.approvals_after calls _ reading.keeps site
  cases voted with
  | error =>
    refine .vetoed _ (congrArg ApprovalTables.approvals kept) (fun vote member => .inl ?_) written
    rwa [← kept]
  | ok votedAt =>
    obtain ⟨⟨approval, target⟩, -⟩ := accepted.of_append.2.1
    obtain ⟨rows, votes⟩ := @Site.approvals_vote calls _ deploymentID reviewer .rejected notes
      votedAt approval target
    rw [kept] at rows votes
    refine .vetoed _ rows (fun vote member => ?_) written
    rw [votes] at member
    rcases Store.mem_insert_iff.mp member with older | ⟨rfl, -⟩
    · exact .inl older
    · exact .inr rfl

theorem rejecting_of_run {request : Request} (accepted : (siteWorld calls).Accepts site trace)
    (run : RejectRun request deploymentID trace response) :
    Rejecting site deploymentID ((siteWorld calls).after site trace).approvals := by
  cases run with
  | refused _ _ reading =>
    exact .vetoed site.approvals rfl (fun vote member => .inl member)
      (.inl (Site.approvals_after reading.keeps site))
  | notUpdated _ _ _ _ reading =>
    refine rejecting_of_vote reading accepted (.inl ?_)
    rw [after_append]
    rfl
  | rejected _ notes _ _ _ _ reading =>
    refine rejecting_of_vote reading accepted (.inr ⟨apiKeyHashFromRequest request, notes, ?_⟩)
    rw [after_append]
    rfl

end Reviews

/-- The orchestrator does not write approvals. -/
def Setup.Orchestrated (setup : Setup) : Prop := ∀ deployer, setup.deployer = some deployer →
    ∀ plan, (deployer plan).Uses (·.writesApprovals = false)

theorem writesApprovals_of_isConfiguring (asked : ServerCall)
    (configuring : asked.isConfiguring = true) : asked.writesApprovals = false := by
  cases asked <;> first | rfl | cases configuring

theorem Setup.Orchestrated.addDeployments (orchestrated : setup.Orchestrated)
    (specs : List ConfigDeployment) :
    (Management.addDeployments setup specs).Uses (·.writesApprovals = false) := by
  induction specs with
  | nil => trivial
  | cons _ _ induction =>
    unfold Management.addDeployments
    split
    next deployer planning rollouts =>
      refine .bind (.issue rfl) ?_
      rintro (problem | plan)
      · exact induction
      · refine (orchestrated deployer rollouts plan).bind fun result => ?_
        split
        · exact induction
        · exact induction.bind fun _ => trivial
    next => exact induction

theorem Setup.Orchestrated.handleConfigApply (orchestrated : setup.Orchestrated)
    (body : ConfigBody) :
    (Management.handleConfigApply setup body).Uses (·.writesApprovals = false) := by
  cases body with
  | unreadable | empty | invalid => trivial
  | config config =>
    refine ((uses_configDiff config).mono writesApprovals_of_isConfiguring).bind ?_
    rintro (problem | diff)
    · trivial
    · refine ((uses_addModels _).mono writesApprovals_of_isConfiguring).bind fun models => ?_
      exact (orchestrated.addDeployments _).bind fun deployments => trivial

theorem approvals_of_uses {Value : Type} {program : Program ServerReply Value} {value : Value}
    (uses : program.Uses (·.writesApprovals = false)) (produced : program.Produces trace value)
    (site : Site) : ((siteWorld calls).after site trace).approvals = site.approvals :=
  Site.approvals_after (fun _ member => uses.of_mem produced member) site

/-- A deploy request queues a row that never expires, or leaves the approvals alone. -/
theorem queueing_of_produces {request : Request} {identity : Identity} {modelID : String}
    {body : Except String DeployRequest} {response : Response} (orchestrated : setup.Orchestrated)
    (produced : (handleDeployModel setup request identity modelID body).Produces trace response) :
    ((siteWorld calls).after site trace).approvals = site.approvals ∨
      ∃ queued : ApprovalRequest, queued.expiresAt = none ∧
        ⟨.requestDeploymentApproval queued, none⟩ ∈ trace ∧
        ((siteWorld calls).after site trace).approvals =
          site.approvals.requestDeploymentApproval queued := by
  unfold handleDeployModel at produced
  split at produced
  · obtain ⟨rfl, -⟩ := produced
    exact .inl rfl
  · obtain ⟨rfl, -⟩ := produced
    exact .inl rfl
  next deployer given rollouts =>
    obtain ⟨resolving, result, rest, rfl, resolved, continued⟩ := produced.of_bind
    have kept := @approvals_of_uses calls resolving _ _ _
      ((uses_resolvePlan setup identity modelID given).mono fun asked planning => by
        cases asked <;> first | rfl | cases planning) resolved site
    rw [after_append]
    cases result with
    | error =>
      obtain ⟨rfl, -⟩ := continued
      exact .inl kept
    | ok =>
      dsimp only at continued
      split at continued
      · obtain ⟨digits, _, rfl, answer, _, rfl, continued⟩ := continued
        cases answer with
        | some =>
          obtain ⟨rfl, -⟩ := continued
          exact .inl kept
        | none =>
          obtain ⟨audited, _, rfl, rfl, -⟩ := continued
          refine .inr ⟨_, rfl, mem_append_right _ (mem_cons_of_mem _ mem_cons_self), ?_⟩
          rw [← kept]
          rfl
      · obtain ⟨rolling, result, rest, rfl, rolled, continued⟩ := continued.of_bind
        have answered : rest = [] := by
          split at continued
          · exact continued.1
          · exact continued.1
        rw [answered, append_nil]
        exact .inl ((approvals_of_uses (orchestrated deployer rollouts _) rolled _).trans kept)

/-- What a request changes. -/
inductive EventEffect (setup : Setup) (event : Event) : Prop
  | keys (endpoint : KeyEndpoint) (identity : Identity) (asked : event.action = .keys endpoint)
      (approvals : event.after.approvals = event.before.approvals)
      (registry : event.after.registry =
        (event.before.registry.handleKeys event.call identity endpoint).2)
  | quiet (approvals : event.after.approvals = event.before.approvals)
      (registry : event.after.registry = event.before.registry)
  | queued (request : ApprovalRequest) (lasting : request.expiresAt = none)
      (asked : ⟨.requestDeploymentApproval request, none⟩ ∈ event.trace)
      (approvals : event.after.approvals = event.before.approvals.requestDeploymentApproval request)
      (registry : event.after.registry = event.before.registry)
  | approving (deploymentID : String) (response : Response)
      (approving : Approving setup event.before event.call.request deploymentID event.trace
        event.after.approvals response)
      (registry : event.after.registry = event.before.registry)
  | rejecting (deploymentID : String)
      (rejecting : Rejecting event.before deploymentID event.after.approvals)
      (registry : event.after.registry = event.before.registry)

theorem effect_of_happens {calls : RouteCalls} {event : Event} (orchestrated : setup.Orchestrated)
    (happens : Happens calls setup event) : EventEffect setup event := by
  cases happens with
  | refused => exact .quiet rfl rfl
  | keys _ _ endpoint identity => exact .keys endpoint identity rfl rfl rfl
  | served site _ action _ trace response _ produced accepted =>
    have registry := @Site.registry_after calls site trace
    cases action with
    | deploy =>
      rcases @queueing_of_produces calls site trace setup _ _ _ _ _ orchestrated produced
        with same | ⟨request, lasting, asked, queued⟩
      · exact .quiet same registry
      · exact .queued request lasting asked queued registry
    | approve deploymentID =>
      exact .approving deploymentID response
        (approving_of_run accepted (handleApproveDeployment_run produced)) registry
    | reject deploymentID =>
      exact .rejecting deploymentID
        (rejecting_of_run accepted (handleRejectDeployment_run produced)) registry
    | getApproval =>
      have quiet (asked : ServerCall) (reading : asked.isReading = true) :
          asked.writesApprovals = false := by
        cases asked <;> first | rfl | cases reading
      have uses := uses_handleGetApproval quiet fun _ => rfl
      exact .quiet (approvals_of_uses (uses _ _) produced site) registry
    | configApply body =>
      exact .quiet (approvals_of_uses (orchestrated.handleConfigApply body) produced site) registry

end Purser.Management
