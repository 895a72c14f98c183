import Mathlib.Logic.Relation
import Purser.ApprovalEvents

/-!
# Votes and the keys behind them

Votes are filed under the digest of whatever bearer value came with the
request.  Under conditions on who votes there is a key of an administrator
behind every approving vote on a pending deployment.
-/

namespace Purser.Management

open List

open ControlPlane (Time)
open Gateway (RouteCalls)
open InteractionPrograms Program SharedWorlds
open KeyedStores (Store)
open ApprovalVote (ballot)

def Succeeds (sites : List Site) (old new : String) : Prop :=
  ∃ site ∈ sites, ∃ first ∈ site.registry.keys.rows, ∃ second ∈ site.registry.keys.rows,
    first.keyHash = old ∧ second.keyHash = new ∧ second.predecessorID ≠ "" ∧
      second.predecessorID = first.id

/-- The digest of a key that came out of any number of rotations. -/
def Successor (sites : List Site) : String → String → Prop := Relation.TransGen (Succeeds sites)

def statesUpTo (earlier : List Event) (event : Event) : List Site :=
  (earlier ++ [event]).map Event.before

def Event.Approves (event : Event) (row : DeploymentApproval) : Prop :=
  row ∈ event.after.approvals.approvals.rows ∧ row.status = .approved ∧
    ∀ old ∈ event.before.approvals.approvals.rows, old.id = row.id → old.status ≠ .approved

variable (setup : Setup) (events : List Event) (site : Site) (row : DeploymentApproval)

/-- One of the requests came with the key and cast the vote; at that time the key had
not come out of the requester's. -/
def CastWith (vote : ApprovalVote) (key : APIKey) : Prop :=
  ∃ earlier cast later, events = earlier ++ cast :: later ∧
    key ∈ cast.before.registry.keys.rows ∧
    apiKeyHashFromRequest cast.call.request = key.keyHash ∧
    voteExchange row.deploymentID key.keyHash .approved vote.notes (.ok vote.votedAt) ∈ cast.trace ∧
    ¬Successor (statesUpTo earlier cast) row.requester key.keyHash

/-- The vote is that of an administrator other than the requester, whose key is
enabled. -/
structure Backs (keys : KeyTable) (row : DeploymentApproval)
    (vote : ApprovalVote) (key : APIKey) : Prop where
  held : key ∈ keys.rows
  enabled : key.enabled = true
  isAdmin : key.isAdmin = true
  own : key.keyHash = vote.reviewer
  other : key.keyHash ≠ row.requester
  cast : CastWith events row vote key

/-- As many keys as required have voted for the row. -/
def DualControlled : Prop :=
  ∃ voters : List APIKey, voters.Nodup ∧ setup.required row ≤ voters.length ∧
    ∀ key ∈ voters, (setup.reviewerKeys ≠ [] → key.id ∈ setup.reviewerKeys) ∧
      ∃ vote ∈ site.approvals.votes.rows, vote.approvalID = row.id ∧ vote.vote = .approved ∧
        (∀ expiry, row.expiresAt = some expiry → vote.votedAt < expiry) ∧
        Backs events site.registry.keys row vote key

/-- What is asked of a request.  The keys can be listed, and of the reviewers that
are configured at least one exists.  The identifier drawn for a deployment is new.
A vote comes with the enabled key of somebody who does not stand in for the
requester.  A key that has voted on a pending deployment is neither rotated nor
deleted. -/
structure Proper (earlier : List Event) (event : Event) : Prop where
  listed : Listed event.trace
  reviewers : setup.reviewerKeys ≠ [] →
    ∃ key ∈ event.before.registry.keys.rows, key.id ∈ setup.reviewerKeys
  fresh : ∀ request, ⟨.requestDeploymentApproval request, none⟩ ∈ event.trace →
    ∀ row ∈ event.before.approvals.approvals.rows, row.deploymentID ≠ request.deploymentID
  identified : ∀ deploymentID reviewer notes votedAt,
    voteExchange deploymentID reviewer .approved notes (.ok votedAt) ∈ event.trace →
      bearerToken event.call.request ≠ "" ∧
      setup.server.validateInternalToken (bearerToken event.call.request) = false ∧
      (∃ key ∈ event.before.registry.keys.rows, key.keyHash = reviewer ∧ key.enabled = true) ∧
      ∀ row ∈ event.before.approvals.approvals.rows, row.deploymentID = deploymentID →
        ¬Successor (statesUpTo earlier event) row.requester reviewer
  spared : ∀ id, event.action = .keys (.delete id) ∨ event.action = .keys (.rotate id) →
    ∀ key ∈ event.before.registry.keys.rows, key.id = id →
      ∀ vote ∈ event.before.approvals.votes.rows, vote.vote = .approved →
        vote.reviewer = key.keyHash → ∀ row ∈ event.before.approvals.approvals.rows,
          row.id = vote.approvalID → row.status ≠ .pending

structure Backed (tables : ApprovalTables) (keys : KeyTable) : Prop where
  named : (tables.approvals.rows.map DeploymentApproval.deploymentID).Nodup
  lasting : ∀ row ∈ tables.approvals.rows, row.expiresAt = none
  backed : ∀ row ∈ tables.approvals.rows, row.status = .pending →
    ∀ vote ∈ tables.votes.rows, vote.approvalID = row.id → vote.vote = .approved →
      ∃ key, Backs events keys row vote key

variable {events : List Event} {tables : ApprovalTables} {earlier : List Event}
  {row approval : DeploymentApproval} {vote : ApprovalVote} {key : APIKey}
  {deploymentID notes : String} {setup : Setup} {event : Event}

theorem CastWith.append (cast : CastWith events row vote key) (later : List Event) :
    CastWith (events ++ later) row vote key := by
  obtain ⟨before, event, after, rfl, rest⟩ := cast
  refine ⟨before, event, after ++ later, ?_, rest⟩
  rw [append_assoc, cons_append]

theorem Backs.append {keys : KeyTable} (backs : Backs events keys row vote key)
    {laterKeys : KeyTable} (kept : key ∈ laterKeys.rows) (later : List Event) :
    Backs (events ++ later) laterKeys row vote key :=
  { backs with held := kept, cast := backs.cast.append later }

theorem ApprovalTables.rows_requestDeploymentApproval (tables : ApprovalTables)
    (request : ApprovalRequest) :
    (tables.requestDeploymentApproval request).approvals.rows =
      tables.approvals.rows ++ [tables.queuedRow request] := by
  change (tables.approvals.insert _).rows = _
  rw [Store.insert, dif_pos (tables.find_queuedRow request)]

theorem ApprovalTables.eq_or_of_reviewedRow (deploymentID : String) (status : ApprovalStatus)
    (reviewer notes : String) (row : DeploymentApproval) :
    ApprovalTables.reviewedRow deploymentID status reviewer notes row = row ∧
        row.deploymentID ≠ deploymentID ∨
      ApprovalTables.reviewedRow deploymentID status reviewer notes row =
        { row with status := status, reviewer := reviewer, notes := notes } ∧
        row.deploymentID = deploymentID := by
  rw [reviewedRow]
  split
  next named => exact .inr ⟨rfl, named⟩
  next other => exact .inl ⟨rfl, other⟩

namespace Backed

variable {keys : KeyTable}

section

variable (backed : Backed events tables keys)

include backed

theorem mono {laterEvents : List Event} {laterKeys : KeyTable}
    (kept : ∀ row ∈ tables.approvals.rows, row.status = .pending →
      ∀ vote ∈ tables.votes.rows, vote.approvalID = row.id → vote.vote = .approved →
        ∀ key, Backs events keys row vote key → Backs laterEvents laterKeys row vote key) :
    Backed laterEvents tables laterKeys := by
  refine ⟨backed.named, backed.lasting, ?_⟩
  intro row member pending vote cast same approved
  obtain ⟨key, backs⟩ := backed.backed row member pending vote cast same approved
  exact ⟨key, kept row member pending vote cast same approved key backs⟩

theorem append (later : List Event) : Backed (events ++ later) tables keys :=
  backed.mono fun _ _ _ _ _ _ _ _ backs => backs.append backs.held later

theorem queued {request : ApprovalRequest} (lasting : request.expiresAt = none)
    (fresh : ∀ row ∈ tables.approvals.rows, row.deploymentID ≠ request.deploymentID) :
    Backed events (tables.requestDeploymentApproval request) keys := by
  have rows := tables.rows_requestDeploymentApproval request
  refine ⟨?_, ?_, ?_⟩
  · rw [rows, map_append, nodup_append_comm]
    refine nodup_cons.mpr ⟨?_, backed.named⟩
    intro member
    obtain ⟨row, held, same⟩ := mem_map.mp member
    exact fresh row held same
  · intro row member
    rw [rows, mem_append, mem_singleton] at member
    rcases member with held | rfl
    · exact backed.lasting row held
    · change request.expiresAt.filter _ = none
      rw [lasting]
      rfl
  · intro row member pending vote cast same approved
    rw [rows, mem_append, mem_singleton] at member
    rcases member with held | rfl
    · exact backed.backed row held pending vote cast same approved
    · obtain ⟨old, held, voted⟩ := tables.known vote cast
      have bounded := tables.issued old held
      change vote.approvalID = tables.lastID + 1 at same
      omega

theorem update (deploymentID : String) {status : ApprovalStatus} (decided : status ≠ .pending)
    (reviewer notes : String) :
    Backed events (tables.updateDeploymentApprovalStatus deploymentID status reviewer notes)
      keys := by
  refine ⟨?_, ?_, ?_⟩
  · change ((tables.approvals.rows.map _).map _).Nodup
    rw [map_map]
    have same : DeploymentApproval.deploymentID ∘
        ApprovalTables.reviewedRow deploymentID status reviewer notes =
        DeploymentApproval.deploymentID := by
      funext row
      rw [Function.comp_apply, ApprovalTables.reviewedRow]
      split <;> rfl
    rw [same]
    exact backed.named
  · intro row member
    obtain ⟨old, held, rfl⟩ := mem_map.mp member
    rw [ApprovalTables.reviewedRow]
    split <;> exact backed.lasting old held
  · intro row member pending vote cast same approved
    obtain ⟨old, held, rfl⟩ := mem_map.mp member
    rcases ApprovalTables.eq_or_of_reviewedRow deploymentID status reviewer notes old with
      ⟨unchanged, -⟩ | ⟨changed, -⟩
    · rw [unchanged] at pending same ⊢
      exact backed.backed old held pending vote cast same approved
    · rw [changed] at pending
      exact absurd pending decided

theorem voting {later : ApprovalTables} (rows : later.approvals = tables.approvals)
    (votes : ∀ vote ∈ later.votes.rows, vote ∈ tables.votes.rows ∨
      (vote.vote = .approved → ∀ row ∈ tables.approvals.rows, vote.approvalID = row.id →
        ∃ key, Backs events keys row vote key)) : Backed events later keys := by
  refine ⟨rows ▸ backed.named, rows ▸ backed.lasting, ?_⟩
  intro row member pending vote cast same approved
  rw [rows] at member
  rcases votes vote cast with older | new
  · exact backed.backed row member pending vote older same approved
  · exact new approved row member same

end

end Backed

theorem eq_of_voteTarget {reviewer : String}
    (accepted : tables.voteTarget deploymentID reviewer = .ok approval)
    (member : row ∈ tables.approvals.rows) (same : row.id = approval.id) :
    row.deploymentID = deploymentID ∧ ApprovalTables.scanApproval row = approval ∧
      row.requester ≠ reviewer := by
  obtain ⟨found, pending, other, -⟩ := ApprovalTables.voteTarget_eq_ok accepted
  obtain ⟨target, held, named, rfl⟩ := ApprovalTables.row_of_getDeploymentApproval found
  obtain rfl := inj_on_of_nodup_map tables.approvals.unique member held same
  exact ⟨named, rfl, other⟩

section

variable (backed : Backed earlier event.before.approvals event.before.registry.keys)
  (proper : Proper setup earlier event)

include backed proper

theorem Backed.recorded {votedAt : Time}
    (isAdmin : ∀ key ∈ event.before.registry.keys.rows, Listed event.trace →
      bearerToken event.call.request ≠ "" →
        setup.server.validateInternalToken (bearerToken event.call.request) = false →
          key.keyHash = apiKeyHashFromRequest event.call.request → key.isAdmin = true)
    (accepted : event.before.approvals.voteTarget deploymentID
      (apiKeyHashFromRequest event.call.request) = .ok approval)
    (voted : voteExchange deploymentID (apiKeyHashFromRequest event.call.request) .approved notes
      (.ok votedAt) ∈ event.trace) (rows : tables.approvals = event.before.approvals.approvals)
    (votes : tables.votes = event.before.approvals.votes.insert
      ⟨approval.id, apiKeyHashFromRequest event.call.request, .approved, notes, votedAt⟩) :
    Backed (earlier ++ [event]) tables event.before.registry.keys := by
  refine (backed.append [event]).voting rows fun vote cast => ?_
  rw [votes] at cast
  refine (Store.mem_insert_iff.mp cast).imp_right ?_
  rintro ⟨rfl, -⟩ - row member same
  obtain ⟨named, -, other⟩ := eq_of_voteTarget accepted member same.symm
  obtain ⟨bearer, external, ⟨key, held, own, enabled⟩, unrelated⟩ :=
    proper.identified deploymentID _ notes votedAt voted
  refine ⟨key, held, enabled, isAdmin key held proper.listed bearer external own, own, ?_, ?_⟩
  · rw [own]
    exact other.symm
  · refine ⟨earlier, event, [], rfl, held, own.symm, ?_, ?_⟩
    · rw [named, own]
      exact voted
    · rw [own]
      exact unrelated row member named

theorem Backed.approving {response : Response}
    (approving : Approving setup event.before event.call.request deploymentID event.trace
      event.after.approvals response) :
    Backed (earlier ++ [event]) event.after.approvals event.before.registry.keys := by
  cases approving with
  | unchanged _ same =>
    rw [same]
    exact backed.append [event]
  | recorded _ _ _ _ isAdmin accepted voted rows votes settled =>
    have counted := backed.recorded proper isAdmin accepted voted rows votes
    cases settled with
    | failed _ same | waiting _ _ _ _ _ same =>
      rw [same]
      exact counted
    | approved _ _ _ _ _ written =>
      rw [written]
      exact counted.update _ (by decide) _ _

theorem Backed.step (effect : EventEffect setup event) :
    Backed (earlier ++ [event]) event.after.approvals event.after.registry.keys := by
  have longer := backed.append [event]
  cases effect with
  | keys endpoint identity asked approvals registry =>
    rw [approvals, registry]
    have change := event.before.registry.change_of_handleKeys event.call identity endpoint
    refine longer.mono ?_
    intro row member pending vote cast same approved key backs
    -- The key has voted, so it is not the one that is deleted or rotated.
    have spared : ∀ id, event.action = .keys (.delete id) ∨ event.action = .keys (.rotate id) →
        key.id ≠ id := by
      intro id removed concerned
      exact proper.spared id removed key backs.held concerned vote cast approved backs.own.symm row
        member same.symm pending
    refine { backs with held := change.mem backs.held ?_ ?_ }
    · rintro rfl
      exact spared key.id (.inl asked) rfl
    · rintro rfl
      exact spared key.id (.inr asked) rfl
  | quiet approvals registry =>
    rw [approvals, registry]
    exact longer
  | queued request lasting asked approvals registry =>
    rw [approvals, registry]
    exact longer.queued lasting (proper.fresh request asked)
  | approving _ _ approving registry =>
    rw [registry]
    exact backed.approving proper approving
  | rejecting _ rejecting registry =>
    rw [registry]
    obtain ⟨tables, rows, votes, written⟩ := rejecting
    have vetoed := longer.voting rows fun vote cast =>
      (votes vote cast).imp_right fun rejected approved => by rw [approved] at rejected; cases rejected
    rcases written with same | ⟨reviewer, notes, same⟩
    · rw [same]
      exact vetoed
    · rw [same]
      exact vetoed.update _ (by decide) _ _

end

section Counting

variable {hashes : List String}

theorem check_eq_some {deploymentID : String} {minApprovers : ℤ} {check : QuorumCheck}
    (counted : tables.checkApprovalQuorumFiltered deploymentID hashes minApprovers = some check) :
    ∃ approval, tables.getDeploymentApproval deploymentID = some approval ∧
      check.required = positiveOr (positiveOr 1 approval.requiredApprovals) minApprovers ∧
      check.approved = (tables.countedVotes approval.id hashes).length ∧
      (check.reached = true ↔ check.required ≤ check.approved) := by
  obtain ⟨approval, found, rfl⟩ := Option.map_eq_some_iff.mp counted
  exact ⟨approval, found, rfl, rfl, decide_eq_true_iff⟩

theorem mem_countedVotes {approvalID : ℕ} {vote : ApprovalVote} :
    vote ∈ tables.countedVotes approvalID hashes ↔
      vote ∈ tables.votes.rows ∧ vote.approvalID = approvalID ∧ vote.vote = .approved ∧
        (hashes = [] ∨ vote.reviewer ∈ hashes) := by
  simp only [ApprovalTables.countedVotes, ApprovalTables.getApprovalVotes, mem_filter,
    decide_eq_true_eq, and_assoc]

theorem nodup_countedVotes (approvalID : ℕ) (hashes : List String) :
    ((tables.countedVotes approvalID hashes).map ApprovalVote.reviewer).Nodup := by
  have ballots : ((tables.countedVotes approvalID hashes).map ballot).Nodup :=
    tables.votes.unique.sublist ((filter_sublist.trans filter_sublist).map ballot)
  have same : (tables.countedVotes approvalID hashes).map ballot =
      ((tables.countedVotes approvalID hashes).map ApprovalVote.reviewer).map
        (Prod.mk approvalID) := by
    rw [map_map]
    refine map_congr_left ?_
    intro vote member
    rw [Function.comp_apply, ballot, (mem_countedVotes.mp member).2.1]
  rw [same] at ballots
  exact ballots.of_map

theorem positiveOr_positiveOr (number : ℤ) :
    positiveOr 1 (positiveOr 1 number) = positiveOr 1 number := by
  unfold positiveOr
  split <;> simp_all

/-- Votes that are backed are those of as many keys. -/
theorem voters_of_backed {events : List Event} {keys : KeyTable} {row : DeploymentApproval}
    (backed : ∀ vote ∈ tables.countedVotes row.id hashes, ∃ key, Backs events keys row vote key) :
    ∃ voters : List APIKey, voters.Nodup ∧
      (tables.countedVotes row.id hashes).length ≤ voters.length ∧
      ∀ key ∈ voters, ∃ vote ∈ tables.countedVotes row.id hashes,
        Backs events keys row vote key := by
  refine ⟨keys.rows.filter fun key =>
    key.keyHash ∈ (tables.countedVotes row.id hashes).map ApprovalVote.reviewer, ?_, ?_, ?_⟩
  · exact (List.Nodup.of_map _ keys.uniqueHash).filter _
  · have covered : (tables.countedVotes row.id hashes).map ApprovalVote.reviewer ⊆
        (keys.rows.filter fun key => key.keyHash ∈
          (tables.countedVotes row.id hashes).map ApprovalVote.reviewer).map APIKey.keyHash := by
      intro reviewer member
      obtain ⟨vote, counted, rfl⟩ := mem_map.mp member
      obtain ⟨key, backs⟩ := backed vote counted
      refine mem_map.mpr ⟨key, mem_filter.mpr ⟨backs.held, ?_⟩, backs.own⟩
      rw [decide_eq_true_eq, backs.own]
      exact member
    have shorter := (subperm_of_subset (nodup_countedVotes row.id hashes) covered).length_le
    rwa [length_map, length_map] at shorter
  · intro key member
    obtain ⟨held, voted⟩ := mem_filter.mp member
    obtain ⟨vote, counted, same⟩ := mem_map.mp (of_decide_eq_true voted)
    obtain ⟨other, backs⟩ := backed vote counted
    have identical := KeyTable.keyHash_inj backs.held held (backs.own.trans same)
    exact ⟨vote, counted, identical ▸ backs⟩

end Counting

/-- The keys of the votes that count, if reviewers are configured, are among them. -/
theorem reviewer_of_counted {keys : KeyTable} {approvalID : ℕ}
    (present : setup.reviewerKeys ≠ [] → ∃ key ∈ keys.rows, key.id ∈ setup.reviewerKeys)
    (counted : vote ∈ tables.countedVotes approvalID (keys.hashesOf setup.reviewerKeys))
    (held : key ∈ keys.rows) (own : key.keyHash = vote.reviewer)
    (configured : setup.reviewerKeys ≠ []) : key.id ∈ setup.reviewerKeys := by
  obtain ⟨some, someHeld, listed⟩ := present configured
  have member : vote.reviewer ∈ keys.hashesOf setup.reviewerKeys := by
    rcases (mem_countedVotes.mp counted).2.2.2 with empty | member
    · have hash := KeyTable.mem_hashesOf.mpr ⟨some, someHeld, listed, rfl⟩
      rw [empty] at hash
      cases hash
    · exact member
  obtain ⟨reviewer, reviewerHeld, named, same⟩ := KeyTable.mem_hashesOf.mp member
  rwa [KeyTable.keyHash_inj held reviewerHeld (own.trans same.symm)]

/-- A quorum that was reached, at the row that it was counted for. -/
theorem controlled_of_quorum {site : Site} {hashes : List String} {reviewer : String}
    {check : QuorumCheck} (backed : Backed events tables site.registry.keys)
    (present : setup.reviewerKeys ≠ [] →
      ∃ key ∈ site.registry.keys.rows, key.id ∈ setup.reviewerKeys)
    (resolved : hashes = site.registry.keys.hashesOf setup.reviewerKeys)
    (member : row ∈ tables.approvals.rows) (named : row.deploymentID = deploymentID)
    (pending : row.status = .pending)
    (counted : tables.checkApprovalQuorumFiltered deploymentID hashes setup.minApprovers =
      some check) (reached : check.reached = true) (votes : site.approvals.votes = tables.votes) :
    DualControlled setup events site
      { row with status := .approved, reviewer := reviewer, notes := notes } := by
  obtain ⟨approval, found, required, count, decided⟩ := check_eq_some counted
  obtain ⟨target, held, sameName, rfl⟩ := ApprovalTables.row_of_getDeploymentApproval found
  obtain rfl := inj_on_of_nodup_map backed.named member held (named.trans sameName.symm)
  have votesBacked : ∀ vote ∈ tables.countedVotes row.id hashes,
      ∃ key, Backs events site.registry.keys row vote key := by
    intro vote counted
    obtain ⟨cast, same, approved, -⟩ := mem_countedVotes.mp counted
    exact backed.backed row member pending vote cast same approved
  obtain ⟨voters, nodup, enough, each⟩ := voters_of_backed votesBacked
  refine ⟨voters, nodup, ?_, ?_⟩
  · have demanded := decided.mp reached
    rw [required, count] at demanded
    change positiveOr (positiveOr 1 (positiveOr 1 row.requiredApprovals)) _ ≤
      ((tables.countedVotes row.id hashes).length : ℤ) at demanded
    rw [positiveOr_positiveOr] at demanded
    change positiveOr (positiveOr 1 row.requiredApprovals) setup.minApprovers ≤ _
    omega
  · intro key voter
    obtain ⟨vote, voted, backs⟩ := each key voter
    obtain ⟨cast, same, approved, -⟩ := mem_countedVotes.mp voted
    refine ⟨?_, vote, votes ▸ cast, same, approved, ?_, ?_⟩
    · rw [resolved] at voted
      exact reviewer_of_counted present voted backs.held backs.own
    · intro expiry expires
      rw [backed.lasting row member] at expires
      cases expires
    · exact ⟨backs.held, backs.enabled, backs.isAdmin, backs.own, backs.other, backs.cast⟩

theorem controlled_of_effect
    (backed : Backed earlier event.before.approvals event.before.registry.keys)
    (proper : Proper setup earlier event) (effect : EventEffect setup event)
    (approves : event.Approves row) :
    DualControlled setup (earlier ++ [event]) event.after row := by
  obtain ⟨member, approved, changed⟩ := approves
  have new : row ∉ event.before.approvals.approvals.rows :=
    fun held => changed row held rfl approved
  cases effect with
  | keys _ _ _ approvals | quiet approvals =>
    rw [approvals] at member
    exact absurd member new
  | queued _ _ _ approvals =>
    rw [approvals, ApprovalTables.rows_requestDeploymentApproval, mem_append,
      mem_singleton] at member
    rcases member with held | rfl
    · exact absurd held new
    · cases approved
  | rejecting deploymentID rejecting =>
    obtain ⟨tables, rows, votes, written⟩ := rejecting
    rcases written with same | ⟨reviewer, notes, same⟩
    · rw [same, rows] at member
      exact absurd member new
    · rw [same] at member
      obtain ⟨old, held, rfl⟩ := mem_map.mp member
      rw [rows] at held
      rcases ApprovalTables.eq_or_of_reviewedRow deploymentID .rejected reviewer notes old with
        ⟨unchanged, -⟩ | ⟨vetoed, -⟩
      · rw [unchanged] at new
        exact absurd held new
      · rw [vetoed] at approved
        cases approved
  | approving deploymentID _ approving registry =>
    cases approving with
    | unchanged _ same =>
      rw [same] at member
      exact absurd member new
    | recorded _ _ _ _ isAdmin accepted voted rows votes settled =>
      cases settled with
      | failed _ same | waiting _ _ _ _ _ same =>
        rw [same, rows] at member
        exact absurd member new
      | approved _ check resolved counted reached written =>
        have recorded := backed.recorded proper isAdmin accepted voted rows votes
        rw [written] at member
        obtain ⟨old, held, rfl⟩ := mem_map.mp member
        rcases ApprovalTables.eq_or_of_reviewedRow deploymentID .approved
          (apiKeyHashFromRequest event.call.request) (quorumNotes check) old with
          ⟨unchanged, -⟩ | ⟨decided, named⟩
        · rw [unchanged] at new
          rw [rows] at held
          exact absurd held new
        · rw [decided]
          obtain ⟨found, pending, -, -⟩ := ApprovalTables.voteTarget_eq_ok accepted
          obtain ⟨target, targetHeld, targetNamed, rfl⟩ :=
            ApprovalTables.row_of_getDeploymentApproval found
          rw [← rows] at targetHeld
          obtain rfl := inj_on_of_nodup_map recorded.named held targetHeld
            (named.trans targetNamed.symm)
          rw [← registry] at recorded resolved
          refine controlled_of_quorum recorded ?_ (resolved proper.listed) held named
            pending counted reached ?_
          · rw [registry]
            exact proper.reviewers
          · rw [written]
            rfl

end Purser.Management
