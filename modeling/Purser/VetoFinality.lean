import Purser.SiteEffects

/-!
# Reviews of one deployment next to each other

An approval that has recorded its vote writes the status without another look at
it.  A rejection stays if no approval is that far.
-/

namespace Purser.Management

open List

open Gateway (RouteCalls)
open InteractionPrograms Program SharedWorlds
open Gateway (directCalls)

inductive Review where
  | approve (request : Request) (body : Except String String)
  | reject (request : Request) (body : Except String String)

def Review.program (setup : Setup) (deploymentID : String) : Review → Program ServerReply Response
  | .approve request body => handleApproveDeployment setup request deploymentID body
  | .reject request body => handleRejectDeployment setup request deploymentID body

def IsVote (deploymentID : String) (exchange : Exchange ServerReply) : Prop :=
  ∃ reviewer notes votedAt,
    exchange = voteExchange deploymentID reviewer .approved notes (.ok votedAt)

def ServerCall.writesStatus : ServerCall → Bool
  | .updateDeploymentApprovalStatus _ _ _ _ => true
  | _ => false

variable {setup : Setup} {deploymentID : String} {trace before after : ServerTrace}
  {response : Response} {exchange : Exchange ServerReply} {request : Request}

theorem Reads.not_mem (reads : Reads trace) (writes : exchange.command.writesStatus = true) :
    exchange ∉ trace := by
  intro member
  have reading := reads exchange member
  obtain ⟨command, answer⟩ := exchange
  cases command with
  | updateDeploymentApprovalStatus => cases reading
  | _ => cases writes

/-- A status that a review writes: it is a rejection, or an approval that has
recorded its vote before. -/
def Justified (deploymentID : String) (earlier : ServerTrace)
    (exchange : Exchange ServerReply) : Prop :=
  ∃ reviewer notes answer,
    exchange = updateExchange deploymentID .rejected reviewer notes answer ∨
      exchange = updateExchange deploymentID .approved reviewer notes answer ∧
        ∃ vote ∈ earlier, IsVote deploymentID vote

theorem SettleRun.justified {reviewer : String} {settling : ServerTrace}
    (settled : SettleRun setup deploymentID reviewer settling response)
    (member : exchange ∈ settling) (writes : exchange.command.writesStatus = true) :
    ∃ notes answer, exchange = updateExchange deploymentID .approved reviewer notes answer := by
  have unread {resolving : ServerTrace} {hashes : List String}
      (resolved : (resolveReviewerKeyHashes setup.reviewerKeys).Produces resolving hashes) :
      exchange ∉ resolving :=
    (reads_of_uses (uses_resolveReviewerKeyHashes _) resolved).not_mem writes
  cases settled with
  | unchecked _ _ _ resolved | waiting _ _ _ resolved =>
    simp only [mem_append, unread resolved, mem_singleton, false_or] at member
    rw [member] at writes
    cases writes
  | notUpdated _ _ _ _ resolved =>
    simp only [mem_append, unread resolved, mem_pair, false_or] at member
    rcases member with rfl | rfl
    · cases writes
    · exact ⟨_, _, rfl⟩
  | approved _ _ _ _ resolved =>
    simp only [mem_append, unread resolved, mem_cons, not_mem_nil, or_false, false_or] at member
    rcases member with rfl | rfl | rfl
    · cases writes
    · exact ⟨_, _, rfl⟩
    · cases writes

theorem ApproveRun.justified (run : ApproveRun setup request deploymentID trace response)
    (split : trace = before ++ exchange :: after) (writes : exchange.command.writesStatus = true) :
    Justified deploymentID before exchange := by
  have member : exchange ∈ trace := by
    rw [split]
    exact mem_append_right _ mem_cons_self
  cases run with
  | refused _ _ reading => exact absurd member (reading.not_mem writes)
  | notRecorded _ _ _ reading =>
    simp only [mem_append, reading.not_mem writes, mem_singleton, false_or] at member
    rw [member] at writes
    cases writes
  | recorded reads notes votedAt _ _ reading _ settled =>
    -- The vote comes before everything that writes a status.
    have absent : exchange ∉ reads ++ [voteExchange deploymentID
        (apiKeyHashFromRequest request) .approved notes (.ok votedAt)] := by
      simp only [mem_append, reading.not_mem writes, mem_singleton, false_or]
      rintro rfl
      cases writes
    rw [append_cons] at split
    obtain ⟨between, rfl⟩ := exists_of_split_right split absent
    rw [append_assoc _ between] at split
    rw [append_cancel_left split] at settled
    obtain ⟨updateNotes, answer, rfl⟩ :=
      settled.justified (mem_append_right _ mem_cons_self) writes
    refine ⟨_, updateNotes, answer, .inr ⟨rfl, _, ?_, apiKeyHashFromRequest request,
      notes, votedAt, rfl⟩⟩
    exact mem_append_left _ (mem_append_right _ mem_cons_self)

theorem RejectRun.justified (run : RejectRun request deploymentID trace response)
    (member : exchange ∈ trace) (writes : exchange.command.writesStatus = true) :
    Justified deploymentID before exchange := by
  cases run with
  | refused _ _ reading => exact absurd member (reading.not_mem writes)
  | notUpdated _ _ _ _ reading =>
    simp only [mem_append, reading.not_mem writes, mem_pair, false_or] at member
    rcases member with rfl | rfl
    · cases writes
    · exact ⟨_, _, _, .inl rfl⟩
  | rejected _ _ _ _ _ _ reading =>
    simp only [mem_append, reading.not_mem writes, mem_cons, not_mem_nil, or_false,
      false_or] at member
    rcases member with rfl | rfl | rfl | rfl
    · cases writes
    · exact ⟨_, _, _, .inl rfl⟩
    · cases writes
    · cases writes

def ServerCall.isReviewing : ServerCall → Bool
  | .listAPIKeys => true
  | .getDeploymentApproval _ => true
  | .now => true
  | .recordApprovalVote _ _ _ _ => true
  | .checkApprovalQuorumFiltered _ _ _ => true
  | .updateDeploymentApprovalStatus _ _ _ _ => true
  | .control (.command (.appendAudit _)) => true
  | _ => false

theorem isReviewing_of_isReading (asked : ServerCall) (reading : asked.isReading = true) :
    asked.isReviewing = true := by
  cases asked <;> first | rfl | cases reading

theorem uses_settleVote (setup : Setup) (deploymentID reviewer : String) :
    (settleVote setup deploymentID reviewer).Uses (·.isReviewing = true) := by
  refine ((uses_resolveReviewerKeyHashes _).mono isReviewing_of_isReading).bind fun hashes => ?_
  refine .bind (.issue rfl) ?_
  rintro (problem | check)
  · trivial
  · dsimp only
    split
    · refine .bind (.issue rfl) ?_
      rintro (_ | problem)
      · exact ⟨rfl, fun _ => trivial⟩
      · trivial
    · trivial

theorem Review.uses (setup : Setup) (deploymentID : String) (review : Review) :
    (review.program setup deploymentID).Uses (·.isReviewing = true) := by
  cases review with
  | approve =>
    refine ((uses_pendingApproval _ _ _ _ _).mono isReviewing_of_isReading).bind ?_
    rintro (response | ⟨approval, notes⟩)
    · trivial
    · refine .bind (.issue rfl) ?_
      rintro (problem | votedAt)
      · trivial
      · exact uses_settleVote _ _ _
  | reject =>
    refine ((uses_pendingApproval _ _ _ _ _).mono isReviewing_of_isReading).bind ?_
    rintro (response | ⟨approval, notes⟩)
    · trivial
    · dsimp only
      split
      · trivial
      · refine ⟨rfl, fun voted => ⟨rfl, ?_⟩⟩
        rintro (_ | problem)
        · refine ⟨rfl, fun audited => ⟨rfl, ?_⟩⟩
          rintro (problem | updated) <;> trivial
        · trivial

theorem Review.justified {review : Review}
    (performed : (review.program setup deploymentID).Performs (before ++ exchange :: after))
    (writes : exchange.command.writesStatus = true) : Justified deploymentID before exchange := by
  obtain ⟨rest, response, produced⟩ := performed
  rw [append_assoc] at produced
  cases review with
  | approve => exact (handleApproveDeployment_run produced).justified rfl writes
  | reject =>
    exact (handleRejectDeployment_run produced).justified (mem_append_right _ mem_cons_self) writes

theorem written_of_rejected {body : Except String String} {shown : DeploymentApproval}
    {quorum : Option QuorumStatus}
    (produced : (handleRejectDeployment setup request deploymentID body).Produces trace
      (.approval shown quorum)) :
    ∃ reviewer notes, updateExchange deploymentID .rejected reviewer notes none ∈ trace := by
  have run := handleRejectDeployment_run produced
  generalize success : Response.approval shown quorum = response at run
  cases run with
  | refused _ _ _ unreviewed =>
    rw [← success] at unreviewed
    cases unreviewed
  | notUpdated => cases success
  | rejected _ notes =>
    exact ⟨apiKeyHashFromRequest request, notes, by simp⟩

theorem written_of_quorum {body : Except String String} {soFar : ℕ} {needed : ℤ} {message : String}
    (produced : (handleApproveDeployment setup request deploymentID body).Produces trace
      (.voted true soFar needed message)) :
    ∃ reviewer notes, updateExchange deploymentID .approved reviewer notes none ∈ trace := by
  have run := handleApproveDeployment_run produced
  generalize success : Response.voted true soFar needed message = response at run
  cases run with
  | refused _ _ _ unreviewed =>
    rw [← success] at unreviewed
    cases unreviewed
  | notRecorded =>
    rw [voteRefused] at success
    split at success
    · cases success
    · split at success <;> cases success
  | recorded _ _ _ _ _ _ _ settled =>
    cases settled with
    | unchecked | notUpdated => cases success
    | waiting _ _ _ _ undecided =>
      rw [voteRecorded, undecided] at success
      cases success
    | approved _ _ check =>
      exact ⟨apiKeyHashFromRequest request, quorumNotes check, by simp⟩

section Interleavings

variable {Thread : Type} [DecidableEq Thread] {calls : RouteCalls} {reviews : Thread → Review}
  {site : Site} {before after : History Thread ServerReply} {veto : Thread × Exchange ServerReply}

def reviewPrograms (setup : Setup) (deploymentID : String) (reviews : Thread → Review) :
    Thread → Program ServerReply Response :=
  fun thread => (reviews thread).program setup deploymentID

/-- Every approval whose vote was recorded by now was answered by now. -/
def NoneVoting (setup : Setup) (deploymentID : String) (reviews : Thread → Review)
    (before : History Thread ServerReply) : Prop :=
  ∀ thread vote, (thread, vote) ∈ before → IsVote deploymentID vote →
    ∃ response, (reviewPrograms setup deploymentID reviews thread).Produces
      (ownPart thread before) response

theorem pending_of_vote {vote : Exchange ServerReply} {site : Site}
    (allowed : site.Allows calls vote) (isVote : IsVote deploymentID vote) :
    site.statusOf deploymentID = some .pending := by
  obtain ⟨reviewer, notes, votedAt, rfl⟩ := isVote
  obtain ⟨⟨approval, accepted⟩, -⟩ := allowed
  obtain ⟨found, pending, -, -⟩ := ApprovalTables.voteTarget_eq_ok accepted
  rw [Site.statusOf, found, ← pending]
  rfl

/-- What one entry does to a rejected approval, after a rejection during which
nobody was voting: it stays rejected. -/
theorem rejected_step {thread : Thread} {exchange : Exchange ServerReply}
    {mid later : History Thread ServerReply}
    (interleaves : Interleaves (siteWorld calls) (reviewPrograms setup deploymentID reviews) site
      (before ++ veto :: (mid ++ (thread, exchange) :: later)))
    (rejecting : ¬IsVote deploymentID veto.2) (quiet : NoneVoting setup deploymentID reviews before)
    (rejectedBefore : ∀ first second, mid = first ++ second →
      ((siteWorld calls).after site ((before ++ veto :: first).map Prod.snd)).statusOf
        deploymentID = some .rejected) :
    ((siteWorld calls).after site
      ((before ++ veto :: (mid ++ [(thread, exchange)])).map Prod.snd)).statusOf
        deploymentID = some .rejected := by
  have last : (before ++ veto :: (mid ++ [(thread, exchange)])).map Prod.snd =
      (before ++ veto :: mid).map Prod.snd ++ [exchange] := by simp
  have held := rejectedBefore mid [] (append_nil mid).symm
  have regrouped : Interleaves (siteWorld calls) (reviewPrograms setup deploymentID reviews) site
      ((before ++ veto :: mid) ++ (thread, exchange) :: later) := by
    rwa [append_assoc]
  have allowed := regrouped.allows_cons
  have performed := regrouped.performs_cons
  rw [last, Interface.after_append]
  change (Site.effect calls _ exchange).statusOf deploymentID = _
  by_cases writes : exchange.command.writesStatus = true
  · obtain ⟨reviewer, notes, answer, written⟩ := Review.justified performed writes
    rcases written with rfl | ⟨-, vote, cast, isVote⟩
    · cases answer with
      | some => exact held
      | none =>
        rw [Site.statusOf_update, held]
        rfl
    -- An approval that writes has voted: before the rejection or after it.
    · exfalso
      rw [mem_ownPart, mem_append, mem_cons] at cast
      rcases cast with early | same | late
      · obtain ⟨response, finished⟩ := quiet thread vote early isVote
        have spoken : exchange ∈ ownPart thread (veto :: (mid ++ (thread, exchange) :: later)) := by
          rw [mem_ownPart]
          simp
        rw [interleaves.silent_of_produces finished] at spoken
        cases spoken
      · rw [← same] at rejecting
        exact rejecting isVote
      · obtain ⟨first, second, rfl⟩ := append_of_mem late
        rw [append_assoc, ← cons_append, ← append_assoc] at interleaves
        have pending := pending_of_vote interleaves.allows_cons isVote
        rw [rejectedBefore first ((thread, vote) :: second) rfl] at pending
        cases pending
  · rw [Site.statusOf_effect allowed]
    · exact held
    · intro request asked
      have reviewing := (Review.uses setup deploymentID (reviews thread))
      obtain ⟨rest, response, produced⟩ := performed
      have uses := reviewing.of_mem produced (mem_append_left _ (mem_append_right _ mem_cons_self))
      rw [asked] at uses
      cases uses
    · rintro id status reviewer notes rfl
      exact writes rfl

/-- From a rejection on during which nobody was voting, the status stays. -/
theorem rejected_after (rejecting : ∃ reviewer notes,
      veto.2 = updateExchange deploymentID .rejected reviewer notes none)
    (quiet : NoneVoting setup deploymentID reviews before) (mid later : History Thread ServerReply)
    (interleaves : Interleaves (siteWorld calls) (reviewPrograms setup deploymentID reviews) site
      (before ++ veto :: (mid ++ later))) :
    ((siteWorld calls).after site ((before ++ veto :: mid).map Prod.snd)).statusOf
      deploymentID = some .rejected := by
  obtain ⟨reviewer, notes, written⟩ := rejecting
  have notVote : ¬IsVote deploymentID veto.2 := by
    rintro ⟨_, _, _, same⟩
    rw [written] at same
    cases same
  -- By induction on the number of entries since the rejection, for all of them at once.
  induction count : mid.length using Nat.strong_induction_on generalizing mid later with
  | _ size induction =>
    rcases eq_nil_or_concat mid with rfl | ⟨shorter, ⟨thread, exchange⟩, rfl⟩
    · obtain ⟨thread, exchange⟩ := veto
      obtain rfl : exchange = updateExchange deploymentID .rejected reviewer notes none := written
      have allowed := interleaves.allows_cons
      rw [map_append, Interface.after_append]
      change (Site.effect calls _ (updateExchange deploymentID .rejected reviewer notes
        none)).statusOf deploymentID = _
      rw [Site.statusOf_update]
      obtain ⟨approval, found⟩ := Option.ne_none_iff_exists'.mp allowed
      change ((Site.approvals _).getDeploymentApproval deploymentID |>.map _).map _ = _
      rw [found]
      rfl
    · rw [concat_eq_append] at interleaves count ⊢
      rw [append_assoc] at interleaves
      refine rejected_step interleaves notVote quiet ?_
      rintro first second rfl
      refine induction first.length ?_ first (second ++ (thread, exchange) :: later) ?_ rfl
      · rw [← count]
        simp only [length_append, length_singleton]
        omega
      · rwa [append_assoc] at interleaves

/-- A veto is final.  Once a rejection was answered with success, the status is a
rejection in every later state, and no approval is answered with a quorum any more,
provided that no approval was between its vote and its answer when the rejection
was written. -/
theorem veto_final {thread : Thread} {request : Request} {body : Except String String}
    {shown : DeploymentApproval} {quorum : Option QuorumStatus}
    {rest : History Thread ServerReply}
    (interleaves : Interleaves (siteWorld calls) (reviewPrograms setup deploymentID reviews) site
      (before ++ rest))
    (rejects : reviews thread = .reject request body)
    (answered : (reviewPrograms setup deploymentID reviews thread).Produces
      (ownPart thread before) (.approval shown quorum))
    (quiet : ∀ first last reviewer notes,
      before = first ++ (thread, updateExchange deploymentID .rejected reviewer notes none) ::
        last → NoneVoting setup deploymentID reviews first) :
    (∀ mid later, rest = mid ++ later →
      ((siteWorld calls).after site ((before ++ mid).map Prod.snd)).statusOf deploymentID =
        some .rejected) ∧
      ∀ other otherRequest otherBody soFar needed message,
        reviews other = .approve otherRequest otherBody →
        (reviewPrograms setup deploymentID reviews other).Produces
          (ownPart other (before ++ rest)) (.voted true soFar needed message) →
        ownPart other rest = [] := by
  have rejected : (handleRejectDeployment setup request deploymentID body).Produces
      (ownPart thread before) (.approval shown quorum) := by
    rw [reviewPrograms, rejects] at answered
    exact answered
  obtain ⟨reviewer, notes, written⟩ := written_of_rejected rejected
  obtain ⟨first, last, rfl⟩ := append_of_mem (mem_ownPart.mp written)
  have silentFirst := quiet first last reviewer notes rfl
  have stays : ∀ mid later, last ++ rest = mid ++ later →
      ((siteWorld calls).after site ((first ++ (thread, updateExchange deploymentID .rejected
        reviewer notes none) :: mid).map Prod.snd)).statusOf deploymentID = some .rejected := by
    intro mid later split
    refine rejected_after ⟨reviewer, notes, rfl⟩ silentFirst mid later ?_
    rw [← split]
    rwa [append_assoc] at interleaves
  constructor
  · rintro mid later rfl
    rw [append_assoc]
    exact stays (last ++ mid) later (append_assoc _ _ _).symm
  · intro other otherRequest otherBody soFar needed message approves reached
    have approved : (handleApproveDeployment setup otherRequest deploymentID otherBody).Produces
        (ownPart other (first ++ (thread, updateExchange deploymentID .rejected reviewer notes
          none) :: last ++ rest)) (.voted true soFar needed message) := by
      rw [reviewPrograms, approves] at reached
      exact reached
    obtain ⟨approver, approverNotes, member⟩ := written_of_quorum approved
    rw [mem_ownPart, append_assoc, cons_append, mem_append, mem_cons] at member
    rcases member with early | same | late
    -- The approval had voted before the rejection, so it was answered before it.
    · obtain ⟨head, tail, rfl⟩ := append_of_mem early
      have regrouped : head ++ (other, updateExchange deploymentID .approved approver
          approverNotes none) :: tail ++ (thread, updateExchange deploymentID .rejected reviewer
            notes none) :: last ++ rest =
          head ++ (other, updateExchange deploymentID .approved approver approverNotes none) ::
            (tail ++ (thread, updateExchange deploymentID .rejected reviewer notes none) ::
              (last ++ rest)) := by simp
      have performed := (regrouped ▸ interleaves).performs_cons
      obtain ⟨_, _, _, written | ⟨-, vote, cast, isVote⟩⟩ := Review.justified performed rfl
      · cases written
      · obtain ⟨response, finished⟩ := silentFirst other vote
          (mem_append_left _ (mem_ownPart.mp cast)) isVote
        rw [append_assoc] at interleaves
        have silent := interleaves.silent_of_produces finished
        rw [cons_append, ← cons_append, ownPart_append] at silent
        exact (append_eq_nil_iff.mp silent).2
    · cases same
    · obtain ⟨head, tail, split⟩ := append_of_mem late
      have overwritten := stays (head ++ [(other, updateExchange deploymentID .approved approver
        approverNotes none)]) tail (by rw [split]; simp)
      have held := stays head _ split
      rw [← cons_append, ← append_assoc, map_append, Interface.after_append] at overwritten
      change (Site.effect calls _ (updateExchange deploymentID .approved approver approverNotes
        none)).statusOf deploymentID = _ at overwritten
      rw [Site.statusOf_update, held] at overwritten
      cases overwritten

end Interleavings

/-- Two administrators, and a deployment that waits for a review. -/
def reviewSite : Site where
  registry :=
    { keys :=
        { keys :=
            { rows :=
                [{ id := "key-1"
                   keyHash := "a7937b64b8caa58f03721bb6bacf5c78cb235febe0e70b1b84cd99541461a08e" },
                  { id := "key-2"
                    keyHash := "16367aacb67a4a017c8da8ab95682ccb390863780f7114dda0a0e0c55644c7c4" }]
              unique := by decide }
          uniqueHash := by decide } }
  approvals := ApprovalTables.empty.requestDeploymentApproval
    { deploymentID := "d1", modelID := "llama", requester := "requester" }

def reviewSetup : Setup where
  deploymentApprovals := true
  deployer := none

def reviewRequest (verb token : String) : Request where
  method := "POST"
  path := "/api/v1/approvals/d1/" ++ verb
  authorization := "Bearer " ++ token

def twoReviews : Bool → Review
  | true => .approve (reviewRequest "approve" "first") (.ok "")
  | false => .reject (reviewRequest "reject" "second") (.ok "")

def twoReviewsRun (turns : List Bool) :
    History Bool ServerReply × (Bool → Program ServerReply Response) :=
  scheduled (siteWorld directCalls) Site.untroubledReply turns reviewSite
    (reviewPrograms reviewSetup "d1" twoReviews)

def twoReviewsLater (turns later : List Bool) : History Bool ServerReply :=
  (scheduled (siteWorld directCalls) Site.untroubledReply later
    ((siteWorld directCalls).after reviewSite ((twoReviewsRun turns).1.map Prod.snd))
    (twoReviewsRun turns).2).1

theorem interleaves_twoReviews (turns later : List Bool) :
    Interleaves (siteWorld directCalls) (reviewPrograms reviewSetup "d1" twoReviews)
      reviewSite ((twoReviewsRun turns).1 ++ twoReviewsLater turns later) := by
  rw [twoReviewsLater, twoReviewsRun, ← scheduled_append]
  exact interleaves_scheduled allows_siteReply _ _ _

def rejectedByTheSecond : DeploymentApproval where
  id := 1
  deploymentID := "d1"
  modelID := "llama"
  requester := "requester"
  status := .rejected
  reviewer := "16367aacb67a4a017c8da8ab95682ccb390863780f7114dda0a0e0c55644c7c4"

def isApprovingVote : Exchange ServerReply → Bool
  | ⟨.recordApprovalVote _ _ .approved _, .ok _⟩ => true
  | _ => false

/-- The second administrator is done before the first one looks. -/
theorem veto_final_undisturbed : ((siteWorld directCalls).after reviewSite
      (((twoReviewsRun (List.replicate 6 false)).1 ++
        twoReviewsLater (List.replicate 6 false) (List.replicate 6 true)).map
          Prod.snd)).statusOf "d1" = some .rejected := by
  have votes : (twoReviewsRun (List.replicate 6 false)).1.all
      (fun entry => !isApprovingVote entry.2) = true := by decide +kernel
  have answered : ((twoReviewsRun (List.replicate 6 false)).2 false).result? =
      some (.approval rejectedByTheSecond none) := by decide +kernel
  refine (veto_final (interleaves_twoReviews _ _) rfl (produces_scheduled answered)
    ?_).1 _ [] (append_nil _).symm
  rintro first last reviewer notes split thread vote member ⟨voter, remarks, votedAt, rfl⟩
  rw [split] at votes
  have silent := all_eq_true.mp votes _ (mem_append_left _ member)
  cases silent

/-- The first administrator votes and counts, then the second one rejects. -/
def racingTurns : List Bool := List.replicate 4 true ++ List.replicate 6 false

/-- The first administrator has voted when the second one rejects, and overwrites
the rejection after it was answered. -/
theorem veto_overwritten :
    Interleaves (siteWorld directCalls) (reviewPrograms reviewSetup "d1" twoReviews)
        reviewSite ((twoReviewsRun racingTurns).1 ++ twoReviewsLater racingTurns [true, true]) ∧
      (reviewPrograms reviewSetup "d1" twoReviews false).Produces
        (ownPart false (twoReviewsRun racingTurns).1) (.approval rejectedByTheSecond none) ∧
      ((siteWorld directCalls).after reviewSite
        ((twoReviewsRun racingTurns).1.map Prod.snd)).statusOf "d1" = some .rejected ∧
      ((siteWorld directCalls).after reviewSite (((twoReviewsRun racingTurns).1 ++
        twoReviewsLater racingTurns [true, true]).map Prod.snd)).statusOf "d1" = some .approved ∧
      ownPart true (twoReviewsLater racingTurns [true, true]) ≠ [] ∧
      (reviewPrograms reviewSetup "d1" twoReviews true).Produces
        (ownPart true ((twoReviewsRun racingTurns).1 ++ twoReviewsLater racingTurns [true, true]))
        (.voted true 1 1 "Deployment approved and starting.") := by
  have appended : (twoReviewsRun racingTurns).1 ++ twoReviewsLater racingTurns [true, true] =
      (twoReviewsRun (racingTurns ++ [true, true])).1 :=
    (scheduled_append _ _ _ _).symm
  refine ⟨interleaves_twoReviews _ _, produces_scheduled (by decide +kernel), by decide +kernel,
    by decide +kernel, ne_nil_of_length_pos (by decide +kernel), ?_⟩
  rw [appended]
  exact produces_scheduled (by decide +kernel)

end Purser.Management
