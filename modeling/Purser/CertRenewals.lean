import Purser.CalendarTexts
import Purser.FleetOperations

/-!
# Renewal of node certificates

A node gets a certificate with each join.  A renewal lists the certificates by
the text of the time at which they were recorded, and is refused while the first
one of the node that is not revoked has more than sixty days left.
-/

namespace Purser.FleetManager

open ControlPlane KeyedStores TransitionRuns List

structure DatedCert extends Cert where
  notAfter : Time
  createdAt : Time

inductive CertOperation
  | join (request : JoinRequest)
  | renew (nodeID serial : String)
  | revoke (serial : String)

structure CertCall where
  operation : CertOperation
  now : Time
  faults : Faults := {}

def CertCall.joins (nodeID : String) (call : CertCall) : Bool :=
  match call.operation with
  | .join request => request.nodeID = nodeID
  | _ => false

structure CertPlane where
  clock : Time
  nodes : Store FleetNode.id := .empty
  certs : List DatedCert := []

def renewThreshold : Time := 60 * 24 * 3600 * 1000000000

theorem nanoseconds_lt (time : Time) : (time % 1000000000).toNat < 1000000000 := by omega

def fmtCreated (time : Time) : ByteEncodings.Bytes :=
  CalendarTexts.formatNano ⟨time / 1000000000, (time % 1000000000).toNat, nanoseconds_lt time, 0⟩

/-- The certificate was issued to the node and is not revoked. -/
def DatedCert.serves (nodeID : String) (cert : DatedCert) : Bool :=
  cert.subject = nodeID && cert.issued

def DatedCert.lasts (now : Time) (cert : DatedCert) : Bool := renewThreshold < cert.notAfter - now

namespace CertPlane

def nodeIDs (plane : CertPlane) : List String := plane.nodes.rows.map FleetNode.id

variable (leafTTL : Time) (plane : CertPlane) (call : CertCall)

def listCerts : List DatedCert := plane.certs.insertionSort fun first second =>
  fmtCreated first.createdAt ≤ fmtCreated second.createdAt

/-- To insert a serial that is taken is one of the faults. -/
def issue (serial subject : String) : CertPlane × Option String :=
  if subject = "" then (plane, some "pki: issue requires a CommonName")
  else
    match call.faults.issue with
    | some problem => (plane, some problem)
    | none =>
      ({ plane with
          certs := plane.certs ++ [⟨⟨serial, subject, true⟩, call.now + leafTTL, call.now⟩] }, none)

/-- A node that was registered stays so when no certificate can be issued. -/
def join (request : JoinRequest) : CertPlane :=
  match request.token with
  | .error _ => plane
  | .ok () =>
    match upsertNode { nodes := plane.nodes } call.faults call.now request.node with
    | .error _ => plane
    | .ok registered =>
      (issue leafTTL { plane with nodes := registered.nodes } call request.serial request.nodeID).1

/-- The certificate that a renewal looks at lasts. -/
def renewsEarly (nodeID : String) : Bool :=
  (plane.listCerts.find? (·.serves nodeID)).any (·.lasts call.now)

def renewCert (nodeID serial : String) : CertPlane × Option String :=
  match Registry.getNode { nodes := plane.nodes } call.faults nodeID with
  | .error error => (plane, some ("fleet: renew cert: " ++ error.text))
  | .ok _ =>
    match call.faults.listCerts with
    | some problem => (plane, some ("fleet: list certs for renewal: " ++ problem))
    | none =>
      if plane.renewsEarly call nodeID then
        (plane, some "fleet: certificate is not yet expiring (more than 60 days remaining)")
      else
        (plane.issue leafTTL call serial nodeID).map id
          (Option.map ("fleet: issue renewal cert: " ++ ·))

def revoke (serial : String) : CertPlane :=
  if serial ∈ call.faults.revoke then plane
  else
    { plane with
      certs := plane.certs.map fun cert =>
        if cert.serial = serial then { cert with issued := false } else cert }

def apply : CertPlane :=
  match call.operation with
  | .join request => plane.join leafTTL call request
  | .renew nodeID serial => (plane.renewCert leafTTL call nodeID serial).1
  | .revoke serial => plane.revoke call serial

def step : Option CertPlane :=
  if call.now < plane.clock then none else some { plane.apply leafTTL call with clock := call.now }

/-- The certificates of a node that last. -/
def lasting (nodeID : String) (now : Time) : ℕ :=
  plane.certs.countP fun cert => cert.serves nodeID && cert.lasts now

/-- If the certificate that a renewal looks at does not last, none of the node does. -/
def Current : Prop :=
  match call.operation with
  | .renew nodeID _ => plane.renewsEarly call nodeID = false → plane.lasting nodeID call.now = 0
  | _ => True

instance : Decidable (plane.Current call) :=
  match call with
  | ⟨.renew _ _, _, _⟩ => inferInstanceAs (Decidable (_ → _))
  | ⟨.join _, _, _⟩ | ⟨.revoke _, _, _⟩ => inferInstanceAs (Decidable True)

variable (serial nodeID : String)

theorem issue_spec : (plane.issue leafTTL call serial nodeID).1.nodes = plane.nodes ∧
    ∀ other time, (plane.issue leafTTL call serial nodeID).1.lasting other time ≤
      plane.lasting other time + if nodeID = other then 1 else 0 := by
  rw [issue]
  split
  · exact ⟨rfl, fun _ _ => Nat.le_add_right _ _⟩
  · split
    · exact ⟨rfl, fun _ _ => Nat.le_add_right _ _⟩
    · refine ⟨rfl, fun other time => ?_⟩
      rw [lasting, countP_append, countP_singleton]
      refine Nat.add_le_add_left ?_ _
      by_cases own : nodeID = other <;> simp [own, DatedCert.serves]
      split <;> omega

theorem renewCert_cases :
    (∃ problem, plane.renewCert leafTTL call nodeID serial = (plane, some problem)) ∨
    plane.renewsEarly call nodeID = false ∧ nodeID ∈ plane.nodeIDs ∧
      (plane.renewCert leafTTL call nodeID serial).1 = (plane.issue leafTTL call serial nodeID).1 := by
  rw [renewCert]
  split
  · exact .inl ⟨_, rfl⟩
  next node found =>
    obtain ⟨held, rfl⟩ := Store.find_eq_some_iff.mp (Registry.getNode_eq_ok found)
    split
    · exact .inl ⟨_, rfl⟩
    · split
      · exact .inl ⟨_, rfl⟩
      next late => exact .inr ⟨by simpa using late, mem_map_of_mem held, rfl⟩

variable {leafTTL plane call serial nodeID} {after : CertPlane}

theorem lasting_anti {earlier later : Time} (le : earlier ≤ later) :
    plane.lasting nodeID later ≤ plane.lasting nodeID earlier := by
  refine countP_mono_left fun cert _ counted => ?_
  simp only [Bool.and_eq_true, DatedCert.lasts, decide_eq_true_eq] at counted ⊢
  exact ⟨counted.1, counted.2.trans_le (Int.sub_le_sub_left le _)⟩

theorem lasting_revoke (time : Time) :
    (plane.revoke call serial).lasting nodeID time ≤ plane.lasting nodeID time := by
  rw [revoke]
  split
  · exact le_rfl
  · rw [lasting, lasting, countP_map]
    refine countP_mono_left fun cert _ counted => ?_
    rw [Function.comp_apply] at counted
    split at counted
    · simp [DatedCert.serves] at counted
    · exact counted

/-- Every node has joined, and has at most one lasting certificate for each join. -/
structure Bounded (calls : List CertCall) (plane : CertPlane) : Prop where
  joined : ∀ nodeID ∈ plane.nodeIDs, 0 < calls.countP (·.joins nodeID)
  lasting_le : ∀ nodeID time, plane.clock ≤ time →
    plane.lasting nodeID time ≤ calls.countP (·.joins nodeID)

theorem join_spec (request : JoinRequest) :
    (∀ nodeID ∈ (plane.join leafTTL call request).nodeIDs,
      request.nodeID = nodeID ∨ nodeID ∈ plane.nodeIDs) ∧
    ∀ nodeID time, (plane.join leafTTL call request).lasting nodeID time ≤
      plane.lasting nodeID time + if request.nodeID = nodeID then 1 else 0 := by
  rw [join]
  split
  · exact ⟨fun _ => .inr, fun _ _ => Nat.le_add_right _ _⟩
  · split
    · exact ⟨fun _ => .inr, fun _ _ => Nat.le_add_right _ _⟩
    next registered upserted =>
      refine ⟨fun nodeID member => ?_, (issue_spec _ _ _ _ _).2⟩
      rw [nodeIDs, (issue_spec _ _ _ _ _).1] at member
      obtain ⟨node, held, rfl⟩ := mem_map.mp member
      rcases writes_of_upsertNode upserted node held with ⟨same, -⟩ | ⟨-, kept⟩
      · exact .inl (request.node_id.symm.trans same.symm)
      · exact .inr (mem_map_of_mem kept)

/-- A call adds a certificate to a node that joins, or the only lasting one to a
node that is known. -/
theorem apply_spec (current : plane.Current call) :
    (∀ nodeID ∈ (plane.apply leafTTL call).nodeIDs,
      call.joins nodeID = true ∨ nodeID ∈ plane.nodeIDs) ∧
    ∀ nodeID time, call.now ≤ time → (plane.apply leafTTL call).lasting nodeID time ≤
        plane.lasting nodeID time + (if call.joins nodeID then 1 else 0) ∨
      (plane.apply leafTTL call).lasting nodeID time ≤ 1 ∧ nodeID ∈ plane.nodeIDs := by
  cases operation : call.operation with
  | join request =>
    simp only [apply, CertCall.joins, operation, decide_eq_true_eq]
    exact ⟨(join_spec request).1, fun nodeID time _ => .inl ((join_spec request).2 nodeID time)⟩
  | renew renewed serial =>
    simp only [apply, operation]
    rcases plane.renewCert_cases leafTTL call serial renewed with
      ⟨problem, failed⟩ | ⟨late, held, same⟩
    · rw [failed]
      exact ⟨fun _ => .inr, fun _ _ _ => .inl (Nat.le_add_right _ _)⟩
    · obtain ⟨nodes, count⟩ := plane.issue_spec leafTTL call serial renewed
      rw [same, nodeIDs, nodes]
      refine ⟨fun _ => .inr, fun nodeID time le => ?_⟩
      have count := count nodeID time
      split at count
      next own =>
        have fewer : plane.lasting renewed time ≤ plane.lasting renewed call.now := lasting_anti le
        rw [Current, operation] at current
        rw [current late, own] at fewer
        exact .inr ⟨count.trans (by omega), own ▸ held⟩
      next => exact .inl (count.trans (Nat.le_add_right _ _))
  | revoke serial =>
    simp only [apply, operation]
    refine ⟨fun nodeID member => .inr ?_, fun nodeID time _ => .inl ?_⟩
    · rw [revoke] at member
      split at member <;> exact member
    · exact (lasting_revoke time).trans (Nat.le_add_right _ _)

theorem bounded_step {calls : List CertCall} (bounded : Bounded calls plane)
    (current : plane.Current call) (stepped : plane.step leafTTL call = some after) :
    Bounded (calls ++ [call]) after := by
  obtain ⟨known, lasts⟩ := @apply_spec leafTTL plane call current
  have counted (nodeID : String) : (calls ++ [call]).countP (·.joins nodeID) =
      calls.countP (·.joins nodeID) + if call.joins nodeID then 1 else 0 := by
    rw [countP_append, countP_singleton]
  rw [step] at stepped
  split at stepped
  · cases stepped
  next forward =>
    cases stepped
    constructor
    · intro nodeID member
      rw [counted]
      rcases known nodeID member with joins | held
      · rw [if_pos joins]
        omega
      · exact Nat.add_pos_left (bounded.joined nodeID held) _
    · intro nodeID time le
      rw [counted]
      have before := bounded.lasting_le nodeID time ((Int.not_lt.mp forward).trans le)
      rcases lasts nodeID time le with added | ⟨single, held⟩
      · exact added.trans (Nat.add_le_add_right before _)
      · exact single.trans (Nat.le_add_right_of_le (bounded.joined nodeID held))

def day : Time := 24 * 3600 * 1000000000

def renewOnce : List CertCall :=
  [⟨.join { token := .ok (), profile := none, generatedID := "n", serial := "1" }, 0, {}⟩,
    ⟨.renew "n" "2", 31 * day, {}⟩]

end CertPlane

end Purser.FleetManager
