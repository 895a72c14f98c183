import Purser.ControlCalls

/-!
# Trust across rotations of the certificate authority

The trusted authorities are the active one and, for a while, the one that was
active when the last rotation began.  A rotation retires the active authority and
then generates another; in between, and if that fails, it is retired but active.
-/

namespace Purser.Pki

open ControlPlane (Time)

structure Validity where
  notBefore : Time
  notAfter : Time
  deriving DecidableEq

/-- A self-signed authority, with the number of its key. -/
structure CACert extends Validity where
  key : ℕ
  deriving DecidableEq

structure LeafCert extends Validity where
  serial : String
  issuer : CACert

structure CertRequest where
  commonName : String
  ttl : Time := 0
  deriving DecidableEq

structure Authority where
  active : CACert
  old : Option CACert := none
  oldExpiry : Time := 0
  /-- the recorded serials, and whether they are revoked -/
  certs : String → Option Bool := fun _ => none

inductive Call
  | issue (request : CertRequest) (serial : String) (now : Time)
  | revoke (serial : String)
  | retire (now : Time)
  | generate (now : Time)
  deriving DecidableEq

def second : Time := 1000000000

def rotationGracePeriod : Time := 72 * 3600 * second

/-- The times of a certificate are whole seconds. -/
def validity (now ttl : Time) : Validity :=
  ⟨(now - 60 * second) / second * second, (now + ttl) / second * second⟩

def Validity.covers (validity : Validity) (now : Time) : Bool :=
  validity.notBefore ≤ now && now ≤ validity.notAfter

namespace Authority

variable (caTTL leafTTL : Time) (authority : Authority) (now : Time)

def leaf (request : CertRequest) (serial : String) : LeafCert :=
  ⟨validity now (if request.ttl ≤ 0 then leafTTL else request.ttl), serial, authority.active⟩

def issue (request : CertRequest) (serial : String) : Except String (Authority × LeafCert) :=
  if request.commonName = "" then .error "pki: issue requires a CommonName"
  else if (authority.certs serial).isSome then .error "pki: persist issued cert"
  else
    .ok ({ authority with certs := Function.update authority.certs serial (some false) },
      authority.leaf leafTTL now request serial)

def revoke (serial : String) : Authority :=
  if (authority.certs serial).isSome then
    { authority with certs := Function.update authority.certs serial (some true) }
  else authority

def serve : Call → Authority
  | .issue request serial now =>
    match authority.issue leafTTL now request serial with
    | .ok (next, _) => next
    | .error _ => authority
  | .revoke serial => authority.revoke serial
  | .retire now =>
    { authority with old := some authority.active, oldExpiry := now + rotationGracePeriod }
  | .generate now =>
    { authority with active := ⟨validity now caTTL, authority.active.key + 1⟩ }

def certPool : List CACert :=
  authority.active :: (authority.old.filter fun _ => now < authority.oldExpiry).toList

/-- A certificate whose row cannot be read is not taken for revoked. -/
def verifyClient (readable : Bool) (leaf : LeafCert) : Bool :=
  leaf.issuer ∈ authority.certPool now && leaf.issuer.covers now && leaf.covers now &&
    !(readable && authority.certs leaf.serial == some true)

/-- Until when the active authority will be trusted once it is replaced. -/
def expiry : Option Time :=
  if authority.old = some authority.active then some authority.oldExpiry else none

end Authority

/-- What an authority is to those who rotate it. -/
inductive Standing
  | active (expiry : Option Time)
  | retired (expiry : Time)
  | dropped

variable {caTTL leafTTL : Time} {authority : Authority} {issuer : CACert} {standing : Standing}
  {serial : String} {revoked : Bool}

namespace Standing

/-- A second retirement drops the authority that the first one has retired. -/
def after : Standing → Call → Standing
  | active _, .retire now => active (some (now + rotationGracePeriod))
  | active (some expiry), .generate _ => retired expiry
  | active none, .generate _ | retired _, .retire _ => dropped
  | standing, _ => standing

def lasts (now : Time) : Standing → Prop
  | active _ => True
  | retired expiry => now < expiry
  | dropped => False

def Fits (issuer : CACert) (authority : Authority) : Standing → Prop
  | active expiry => authority.active = issuer ∧ authority.expiry = expiry
  | retired expiry => issuer.key < authority.active.key ∧
      authority.old = some issuer ∧ authority.oldExpiry = expiry
  | dropped => issuer.key < authority.active.key ∧ authority.old ≠ some issuer

theorem fits_serve (fits : standing.Fits issuer authority) (call : Call) :
    (standing.after call).Fits issuer (authority.serve caTTL leafTTL call) := by
  cases call with
  | issue | revoke =>
    simp only [Authority.serve, Authority.issue, Authority.revoke]
    split_ifs <;> cases standing <;> exact fits
  | retire =>
    cases standing with
    | active => exact ⟨fits.1, if_pos rfl⟩
    | retired | dropped =>
      exact ⟨fits.1, fun same => (Option.some.inj same ▸ fits.1).false⟩
  | generate =>
    cases standing with
    | active expiry =>
      obtain ⟨rfl, rfl⟩ := fits
      rw [Authority.expiry]
      split
      · exact ⟨Nat.lt_succ_self _, ‹_›, rfl⟩
      · exact ⟨Nat.lt_succ_self _, ‹_›⟩
    | retired | dropped => exact ⟨fits.1.trans (Nat.lt_succ_self _), fits.2⟩

theorem fits_foldl (caTTL leafTTL : Time) (fits : standing.Fits issuer authority) (calls : List Call) :
    (calls.foldl after standing).Fits issuer
      (calls.foldl (Authority.serve caTTL leafTTL) authority) :=
  List.foldl_rel (r := fun standing authority => Fits issuer authority standing) fits
    fun call _ _ _ fits => fits_serve fits call

theorem mem_certPool (fits : standing.Fits issuer authority) (now : Time) :
    issuer ∈ authority.certPool now ↔ standing.lasts now := by
  cases standing with
  | active => simp [Authority.certPool, lasts, fits.1]
  | retired | dropped =>
    have other : issuer ≠ authority.active := by
      rintro rfl
      exact fits.1.false
    simp [Authority.certPool, lasts, other, fits.2]

end Standing

theorem revoked_serve (recorded : authority.certs serial = some revoked) (call : Call) :
    (authority.serve caTTL leafTTL call).certs serial =
      some (revoked || call = .revoke serial) := by
  cases call with
  | issue request other =>
    simp only [Authority.serve, Authority.issue]
    have other : ¬ (authority.certs other).isSome = true → serial ≠ other := by
      rintro free rfl
      simp [recorded] at free
    split_ifs <;> simp_all
  | revoke other =>
    simp only [Authority.serve, Authority.revoke]
    by_cases same : other = serial
    · simp [same, recorded]
    · split <;> simp [same, recorded, Ne.symm same]
  | retire | generate => simpa [Authority.serve] using recorded

theorem revoked_foldl (recorded : authority.certs serial = some revoked) (calls : List Call) :
    (calls.foldl (Authority.serve caTTL leafTTL) authority).certs serial =
      some (revoked || .revoke serial ∈ calls) := by
  induction calls generalizing authority revoked with
  | nil => simpa using recorded
  | cons call calls induction =>
    rw [List.foldl_cons, induction (revoked_serve recorded call)]
    simp [eq_comm, Bool.or_assoc]

/-- When a certificate is accepted, after any further calls: unless it is revoked,
as long as its authority lasts. -/
theorem verifyClient_iff {leaf : LeafCert} {issuedAt : Time} {request : CertRequest}
    {next : Authority}
    (issued : authority.issue leafTTL issuedAt request serial = .ok (next, leaf))
    (calls : List Call) (now : Time) (readable : Bool) :
    (calls.foldl (Authority.serve caTTL leafTTL) next).verifyClient now readable leaf = true ↔
      (calls.foldl Standing.after (.active authority.expiry)).lasts now ∧
        leaf.issuer.covers now = true ∧ leaf.covers now = true ∧
        (readable = true → .revoke serial ∉ calls) := by
  rw [Authority.issue] at issued
  split_ifs at issued
  cases issued
  set next : Authority := { authority with certs := _ }
  have fits : (Standing.active authority.expiry).Fits authority.active next := ⟨rfl, rfl⟩
  have recorded : next.certs serial = some false := by simp [next]
  have trusted := Standing.mem_certPool (Standing.fits_foldl caTTL leafTTL fits calls) now
  simp only [Authority.verifyClient, Bool.and_eq_true, decide_eq_true_iff, and_assoc]
  refine and_congr trusted (and_congr_right fun _ => and_congr_right fun _ => ?_)
  cases readable <;> simp [Authority.leaf, revoked_foldl recorded]

def founded : Authority := { active := ⟨validity 0 rotationGracePeriod, 0⟩ }

theorem verifyClient_iff_founded : ∃ next leaf,
    founded.issue rotationGracePeriod 0 ⟨"node", 0⟩ "1" = .ok (next, leaf) ∧
      ([.retire 0, .generate 0].foldl (Authority.serve 0 rotationGracePeriod) next).verifyClient
        second true leaf = true := by
  have issued : founded.issue rotationGracePeriod 0 ⟨"node", 0⟩ "1" = .ok (_, _) := rfl
  refine ⟨_, _, issued, (verifyClient_iff issued _ _ _).mpr ⟨?_, rfl, rfl, fun _ => by decide⟩⟩
  change second < 0 + rotationGracePeriod
  decide

end Purser.Pki
