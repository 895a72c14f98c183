import Mathlib.Data.Int.Notation
import Mathlib.Data.List.Dedup
import Purser.KeyedStores
import Purser.Sha256Digests

/-!
# The registry behind the management API

API keys are stored by the digest of their plaintext, next to teams, members,
roles and sessions.  Times are compared by their texts.
-/

namespace Purser.Management

open KeyedStores

/-- The digest by which a bearer value is looked up. -/
def hashOf (plaintext : String) : String := Sha256Digests.sha256 plaintext.toUTF8.data.toList

structure APIKey where
  id : String
  name : String := ""
  keyHash : String
  tenant : String := ""
  role : String := "admin"
  quota : ℤ := 0
  enabled : Bool := true
  expiresAt : Option String := none
  predecessorID : String := ""
  rotatedAt : Option String := none
  scopes : List String := []
  createdBy : String := ""
  createdAt : String := ""
deriving DecidableEq

def APIKey.usable (now : String) (key : APIKey) : Bool :=
  key.enabled && match key.expiresAt with
    | none => true
    | some expiry => now < expiry

structure Team where
  id : String
  orgID : String

structure OrgMember where
  orgID : String
  userSub : String
  role : String

structure TeamMember where
  teamID : String
  userSub : String
  roleID : String

/-- A role of an organization, or a built-in one that belongs to none. -/
structure CustomRole where
  orgID : Option String
  id : String
  name : String := ""
  permissions : List String

structure OIDCSession where
  tokenHash : String
  revoked : Bool := false
  expiresAt : String

structure KeyTable where
  keys : Store APIKey.id
  uniqueHash : (keys.rows.map APIKey.keyHash).Nodup

structure Platform where
  teams : List Team := []
  orgMembers : List OrgMember := []
  teamMembers : List TeamMember := []
  customRoles : List CustomRole := []

structure EffectivePermissions where
  orgID : String
  isOrgAdmin : Bool
  roleID : String := ""
  roleName : String := ""
  permissions : List String

namespace KeyTable

def empty : KeyTable := ⟨.empty, List.nodup_nil⟩

def rows (table : KeyTable) : List APIKey := table.keys.rows

def getAPIKeyByHash (table : KeyTable) (now keyHash : String) : Option APIKey :=
  table.rows.find? fun key => key.keyHash = keyHash ∧ key.usable now

def getAPIKey (table : KeyTable) (id : String) : Option APIKey := table.keys.find id

/-- An expired key counts as long as it is enabled. -/
def hasAnyAPIKey (table : KeyTable) : Bool := table.rows.any APIKey.enabled

end KeyTable

def insertSorted (text : String) : List String → List String
  | [] => [text]
  | first :: rest => if text < first then text :: first :: rest else first :: insertSorted text rest

def sortStrings (texts : List String) : List String :=
  texts.foldl (fun sorted text => insertSorted text sorted) []

namespace Platform

variable (platform : Platform) (orgID roleID : String)

def getTeam (id : String) : Option Team :=
  platform.teams.find? fun team => team.id = id

def getOrgMember (orgID userID : String) : Option OrgMember :=
  platform.orgMembers.find? fun member => member.orgID = orgID ∧ member.userSub = userID

def getTeamMember (teamID userID : String) : Option TeamMember :=
  platform.teamMembers.find? fun member => member.teamID = teamID ∧ member.userSub = userID

/-- The empty organization stands for the built-in roles. -/
def getCustomRole : Option CustomRole :=
  platform.customRoles.find? fun role =>
    role.orgID = (if orgID = "" then none else some orgID) ∧ role.id = roleID

def memberRole : Option CustomRole :=
  if roleID = "" then none
  else (platform.getCustomRole orgID roleID).or (platform.getCustomRole "" roleID)

def getEffectivePermissions (userID teamID : String) : Option EffectivePermissions :=
  (platform.getTeam teamID).map fun team =>
    let isOrgAdmin :=
      ((platform.getOrgMember team.orgID userID).map OrgMember.role) = some "org_admin"
    let orgPermissions :=
      if isOrgAdmin then
        ((platform.getCustomRole "" "org_admin").map CustomRole.permissions).getD []
      else []
    let role := (platform.getTeamMember teamID userID).bind fun member =>
      platform.memberRole team.orgID member.roleID
    { orgID := team.orgID
      isOrgAdmin := isOrgAdmin
      roleID := (role.map CustomRole.id).getD ""
      roleName := (role.map CustomRole.name).getD ""
      permissions := sortStrings
        (orgPermissions ++ (role.map CustomRole.permissions).getD []).dedup }

end Platform

end Purser.Management
