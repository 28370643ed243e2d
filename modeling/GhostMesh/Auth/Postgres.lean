import GhostMesh.Auth.Service
import GhostMesh.Persistence.AuthorityTables

/-!
# The Postgres authorization repository

`PostgresAuthorizationRepository` method by method. Every method is one transaction; the
clock is read before it is opened.
-/

set_option autoImplicit false

namespace GhostMesh

open ReadCommitted (Txn)

namespace PostgresAuthorizationRepository

/-- `RoleName(assignment.role_id.removeprefix("builtin:"))`, if there is such a role. -/
def builtinRole (roleId : String) : Option RoleName :=
  let name := if "builtin:".toList <+: roleId.toList then
    String.ofList (roleId.toList.drop 8) else roleId
  RoleName.all.find? fun role => role.value = name

variable (engine : AuthorityEngine)

def getParticipant (participantId : String) : Op AuthorityTables (Option Participant) := do
  let d ← Op.committed (Txn.query (S := authority) (.participant participantId))
  return d.participants.get? participantId

def listParticipants : Op AuthorityTables (List Participant) := do
  let d ← Op.committed (Txn.query (S := authority) .participants)
  return engine.rows d d.participants.values

def upsertParticipantTx (p : Participant) : AuthorityTx Unit := do
  let d ← Txn.query (S := authority) (.participant p.id)
  if d.participants.contains p.id then
    Txn.update (S := authority) (.participant p.id) AuthorityLock.participant
      (fun d => if d.participants.contains p.id then [p.id] else [])
      (fun d id => d.participants.contains id) (fun _ => .participant p)
  else
    Txn.insert (S := authority) (.participant p.id) (fun d => d.participants.contains p.id)
      (.participant p) (.integrity (engine.duplicateKey "participants"))

/-- The row of a built-in role, if it is not there yet; the name of a role is unique. -/
def ensureRole (role : RoleName) : AuthorityTx Unit := do
  let template := getRoleTemplate role
  let d ← Txn.query (S := authority) (.role template.id)
  if d.roles.contains template.id then return ()
  else do
    let createdAt ← Txn.now (S := authority)
    Txn.insert (S := authority) (.role template.id)
      (fun d => d.roles.contains template.id || d.roles.values.any fun row => row.name = role.value)
      (.role ⟨template.id, role.value, createdAt⟩) (.integrity (engine.duplicateKey "roles"))

def insertRoleAssignment (a : RoleAssignment) : AuthorityTx Unit :=
  insertReferring engine "participant_roles" (.participantRole a.id)
    (fun d => d.participantRoles.contains a.id)
    (fun d => d.participants.contains a.participantId && d.roles.contains a.roleId &&
      d.knows a.assignedBy)
    (.participantRole a)

def addRoleAssignmentTx (a : RoleAssignment) : AuthorityTx Unit := do
  match builtinRole a.roleId with
  | some role => ensureRole engine role
  | none => pure ()
  insertRoleAssignment engine a

/-- The active assignments of a participant; revoked ones are not read. -/
def heldAt (d : AuthorityTables) (participantId : String) (t : Instant) : List RoleAssignment :=
  (engine.rows d (d.participantRoles.values.filter fun a =>
    a.participantId = participantId && a.revokedAt.isNone)).filter fun a =>
      match a.expiresAt with
      | none => true
      | some e => t < e

def listRoleAssignments (participantId : String) : Op AuthorityTables (List RoleAssignment) := do
  let now ← Op.now
  let d ← Op.committed (Txn.query (S := authority) (.participantRoles participantId))
  return heldAt engine d participantId now

def addPermissionGrantTx (g : PermissionGrant) : AuthorityTx Unit :=
  insertReferring engine "permission_grants" (.permissionGrant g.id)
    (fun d => d.permissionGrants.contains g.id)
    (fun d => d.knows g.participantId && d.hasRole g.roleId && d.knows g.grantedBy)
    (.permissionGrant g)

/-- The grants among `rows` that reach the participant, directly or through a role id. -/
def reaching (participantId : String) (roleIds : List String) (now : Instant)
    (rows : List PermissionGrant) : List PermissionGrant :=
  rows.filter fun g =>
    g.isActive now && (g.participantId = some participantId || match g.roleId with
      | some roleId => roleIds.contains roleId
      | none => false)

def listPermissionGrantsTx (participantId : String) (now : Instant) :
    AuthorityTx (List PermissionGrant) := do
  let d ← Txn.query (S := authority) (.participantRoles participantId)
  let roleIds := (heldAt engine d participantId now).map (·.roleId)
  let d ← Txn.query (S := authority) .permissionGrants
  return reaching participantId roleIds now
    (engine.rows d (d.permissionGrants.values.filter fun g => g.revokedAt.isNone))

def listPermissionGrants (participantId : String) : Op AuthorityTables (List PermissionGrant) := do
  let now ← Op.now
  Op.committed (listPermissionGrantsTx engine participantId now)

def recordAuditEventTx (e : AuthorizationAuditEvent) : AuthorityTx Unit :=
  insertReferring engine "authorization_audit_events" (.authorizationAuditEvent e.id)
    (fun d => d.authorizationAuditEvents.contains e.id) (fun d => d.knows e.participantId)
    (.authorizationAuditEvent e)

def repository : AuthorizationRepository AuthorityTables where
  getParticipant := getParticipant
  listParticipants := listParticipants engine
  upsertParticipant p := Op.committed (upsertParticipantTx engine p)
  addRoleAssignment a := Op.committed (addRoleAssignmentTx engine a)
  listRoleAssignments := listRoleAssignments engine
  addPermissionGrant g := Op.committed (addPermissionGrantTx engine g)
  listPermissionGrants := listPermissionGrants engine
  recordAuditEvent e := Op.committed (recordAuditEventTx engine e)

/-- Alone, a participant's row is written whether or not it is there. -/
theorem run_upsertParticipant {p : Machine AuthorityTables} (w : World) (q : Participant) :
    ((repository engine).upsertParticipant q).run w p =
      (.ok (), { p with store := AuthorityWrite.apply p.store (.participant q) }) := by
  refine Op.run_committed_ok ((Txn.aloneOn_bind _ _ _ _ _ _).trans ?_)
  change ((if p.store.participants.contains q.id then _ else _) : AuthorityTx Unit).aloneOn
    _ _ _ _ = _
  cases hq : p.store.participants.contains q.id with
  | true =>
    rw [if_pos rfl]
    refine (Txn.aloneOn_update_one _ _ _ _ _ (if_pos hq) _ _).trans ?_
    rw [if_pos hq]
  | false =>
    rw [if_neg Bool.false_ne_true]
    refine (Txn.aloneOn_insert _ _ _ _ _ _ _ _).trans ?_
    rw [hq, if_neg Bool.false_ne_true]

/-- A write of a role, an assignment or a grant. -/
def RoleWrite : AuthorityWrite → Prop
  | .role _ | .participantRole _ | .permissionGrant _ => True
  | _ => False

theorem addRoleAssignment_writes (a : RoleAssignment) :
    (addRoleAssignmentTx engine a).Writes RoleWrite := by
  have hinsert : (insertRoleAssignment engine a).Writes RoleWrite :=
    insertReferring_writes engine _ _ _ _ trivial
  unfold addRoleAssignmentTx
  cases builtinRole a.roleId with
  | none => exact hinsert
  | some role =>
    refine Txn.Writes.bind ?_ fun _ => hinsert
    unfold ensureRole
    refine Txn.Writes.bind (Txn.Writes.query _) fun d => ?_
    split
    · exact Txn.Writes.ret ()
    · exact Txn.Writes.bind Txn.Writes.now fun _ => Txn.Writes.insert _ _ _ trivial

theorem addPermissionGrant_writes (g : PermissionGrant) :
    (addPermissionGrantTx engine g).Writes RoleWrite :=
  insertReferring_writes engine _ _ _ _ trivial

/-- A template's id is read back as its role. -/
theorem builtinRole_template (role : RoleName) :
    builtinRole (getRoleTemplate role).id = some role := by
  cases role <;> decide

end PostgresAuthorizationRepository

end GhostMesh
