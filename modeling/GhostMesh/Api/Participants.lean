import GhostMesh.Api.Request

/-!
# Participant endpoints
-/

set_option autoImplicit false

namespace GhostMesh

structure CreateParticipantRequest where
  id : String
  type : ParticipantType
  displayName : Option String
  status : ParticipantStatus
  trustLevel : Option String
  authMethod : Option String
  metadata : JsonObj

structure AssignRoleRequest where
  roleName : RoleName
  scope : Scope
  assignedBy : Option String

structure GrantPermissionRequest where
  permission : PermissionName
  scope : Scope
  grantedBy : Option String

namespace Api

variable {σ : Type} (repository : AuthorizationRepository σ) (enabled : Bool)

/-- `POST /participants`. -/
def createParticipant (body : CreateParticipantRequest) (request : Request) :
    Op σ Participant := do
  authorizeRequest repository enabled request .participantManage .globalScope
    [("operation", .str "participants.create"), ("participant_id", .str body.id)] none
  let createdAt ← Op.now
  let participant : Participant :=
    { id := body.id, type := body.type, displayName := body.displayName, status := body.status,
      trustLevel := body.trustLevel, authMethod := body.authMethod, metadata := body.metadata,
      createdAt, archivedAt := none }
  repository.upsertParticipant participant
  return participant

/-- `POST /participants/{participant_id}/roles`. -/
def assignParticipantRole (participantId : String) (body : AssignRoleRequest)
    (request : Request) : Op σ RoleAssignment := do
  authorizeRequest repository enabled request .permissionGrant body.scope
    [("operation", .str "participants.assign_role"), ("participant_id", .str participantId),
      ("role_name", .str body.roleName.value)] body.assignedBy
  let template := getRoleTemplate body.roleName
  let assignment ← newRoleAssignment participantId body.roleName body.scope
    (some (resolvedActor request body.assignedBy))
  repository.addRoleAssignment assignment
  let grants ← template.permissionGrants body.scope (some (resolvedActor request body.assignedBy))
  Exec.forEach repository.addPermissionGrant grants
  return assignment

/-- `POST /participants/{participant_id}/permissions`. -/
def grantParticipantPermission (participantId : String) (body : GrantPermissionRequest)
    (request : Request) : Op σ PermissionGrant := do
  authorizeRequest repository enabled request .permissionGrant body.scope
    [("operation", .str "participants.grant_permission"),
      ("participant_id", .str participantId), ("permission", .str body.permission.value)]
    body.grantedBy
  let id ← Op.uuid4
  let createdAt ← Op.now
  let grant : PermissionGrant :=
    { id, permission := body.permission, scope := body.scope,
      participantId := some participantId, roleId := none,
      grantedBy := some (resolvedActor request body.grantedBy), expiresAt := none, createdAt,
      revokedAt := none, metadata := [], oneTarget := Bool.noConfusion }
  repository.addPermissionGrant grant
  return grant

end Api

end GhostMesh
