import GhostMesh.Python.World

/-!
# Participants, roles, scopes and grants

The domain records of the authority model. A `Scope` and a `PermissionGrant` are
built only through their validators, so the checks are fields here.
-/

set_option autoImplicit false

namespace GhostMesh

inductive ParticipantType where
  | human | agent | script | service | systemService | vendor | organization
  | externalIntegration | subworkflow
deriving DecidableEq

def ParticipantType.value : ParticipantType → String
  | .human => "human"
  | .agent => "agent"
  | .script => "script"
  | .service => "service"
  | .systemService => "system_service"
  | .vendor => "vendor"
  | .organization => "organization"
  | .externalIntegration => "external_integration"
  | .subworkflow => "subworkflow"

def ParticipantType.all : List ParticipantType :=
  [.human, .agent, .script, .service, .systemService, .vendor, .organization,
    .externalIntegration, .subworkflow]

inductive ParticipantStatus where
  | active | suspended | archived
deriving DecidableEq

def ParticipantStatus.value : ParticipantStatus → String
  | .active => "active"
  | .suspended => "suspended"
  | .archived => "archived"

def ParticipantStatus.all : List ParticipantStatus := [.active, .suspended, .archived]

inductive RoleName where
  | workflowOwner | workflowDesigner | worker | validator | routingValidator | sourceOperator
  | sinkOperator | reviewerApprover | shadowParticipant | learningOptimizer | observer | admin
  | intentOperator | workflowArchitect
deriving DecidableEq

def RoleName.value : RoleName → String
  | .workflowOwner => "workflow_owner"
  | .workflowDesigner => "workflow_designer"
  | .worker => "worker"
  | .validator => "validator"
  | .routingValidator => "routing_validator"
  | .sourceOperator => "source_operator"
  | .sinkOperator => "sink_operator"
  | .reviewerApprover => "reviewer_approver"
  | .shadowParticipant => "shadow_participant"
  | .learningOptimizer => "learning_optimizer"
  | .observer => "observer"
  | .admin => "admin"
  | .intentOperator => "intent_operator"
  | .workflowArchitect => "workflow_architect"

def RoleName.all : List RoleName :=
  [.workflowOwner, .workflowDesigner, .worker, .validator, .routingValidator, .sourceOperator,
    .sinkOperator, .reviewerApprover, .shadowParticipant, .learningOptimizer, .observer, .admin,
    .intentOperator, .workflowArchitect]

inductive PermissionName where
  | patchPanelCreate | patchPanelEditDraft | patchPanelPublishVersion | patchPanelArchive
  | patchPanelDiscover | bucketCreate | nodeCreate | edgeCreate | pipeBindingCreate | cardCreate
  | cardClaim | cardSubmitArtifact | cardRelease | cardView | validationSubmit | mutationPropose
  | mutationValidate | mutationPromote | shadowCreate | shadowComplete | sinkExecute
  | boundarySourceIngress | boundarySinkEgress | participantManage | permissionGrant | auditView
deriving DecidableEq

def PermissionName.value : PermissionName → String
  | .patchPanelCreate => "patch_panel:create"
  | .patchPanelEditDraft => "patch_panel:edit_draft"
  | .patchPanelPublishVersion => "patch_panel:publish_version"
  | .patchPanelArchive => "patch_panel:archive"
  | .patchPanelDiscover => "patch_panel:discover"
  | .bucketCreate => "bucket:create"
  | .nodeCreate => "node:create"
  | .edgeCreate => "edge:create"
  | .pipeBindingCreate => "pipe_binding:create"
  | .cardCreate => "card:create"
  | .cardClaim => "card:claim"
  | .cardSubmitArtifact => "card:submit_artifact"
  | .cardRelease => "card:release"
  | .cardView => "card:view"
  | .validationSubmit => "validation:submit"
  | .mutationPropose => "mutation:propose"
  | .mutationValidate => "mutation:validate"
  | .mutationPromote => "mutation:promote"
  | .shadowCreate => "shadow:create"
  | .shadowComplete => "shadow:complete"
  | .sinkExecute => "sink:execute"
  | .boundarySourceIngress => "boundary:source_ingress"
  | .boundarySinkEgress => "boundary:sink_egress"
  | .participantManage => "participant:manage"
  | .permissionGrant => "permission:grant"
  | .auditView => "audit:view"

/-- `tuple(PermissionName)`. -/
def PermissionName.all : List PermissionName :=
  [.patchPanelCreate, .patchPanelEditDraft, .patchPanelPublishVersion, .patchPanelArchive,
    .patchPanelDiscover, .bucketCreate, .nodeCreate, .edgeCreate, .pipeBindingCreate, .cardCreate,
    .cardClaim, .cardSubmitArtifact, .cardRelease, .cardView, .validationSubmit, .mutationPropose,
    .mutationValidate, .mutationPromote, .shadowCreate, .shadowComplete, .sinkExecute,
    .boundarySourceIngress, .boundarySinkEgress, .participantManage, .permissionGrant, .auditView]

inductive ScopeType where
  | global | developmentGlobal | organization | workflow | patchPanel | bucket | node | card
  | artifact | version
deriving DecidableEq

def ScopeType.value : ScopeType → String
  | .global => "global"
  | .developmentGlobal => "development_global"
  | .organization => "organization"
  | .workflow => "workflow"
  | .patchPanel => "patch_panel"
  | .bucket => "bucket"
  | .node => "node"
  | .card => "card"
  | .artifact => "artifact"
  | .version => "version"

def ScopeType.all : List ScopeType :=
  [.global, .developmentGlobal, .organization, .workflow, .patchPanel, .bucket, .node, .card,
    .artifact, .version]

def ScopeType.isGlobal : ScopeType → Bool
  | .global | .developmentGlobal => true
  | _ => false

/-- `Scope.validate_scope_id`: a global scope has no id, any other a nonempty one. -/
def validScopeId (type : ScopeType) (id : Option String) : Bool :=
  if type.isGlobal then id = none else id ≠ none && id ≠ some ""

structure Scope where
  type : ScopeType
  id : Option String
  valid : validScopeId type id = true
deriving DecidableEq

def Scope.globalScope : Scope := ⟨.global, none, rfl⟩

def Scope.developmentGlobal : Scope := ⟨.developmentGlobal, none, rfl⟩

/-- `Scope(type=..., id=...)`; `none` is the validator's `ValueError`. -/
def Scope.make? (type : ScopeType) (id : Option String) : Option Scope :=
  if h : validScopeId type id = true then some ⟨type, id, h⟩ else none

structure Participant where
  id : String
  type : ParticipantType
  displayName : Option String
  status : ParticipantStatus
  trustLevel : Option String
  authMethod : Option String
  metadata : JsonObj
  createdAt : Instant
  archivedAt : Option Instant

/-- `is_active` of assignments and grants. -/
def activeAt (revokedAt expiresAt : Option Instant) (at_ : Instant) : Bool :=
  revokedAt.isNone && (match expiresAt with
    | none => true
    | some e => at_ < e)

structure RoleAssignment where
  id : Uuid
  participantId : String
  roleId : String
  scope : Scope
  assignedBy : Option String
  expiresAt : Option Instant
  createdAt : Instant
  revokedAt : Option Instant
  metadata : JsonObj

def RoleAssignment.isActive (a : RoleAssignment) (at_ : Instant) : Bool :=
  activeAt a.revokedAt a.expiresAt at_

structure PermissionGrant where
  id : Uuid
  permission : PermissionName
  scope : Scope
  participantId : Option String
  roleId : Option String
  grantedBy : Option String
  expiresAt : Option Instant
  createdAt : Instant
  revokedAt : Option Instant
  metadata : JsonObj
  /-- `validate_grant_target`. -/
  oneTarget : participantId.isSome ≠ roleId.isSome

def PermissionGrant.isActive (g : PermissionGrant) (at_ : Instant) : Bool :=
  activeAt g.revokedAt g.expiresAt at_

inductive AuditAction where
  | authorizationAllowed | authorizationDenied | genesisIntentReceived | genesisRegistrySearched
  | genesisCandidateSelected | genesisCardCreated | genesisProposalSubmitted
  | genesisDesignRequired
deriving DecidableEq

structure AuthorizationDecision where
  id : Uuid
  participantId : String
  permission : PermissionName
  scope : Scope
  allowed : Bool
  reason : String
  evaluatedAt : Instant
  matchedGrantIds : List Uuid
  metadata : JsonObj

def AuthorizationDecision.auditAction (d : AuthorizationDecision) : AuditAction :=
  if d.allowed then .authorizationAllowed else .authorizationDenied

structure AuthorizationAuditEvent where
  id : Uuid
  action : AuditAction
  participantId : Option String
  permission : Option PermissionName
  scope : Option Scope
  allowed : Option Bool
  reason : Option String
  requestRef : Option String
  targetRef : Option String
  metadata : JsonObj
  createdAt : Instant

end GhostMesh
