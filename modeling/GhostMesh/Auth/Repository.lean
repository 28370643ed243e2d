import GhostMesh.Auth.Catalog

/-!
# The authorization repository

`AuthorizationRepository` is the protocol that services are written against;
`InMemoryAuthorizationRepository` is one implementation. The role helpers of the
catalog and of the bootstrap work on any repository.
-/

set_option autoImplicit false

namespace GhostMesh

structure AuthorizationRepository (σ : Type) where
  getParticipant : String → Op σ (Option Participant)
  listParticipants : Op σ (List Participant)
  upsertParticipant : Participant → Op σ Unit
  addRoleAssignment : RoleAssignment → Op σ Unit
  listRoleAssignments : String → Op σ (List RoleAssignment)
  addPermissionGrant : PermissionGrant → Op σ Unit
  listPermissionGrants : String → Op σ (List PermissionGrant)
  recordAuditEvent : AuthorizationAuditEvent → Op σ Unit

/-- The repository of a component, seen from the store that contains it. -/
def AuthorizationRepository.on {σ τ : Type} (c : Component τ σ)
    (r : AuthorizationRepository σ) : AuthorizationRepository τ where
  getParticipant id := Op.on c (r.getParticipant id)
  listParticipants := Op.on c r.listParticipants
  upsertParticipant p := Op.on c (r.upsertParticipant p)
  addRoleAssignment a := Op.on c (r.addRoleAssignment a)
  listRoleAssignments id := Op.on c (r.listRoleAssignments id)
  addPermissionGrant g := Op.on c (r.addPermissionGrant g)
  listPermissionGrants id := Op.on c (r.listPermissionGrants id)
  recordAuditEvent e := Op.on c (r.recordAuditEvent e)

structure InMemoryAuthorizationRepository where
  participants : Dict String Participant
  roleAssignments : List RoleAssignment
  permissionGrants : List PermissionGrant
  auditEvents : List AuthorizationAuditEvent

namespace InMemoryAuthorizationRepository

def init : InMemoryAuthorizationRepository := ⟨Dict.empty, [], [], []⟩

variable (s : InMemoryAuthorizationRepository)

/-- The assignments of a participant that are active at `t`. -/
def heldAt (participantId : String) (t : Instant) : List RoleAssignment :=
  s.roleAssignments.filter (fun a => a.participantId = participantId && a.isActive t)

/-- The grants that reach a participant at `t`, directly or through the id of a role
it holds. -/
def grantsAt (participantId : String) (t : Instant) : List PermissionGrant :=
  let roleIds := (s.heldAt participantId t).map (·.roleId)
  s.permissionGrants.filter fun g =>
    g.isActive t && (g.participantId = some participantId || match g.roleId with
      | some roleId => roleIds.contains roleId
      | none => false)

def getParticipant (participantId : String) :
    Op InMemoryAuthorizationRepository (Option Participant) := do
  let s ← Op.get
  return s.participants.get? participantId

def listParticipants : Op InMemoryAuthorizationRepository (List Participant) := do
  let s ← Op.get
  return s.participants.values

def upsertParticipant (p : Participant) : Op InMemoryAuthorizationRepository Unit :=
  Op.modify fun s => { s with participants := s.participants.set p.id p }

def addRoleAssignment (a : RoleAssignment) : Op InMemoryAuthorizationRepository Unit :=
  Op.modify fun s => { s with roleAssignments := s.roleAssignments ++ [a] }

def listRoleAssignments (participantId : String) :
    Op InMemoryAuthorizationRepository (List RoleAssignment) := do
  let now ← Op.now
  let s ← Op.get
  return s.heldAt participantId now

def addPermissionGrant (g : PermissionGrant) : Op InMemoryAuthorizationRepository Unit :=
  Op.modify fun s => { s with permissionGrants := s.permissionGrants ++ [g] }

def listPermissionGrants (participantId : String) :
    Op InMemoryAuthorizationRepository (List PermissionGrant) := do
  let now ← Op.now
  let s ← Op.get
  return s.grantsAt participantId now

def recordAuditEvent (e : AuthorizationAuditEvent) : Op InMemoryAuthorizationRepository Unit :=
  Op.modify fun s => { s with auditEvents := s.auditEvents ++ [e] }

def repository : AuthorizationRepository InMemoryAuthorizationRepository where
  getParticipant := getParticipant
  listParticipants := listParticipants
  upsertParticipant := upsertParticipant
  addRoleAssignment := addRoleAssignment
  listRoleAssignments := listRoleAssignments
  addPermissionGrant := addPermissionGrant
  listPermissionGrants := listPermissionGrants
  recordAuditEvent := recordAuditEvent

end InMemoryAuthorizationRepository

/-! ## Role helpers -/

section Roles
variable {σ : Type}

def newRoleAssignment (participantId : String) (role : RoleName) (scope : Scope)
    (assignedBy : Option String) : Op σ RoleAssignment := do
  let id ← Op.uuid4
  let createdAt ← Op.now
  return { id, participantId, roleId := (getRoleTemplate role).id, scope, assignedBy,
           expiresAt := none, createdAt, revokedAt := none,
           metadata := [("builtin_role", .str role.value)] }

def assignRoleToParticipant (repository : AuthorizationRepository σ) (participantId : String)
    (role : RoleName) (scope : Scope) (assignedBy : Option String) : Op σ RoleAssignment := do
  let template := getRoleTemplate role
  let assignment ← newRoleAssignment participantId role scope assignedBy
  repository.addRoleAssignment assignment
  let grants ← template.permissionGrants scope assignedBy
  Exec.forEach repository.addPermissionGrant grants
  return assignment

def hasMatchingGrant (grants : List PermissionGrant) (candidate : PermissionGrant) : Bool :=
  grants.any fun g => g.roleId = candidate.roleId && g.participantId = candidate.participantId &&
    g.permission = candidate.permission && g.scope = candidate.scope

/-- `existing` of the bootstrap helper: the held assignment of the role at the scope,
or a new one. -/
def existingAssignment (repository : AuthorizationRepository σ) (held : List RoleAssignment)
    (participantId : String) (role : RoleName) (scope : Scope) (assignedBy : Option String) :
    Op σ RoleAssignment :=
  match held.find? (fun a => a.roleId = (getRoleTemplate role).id && a.scope = scope) with
  | some existing => return existing
  | none => do
    let existing ← newRoleAssignment participantId role scope assignedBy
    repository.addRoleAssignment existing
    return existing

def ensureBuiltinRoleAssignment (repository : AuthorizationRepository σ)
    (participantId : String) (role : RoleName) (scope : Scope) (assignedBy : Option String) :
    Op σ RoleAssignment := do
  let template := getRoleTemplate role
  let held ← repository.listRoleAssignments participantId
  let existing ← existingAssignment repository held participantId role scope assignedBy
  let activeGrants ← repository.listPermissionGrants participantId
  let grants ← template.permissionGrants scope assignedBy
  Exec.forEach (fun g =>
    if hasMatchingGrant activeGrants g then pure () else repository.addPermissionGrant g) grants
  return existing

/-- A role assignment keeps what the four operations keep that it is made of. -/
theorem ensureBuiltinRoleAssignment_within {R : Machine σ → Machine σ → Prop} {w : World}
    {repository : AuthorizationRepository σ} {participantId : String} {role : RoleName}
    {scope : Scope} {assignedBy : Option String}
    (hsame : ∀ {m m' : Machine σ}, Op.SameStore m m' → R m m')
    (htrans : ∀ {a b c : Machine σ}, R a b → R b c → R a c)
    (hheld : Exec.Within R w (repository.listRoleAssignments participantId))
    (hassign : ∀ a, Exec.Within R w (repository.addRoleAssignment a))
    (hgrants : Exec.Within R w (repository.listPermissionGrants participantId))
    (hgrant : ∀ g, Exec.Within R w (repository.addPermissionGrant g)) :
    Exec.Within R w
      (ensureBuiltinRoleAssignment repository participantId role scope assignedBy) := by
  have hpure : ∀ {α : Type} (a : α), Exec.Within R w (pure a : Op σ α) :=
    fun a m => hsame (.refl m)
  have hnew : Exec.Within R w
      (newRoleAssignment participantId role scope assignedBy : Op σ RoleAssignment) :=
    fun m => hsame ⟨rfl, Nat.le_succ _, Nat.le_succ _⟩
  refine Exec.Within.bind @htrans hheld fun held => ?_
  refine Exec.Within.bind @htrans ?_ fun existing => ?_
  · unfold existingAssignment
    split
    · exact hpure _
    · exact Exec.Within.bind @htrans hnew fun a =>
        Exec.Within.bind @htrans (hassign a) fun _ => hpure a
  · refine Exec.Within.bind @htrans hgrants fun active => ?_
    refine Exec.Within.bind @htrans (fun m => hsame (permissionGrants_cases rfl).1) fun grants => ?_
    refine Exec.Within.bind @htrans ?_ fun _ => hpure existing
    refine Exec.Within.forEach (fun m => hsame (.refl m)) @htrans (fun g => ?_) grants
    split
    · exact hpure ()
    · exact hgrant g

end Roles

end GhostMesh
