import GhostMesh.Domain.Authority

/-!
# Built-in role templates
-/

set_option autoImplicit false

namespace GhostMesh

structure RoleTemplate where
  name : RoleName
  permissions : List PermissionName

def RoleTemplate.id (t : RoleTemplate) : String := "builtin:" ++ t.name.value

open PermissionName in
/-- `BUILT_IN_ROLE_TEMPLATES[role_name].permissions`. -/
def RoleName.templatePermissions : RoleName → List PermissionName
  | .workflowOwner =>
    [patchPanelCreate, patchPanelEditDraft, patchPanelPublishVersion, patchPanelArchive,
      patchPanelDiscover, bucketCreate, nodeCreate, edgeCreate, pipeBindingCreate,
      mutationValidate, mutationPromote, shadowCreate, permissionGrant]
  | .workflowDesigner =>
    [patchPanelCreate, patchPanelEditDraft, patchPanelDiscover, bucketCreate, nodeCreate,
      edgeCreate, pipeBindingCreate, mutationPropose]
  | .worker => [cardView, cardClaim, cardSubmitArtifact, cardRelease]
  | .validator => [cardView, validationSubmit]
  | .routingValidator => [cardView, validationSubmit]
  | .sourceOperator => [boundarySourceIngress, cardCreate]
  | .sinkOperator => [sinkExecute, boundarySinkEgress]
  | .reviewerApprover =>
    [cardView, validationSubmit, mutationValidate, mutationPromote, patchPanelPublishVersion]
  | .shadowParticipant =>
    [cardView, cardClaim, cardSubmitArtifact, shadowComplete, mutationPropose]
  | .learningOptimizer => [cardView, patchPanelDiscover, mutationPropose, shadowCreate]
  | .observer => [cardView, patchPanelDiscover, auditView]
  | .admin => PermissionName.all
  | .intentOperator => [cardCreate, patchPanelDiscover]
  | .workflowArchitect =>
    [patchPanelDiscover, patchPanelCreate, patchPanelEditDraft, bucketCreate, nodeCreate,
      edgeCreate, pipeBindingCreate, cardCreate, mutationPropose, shadowCreate]

def getRoleTemplate (role : RoleName) : RoleTemplate := ⟨role, role.templatePermissions⟩

/-- The id of a template tells the role. -/
theorem getRoleTemplate_id_injective {r r' : RoleName}
    (h : (getRoleTemplate r).id = (getRoleTemplate r').id) : r = r' := by
  cases r <;> cases r' <;> first | rfl | exact absurd h (by decide)

/-- `RoleTemplate.permission_grants`: one clock reading for all, one id each. -/
def RoleTemplate.grantEach {σ : Type} (t : RoleTemplate) (scope : Scope)
    (grantedBy : Option String) (createdAt : Instant) :
    List PermissionName → Op σ (List PermissionGrant)
  | [] => return []
  | permission :: rest => do
    let id ← Op.uuid4
    let grants ← grantEach t scope grantedBy createdAt rest
    return { id, permission, scope, participantId := none, roleId := some t.id, grantedBy,
             expiresAt := none, createdAt, revokedAt := none,
             metadata := [("builtin_role", .str t.name.value)],
             oneTarget := Bool.false_ne_true } :: grants

def RoleTemplate.permissionGrants {σ : Type} (t : RoleTemplate) (scope : Scope)
    (grantedBy : Option String) : Op σ (List PermissionGrant) := do
  let grantTime ← Op.now
  t.grantEach scope grantedBy grantTime t.permissions

/-- A grant written out from a template: an unlimited grant to its role. -/
structure RoleTemplate.Granted (t : RoleTemplate) (scope : Scope) (g : PermissionGrant) :
    Prop where
  role : g.roleId = some t.id
  scope : g.scope = scope
  permission : g.permission ∈ t.permissions
  unexpiring : g.expiresAt = none
  unrevoked : g.revokedAt = none

section Run
variable {σ : Type} {w : World} {m m' : Machine σ}

theorem grantEach_cases {t : RoleTemplate} {scope : Scope} {grantedBy : Option String}
    {createdAt : Instant} {ps : List PermissionName} (hps : ∀ p ∈ ps, p ∈ t.permissions)
    {r : Except PyErr (List PermissionGrant)}
    (h : (t.grantEach scope grantedBy createdAt ps).run w m = (r, m')) :
    Op.SameStore m m' ∧ ∃ gs, r = .ok gs ∧ (∀ g ∈ gs, t.Granted scope g) ∧
      gs.map (·.permission) = ps := by
  induction ps generalizing m m' r with
  | nil =>
    cases h
    exact ⟨.refl _, [], rfl, by simp, rfl⟩
  | cons p ps ih =>
    simp only [RoleTemplate.grantEach, Exec.run_bind, Op.run_uuid4] at h
    rcases hrest : (t.grantEach scope grantedBy createdAt ps).run w
      { m with draws := m.draws + 1 } with ⟨r1, m1⟩
    obtain ⟨hsame, gs, rfl, hgs, hmap⟩ :=
      ih (fun x hx => hps x (List.mem_cons_of_mem p hx)) hrest
    rw [hrest] at h
    cases h
    refine ⟨⟨hsame.store, hsame.ticks, Nat.le_of_succ_le hsame.draws⟩, _, rfl, ?_, ?_⟩
    · intro g hg
      rcases List.mem_cons.mp hg with rfl | hg
      · exact ⟨rfl, rfl, hps p List.mem_cons_self, rfl, rfl⟩
      · exact hgs g hg
    · simp [hmap]

theorem permissionGrants_cases {t : RoleTemplate} {scope : Scope} {grantedBy : Option String}
    {r : Except PyErr (List PermissionGrant)}
    (h : (t.permissionGrants scope grantedBy).run w m = (r, m')) :
    Op.SameStore m m' ∧ ∃ gs, r = .ok gs ∧ (∀ g ∈ gs, t.Granted scope g) ∧
      gs.map (·.permission) = t.permissions := by
  simp only [RoleTemplate.permissionGrants, Exec.run_bind, Op.run_now] at h
  obtain ⟨hsame, hrest⟩ := grantEach_cases (fun _ hp => hp) h
  exact ⟨⟨hsame.store, Nat.le_of_succ_le hsame.ticks, hsame.draws⟩, hrest⟩

end Run

end GhostMesh
