import GhostMesh.Api.Participants
import GhostMesh.Lib.Run

/-!
# Role authority and the scope of the assignment

A role grant reaches every holder of the role, whatever scope the holder was
assigned at. `ownAuthority_iff_covered` says for one state when authority
nevertheless stays within the holder's own assignments; the run theorem says which
steps keep it there.
-/

set_option autoImplicit false

namespace GhostMesh

/-- The assignment is of a built-in role whose template contains the permission. -/
def RoleAssignment.carries (a : RoleAssignment) (permission : PermissionName) : Bool :=
  RoleName.all.any fun role =>
    a.roleId = (getRoleTemplate role).id && (getRoleTemplate role).permissions.contains permission

theorem RoleName.mem_all (role : RoleName) : role ∈ RoleName.all := by
  cases role <;> decide

theorem RoleAssignment.carries_of_role {a : RoleAssignment} {role : RoleName}
    {permission : PermissionName} (hrole : a.roleId = (getRoleTemplate role).id)
    (hmem : permission ∈ (getRoleTemplate role).permissions) : a.carries permission = true :=
  List.any_eq_true.mpr ⟨role, role.mem_all, by simp [hrole, hmem]⟩

/-- The scope `s` matches everything that `g` does. -/
def Scope.Covers (s g : Scope) : Prop := s.type.isGlobal = true ∨ s = g

instance (s g : Scope) : Decidable (s.Covers g) :=
  inferInstanceAs (Decidable (s.type.isGlobal = true ∨ s = g))

theorem Scope.Covers.matches {s g t : Scope} {context : JsonObj} (h : s.Covers g)
    (hmatch : scopeMatches g t context = true) : scopeMatches s t context = true := by
  rcases h with h | rfl
  · exact scopeMatches_of_global h t context
  · exact hmatch

namespace InMemoryAuthorizationRepository

section State
variable (s : InMemoryAuthorizationRepository)

/-- The participant itself holds the authority, through an assignment active at `t`. -/
def OwnAuthority (t : Instant) (participantId : String) (permission : PermissionName)
    (target : Scope) (context : JsonObj) : Prop :=
  ∃ a ∈ s.heldAt participantId t, a.carries permission = true ∧
    scopeMatches a.scope target context = true

/-- A grant that reaches the participant gives nothing beyond its own assignments. -/
def CoveredAt (t : Instant) (participantId : String) (g : PermissionGrant) : Prop :=
  ∃ a ∈ s.heldAt participantId t, a.carries g.permission = true ∧ a.scope.Covers g.scope

variable {s}

/-- Authority stays within the participant's own assignments, for every permission,
target and context, exactly when every grant that reaches it is covered. -/
theorem ownAuthority_iff_covered {t : Instant} {participantId : String} {p : Participant}
    (hp : s.participants.get? participantId = some p) (hactive : p.status = .active) :
    (∀ permission target context,
      s.decides t participantId permission target context = true →
        s.OwnAuthority t participantId permission target context) ↔
    ∀ g ∈ s.grantsAt participantId t, s.CoveredAt t participantId g := by
  constructor
  · intro h g hg
    let own := ((s.heldAt participantId t).filter (·.carries g.permission)).map (·.scope)
    have hwherever : ∀ target context, scopeMatches g.scope target context = true →
        ∃ sc ∈ own, scopeMatches sc target context = true := by
      intro target context hmatch
      obtain ⟨a, ha, hcarries, hscope⟩ := h g.permission target context
        (decides_iff.mpr ⟨⟨p, hp, hactive⟩, g, hg, rfl, hmatch⟩)
      exact ⟨a.scope, List.mem_map_of_mem (List.mem_filter.mpr ⟨ha, hcarries⟩), hscope⟩
    obtain ⟨sc, hsc, hcovers⟩ := (matched_wherever_iff g.scope own).mp hwherever
    obtain ⟨a, ha, rfl⟩ := List.mem_map.mp hsc
    obtain ⟨ha, hcarries⟩ := List.mem_filter.mp ha
    exact ⟨a, ha, hcarries, hcovers⟩
  · intro h permission target context hallowed
    obtain ⟨-, g, hg, rfl, hmatch⟩ := decides_iff.mp hallowed
    obtain ⟨a, ha, hcarries, hcovers⟩ := h g hg
    exact ⟨a, ha, hcarries, hcovers.matches hmatch⟩

end State

/-! ## Runs -/

/-- The writers of the repository, and the decisions between them. -/
inductive Call where
  | upsertParticipant (p : Participant)
  | assignRoleToParticipant (participantId : String) (role : RoleName) (scope : Scope)
      (assignedBy : Option String)
  | ensureBuiltinRoleAssignment (participantId : String) (role : RoleName) (scope : Scope)
      (assignedBy : Option String)
  | createParticipant (body : CreateParticipantRequest) (request : Request)
  | assignParticipantRole (participantId : String) (body : AssignRoleRequest) (request : Request)
  | grantParticipantPermission (participantId : String) (body : GrantPermissionRequest)
      (request : Request)
  | addPermissionGrant (g : PermissionGrant)
  | authorize (participantId : String) (permission : PermissionName) (scope : Scope)
      (context : JsonObj)

def Call.step (w : World) (enabled : Bool) (m : Machine InMemoryAuthorizationRepository) :
    Call → Machine InMemoryAuthorizationRepository
  | upsertParticipant p => ((repository.upsertParticipant p).run w m).2
  | assignRoleToParticipant p role scope by_ =>
    ((GhostMesh.assignRoleToParticipant repository p role scope by_).run w m).2
  | ensureBuiltinRoleAssignment p role scope by_ =>
    ((GhostMesh.ensureBuiltinRoleAssignment repository p role scope by_).run w m).2
  | createParticipant body request =>
    ((Api.createParticipant repository enabled body request).run w m).2
  | assignParticipantRole p body request =>
    ((Api.assignParticipantRole repository enabled p body request).run w m).2
  | grantParticipantPermission p body request =>
    ((Api.grantParticipantPermission repository enabled p body request).run w m).2
  | addPermissionGrant g => ((repository.addPermissionGrant g).run w m).2
  | authorize p permission scope context =>
    ((GhostMesh.authorize repository p permission scope context).run w m).2

def start : Machine InMemoryAuthorizationRepository := ⟨init, 0, 0⟩

/-- Every active participant that no active grant names directly is allowed only
what its own role assignments carry. -/
def AuthorityInScope (w : World) (m : Machine InMemoryAuthorizationRepository) : Prop :=
  ∀ participantId p, m.store.participants.get? participantId = some p → p.status = .active →
    (∀ g ∈ m.store.permissionGrants, g.participantId = some participantId →
      g.isActive (w.clock m.ticks) = false) →
    ∀ permission target context d m',
      (GhostMesh.authorize repository participantId permission target context).run w m =
        (.ok d, m') →
      d.allowed = true →
      m.store.OwnAuthority (w.clock m.ticks) participantId permission target context

/-! ## Which steps keep authority in scope -/

section Condition
variable (s : InMemoryAuthorizationRepository)

/-- The participant has an assignment that carries the permission and covers `scope`. -/
def Holds (participantId : String) (permission : PermissionName) (scope : Scope) : Prop :=
  ∃ a ∈ s.roleAssignments, a.participantId = participantId ∧ a.carries permission = true ∧
    a.scope.Covers scope

instance (participantId : String) (permission : PermissionName) (scope : Scope) :
    Decidable (s.Holds participantId permission scope) :=
  inferInstanceAs (Decidable (∃ a ∈ s.roleAssignments, _ ∧ _ ∧ _))

/-- Assigning the role writes grants at `scope` for all its holders: each other
holder must cover them, and the new holder must cover the grants already there. -/
def AssignInScope (participantId : String) (role : RoleName) (scope : Scope) : Prop :=
  (∀ a ∈ s.roleAssignments, a.roleId = (getRoleTemplate role).id →
    a.participantId ≠ participantId →
    ∀ permission ∈ (getRoleTemplate role).permissions, s.Holds a.participantId permission scope) ∧
  (∀ g ∈ s.permissionGrants, g.revokedAt = none → g.roleId = some (getRoleTemplate role).id →
    (g.permission ∈ (getRoleTemplate role).permissions ∧ scope.Covers g.scope) ∨
      s.Holds participantId g.permission g.scope)

instance (participantId : String) (role : RoleName) (scope : Scope) :
    Decidable (s.AssignInScope participantId role scope) :=
  inferInstanceAs (Decidable (_ ∧ _))

/-- A grant to a role must be covered by every holder of the role. -/
def GrantInScope (g : PermissionGrant) : Prop :=
  g.revokedAt = none → ∀ a ∈ s.roleAssignments, g.roleId = some a.roleId →
    s.Holds a.participantId g.permission g.scope

instance (g : PermissionGrant) : Decidable (s.GrantInScope g) :=
  inferInstanceAs (Decidable (_ → _))

end Condition

/-- The condition on a step, in the state it is taken from; a refused request asks
for nothing. -/
def Call.InScope (w : World) (enabled : Bool) (m : Machine InMemoryAuthorizationRepository) :
    Call → Prop
  | assignRoleToParticipant p role scope _ => m.store.AssignInScope p role scope
  | ensureBuiltinRoleAssignment p role scope _ => m.store.AssignInScope p role scope
  | assignParticipantRole p body request =>
    (enabled = true → m.store.admits (w.clock m.ticks) request .permissionGrant body.scope
      [("operation", .str "participants.assign_role"), ("participant_id", .str p),
        ("role_name", .str body.roleName.value)] body.assignedBy = true) →
    m.store.AssignInScope p body.roleName body.scope
  | addPermissionGrant g => m.store.GrantInScope g
  | _ => True

instance Call.decidableInScope (w : World) (enabled : Bool)
    (m : Machine InMemoryAuthorizationRepository) : ∀ call, Decidable (Call.InScope w enabled m call)
  | assignRoleToParticipant p role scope _ =>
    inferInstanceAs (Decidable (m.store.AssignInScope p role scope))
  | ensureBuiltinRoleAssignment p role scope _ =>
    inferInstanceAs (Decidable (m.store.AssignInScope p role scope))
  | assignParticipantRole _ _ _ => inferInstanceAs (Decidable ((_ → _ = true) → _))
  | addPermissionGrant g => inferInstanceAs (Decidable (m.store.GrantInScope g))
  | upsertParticipant _ | createParticipant _ _ | grantParticipantPermission _ _ _
  | authorize _ _ _ _ => inferInstanceAs (Decidable True)

/-! ## The invariant -/

/-- Assignments are unlimited, and every grant to a role is covered by each holder. -/
structure RolesCovered (s : InMemoryAuthorizationRepository) : Prop where
  unlimited : ∀ a ∈ s.roleAssignments, a.revokedAt = none ∧ a.expiresAt = none
  covered : ∀ g ∈ s.permissionGrants, s.GrantInScope g

section Steps
variable {w : World} {m m' : Machine InMemoryAuthorizationRepository}

theorem RolesCovered.of_same {s s' : InMemoryAuthorizationRepository} (hs : RolesCovered s)
    (ha : s'.roleAssignments = s.roleAssignments)
    (hg : s'.permissionGrants = s.permissionGrants) : RolesCovered s' := by
  refine ⟨by rw [ha]; exact hs.unlimited, ?_⟩
  intro g hmem hrev a hmem' hrole
  rw [hg] at hmem
  rw [ha] at hmem'
  obtain ⟨b, hb, hrest⟩ := hs.covered g hmem hrev a hmem' hrole
  exact ⟨b, by rw [ha]; exact hb, hrest⟩

/-- What an assignment writes. -/
structure RoleWrite (participantId : String) (role : RoleName) (scope : Scope)
    (s s' : InMemoryAuthorizationRepository) : Prop where
  participants : s'.participants = s.participants
  assignments : ∃ new, s'.roleAssignments = s.roleAssignments ++ new ∧
    ∀ a ∈ new, a.participantId = participantId ∧ a.roleId = (getRoleTemplate role).id ∧
      a.scope = scope ∧ a.revokedAt = none ∧ a.expiresAt = none
  grants : ∃ gs, s'.permissionGrants = s.permissionGrants ++ gs ∧
    ∀ g ∈ gs, (getRoleTemplate role).Granted scope g
  held : ∃ a ∈ s'.roleAssignments, a.participantId = participantId ∧
    a.roleId = (getRoleTemplate role).id ∧ a.scope = scope

theorem Holds.mono {s s' : InMemoryAuthorizationRepository} {participantId : String}
    {permission : PermissionName} {scope : Scope}
    (hsub : ∀ a ∈ s.roleAssignments, a ∈ s'.roleAssignments)
    (h : s.Holds participantId permission scope) : s'.Holds participantId permission scope := by
  obtain ⟨a, ha, hrest⟩ := h
  exact ⟨a, hsub a ha, hrest⟩

theorem RoleWrite.rolesCovered {participantId : String} {role : RoleName} {scope : Scope}
    {s s' : InMemoryAuthorizationRepository} (h : RoleWrite participantId role scope s s')
    (hs : RolesCovered s) (hscope : s.AssignInScope participantId role scope) :
    RolesCovered s' := by
  obtain ⟨new, hassign, hnew⟩ := h.assignments
  obtain ⟨gs, hgrants, hgs⟩ := h.grants
  obtain ⟨own, hown, hownId, hownRole, hownScope⟩ := h.held
  have hsub : ∀ a ∈ s.roleAssignments, a ∈ s'.roleAssignments := by
    intro a ha
    rw [hassign]
    exact List.mem_append_left _ ha
  have hself : ∀ permission ∈ (getRoleTemplate role).permissions, ∀ sc, scope.Covers sc →
      s'.Holds participantId permission sc :=
    fun permission hperm sc hcov =>
      ⟨own, hown, hownId, RoleAssignment.carries_of_role hownRole hperm, hownScope ▸ hcov⟩
  constructor
  · intro a ha
    rw [hassign] at ha
    rcases List.mem_append.mp ha with ha | ha
    · exact hs.unlimited a ha
    · exact (hnew a ha).2.2.2
  · intro g hg hrev a ha hrole
    rw [hgrants] at hg
    rw [hassign] at ha
    rcases List.mem_append.mp hg with hg | hg
    · rcases List.mem_append.mp ha with ha | ha
      · exact (hs.covered g hg hrev a ha hrole).mono hsub
      · obtain ⟨hid, hrid, -, -⟩ := hnew a ha
        rw [hid]
        rcases hscope.2 g hg hrev (hrole.trans (congrArg some hrid)) with ⟨hperm, hcov⟩ | hheld
        · exact hself g.permission hperm g.scope hcov
        · exact hheld.mono hsub
    · obtain ⟨hgrole, hgscope, hgperm, -, -⟩ := hgs g hg
      have harole : a.roleId = (getRoleTemplate role).id :=
        Option.some.inj (hrole.symm.trans hgrole)
      by_cases hid : a.participantId = participantId
      · rw [hid]
        exact hself g.permission hgperm g.scope (.inr hgscope.symm)
      · rw [hgscope]
        rcases List.mem_append.mp ha with ha | ha
        · exact (hscope.1 a ha harole hid g.permission hgperm).mono hsub
        · exact absurd (hnew a ha).1 hid

theorem newRoleAssignment_cases {participantId : String} {role : RoleName} {scope : Scope}
    {assignedBy : Option String} {r : Except PyErr RoleAssignment}
    (h : (newRoleAssignment participantId role scope assignedBy).run w m = (r, m')) :
    Op.SameStore m m' ∧ ∃ a, r = .ok a ∧ a.participantId = participantId ∧
      a.roleId = (getRoleTemplate role).id ∧ a.scope = scope ∧ a.revokedAt = none ∧
      a.expiresAt = none := by
  cases h
  exact ⟨⟨rfl, Nat.le_succ _, Nat.le_succ _⟩, _, rfl, rfl, rfl, rfl, rfl, rfl⟩

def addAssignments (s : InMemoryAuthorizationRepository) (new : List RoleAssignment) :
    InMemoryAuthorizationRepository :=
  { s with roleAssignments := s.roleAssignments ++ new }

def addGrants (s : InMemoryAuthorizationRepository) (gs : List PermissionGrant) :
    InMemoryAuthorizationRepository :=
  { s with permissionGrants := s.permissionGrants ++ gs }

theorem run_addGrants (gs : List PermissionGrant) (w : World)
    (m : Machine InMemoryAuthorizationRepository) :
    (Exec.forEach repository.addPermissionGrant gs).run w m =
      (.ok (), { m with store := m.store.addGrants gs }) := by
  induction gs generalizing m with
  | nil => simp [Exec.forEach, addGrants]
  | cons g gs ih =>
    rw [Exec.forEach, Exec.run_bind_ok (t := { m with store := m.store.addGrants [g] }) rfl, ih]
    simp [addGrants]

theorem run_addMissingGrants (held gs : List PermissionGrant) (w : World)
    (m : Machine InMemoryAuthorizationRepository) :
    (Exec.forEach (fun g => if hasMatchingGrant held g then pure ()
        else repository.addPermissionGrant g) gs).run w m =
      (.ok (), { m with store :=
        m.store.addGrants (gs.filter (fun g => !hasMatchingGrant held g)) }) := by
  induction gs generalizing m with
  | nil => simp [Exec.forEach, addGrants]
  | cons g gs ih =>
    by_cases hg : hasMatchingGrant held g = true
    · rw [Exec.forEach, Exec.run_bind_ok (t := m) (a := ()) (by simp [hg]), ih]
      simp [hg]
    · rw [Exec.forEach, Exec.run_bind_ok (t := { m with store := m.store.addGrants [g] })
        (by rw [if_neg hg]; rfl), ih]
      simp [hg, addGrants]

theorem assignRoleToParticipant_cases {participantId : String} {role : RoleName} {scope : Scope}
    {assignedBy : Option String} {r : Except PyErr RoleAssignment}
    (h : (GhostMesh.assignRoleToParticipant repository participantId role scope assignedBy).run w m
      = (r, m')) : RoleWrite participantId role scope m.store m'.store := by
  rcases Exec.bind_cases h with ⟨e, h1, -⟩ | ⟨a, m1, h1, h⟩
  · obtain ⟨-, _, hr, -⟩ := newRoleAssignment_cases h1
    cases hr
  obtain ⟨hsame1, _, hr, hid, hrole, hscope, hlimits⟩ := newRoleAssignment_cases h1
  cases hr
  rw [Exec.run_bind_ok (t := { m1 with store := m1.store.addAssignments [a] }) rfl] at h
  rcases Exec.bind_cases h with ⟨e, h2, -⟩ | ⟨gs, m2, h2, h⟩
  · obtain ⟨-, _, hr, -⟩ := permissionGrants_cases h2
    cases hr
  obtain ⟨hsame2, _, hr, hgranted, -⟩ := permissionGrants_cases h2
  cases hr
  rw [Exec.run_bind_ok (run_addGrants gs w m2)] at h
  cases h
  have hstore : m2.store = m.store.addAssignments [a] := by rw [hsame2.store, hsame1.store]
  rw [hstore]
  exact {
    participants := rfl
    assignments := ⟨[a], rfl, by simpa using ⟨hid, hrole, hscope, hlimits⟩⟩
    grants := ⟨gs, rfl, hgranted⟩
    held := ⟨a, List.mem_append_right _ List.mem_cons_self, hid, hrole, hscope⟩ }

theorem existingAssignment_cases {t : Instant} {participantId : String} {role : RoleName}
    {scope : Scope} {assignedBy : Option String} {r : Except PyErr RoleAssignment}
    (h : (existingAssignment repository (m.store.heldAt participantId t) participantId role scope
      assignedBy).run w m = (r, m')) :
    ∃ a new, r = .ok a ∧ m'.store = m.store.addAssignments new ∧
      a ∈ m'.store.roleAssignments ∧ a.participantId = participantId ∧
      a.roleId = (getRoleTemplate role).id ∧ a.scope = scope ∧
      ∀ b ∈ new, b = a ∧ b.revokedAt = none ∧ b.expiresAt = none := by
  unfold existingAssignment at h
  split at h
  · rename_i a hfind
    cases h
    have ha := List.find?_some hfind
    have hmem := List.mem_of_find?_eq_some hfind
    simp only [heldAt, List.mem_filter, Bool.and_eq_true, decide_eq_true_eq] at ha hmem
    exact ⟨a, [], rfl, by simp [addAssignments], hmem.1, hmem.2.1, ha.1, ha.2, by simp⟩
  · rcases Exec.bind_cases h with ⟨e, h1, -⟩ | ⟨a, m1, h1, h⟩
    · obtain ⟨-, _, hr, -⟩ := newRoleAssignment_cases h1
      cases hr
    obtain ⟨hsame, _, hr, hid, hrole, hscope, hlimits⟩ := newRoleAssignment_cases h1
    cases hr
    cases h
    refine ⟨a, [a], rfl, by rw [← hsame.store]; rfl, ?_, hid, hrole, hscope, by simpa using hlimits⟩
    exact List.mem_append_right _ List.mem_cons_self

theorem ensureBuiltinRoleAssignment_cases {participantId : String} {role : RoleName}
    {scope : Scope} {assignedBy : Option String} {r : Except PyErr RoleAssignment}
    (h : (GhostMesh.ensureBuiltinRoleAssignment repository participantId role scope
      assignedBy).run w m = (r, m')) : RoleWrite participantId role scope m.store m'.store := by
  rw [GhostMesh.ensureBuiltinRoleAssignment,
    Exec.run_bind_ok (t := { m with ticks := m.ticks + 1 })
      (a := m.store.heldAt participantId (w.clock m.ticks)) rfl] at h
  rcases Exec.bind_cases h with ⟨e, h1, -⟩ | ⟨a, m1, h1, h⟩
  · obtain ⟨_, _, hr, -⟩ := existingAssignment_cases (m := { m with ticks := m.ticks + 1 }) h1
    cases hr
  obtain ⟨_, new, hr, hstore, hmem, hid, hrole, hscope, hnew⟩ :=
    existingAssignment_cases (m := { m with ticks := m.ticks + 1 }) h1
  cases hr
  rw [Exec.run_bind_ok (t := { m1 with ticks := m1.ticks + 1 })
    (a := m1.store.grantsAt participantId (w.clock m1.ticks)) rfl] at h
  rcases Exec.bind_cases h with ⟨e, h2, -⟩ | ⟨gs, m2, h2, h⟩
  · obtain ⟨-, _, hr, -⟩ := permissionGrants_cases h2
    cases hr
  obtain ⟨hsame2, _, hr, hgranted, -⟩ := permissionGrants_cases h2
  cases hr
  rw [Exec.run_bind_ok (run_addMissingGrants _ gs w m2)] at h
  cases h
  have hstore2 : m2.store = m.store.addAssignments new := hsame2.store.trans hstore
  rw [hstore] at hmem
  rw [hstore2]
  refine ⟨rfl, ⟨new, rfl, ?_⟩, ⟨_, rfl, fun g hg => hgranted g (List.mem_filter.mp hg).1⟩,
    ⟨a, hmem, hid, hrole, hscope⟩⟩
  intro b hb
  obtain ⟨rfl, hlimits⟩ := hnew b hb
  exact ⟨hid, hrole, hscope, hlimits⟩

/-- The endpoint is the catalog helper behind the authorization check. -/
theorem assignParticipantRole_eq (enabled : Bool) (participantId : String)
    (body : AssignRoleRequest) (request : Request) :
    Api.assignParticipantRole repository enabled participantId body request =
      (do
        authorizeRequest repository enabled request .permissionGrant body.scope
          [("operation", .str "participants.assign_role"), ("participant_id", .str participantId),
            ("role_name", .str body.roleName.value)] body.assignedBy
        GhostMesh.assignRoleToParticipant repository participantId body.roleName body.scope
          (some (resolvedActor request body.assignedBy))) := rfl

theorem RolesCovered.of_sameRecords (hm : RolesCovered m.store) (h : SameRecords m m') :
    RolesCovered m'.store :=
  hm.of_same h.roleAssignments h.permissionGrants

theorem RolesCovered.addGrant {g : PermissionGrant} (hm : RolesCovered m.store)
    (hg : m.store.GrantInScope g) (h : m'.store = m.store.addGrants [g]) :
    RolesCovered m'.store := by
  rw [h]
  refine ⟨hm.unlimited, ?_⟩
  intro g' hg'
  rcases List.mem_append.mp hg' with hg' | hg'
  · exact hm.covered g' hg'
  · rw [List.mem_singleton.mp hg']
    exact hg

/-- What a permitted step preserves. -/
theorem RolesCovered.step {enabled : Bool} (hm : RolesCovered m.store) (call : Call)
    (hok : call.InScope w enabled m) : RolesCovered (call.step w enabled m).store := by
  cases call with
  | upsertParticipant p => exact hm.of_same rfl rfl
  | assignRoleToParticipant p role scope by_ =>
    exact (assignRoleToParticipant_cases (m := m) (w := w) rfl).rolesCovered hm hok
  | ensureBuiltinRoleAssignment p role scope by_ =>
    exact (ensureBuiltinRoleAssignment_cases (m := m) (w := w) rfl).rolesCovered hm hok
  | createParticipant body request =>
    simp only [Call.step]
    rcases h : (Api.createParticipant repository enabled body request).run w m with ⟨r, m'⟩
    rcases Exec.bind_cases h with ⟨e, h1, -⟩ | ⟨_, m1, h1, h⟩
    · exact hm.of_sameRecords (authorizeRequest_cases h1).1
    · cases h
      exact (hm.of_sameRecords (authorizeRequest_cases h1).1).of_same rfl rfl
  | assignParticipantRole p body request =>
    simp only [Call.step, assignParticipantRole_eq]
    rcases h : Exec.run _ w m with ⟨r, m'⟩
    rcases Exec.bind_cases h with ⟨e, h1, -⟩ | ⟨_, m1, h1, h⟩
    · exact hm.of_sameRecords (authorizeRequest_cases h1).1
    · obtain ⟨hsame, hadmits⟩ := authorizeRequest_cases h1
      have hscope := hok (hadmits.mp rfl)
      refine (assignRoleToParticipant_cases h).rolesCovered (hm.of_sameRecords hsame) ?_
      unfold AssignInScope Holds
      rw [hsame.roleAssignments, hsame.permissionGrants]
      exact hscope
  | grantParticipantPermission p body request =>
    simp only [Call.step]
    rcases h : (Api.grantParticipantPermission repository enabled p body request).run w m with
      ⟨r, m'⟩
    rcases Exec.bind_cases h with ⟨e, h1, -⟩ | ⟨_, m1, h1, h⟩
    · exact hm.of_sameRecords (authorizeRequest_cases h1).1
    · cases h
      refine (hm.of_sameRecords (authorizeRequest_cases h1).1).addGrant ?_ rfl
      intro _ a _ hrole
      cases hrole
  | addPermissionGrant g => exact hm.addGrant hok rfl
  | authorize p permission scope context =>
    exact hm.of_sameRecords (authorize_cases (m := m) (w := w) rfl).1

/-- In a covered state every grant that reaches a participant through a role is
covered, at any instant. -/
theorem RolesCovered.authorityInScope (hm : RolesCovered m.store) : AuthorityInScope w m := by
  intro participantId p hp hactive hdirect permission target context d m' hrun hallowed
  obtain ⟨-, d', hd, hdec⟩ := authorize_cases hrun
  cases hd
  refine (ownAuthority_iff_covered hp hactive).mpr ?_ permission target context
    (hdec.symm.trans hallowed)
  intro g hg
  simp only [grantsAt, List.mem_filter, Bool.and_eq_true, Bool.or_eq_true,
    decide_eq_true_eq] at hg
  obtain ⟨hmem, hgactive, hreach⟩ := hg
  rcases hreach with hdir | hrole
  · rw [hdirect g hmem hdir] at hgactive
    cases hgactive
  · split at hrole
    · rename_i roleId hroleId
      obtain ⟨a, ha, harole⟩ := List.mem_map.mp (List.contains_iff_mem.mp hrole)
      simp only [heldAt, List.mem_filter, Bool.and_eq_true, decide_eq_true_eq] at ha
      have hrev : g.revokedAt = none := by
        have := (Bool.and_eq_true_iff.mp hgactive).1
        simpa using this
      obtain ⟨b, hb, hbid, hcarries, hcovers⟩ :=
        hm.covered g hmem hrev a ha.1 (by rw [hroleId, harole])
      refine ⟨b, ?_, hcarries, hcovers⟩
      obtain ⟨hbrev, hbexp⟩ := hm.unlimited b hb
      simp [heldAt, hb, hbid, ha.2.1, RoleAssignment.isActive, activeAt, hbrev, hbexp]
    · cases hrole

end Steps

/-- In every run whose steps keep role grants within their holders' assignments,
authority stays in scope in every state reached. -/
theorem authority_stays_in_scope (w : World) (enabled : Bool)
    {m : Machine InMemoryAuthorizationRepository}
    (h : Reaches (Call.step w enabled) (Call.InScope w enabled) start m) :
    AuthorityInScope w m := by
  have hcovered : RolesCovered m.store :=
    h.invariant (I := fun m => RolesCovered m.store) ⟨by simp [start, init], by simp [start, init]⟩
      fun m call hm hok => hm.step call hok
  exact hcovered.authorityInScope

def activeWorker (id : String) : Participant :=
  ⟨id, .human, none, .active, none, none, [], 0, none⟩

/-- Two workers, each assigned at the given scope. -/
def twoWorkers (pScope qScope : Scope) : List Call :=
  [.upsertParticipant (activeWorker "p"), .upsertParticipant (activeWorker "q"),
    .assignRoleToParticipant "p" .worker pScope none,
    .assignRoleToParticipant "q" .worker qScope none]

def bucketB : Scope := ⟨.bucket, some "b", rfl⟩

def bucketC : Scope := ⟨.bucket, some "c", rfl⟩

theorem authority_stays_in_scope_same_bucket :
    AuthorityInScope .simple ((twoWorkers bucketB bucketB).foldl (Call.step .simple true) start) := by
  have hpermitted : Permitted (Call.step .simple true) (Call.InScope .simple true) start
      (twoWorkers bucketB bucketB) := by decide +kernel
  exact authority_stays_in_scope .simple true hpermitted.reaches

/-- Worker `p` is assigned at one bucket; assigning `q` globally opens every bucket
to `p`. -/
theorem authority_leaves_scope :
    ¬ ∀ (w : World) (enabled : Bool) (calls : List Call),
      AuthorityInScope w (calls.foldl (Call.step w enabled) start) := by
  intro h
  let m := (twoWorkers bucketB .globalScope).foldl (Call.step .simple true) start
  have hdec : m.store.decides (World.simple.clock m.ticks) "p" .cardClaim bucketC [] = true := by
    decide +kernel
  obtain ⟨p, hp, hactive⟩ := (decides_iff.mp hdec).1
  have hdirect : ∀ g ∈ m.store.permissionGrants, g.participantId = some "p" →
      g.isActive (World.simple.clock m.ticks) = false := by decide +kernel
  rcases hrun : (GhostMesh.authorize repository "p" .cardClaim bucketC []).run .simple m with
    ⟨r, m'⟩
  obtain ⟨-, d, rfl, hallowed⟩ := authorize_cases hrun
  have hown := h .simple true _ "p" p hp hactive hdirect .cardClaim bucketC [] d m' hrun
    (hallowed.trans hdec)
  have hnot : ¬ ∃ a ∈ m.store.heldAt "p" (World.simple.clock m.ticks),
      a.carries .cardClaim = true ∧ scopeMatches a.scope bucketC [] = true := by decide +kernel
  exact hnot hown

end InMemoryAuthorizationRepository

end GhostMesh
