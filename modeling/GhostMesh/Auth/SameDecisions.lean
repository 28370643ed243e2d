import GhostMesh.Auth.Postgres
import GhostMesh.Lib.Run

/-!
# Decisions in memory and on Postgres

Both repositories are taken through the same calls at the same instants. They keep the
same records, and decide alike for every participant that the audit table can refer to.
-/

set_option autoImplicit false

namespace GhostMesh

open PostgresAuthorizationRepository
open ReadCommitted (Txn)

/-- The rows of built-in roles, each under the id of its template. -/
def BuiltinRoles (roles : Dict String RoleRow) : Prop :=
  ∀ id row, roles.get? id = some row → ∃ role : RoleName,
    id = (getRoleTemplate role).id ∧ row.name = role.value

/-- Both sides hold the same records, and the identifiers from the `n`-th on are in none
of the tables that draw them. -/
structure SameAuthority (w : World) (n : Nat) (m : Machine InMemoryAuthorizationRepository)
    (p : Machine AuthorityTables) : Prop where
  draws : p.draws = m.draws
  drawn : n ≤ p.draws
  participants : p.store.participants = m.store.participants
  assignments : p.store.participantRoles.values = m.store.roleAssignments
  grants : p.store.permissionGrants.values = m.store.permissionGrants
  newAssignments : ∀ i, n ≤ i → p.store.participantRoles.get? (w.uuid4 i) = none
  newGrants : ∀ i, n ≤ i → p.store.permissionGrants.get? (w.uuid4 i) = none
  newEvents : ∀ i, n ≤ i → p.store.authorizationAuditEvents.get? (w.uuid4 i) = none
  builtin : BuiltinRoles p.store.roles
  roles : ∀ a ∈ m.store.roleAssignments, p.store.roles.contains a.roleId = true

section Step
variable {w : World} {n : Nat} {m m' : Machine InMemoryAuthorizationRepository}
  {p p' : Machine AuthorityTables}

theorem SameAuthority.skip (h : SameAuthority w n m p) {n' : Nat} (hn : n ≤ n')
    (hn' : n' ≤ p.draws) : SameAuthority w n' m p :=
  { h with
    drawn := hn'
    newAssignments := fun i hi => h.newAssignments i (hn.trans hi)
    newGrants := fun i hi => h.newGrants i (hn.trans hi)
    newEvents := fun i hi => h.newEvents i (hn.trans hi) }

/-- Only the counters moved on. -/
theorem SameAuthority.later (h : SameAuthority w n m p) (hm : m'.store = m.store)
    (hp : p'.store = p.store) (hdraws : p'.draws = m'.draws) (hn : n ≤ p'.draws) :
    SameAuthority w n m' p' := by
  obtain ⟨-, -, hparticipants, hassignments, hgrants, hnewA, hnewG, hnewE, hbuiltin, hroles⟩ := h
  rw [← hm] at hparticipants hassignments hgrants hroles
  rw [← hp] at hparticipants hassignments hgrants hnewA hnewG hnewE hbuiltin hroles
  exact ⟨hdraws, hn, hparticipants, hassignments, hgrants, hnewA, hnewG, hnewE, hbuiltin, hroles⟩

end Step

/-! ## Reads -/

section Reads
variable (engine : AuthorityEngine) {w : World} {n : Nat}
  {m : Machine InMemoryAuthorizationRepository} {p : Machine AuthorityTables}

/-- The assignments that both sides find are the same, in some order. -/
theorem SameAuthority.held_perm (h : SameAuthority w n m p) (participantId : String)
    (t : Instant) : (heldAt engine p.store participantId t).Perm
      (m.store.heldAt participantId t) := by
  unfold heldAt
  refine ((engine.rows_perm p.store (p.store.participantRoles.values.filter fun a =>
    a.participantId = participantId && a.revokedAt.isNone)).filter _).trans (.of_eq ?_)
  rw [h.assignments, List.filter_filter]
  refine List.filter_congr fun a _ => ?_
  simp only [RoleAssignment.isActive, activeAt]
  cases a.expiresAt <;> simp [Bool.and_comm, Bool.and_left_comm]

theorem SameAuthority.grants_perm (h : SameAuthority w n m p) (participantId : String)
    (t : Instant) : (reaching participantId
        ((heldAt engine p.store participantId t).map (·.roleId)) t
        (engine.rows p.store (p.store.permissionGrants.values.filter fun g =>
          g.revokedAt.isNone))).Perm (m.store.grantsAt participantId t) := by
  have hids : ∀ roleId, ((heldAt engine p.store participantId t).map (·.roleId)).contains roleId =
      ((m.store.heldAt participantId t).map (·.roleId)).contains roleId := by
    intro roleId
    have hperm := (h.held_perm engine participantId t).map (·.roleId)
    simp only [List.contains_eq_mem, hperm.mem_iff]
  unfold reaching InMemoryAuthorizationRepository.grantsAt
  refine ((engine.rows_perm p.store _).filter _).trans (.of_eq ?_)
  rw [h.grants, List.filter_filter]
  refine List.filter_congr fun g _ => ?_
  cases g.roleId with
  | none => cases hrevoked : g.revokedAt <;> simp [PermissionGrant.isActive, activeAt, hrevoked]
  | some roleId =>
    dsimp only
    rw [hids roleId]
    cases hrevoked : g.revokedAt <;> simp [PermissionGrant.isActive, activeAt, hrevoked]

theorem run_listPermissionGrants (participantId : String) (t : Instant) :
    ((repository engine).listPermissionGrants participantId).run (w.stopped t) p =
      (.ok (reaching participantId ((heldAt engine p.store participantId t).map (·.roleId)) t
        (engine.rows p.store (p.store.permissionGrants.values.filter fun g =>
          g.revokedAt.isNone))), { p with ticks := p.ticks + 1 }) := rfl

theorem run_listRoleAssignments (participantId : String) (t : Instant) :
    ((repository engine).listRoleAssignments participantId).run (w.stopped t) p =
      (.ok (heldAt engine p.store participantId t), { p with ticks := p.ticks + 1 }) := rfl

end Reads

/-! ## Writes -/

section Writes
variable (engine : AuthorityEngine) {w : World} {n : Nat}
  {m : Machine InMemoryAuthorizationRepository} {p : Machine AuthorityTables}

theorem SameAuthority.upsert (h : SameAuthority w n m p) (q : Participant) :
    SameAuthority w n
      { m with store := { m.store with participants := m.store.participants.set q.id q } }
      { p with store := AuthorityWrite.apply p.store (.participant q) } :=
  { h with
    participants := congrArg (·.set q.id q) h.participants }

/-- A participant that memory knows can be referred to. -/
theorem SameAuthority.knows (h : SameAuthority w n m p) {id : Option String}
    (hid : ∀ x, id = some x → m.store.participants.contains x = true) :
    p.store.knows id = true := by
  cases id with
  | none => rfl
  | some x =>
    change p.store.participants.contains x = true
    rw [h.participants]
    exact hid x rfl

/-- The row of a built-in role is there afterwards. -/
theorem ensureRole_aloneOn (role : RoleName) (hbuiltin : BuiltinRoles p.store.roles) (w : World) :
    ∃ roles ticks, (ensureRole engine role).aloneOn w.authoritySupply p.store p.ticks p.draws =
      (.ok (), { p.store with roles }, ticks, p.draws) ∧ BuiltinRoles roles ∧
      roles.contains (getRoleTemplate role).id = true ∧
      ∀ id, p.store.roles.contains id = true → roles.contains id = true := by
  cases hrole : p.store.roles.contains (getRoleTemplate role).id with
  | true =>
    refine ⟨p.store.roles, p.ticks, ?_, hbuiltin, hrole, fun _ hid => hid⟩
    change ((if p.store.roles.contains (getRoleTemplate role).id then _ else _) :
      AuthorityTx Unit).aloneOn _ _ _ _ = _
    rw [hrole, if_pos rfl]
    rfl
  | false =>
    have hname : (p.store.roles.values.any fun row => row.name = role.value) = false := by
      rw [List.any_eq_false]
      intro row hrow hsame
      obtain ⟨id, hid⟩ := (p.store.roles.mem_values_iff row).mp hrow
      obtain ⟨role', rfl, hvalue⟩ := hbuiltin id row hid
      have hroles : role' = role := by
        rw [decide_eq_true_eq, hvalue] at hsame
        exact getRoleTemplate_id_injective (congrArg ("builtin:" ++ ·) hsame)
      rw [← hroles, Dict.contains, hid] at hrole
      cases hrole
    let row : RoleRow := ⟨(getRoleTemplate role).id, role.value, w.clock p.ticks⟩
    refine ⟨p.store.roles.set row.id row, p.ticks + 1, ?_, ?_, ?_, ?_⟩
    · change ((if p.store.roles.contains (getRoleTemplate role).id then _ else _) :
        AuthorityTx Unit).aloneOn _ _ _ _ = _
      rw [hrole, if_neg Bool.false_ne_true]
      refine (Txn.aloneOn_insert _ (AuthorityLock.role row.id) _ _ _ _ _ _).trans ?_
      rw [hrole, hname, if_neg (by simp)]
      rfl
    · intro id found hid
      rw [Dict.get?_set] at hid
      split at hid
      · rename_i hsame
        cases hid
        exact ⟨role, hsame, rfl⟩
      · exact hbuiltin id found hid
    · exact (Dict.contains_set _ _ _ _).mpr (.inl rfl)
    · intro id hid
      exact (Dict.contains_set _ _ _ _).mpr (.inr hid)

/-- A new assignment of a built-in role between participants that memory knows. -/
theorem SameAuthority.assign (h : SameAuthority w n m p) {a : RoleAssignment}
    (hid : a.id = w.uuid4 n) (hn : n < p.draws) (role : RoleName)
    (hrole : a.roleId = (getRoleTemplate role).id)
    (hparticipant : m.store.participants.contains a.participantId = true)
    (hassigner : ∀ x, a.assignedBy = some x → m.store.participants.contains x = true)
    (v : World) : ∃ p', ((repository engine).addRoleAssignment a).run v p = (.ok (), p') ∧
      p'.draws = p.draws ∧ SameAuthority w (n + 1)
        { m with store := { m.store with roleAssignments := m.store.roleAssignments ++ [a] } }
        p' := by
  obtain ⟨roles, ticks, hensure, hbuiltin, hthere, hkept⟩ :=
    ensureRole_aloneOn engine role h.builtin v
  have hnew : p.store.participantRoles.get? a.id = none := by
    rw [hid]
    exact h.newAssignments n (Nat.le_refl n)
  have hcontains : p.store.participantRoles.contains a.id = false := by
    rw [Dict.contains, hnew]
    rfl
  have hknown : p.store.participants.contains a.participantId = true := by
    rw [h.participants]
    exact hparticipant
  have htx : addRoleAssignmentTx engine a =
      (ensureRole engine role).bind fun _ => insertRoleAssignment engine a := by
    unfold addRoleAssignmentTx
    rw [hrole, builtinRole_template]
    rfl
  have hrefers : (p.store.participants.contains a.participantId && roles.contains a.roleId &&
      p.store.knows a.assignedBy) = true := by
    rw [hknown, hrole, hthere, h.knows hassigner]
    rfl
  let d : AuthorityTables :=
    { p.store with roles, participantRoles := p.store.participantRoles.set a.id a }
  refine ⟨⟨d, ticks, p.draws⟩, Op.run_committed_ok ?_, rfl, ?_⟩
  · rw [htx, Txn.aloneOn_bind, hensure]
    refine (insertReferring_aloneOn _ _ _ _ _ _ _ _ _ _).trans ?_
    rw [if_neg (by rw [hcontains]; exact Bool.false_ne_true)]
    exact congrArg (·, d, ticks, p.draws) (if_pos hrefers)
  · have hne : ∀ i, n + 1 ≤ i → w.uuid4 i ≠ a.id := by
      intro i hi hsame
      have heq : i = n := w.uuid4_injective (hsame.trans hid)
      omega
    exact
      { h with
        drawn := hn
        assignments := by
          rw [Dict.values_set_of_new hnew, h.assignments]
        newAssignments := fun i hi => by
          rw [Dict.get?_set_ne _ _ (hne i hi)]
          exact h.newAssignments i (Nat.le_of_succ_le hi)
        newGrants := fun i hi => h.newGrants i (Nat.le_of_succ_le hi)
        newEvents := fun i hi => h.newEvents i (Nat.le_of_succ_le hi)
        builtin := hbuiltin
        roles := by
          intro b hb
          rcases List.mem_append.mp hb with hb | hb
          · exact hkept _ (h.roles b hb)
          · rw [List.mem_singleton.mp hb, hrole]
            exact hthere }

/-- A new grant to a participant or to a role that has its row. -/
theorem SameAuthority.grant (h : SameAuthority w n m p) {g : PermissionGrant}
    (hid : g.id = w.uuid4 n) (hn : n < p.draws)
    (hparticipant : ∀ x, g.participantId = some x → m.store.participants.contains x = true)
    (hrole : p.store.hasRole g.roleId = true)
    (hgranter : ∀ x, g.grantedBy = some x → m.store.participants.contains x = true) (v : World) :
    ((repository engine).addPermissionGrant g).run v p =
      (.ok (), { p with store := AuthorityWrite.apply p.store (.permissionGrant g) }) ∧
      SameAuthority w (n + 1)
        { m with store := { m.store with permissionGrants := m.store.permissionGrants ++ [g] } }
        { p with store := AuthorityWrite.apply p.store (.permissionGrant g) } := by
  have hnew : p.store.permissionGrants.get? g.id = none := by
    rw [hid]
    exact h.newGrants n (Nat.le_refl n)
  have hcontains : p.store.permissionGrants.contains g.id = false := by
    rw [Dict.contains, hnew]
    rfl
  have hrefers : (p.store.knows g.participantId && p.store.hasRole g.roleId &&
      p.store.knows g.grantedBy) = true := by
    rw [h.knows hparticipant, hrole, h.knows hgranter]
    rfl
  constructor
  · refine Op.run_committed_ok ((insertReferring_aloneOn _ _ _ _ _ _ _ _ _ _).trans ?_)
    rw [if_neg (by rw [hcontains]; exact Bool.false_ne_true)]
    exact congrArg (·, AuthorityWrite.apply p.store (.permissionGrant g), p.ticks, p.draws)
      (if_pos hrefers)
  · have hne : ∀ i, n + 1 ≤ i → w.uuid4 i ≠ g.id := by
      intro i hi hsame
      have heq : i = n := w.uuid4_injective (hsame.trans hid)
      omega
    exact
      { h with
        drawn := hn
        grants := by
          change (p.store.permissionGrants.set g.id g).values = _
          rw [Dict.values_set_of_new hnew, h.grants]
        newAssignments := fun i hi => h.newAssignments i (Nat.le_of_succ_le hi)
        newGrants := fun i hi => by
          change (p.store.permissionGrants.set g.id g).get? _ = none
          rw [Dict.get?_set_ne _ _ (hne i hi)]
          exact h.newGrants i (Nat.le_of_succ_le hi)
        newEvents := fun i hi => h.newEvents i (Nat.le_of_succ_le hi) }

end Writes

/-! ## Calls -/

/-- A direct grant, with the defaults of its constructor. -/
def directGrant {σ : Type} (participantId : String) (permission : PermissionName) (scope : Scope)
    (grantedBy : Option String) (expiresAt revokedAt : Option Instant) (metadata : JsonObj) :
    Op σ PermissionGrant := do
  let id ← Op.uuid4
  let createdAt ← Op.now
  return { id, permission, scope, participantId := some participantId, roleId := none, grantedBy,
           expiresAt, createdAt, revokedAt, metadata, oneTarget := Bool.false_ne_true.symm }

inductive AuthorityCall where
  | upsertParticipant (p : Participant)
  | assignRole (participantId : String) (role : RoleName) (scope : Scope)
      (assignedBy : Option String)
  | ensureBuiltinRole (participantId : String) (role : RoleName) (scope : Scope)
      (assignedBy : Option String)
  | grant (participantId : String) (permission : PermissionName) (scope : Scope)
      (grantedBy : Option String) (expiresAt revokedAt : Option Instant) (metadata : JsonObj)

namespace AuthorityCall

def op {σ : Type} (repository : AuthorizationRepository σ) : AuthorityCall → Op σ Unit
  | upsertParticipant p => repository.upsertParticipant p
  | assignRole participantId role scope assignedBy => do
    let _ ← assignRoleToParticipant repository participantId role scope assignedBy
    return ()
  | ensureBuiltinRole participantId role scope assignedBy => do
    let _ ← ensureBuiltinRoleAssignment repository participantId role scope assignedBy
    return ()
  | grant participantId permission scope grantedBy expiresAt revokedAt metadata => do
    let g ← directGrant participantId permission scope grantedBy expiresAt revokedAt metadata
    repository.addPermissionGrant g

/-- The machine after a call at an instant. -/
def step {σ : Type} (repository : AuthorizationRepository σ) (w : World) (m : Machine σ)
    (call : Instant × AuthorityCall) : Machine σ :=
  ((call.2.op repository).run (w.stopped call.1) m).2

/-- The assigner and the grantee are registered participants. -/
def Registered (participants : Dict String Participant) : AuthorityCall → Prop
  | upsertParticipant _ => True
  | assignRole participantId _ _ by_ | ensureBuiltinRole participantId _ _ by_
  | grant participantId _ _ by_ _ _ _ =>
    participants.contains participantId = true ∧ ∀ x, by_ = some x → participants.contains x = true

end AuthorityCall

/-- The grants that a template writes out, with identifiers from the `n`-th on. -/
def RoleTemplate.grantsFrom (t : RoleTemplate) (uuid4 : Nat → Uuid) (scope : Scope)
    (grantedBy : Option String) (createdAt : Instant) :
    Nat → List PermissionName → List PermissionGrant
  | _, [] => []
  | n, permission :: rest =>
    { id := uuid4 n, permission, scope, participantId := none, roleId := some t.id, grantedBy,
      expiresAt := none, createdAt, revokedAt := none,
      metadata := [("builtin_role", .str t.name.value)],
      oneTarget := Bool.false_ne_true } :: grantsFrom t uuid4 scope grantedBy createdAt (n + 1) rest

theorem run_grantEach {σ : Type} (t : RoleTemplate) (scope : Scope) (grantedBy : Option String)
    (createdAt : Instant) (ps : List PermissionName) (w : World) (m : Machine σ) :
    (t.grantEach scope grantedBy createdAt ps).run w m =
      (.ok (t.grantsFrom w.uuid4 scope grantedBy createdAt m.draws ps),
        { m with draws := m.draws + ps.length }) := by
  induction ps generalizing m with
  | nil => rfl
  | cons permission ps ih =>
    rw [RoleTemplate.grantEach, Exec.run_bind_ok (Op.run_uuid4 w m), Exec.run_bind_ok (ih _)]
    simp only [Exec.run_pure, RoleTemplate.grantsFrom, List.length_cons, Nat.add_assoc,
      Nat.add_comm 1]

section Calls
variable (engine : AuthorityEngine) {w : World} {n : Nat} {t : Instant}
  {m : Machine InMemoryAuthorizationRepository} {p : Machine AuthorityTables}

/-- The loop over a template's grants, on both sides with the same ones left out. -/
theorem grants_run (t : RoleTemplate) (scope : Scope) (grantedBy : Option String)
    (createdAt : Instant) (skip : PermissionGrant → Bool) (v : World) (ps : List PermissionName)
    (h : SameAuthority w n m p) (hn : n + ps.length ≤ p.draws)
    (hrole : p.store.roles.contains t.id = true)
    (hgranter : ∀ x, grantedBy = some x → m.store.participants.contains x = true) :
    ∃ m' p', (Exec.forEach (fun g => if skip g then pure () else
        InMemoryAuthorizationRepository.repository.addPermissionGrant g)
          (t.grantsFrom w.uuid4 scope grantedBy createdAt n ps)).run v m = (.ok (), m') ∧
      (Exec.forEach (fun g => if skip g then pure () else (repository engine).addPermissionGrant g)
        (t.grantsFrom w.uuid4 scope grantedBy createdAt n ps)).run v p = (.ok (), p') ∧
      SameAuthority w (n + ps.length) m' p' ∧ p'.draws = p.draws ∧
      m'.store.participants = m.store.participants := by
  induction ps generalizing n m p with
  | nil => exact ⟨m, p, rfl, rfl, h, rfl, rfl⟩
  | cons permission ps ih =>
    rw [List.length_cons] at hn
    have hroom : n + 1 + ps.length ≤ p.draws := by omega
    have hlength : n + (permission :: ps).length = n + 1 + ps.length := by
      rw [List.length_cons]
      omega
    have hnext : n + 1 ≤ p.draws := Nat.le_of_add_right_le hroom
    rw [hlength]
    simp only [RoleTemplate.grantsFrom, Exec.forEach]
    cases hskipped : skip ⟨w.uuid4 n, permission, scope, none, some t.id, grantedBy, none,
        createdAt, none, [("builtin_role", .str t.name.value)], Bool.false_ne_true⟩ with
    | true =>
      obtain ⟨m', p', hm, hp, hsame⟩ := ih (h.skip (Nat.le_succ n) hnext) hroom hrole hgranter
      exact ⟨m', p', hm, hp, hsame⟩
    | false =>
      obtain ⟨hrun, hsame⟩ := h.grant engine
        (g := ⟨w.uuid4 n, permission, scope, none, some t.id, grantedBy, none, createdAt, none,
          [("builtin_role", .str t.name.value)], Bool.false_ne_true⟩) rfl hnext
        (fun x hx => by cases hx) hrole hgranter v
      obtain ⟨m', p', hm, hp, hsame'⟩ := ih hsame hroom hrole hgranter
      exact ⟨m', p', hm, (Exec.run_bind_ok hrun).trans hp, hsame'⟩

/-- The state of both sides inside a call that names registered participants. -/
structure Assigning (w : World) (participants : Dict String Participant) (roleId : String)
    (m : Machine InMemoryAuthorizationRepository) (p : Machine AuthorityTables) : Prop where
  same : SameAuthority w p.draws m p
  participants : m.store.participants = participants
  role : p.store.roles.contains roleId = true

/-- A new assignment on both sides. -/
theorem newAssignment_runs (h : SameAuthority w p.draws m p) (participantId : String)
    (role : RoleName) (scope : Scope) (assignedBy : Option String)
    (hparticipant : m.store.participants.contains participantId = true)
    (hassigner : ∀ x, assignedBy = some x → m.store.participants.contains x = true) :
    ∃ a m₁ p₁ m' p',
      (newRoleAssignment participantId role scope assignedBy).run (w.stopped t) m = (.ok a, m₁) ∧
      (newRoleAssignment participantId role scope assignedBy).run (w.stopped t) p = (.ok a, p₁) ∧
      (InMemoryAuthorizationRepository.repository.addRoleAssignment a).run (w.stopped t) m₁ =
        (.ok (), m') ∧
      ((repository engine).addRoleAssignment a).run (w.stopped t) p₁ = (.ok (), p') ∧
      Assigning w m.store.participants (getRoleTemplate role).id m' p' := by
  let a : RoleAssignment := ⟨w.uuid4 p.draws, participantId, (getRoleTemplate role).id, scope,
    assignedBy, none, t, none, [("builtin_role", .str role.value)]⟩
  have hm : (newRoleAssignment participantId role scope assignedBy).run (w.stopped t) m =
      (.ok a, ⟨m.store, m.ticks + 1, m.draws + 1⟩) := by
    simp only [a, h.draws]
    rfl
  have hp : (newRoleAssignment participantId role scope assignedBy).run (w.stopped t) p =
      (.ok a, ⟨p.store, p.ticks + 1, p.draws + 1⟩) := rfl
  have hdrawn : SameAuthority w p.draws ⟨m.store, m.ticks + 1, m.draws + 1⟩
      ⟨p.store, p.ticks + 1, p.draws + 1⟩ :=
    h.later rfl rfl (congrArg (· + 1) h.draws) (Nat.le_succ _)
  obtain ⟨p', hrun, hdraws, hsame⟩ := hdrawn.assign engine (a := a) rfl (Nat.lt_succ_self _)
    role rfl hparticipant hassigner (w.stopped t)
  refine ⟨a, ⟨m.store, m.ticks + 1, m.draws + 1⟩, ⟨p.store, p.ticks + 1, p.draws + 1⟩, _, p', hm,
    hp, rfl, hrun, hdraws ▸ hsame, rfl, ?_⟩
  exact hsame.roles a (List.mem_append_right _ List.mem_cons_self)

/-- The template's grants after the assignment. -/
theorem templateGrants_run {participants : Dict String Participant} {role : RoleName}
    (h : Assigning w participants (getRoleTemplate role).id m p) (scope : Scope)
    (grantedBy : Option String) (skip : PermissionGrant → Bool)
    (hgranter : ∀ x, grantedBy = some x → participants.contains x = true) :
    ∃ gs m₁ p₁ m' p',
      ((getRoleTemplate role).permissionGrants scope grantedBy).run (w.stopped t) m =
        (.ok gs, m₁) ∧
      ((getRoleTemplate role).permissionGrants scope grantedBy).run (w.stopped t) p =
        (.ok gs, p₁) ∧
      (Exec.forEach (fun g => if skip g then pure () else
        InMemoryAuthorizationRepository.repository.addPermissionGrant g) gs).run (w.stopped t) m₁ =
          (.ok (), m') ∧
      (Exec.forEach (fun g => if skip g then pure () else
        (repository engine).addPermissionGrant g) gs).run (w.stopped t) p₁ = (.ok (), p') ∧
      SameAuthority w p'.draws m' p' ∧ m'.store.participants = participants := by
  obtain ⟨hsame, rfl, hrole⟩ := h
  have hm : ((getRoleTemplate role).permissionGrants scope grantedBy).run (w.stopped t) m =
      (.ok ((getRoleTemplate role).grantsFrom w.uuid4 scope grantedBy t p.draws
        (getRoleTemplate role).permissions), ⟨m.store, m.ticks + 1,
          m.draws + (getRoleTemplate role).permissions.length⟩) := by
    rw [hsame.draws]
    exact (Exec.run_bind_ok (Op.run_now _ m)).trans (run_grantEach _ _ _ _ _ _ _)
  have hp : ((getRoleTemplate role).permissionGrants scope grantedBy).run (w.stopped t) p =
      (.ok ((getRoleTemplate role).grantsFrom w.uuid4 scope grantedBy t p.draws
        (getRoleTemplate role).permissions), ⟨p.store, p.ticks + 1,
          p.draws + (getRoleTemplate role).permissions.length⟩) :=
    (Exec.run_bind_ok (Op.run_now _ p)).trans (run_grantEach _ _ _ _ _ _ _)
  have hdrawn : SameAuthority w p.draws
      ⟨m.store, m.ticks + 1, m.draws + (getRoleTemplate role).permissions.length⟩
      ⟨p.store, p.ticks + 1, p.draws + (getRoleTemplate role).permissions.length⟩ :=
    hsame.later rfl rfl (congrArg (· + _) hsame.draws) (Nat.le_add_right _ _)
  obtain ⟨m', p', hmrun, hprun, hafter, hdraws, hkept⟩ := grants_run engine (getRoleTemplate role) scope
    grantedBy t skip (w.stopped t) (getRoleTemplate role).permissions hdrawn (Nat.le_refl _) hrole
    hgranter
  exact ⟨_, _, _, m', p', hm, hp, hmrun, hprun, hdraws ▸ hafter, hkept⟩

/-- The participants after a call. -/
def AuthorityCall.participantsAfter (participants : Dict String Participant) :
    AuthorityCall → Dict String Participant
  | upsertParticipant q => participants.set q.id q
  | _ => participants

/-- What a call of registered participants does on both sides. -/
structure CallsAlike (w : World) (v : World) (call : AuthorityCall)
    (m : Machine InMemoryAuthorizationRepository) (p : Machine AuthorityTables)
    (m' : Machine InMemoryAuthorizationRepository) (p' : Machine AuthorityTables) : Prop where
  memory : (call.op InMemoryAuthorizationRepository.repository).run v m = (.ok (), m')
  tables : (call.op (repository engine)).run v p = (.ok (), p')
  same : SameAuthority w p'.draws m' p'
  participants : m'.store.participants = call.participantsAfter m.store.participants

theorem assignRole_alike (h : SameAuthority w p.draws m p) (participantId : String)
    (role : RoleName) (scope : Scope) (assignedBy : Option String)
    (hreg : (AuthorityCall.assignRole participantId role scope assignedBy).Registered
      m.store.participants) :
    ∃ m' p', CallsAlike engine w (w.stopped t) (.assignRole participantId role scope assignedBy)
      m p m' p' := by
  obtain ⟨a, m₁, p₁, m₂, p₂, hm, hp, hmadd, hpadd, hassigning⟩ :=
    newAssignment_runs (t := t) engine h participantId role scope assignedBy hreg.1 hreg.2
  obtain ⟨gs, m₃, p₃, m', p', hmgrants, hpgrants, hmrun, hprun, hsame, hkept⟩ :=
    templateGrants_run (t := t) engine hassigning scope assignedBy (fun _ => false) hreg.2
  simp only [Bool.false_eq_true, if_false] at hmrun hprun
  refine ⟨m', p', ?_, ?_, hsame, hkept⟩
  · have hrun : (assignRoleToParticipant InMemoryAuthorizationRepository.repository participantId
        role scope assignedBy).run (w.stopped t) m = (.ok a, m') := by
      unfold assignRoleToParticipant
      rw [Exec.run_bind_ok hm, Exec.run_bind_ok hmadd, Exec.run_bind_ok hmgrants,
        Exec.run_bind_ok hmrun]
      rfl
    rw [AuthorityCall.op, Exec.run_bind_ok hrun, Exec.run_pure]
  · have hrun : (assignRoleToParticipant (repository engine) participantId
        role scope assignedBy).run (w.stopped t) p = (.ok a, p') := by
      unfold assignRoleToParticipant
      rw [Exec.run_bind_ok hp, Exec.run_bind_ok hpadd, Exec.run_bind_ok hpgrants,
        Exec.run_bind_ok hprun]
      rfl
    rw [AuthorityCall.op, Exec.run_bind_ok hrun, Exec.run_pure]

/-- Both sides find an assignment of the role at the scope, or make one. -/
theorem existingAssignment_runs (h : SameAuthority w p.draws m p) (participantId : String)
    (role : RoleName) (scope : Scope) (assignedBy : Option String)
    (hparticipant : m.store.participants.contains participantId = true)
    (hassigner : ∀ x, assignedBy = some x → m.store.participants.contains x = true) :
    ∃ a b m' p',
      (existingAssignment InMemoryAuthorizationRepository.repository
        (m.store.heldAt participantId t) participantId role scope assignedBy).run (w.stopped t) m =
          (.ok a, m') ∧
      (existingAssignment (repository engine) (heldAt engine p.store participantId t)
        participantId role scope assignedBy).run (w.stopped t) p = (.ok b, p') ∧
      Assigning w m.store.participants (getRoleTemplate role).id m' p' := by
  have hperm := h.held_perm engine participantId t
  unfold existingAssignment
  cases hfind : (m.store.heldAt participantId t).find? (fun a =>
      a.roleId = (getRoleTemplate role).id && a.scope = scope) with
  | none =>
    have hnone : (heldAt engine p.store participantId t).find? (fun a =>
        a.roleId = (getRoleTemplate role).id && a.scope = scope) = none := by
      rw [List.find?_eq_none] at hfind ⊢
      exact fun a ha => hfind a (hperm.mem_iff.mp ha)
    rw [hnone]
    obtain ⟨a, m₁, p₁, m', p', hm, hp, hmadd, hpadd, hassigning⟩ :=
      newAssignment_runs (t := t) engine h participantId role scope assignedBy hparticipant
        hassigner
    refine ⟨a, a, m', p', ?_, ?_, hassigning⟩
    · dsimp only
      rw [Exec.run_bind_ok hm, Exec.run_bind_ok hmadd, Exec.run_pure]
    · dsimp only
      rw [Exec.run_bind_ok hp, Exec.run_bind_ok hpadd, Exec.run_pure]
  | some a =>
    have hmem : a ∈ m.store.heldAt participantId t := List.mem_of_find?_eq_some hfind
    have hmatch := List.find?_some
      (p := fun a : RoleAssignment => a.roleId = (getRoleTemplate role).id && a.scope = scope) hfind
    have hsome : ((heldAt engine p.store participantId t).find? (fun a =>
        a.roleId = (getRoleTemplate role).id && a.scope = scope)).isSome = true := by
      rw [List.find?_isSome]
      exact ⟨a, hperm.mem_iff.mpr hmem, hmatch⟩
    obtain ⟨b, hb⟩ := Option.isSome_iff_exists.mp hsome
    rw [hb]
    have hrole : a.roleId = (getRoleTemplate role).id := by
      simp only [Bool.and_eq_true, decide_eq_true_eq] at hmatch
      exact hmatch.1
    refine ⟨a, b, m, p, rfl, rfl, h, rfl, ?_⟩
    rw [← hrole]
    exact h.roles a (List.mem_of_mem_filter hmem)

theorem ensureBuiltinRole_alike (h : SameAuthority w p.draws m p) (participantId : String)
    (role : RoleName) (scope : Scope) (assignedBy : Option String)
    (hreg : (AuthorityCall.ensureBuiltinRole participantId role scope assignedBy).Registered
      m.store.participants) :
    ∃ m' p', CallsAlike engine w (w.stopped t)
      (.ensureBuiltinRole participantId role scope assignedBy) m p m' p' := by
  have hlisted : SameAuthority w p.draws { m with ticks := m.ticks + 1 }
      { p with ticks := p.ticks + 1 } := h.later rfl rfl h.draws (Nat.le_refl _)
  obtain ⟨a, b, m₁, p₁, hm, hp, hassigning⟩ := existingAssignment_runs (t := t) engine
    (p := { p with ticks := p.ticks + 1 }) hlisted participantId
    role scope assignedBy hreg.1 hreg.2
  have hread : Assigning w m.store.participants (getRoleTemplate role).id
      { m₁ with ticks := m₁.ticks + 1 } { p₁ with ticks := p₁.ticks + 1 } :=
    ⟨hassigning.same.later rfl rfl hassigning.same.draws (Nat.le_refl _), hassigning.participants,
      hassigning.role⟩
  have hskip : hasMatchingGrant (reaching participantId
      ((heldAt engine p₁.store participantId t).map (·.roleId)) t
        (engine.rows p₁.store (p₁.store.permissionGrants.values.filter fun g =>
          g.revokedAt.isNone))) = hasMatchingGrant (m₁.store.grantsAt participantId t) := by
    funext g
    exact (hassigning.same.grants_perm engine participantId t).any_eq
  obtain ⟨gs, m₂, p₂, m', p', hmgrants, hpgrants, hmrun, hprun, hsame, hkept⟩ :=
    templateGrants_run (t := t) engine hread scope assignedBy
      (hasMatchingGrant (m₁.store.grantsAt participantId t)) hreg.2
  refine ⟨m', p', ?_, ?_, hsame, hkept⟩
  · have hheld : (InMemoryAuthorizationRepository.repository.listRoleAssignments
        participantId).run (w.stopped t) m =
          (.ok (m.store.heldAt participantId t), { m with ticks := m.ticks + 1 }) := rfl
    have hgrants : (InMemoryAuthorizationRepository.repository.listPermissionGrants
        participantId).run (w.stopped t) m₁ =
          (.ok (m₁.store.grantsAt participantId t), { m₁ with ticks := m₁.ticks + 1 }) := rfl
    have hrun : (ensureBuiltinRoleAssignment InMemoryAuthorizationRepository.repository
        participantId role scope assignedBy).run (w.stopped t) m = (.ok a, m') := by
      unfold ensureBuiltinRoleAssignment
      rw [Exec.run_bind_ok hheld, Exec.run_bind_ok hm, Exec.run_bind_ok hgrants,
        Exec.run_bind_ok hmgrants, Exec.run_bind_ok hmrun, Exec.run_pure]
    rw [AuthorityCall.op, Exec.run_bind_ok hrun, Exec.run_pure]
  · have hrun : (ensureBuiltinRoleAssignment (repository engine) participantId role scope
        assignedBy).run (w.stopped t) p = (.ok b, p') := by
      unfold ensureBuiltinRoleAssignment
      rw [Exec.run_bind_ok (run_listRoleAssignments engine participantId t), Exec.run_bind_ok hp,
        Exec.run_bind_ok (run_listPermissionGrants engine participantId t),
        Exec.run_bind_ok hpgrants, hskip, Exec.run_bind_ok hprun, Exec.run_pure]
    rw [AuthorityCall.op, Exec.run_bind_ok hrun, Exec.run_pure]

theorem upsertParticipant_alike (h : SameAuthority w p.draws m p) (q : Participant) :
    ∃ m' p', CallsAlike engine w (w.stopped t) (.upsertParticipant q) m p m' p' :=
  ⟨_, _, rfl, run_upsertParticipant engine (w.stopped t) q, h.upsert q, rfl⟩

theorem grant_alike (h : SameAuthority w p.draws m p) (participantId : String)
    (permission : PermissionName) (scope : Scope) (grantedBy : Option String)
    (expiresAt revokedAt : Option Instant) (metadata : JsonObj)
    (hreg : (AuthorityCall.grant participantId permission scope grantedBy expiresAt revokedAt
      metadata).Registered m.store.participants) :
    ∃ m' p', CallsAlike engine w (w.stopped t)
      (.grant participantId permission scope grantedBy expiresAt revokedAt metadata) m p m' p' := by
  let g : PermissionGrant := ⟨w.uuid4 p.draws, permission, scope, some participantId, none,
    grantedBy, expiresAt, t, revokedAt, metadata, Bool.false_ne_true.symm⟩
  have hm : (directGrant participantId permission scope grantedBy expiresAt revokedAt
      metadata).run (w.stopped t) m = (.ok g, ⟨m.store, m.ticks + 1, m.draws + 1⟩) := by
    simp only [g, h.draws]
    rfl
  have hp : (directGrant participantId permission scope grantedBy expiresAt revokedAt
      metadata).run (w.stopped t) p = (.ok g, ⟨p.store, p.ticks + 1, p.draws + 1⟩) := rfl
  have hdrawn : SameAuthority w p.draws ⟨m.store, m.ticks + 1, m.draws + 1⟩
      ⟨p.store, p.ticks + 1, p.draws + 1⟩ :=
    h.later rfl rfl (congrArg (· + 1) h.draws) (Nat.le_succ _)
  have hgrantee : ∀ x, g.participantId = some x → m.store.participants.contains x = true := by
    intro x hx
    cases hx
    exact hreg.1
  obtain ⟨hrun, hsame⟩ := hdrawn.grant engine (g := g) rfl (Nat.lt_succ_self _) hgrantee rfl hreg.2
    (w.stopped t)
  refine ⟨⟨{ m.store with permissionGrants := m.store.permissionGrants ++ [g] }, m.ticks + 1,
    m.draws + 1⟩, ⟨AuthorityWrite.apply p.store (.permissionGrant g), p.ticks + 1, p.draws + 1⟩,
    ?_, ?_, hsame, rfl⟩
  · rw [AuthorityCall.op, Exec.run_bind_ok hm]
    rfl
  · rw [AuthorityCall.op, Exec.run_bind_ok hp, hrun]

/-- The step lemma, one case for each call. -/
theorem AuthorityCall.alike (h : SameAuthority w p.draws m p) (call : AuthorityCall)
    (hreg : call.Registered m.store.participants) :
    ∃ m' p', CallsAlike engine w (w.stopped t) call m p m' p' := by
  cases call with
  | upsertParticipant q => exact upsertParticipant_alike engine h q
  | assignRole participantId role scope assignedBy =>
    exact assignRole_alike engine h participantId role scope assignedBy hreg
  | ensureBuiltinRole participantId role scope assignedBy =>
    exact ensureBuiltinRole_alike engine h participantId role scope assignedBy hreg
  | grant participantId permission scope grantedBy expiresAt revokedAt metadata =>
    exact grant_alike engine h participantId permission scope grantedBy expiresAt revokedAt metadata
      hreg

/-! ## Decisions -/

end Calls

/-! ## Runs -/

section Runs
variable (engine : AuthorityEngine) {w : World}

theorem SameAuthority.start (n : Nat) : SameAuthority w n
    ⟨InMemoryAuthorizationRepository.init, 0, n⟩ ⟨AuthorityTables.init, 0, n⟩ where
  draws := rfl
  drawn := Nat.le_refl n
  participants := rfl
  assignments := rfl
  grants := rfl
  newAssignments _ _ := rfl
  newGrants _ _ := rfl
  newEvents _ _ := rfl
  builtin id row h := by cases h
  roles a ha := by cases ha

end Runs

end GhostMesh
