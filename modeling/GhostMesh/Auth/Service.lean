import GhostMesh.Auth.Repository
import GhostMesh.Auth.Scopes

/-!
# Authorization decisions

Every decision is audited. `decides` is the decision alone, as a function of the
stored records and the instant at which grants are looked up.
-/

set_option autoImplicit false

namespace GhostMesh

section Service
variable {σ : Type}

def newDecision (participantId : String) (permission : PermissionName) (scope : Scope)
    (allowed : Bool) (reason : String) (matchedGrantIds : List Uuid) (metadata : JsonObj) :
    Op σ AuthorizationDecision := do
  let id ← Op.uuid4
  let evaluatedAt ← Op.now
  return { id, participantId, permission, scope, allowed, reason, evaluatedAt, matchedGrantIds,
           metadata }

def AuthorizationAuditEvent.fromDecision (d : AuthorizationDecision) :
    Op σ AuthorizationAuditEvent := do
  let id ← Op.uuid4
  let createdAt ← Op.now
  return { id, action := d.auditAction, participantId := some d.participantId,
           permission := some d.permission, scope := some d.scope, allowed := some d.allowed,
           reason := some d.reason, requestRef := none, targetRef := none,
           metadata := d.metadata, createdAt }

/-- `_record`. -/
def recordDecision (repository : AuthorizationRepository σ) (d : AuthorizationDecision) :
    Op σ AuthorizationDecision := do
  let event ← AuthorizationAuditEvent.fromDecision d
  repository.recordAuditEvent event
  return d

def matchedGrants (grants : List PermissionGrant) (permission : PermissionName) (scope : Scope)
    (context : JsonObj) : List PermissionGrant :=
  grants.filter fun g => g.permission = permission && scopeMatches g.scope scope context

/-- `AuthorizationService.authorize`; an absent context is the empty one. -/
def authorize (repository : AuthorizationRepository σ) (participantId : String)
    (permission : PermissionName) (scope : Scope) (context : JsonObj) :
    Op σ AuthorizationDecision := do
  match ← repository.getParticipant participantId with
  | none => do
    let d ← newDecision participantId permission scope false "participant not found" [] context
    recordDecision repository d
  | some participant =>
    if participant.status ≠ .active then do
      let d ← newDecision participantId permission scope false
        s!"participant is {participant.status.value}" [] context
      recordDecision repository d
    else do
      let grants ← repository.listPermissionGrants participantId
      let matched := matchedGrants grants permission scope context
      if matched ≠ [] then do
        let d ← newDecision participantId permission scope true
          "matched explicit permission grant" (matched.map (·.id)) context
        recordDecision repository d
      else do
        let d ← newDecision participantId permission scope false
          "no matching permission grant" [] context
        recordDecision repository d

/-- `AuthorizationService.record_event`. -/
def recordAudit (repository : AuthorizationRepository σ) (action : AuditAction)
    (participantId : Option String) (permission : Option PermissionName) (scope : Option Scope)
    (allowed : Option Bool) (reason requestRef targetRef : Option String) (metadata : JsonObj) :
    Op σ Unit := do
  let id ← Op.uuid4
  let createdAt ← Op.now
  repository.recordAuditEvent
    { id, action, participantId, permission, scope, allowed, reason, requestRef, targetRef,
      metadata, createdAt }

end Service

/-! ## Decisions on a component -/

section Lift
variable {σ τ : Type} (c : Component τ σ) (repository : AuthorizationRepository σ)

theorem on_newDecision (participantId : String) (permission : PermissionName) (scope : Scope)
    (allowed : Bool) (reason : String) (matchedGrantIds : List Uuid) (metadata : JsonObj) :
    (newDecision participantId permission scope allowed reason matchedGrantIds metadata : Op τ _) =
      Op.on c (newDecision participantId permission scope allowed reason matchedGrantIds
        metadata) := by
  simp only [newDecision, Op.on_bind, Op.on_uuid4, Op.on_now, Op.on_pure]

theorem on_recordDecision (d : AuthorizationDecision) :
    recordDecision (repository.on c) d = Op.on c (recordDecision repository d) := by
  simp only [recordDecision, AuthorizationAuditEvent.fromDecision, AuthorizationRepository.on,
    Op.on_bind, Op.on_uuid4, Op.on_now, Op.on_pure]

theorem on_authorize (participantId : String) (permission : PermissionName) (scope : Scope)
    (context : JsonObj) : authorize (repository.on c) participantId permission scope context =
      Op.on c (authorize repository participantId permission scope context) := by
  simp only [authorize, Op.on_bind, on_newDecision c, on_recordDecision c]
  refine congrArg _ (funext fun found => ?_)
  cases found with
  | none => simp only [Op.on_bind]
  | some participant =>
    simp only
    split
    · simp only [Op.on_bind]
    · rw [Op.on_bind]
      refine congrArg _ (funext fun grants => ?_)
      split <;> simp only [Op.on_bind]

end Lift

/-! ## The decision as a function -/

namespace InMemoryAuthorizationRepository

/-- The decision on a participant at the instant `t` of the grant lookup. -/
def decides (s : InMemoryAuthorizationRepository) (t : Instant) (participantId : String)
    (permission : PermissionName) (scope : Scope) (context : JsonObj) : Bool :=
  match s.participants.get? participantId with
  | none => false
  | some p => p.status = .active &&
      (matchedGrants (s.grantsAt participantId t) permission scope context ≠ [])

theorem decides_iff {s : InMemoryAuthorizationRepository} {t : Instant} {participantId : String}
    {permission : PermissionName} {scope : Scope} {context : JsonObj} :
    s.decides t participantId permission scope context = true ↔
      (∃ p, s.participants.get? participantId = some p ∧ p.status = .active) ∧
      ∃ g ∈ s.grantsAt participantId t, g.permission = permission ∧
        scopeMatches g.scope scope context = true := by
  unfold decides
  cases hp : s.participants.get? participantId with
  | none => simp
  | some p => simp [matchedGrants, List.filter_eq_nil_iff]

/-- The records that decisions are made from; the audit log is not among them. -/
structure SameRecords (m m' : Machine InMemoryAuthorizationRepository) : Prop where
  participants : m'.store.participants = m.store.participants
  roleAssignments : m'.store.roleAssignments = m.store.roleAssignments
  permissionGrants : m'.store.permissionGrants = m.store.permissionGrants

theorem SameRecords.refl (m : Machine InMemoryAuthorizationRepository) : SameRecords m m :=
  ⟨rfl, rfl, rfl⟩

/-- `authorize` returns the decision made at its first clock reading and writes to
nothing but the audit log. -/
theorem authorize_cases {w : World} {m m' : Machine InMemoryAuthorizationRepository}
    {participantId : String} {permission : PermissionName} {scope : Scope} {context : JsonObj}
    {r : Except PyErr AuthorizationDecision}
    (h : (authorize repository participantId permission scope context).run w m = (r, m')) :
    SameRecords m m' ∧ ∃ d, r = .ok d ∧
      d.allowed = m.store.decides (w.clock m.ticks) participantId permission scope context := by
  simp only [authorize, repository, getParticipant, Exec.run_bind, Op.run_get,
    Exec.run_pure] at h
  unfold decides
  cases hp : m.store.participants.get? participantId with
  | none =>
    rw [hp] at h
    cases h
    exact ⟨⟨rfl, rfl, rfl⟩, _, rfl, rfl⟩
  | some p =>
    simp only [hp] at h
    by_cases hactive : p.status = .active
    · simp only [hactive, ne_eq, not_true_eq_false, if_false, listPermissionGrants,
        Exec.run_bind, Op.run_now, Op.run_get, Exec.run_pure] at h
      split at h <;> rename_i hmatched <;> cases h
      · exact ⟨⟨rfl, rfl, rfl⟩, _, rfl, by simp [hactive, hmatched]⟩
      · exact ⟨⟨rfl, rfl, rfl⟩, _, rfl, by simp [hactive, not_not.mp hmatched]⟩
    · simp only [ne_eq, hactive, not_false_eq_true, if_true] at h
      cases h
      exact ⟨⟨rfl, rfl, rfl⟩, _, rfl, by simp [hactive]⟩

end InMemoryAuthorizationRepository

end GhostMesh
