import GhostMesh.Auth.Service

/-!
# Requests and their authorization

A request is identified by its participant header; a route may name a body field
as fallback. With authorization switched off nothing is checked.
-/

set_option autoImplicit false

namespace GhostMesh

structure Request where
  /-- `X-Ghostmesh-Participant`. -/
  participant : Option String
  /-- `Idempotency-Key`. -/
  idempotencyKey : Option String

/-- `headers.get(PARTICIPANT_HEADER) or participant_id`, with `""` as absent. -/
def Request.resolve (request : Request) (fallback : Option String) : Option String :=
  match truthyStr request.participant with
  | some p => some p
  | none => truthyStr fallback

def resolvedActor (request : Request) (fallback : Option String) : String :=
  (request.resolve fallback).getD "unknown"

section Authorize
variable {σ : Type}

/-- `Scope(type=..., id=...)` inside a handler. -/
def Scope.build (type : ScopeType) (id : Option String) : Op σ Scope := do
  let w ← Op.world
  match Scope.make? type id with
  | some scope => return scope
  | none => Op.raise (.value (w.schemaError "Scope"
      (.obj [("type", .str type.value), ("id", Json.ofOptionStr id)])))

def authorizeRequest (repository : AuthorizationRepository σ) (enabled : Bool)
    (request : Request) (permission : PermissionName) (scope : Scope) (context : JsonObj)
    (participantId : Option String) : Op σ Unit :=
  if enabled then
    match request.resolve participantId with
    | none => Op.raise (.http 403 "missing Ghost Mesh participant")
    | some p => do
      let decision ← authorize repository p permission scope context
      Op.ensure decision.allowed (.http 403 decision.reason)
  else return ()

theorem on_authorizeRequest {τ : Type} (c : Component τ σ)
    (repository : AuthorizationRepository σ) (enabled : Bool) (request : Request)
    (permission : PermissionName) (scope : Scope) (context : JsonObj)
    (participantId : Option String) :
    authorizeRequest (repository.on c) enabled request permission scope context participantId =
      Op.on c (authorizeRequest repository enabled request permission scope context
        participantId) := by
  unfold authorizeRequest
  split
  · cases request.resolve participantId with
    | none => exact (Op.on_raise c _).symm
    | some p => simp only [on_authorize, Op.on_bind, Op.on_ensure]
  · exact (Op.on_pure c ()).symm

end Authorize

section Memory
open InMemoryAuthorizationRepository

/-- Whether a request gets through, as a function of the records. -/
def InMemoryAuthorizationRepository.admits (s : InMemoryAuthorizationRepository) (t : Instant)
    (request : Request) (permission : PermissionName) (scope : Scope) (context : JsonObj)
    (participantId : Option String) : Bool :=
  match request.resolve participantId with
  | none => false
  | some p => s.decides t p permission scope context

theorem authorizeRequest_cases {w : World} {m m' : Machine InMemoryAuthorizationRepository}
    {enabled : Bool} {request : Request} {permission : PermissionName} {scope : Scope}
    {context : JsonObj} {participantId : Option String} {r : Except PyErr Unit}
    (h : (authorizeRequest repository enabled request permission scope context
      participantId).run w m = (r, m')) :
    SameRecords m m' ∧ (r = .ok () ↔ (enabled = true →
      m.store.admits (w.clock m.ticks) request permission scope context participantId = true)) := by
  unfold admits
  cases enabled with
  | false =>
    cases h
    exact ⟨.refl _, by simp⟩
  | true =>
    simp only [authorizeRequest, if_true] at h
    cases hp : request.resolve participantId with
    | none =>
      rw [hp] at h
      cases h
      exact ⟨.refl _, by simp⟩
    | some p =>
      simp only [hp] at h
      rcases Exec.bind_cases h with ⟨e, h1, -⟩ | ⟨d, m1, h1, h⟩
      · obtain ⟨-, d, hd, -⟩ := authorize_cases h1
        cases hd
      · obtain ⟨hsame, d', hd, hallowed⟩ := authorize_cases h1
        cases hd
        rw [Op.run_ensure] at h
        cases h
        refine ⟨hsame, ?_⟩
        rw [hallowed]
        split <;> simp_all

/-- A refusal is a 403. -/
theorem authorizeRequest_raises {w : World} (enabled : Bool) (request : Request)
    (permission : PermissionName) (scope : Scope) (context : JsonObj)
    (participantId : Option String) : Exec.Raises (fun e => ∃ detail, e = .http 403 detail) w
      (authorizeRequest repository enabled request permission scope context participantId) := by
  unfold authorizeRequest
  split
  · split
    · exact Exec.Raises.raise ⟨_, rfl⟩
    · refine Exec.Raises.bind (Exec.Raises.of_ok fun m => ?_) fun d =>
        Exec.Raises.ensure ⟨_, rfl⟩
      obtain ⟨-, d, hd, -⟩ := authorize_cases rfl
      exact ⟨d, _, Prod.ext hd rfl⟩
  · exact Exec.Raises.pure ()

end Memory

end GhostMesh
