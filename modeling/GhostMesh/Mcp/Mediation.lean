import GhostMesh.Mcp.TwoDoors

/-!
# Mediation of the tools

However many calls callers without authority make, all of them raise, and nothing but the
audit log changes.
-/

set_option autoImplicit false

namespace GhostMesh

namespace Mcp

section Refusal
variable {w : World} {m : Machine App} {ctx : Option Context} {α β : Type}

/-- A prefix that only reads. -/
theorem RefusesAt.after {x : Op App α} {f : α → Op App β} {v : Except PyErr α}
    (hx : x.run w m = (v, m)) (hf : ∀ a, v = .ok a → RefusesAt w m (f a)) :
    RefusesAt w m (x >>= f) := by
  unfold RefusesAt Keeps
  rw [Exec.run_bind, hx]
  cases v with
  | ok a => exact hf a rfl
  | error e => exact ⟨⟨e, rfl⟩, SameButAudit.refl _⟩

/-- A caller without authority is refused. -/
theorem authorize_refuses (permission : PermissionName) (scope : Scope)
    {participantId : Option String} (context : JsonObj)
    (h : m.store.authorization.Powerless (w.clock m.ticks) (resolved w ctx participantId)) :
    RefusesAt w m (authorize (bindApp (App.application true)) ctx permission scope participantId
      context).rest := by
  have hresolve := resolve_requestOf w ctx participantId none none fun _ => rfl
  have hrun : (authorize (bindApp (App.application true)) ctx permission scope participantId
      context).rest.run w m = (authorizeRequest App.authorizationRepository true
        (requestOf (resolved w ctx participantId) none) permission scope context none).run w m :=
    authorize_sameRuns permission scope context hresolve m
  rw [← hresolve] at h
  unfold RefusesAt Keeps
  rw [hrun]
  obtain ⟨m', hsame, ⟨hadmits, -⟩ | ⟨-, detail, hrefused⟩⟩ := App.run_authorizeRequest w m
    (requestOf (resolved w ctx participantId) none) permission scope context none
  · rw [Powerless.admits h] at hadmits
    cases hadmits
  · rw [hrefused]
    exact ⟨⟨_, rfl⟩, hsame⟩

/-- The scope of a decision, the decision, and what is then done. -/
theorem guarded_refuses {permission : PermissionName} {type : ScopeType} {id : Option String}
    {participantId : Option String} {context : JsonObj} {f : Unit → Op App α}
    (h : m.store.authorization.Powerless (w.clock m.ticks) (resolved w ctx participantId)) :
    RefusesAt w m (Scope.build type id >>= fun scope => (authorize (bindApp (App.application true))
      ctx permission scope participantId context).rest >>= f) := by
  have hscope : ∃ v, (Scope.build type id : Op App Scope).run w m = (v, m) := by
    simp only [Scope.build, Exec.run_bind, Op.run_world]
    cases Scope.make? type id <;> exact ⟨_, rfl⟩
  obtain ⟨v, hv⟩ := hscope
  exact RefusesAt.after hv fun scope _ => (authorize_refuses permission scope context h).first f

/-- Whatever the tool, it asks before it does anything. -/
theorem ToolCall.refused {read : Readers} {call : ToolCall}
    (h : m.store.authorization.Powerless (w.clock m.ticks) (call.caller w read ctx m.store)) :
    RefusesAt w m (call.run (bindApp (App.application true)) read ctx).rest := by
  cases call with
  | claimCard workerId inputPipe leaseSeconds key participantId =>
    simp only [ToolCall.run, Tool.rest_map]
    refine RefusesAt.map _ ?_
    unfold Mcp.claimCard
    simp only [Tool.rest_bind, Tool.rest_op]
    exact guarded_refuses h
  | submitArtifact leaseId outputPipe artifactRefs key participantId =>
    simp only [ToolCall.run, Tool.rest_map]
    refine RefusesAt.map _ ?_
    unfold Mcp.submitArtifact
    simp only [Tool.rest_bind, Tool.rest_op, Tool.rest_ofExcept]
    simp only [ToolCall.caller] at h
    refine RefusesAt.after (Op.run_ofExcept _ w m) fun leaseUuid hlease => ?_
    have hread := Op.on_read (c := App.runtimeStore) (InMemoryCardRuntime.run_getLease
      (w := w) (m := ⟨m.store.runtime, m.ticks, m.draws⟩) leaseUuid)
    refine RefusesAt.after hread fun lease hfound => ?_
    rw [hlease] at h
    have hworker : (m.store.runtime.leases.get? leaseUuid).map (·.workerId) =
        some lease.workerId := by
      cases hget : m.store.runtime.leases.get? leaseUuid with
      | none =>
        simp only [hget] at hfound
        cases hfound
      | some l =>
        simp only [hget] at hfound
        cases hfound
        rfl
    simp only [hworker] at h
    exact guarded_refuses h
  | submitValidatorDecision validatorId cardId panelId accepted exit score reason key participantId =>
    simp only [ToolCall.run, Tool.rest_map]
    refine RefusesAt.map _ ?_
    unfold Mcp.submitValidatorDecision
    simp only [Tool.rest_bind, Tool.rest_op, Tool.rest_ofExcept]
    refine RefusesAt.after (Op.run_ofExcept _ w m) fun cardUuid _ => ?_
    exact guarded_refuses h
  | boundarySource panelId sourceId payload headers actorToken participantId =>
    simp only [ToolCall.run, Tool.rest_map]
    refine RefusesAt.map _ ?_
    unfold Mcp.boundarySource
    simp only [Tool.rest_bind, Tool.rest_op]
    exact guarded_refuses h
  | boundarySink panelId sinkId cardId response actorToken participantId =>
    simp only [ToolCall.run, Tool.rest_map]
    refine RefusesAt.map _ ?_
    unfold Mcp.boundarySink
    simp only [Tool.rest_bind, Tool.rest_op]
    exact guarded_refuses h

end Refusal

/-! ## Runs -/

/-- A call as the server receives it. -/
structure Received where
  read : Readers
  ctx : Option Context
  call : ToolCall

namespace Received

def run (w : World) (m : Machine App) (c : Received) : Except ToolErr Reply × Machine App :=
  (c.call.run (bindApp (App.application true)) c.read c.ctx).run w m

/-- The caller has no authority, at any time. -/
def Stranger (w : World) (a : App) (c : Received) : Prop :=
  ∀ t, a.authorization.Powerless t (c.call.caller w c.read c.ctx a)

/-- The machine after these calls. -/
def machine (w : World) (m : Machine App) (calls : List Received) : Machine App :=
  calls.foldl (fun m c => (c.run w m).2) m

variable {w : World} {a a' : App}

theorem powerless_of_sameButAudit (h : SameButAudit a a') {t : Instant} {p : Option String}
    (hp : a.authorization.Powerless t p) : a'.authorization.Powerless t p := by
  cases p with
  | none => trivial
  | some p =>
    unfold InMemoryAuthorizationRepository.Powerless InMemoryAuthorizationRepository.heldAt at *
    rw [h.participants, h.permissionGrants, h.roleAssignments]
    exact hp

/-- A stranger stays one while nothing but the audit log changes. -/
theorem Stranger.later {c : Received} (hc : c.Stranger w a) (h : SameButAudit a a') :
    c.Stranger w a' := by
  have hcaller : c.call.caller w c.read c.ctx a' = c.call.caller w c.read c.ctx a := by
    cases c.call with
    | submitArtifact leaseId outputPipe artifactRefs key participantId =>
      simp only [ToolCall.caller, h.runtime]
    | _ => rfl
  intro t
  rw [hcaller]
  exact powerless_of_sameButAudit h (hc t)

theorem Stranger.refused {c : Received} {m : Machine App} (hc : c.Stranger w m.store) :
    (∃ e, (c.run w m).1 = .error e) ∧ SameButAudit m.store (c.run w m).2.store := by
  obtain ⟨⟨e, he⟩, hkept⟩ := ToolCall.refused (hc (w.clock m.ticks))
  refine ⟨?_, hkept⟩
  change (c.run w m).1.mapError ToolErr.rest = .error e at he
  cases hr : (c.run w m).1 with
  | error e' => exact ⟨e', rfl⟩
  | ok reply =>
    rw [hr] at he
    cases he

end Received

def noReaders : Readers := ⟨fun text => .error (.value text), fun _ => none, fun _ =>
  .error (.value "artifact")⟩

end Mcp

end GhostMesh
