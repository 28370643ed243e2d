import GhostMesh.Api.Mediation
import GhostMesh.Mcp.Server
import GhostMesh.Nodes.ExecutorSteps
import GhostMesh.Nodes.Silent

/-!
# Two doors to one application

A tool does what the endpoint of the REST application does on a request of the resolved
participant. The two boundary tools name one key more in the context of their decision,
which only the audit log keeps.
-/

set_option autoImplicit false

namespace GhostMesh

namespace Mcp

/-! ## Tools as operations -/

/-- The exception that the REST application raises in its place. -/
def ToolErr.rest : ToolErr → PyErr
  | permission message => .http 403 message
  | lookup message => .notFound message
  | raised e => e

namespace Tool

variable {σ α β : Type}

/-- The tool with the exceptions of the REST application. -/
def rest (x : Tool σ α) : Op σ α := ⟨fun w m => ((x.run w m).1.mapError ToolErr.rest, (x.run w m).2)⟩

@[simp] theorem rest_op (x : Op σ α) : (op x).rest = x := by
  apply congrArg Exec.mk
  funext w m
  rcases hx : x.run w m with ⟨r, m'⟩
  cases r <;> simp [op, hx, Except.mapError, ToolErr.rest]

@[simp] theorem rest_ofExcept (x : Except PyErr α) :
    (ofExcept x : Tool σ α).rest = Op.ofExcept x := rest_op _

@[simp] theorem rest_raise (e : ToolErr) : (raise e : Tool σ α).rest = Op.raise e.rest := rfl

@[simp] theorem rest_pure (a : α) : (pure a : Tool σ α).rest = pure a := rfl

@[simp] theorem rest_bind (x : Tool σ α) (f : α → Tool σ β) :
    (x >>= f).rest = x.rest >>= fun a => (f a).rest := by
  apply congrArg Exec.mk
  funext w m
  rcases hx : x.run w m with ⟨r, m'⟩
  cases r <;> simp [Exec.run_bind, rest, hx, Except.mapError]

@[simp] theorem rest_map (f : α → β) (x : Tool σ α) : (f <$> x).rest = f <$> x.rest :=
  rest_bind x fun a => pure (f a)

end Tool

/-! ## Agreement in one world -/

/-- The same run from every machine. -/
def SameRuns {σ α : Type} (w : World) (x y : Op σ α) : Prop := ∀ m, x.run w m = y.run w m

section SameRuns
variable {σ α β : Type} {w : World}

theorem SameRuns.refl (x : Op σ α) : SameRuns w x x := fun _ => rfl

theorem SameRuns.bind {x y : Op σ α} {f g : α → Op σ β} (h : SameRuns w x y)
    (hrest : ∀ a, SameRuns w (f a) (g a)) : SameRuns w (x >>= f) (y >>= g) := by
  intro m
  rw [Exec.run_bind, Exec.run_bind, h m]
  rcases y.run w m with ⟨r, m'⟩
  cases r with
  | ok a => exact hrest a m'
  | error e => rfl

theorem SameRuns.map {x y : Op σ α} (f : α → β) (h : SameRuns w x y) :
    SameRuns w (f <$> x) (f <$> y) := h.bind fun a => .refl (pure (f a))

theorem SameRuns.world {f : World → Op σ α} {y : Op σ α} (h : SameRuns w (f w) y) :
    SameRuns w (Op.world >>= f) y := fun m => h m

end SameRuns

/-! ## The caller -/

/-- The participant of a call: that of its context, or the one that the tool names. -/
def resolved (w : World) (ctx : Option Context) (participantId : Option String) :
    Option String :=
  (truthyStr (participantFromContext w ctx)).or (truthyStr participantId)

theorem truthyStr_truthyStr (s : Option String) : truthyStr (truthyStr s) = truthyStr s := by
  cases s with
  | none => rfl
  | some s =>
    by_cases h : s = ""
    · simp [truthyStr, h]
    · simp [truthyStr, h]

theorem truthyStr_resolved (w : World) (ctx : Option Context) (participantId : Option String) :
    truthyStr (resolved w ctx participantId) = resolved w ctx participantId := by
  unfold resolved
  cases h : truthyStr (participantFromContext w ctx) with
  | none =>
    rw [Option.none_or]
    exact truthyStr_truthyStr participantId
  | some p =>
    rw [Option.some_or, ← h]
    exact truthyStr_truthyStr _

/-- A request that names the participant in its header. -/
def requestOf (participant idempotencyKey : Option String) : Request := ⟨participant, idempotencyKey⟩

/-- The request is that of the caller, whatever the endpoint falls back on, if the tool
falls back on it too. -/
theorem resolve_requestOf (w : World) (ctx : Option Context) (participantId : Option String)
    (key fallback : Option String) (h : resolved w ctx participantId = none →
      truthyStr fallback = none) :
    (requestOf (resolved w ctx participantId) key).resolve fallback =
      resolved w ctx participantId := by
  unfold Request.resolve requestOf
  rw [truthyStr_resolved]
  cases hp : resolved w ctx participantId with
  | some p => rfl
  | none => exact h hp

section Tools
variable {σ : Type} {app : Application σ} {w : World} {ctx : Option Context}

theorem authorize_sameRuns (permission : PermissionName) (scope : Scope) (context : JsonObj)
    {request : Request} {participantId fallback : Option String}
    (h : request.resolve fallback = resolved w ctx participantId) :
    SameRuns w (authorize (bindApp app) ctx permission scope participantId context).rest
      (app.authorize request permission scope context fallback) := by
  unfold authorize Application.authorize authorizeRequest bindApp
  rw [h]
  cases app.authorizationEnabled with
  | false => exact .refl _
  | true =>
    simp only [if_true, Tool.rest_bind, Tool.rest_op]
    apply SameRuns.world
    have hresolved : (truthyStr (participantFromContext w ctx)).or (truthyStr participantId) =
        resolved w ctx participantId := rfl
    rw [hresolved]
    cases resolved w ctx participantId with
    | none => exact .refl _
    | some p =>
      simp only [Tool.rest_bind, Tool.rest_op]
      refine (SameRuns.refl _).bind fun decision => ?_
      cases hallowed : decision.allowed with
      | true => exact .refl _
      | false => exact .refl _

theorem claimCard_sameRuns (workerId inputPipe : String) (leaseSeconds : Int)
    (key participantId : Option String) :
    SameRuns w (claimCard (bindApp app) ctx workerId inputPipe leaseSeconds key participantId).rest
      (app.claimCard ⟨inputPipe, workerId, leaseSeconds⟩
        (requestOf (resolved w ctx ((truthyStr participantId).or (some workerId))) key)) := by
  unfold claimCard Application.claimCard
  simp only [Tool.rest_bind, Tool.rest_op]
  refine (SameRuns.refl _).bind fun scope => ?_
  refine (authorize_sameRuns _ _ _ ?_).bind fun _ => .refl _
  exact resolve_requestOf w ctx _ key none fun _ => rfl

/-- If nobody is resolved, the tool falls back on nobody. -/
theorem truthyStr_of_resolved_none {participantId : Option String} {own : String}
    (h : resolved w ctx ((truthyStr participantId).or (some own)) = none) :
    truthyStr (some own) = none := by
  unfold resolved at h
  cases hctx : truthyStr (participantFromContext w ctx) with
  | some p =>
    rw [hctx] at h
    cases h
  | none =>
    rw [hctx, Option.none_or] at h
    cases hparticipant : truthyStr participantId with
    | none =>
      rw [hparticipant] at h
      exact h
    | some p =>
      rw [hparticipant, Option.some_or, ← hparticipant, truthyStr_truthyStr, hparticipant] at h
      cases h

/-- Both look the panel up alike. -/
theorem patchPanel_rest (patchPanelId : String) :
    (patchPanel (bindApp app) patchPanelId).rest =
      BoundaryAdapterService.patchPanel app.runtime patchPanelId := by
  unfold patchPanel BoundaryAdapterService.patchPanel
  rw [Tool.rest_bind, Tool.rest_op]
  refine congrArg _ (funext fun panels => ?_)
  cases panels.find? fun p => p.id = patchPanelId with
  | none => rfl
  | some p => rfl

theorem submitValidatorDecision_sameRuns {read : Readers} {cardId : String} {cardUuid : Uuid}
    (hcard : read.uuid cardId = .ok cardUuid) {score : Option Int} (hscore : scoreInRange score)
    (validatorId patchPanelId : String) (accepted : Option Bool)
    (selectedExit reason key participantId : Option String) :
    SameRuns w (submitValidatorDecision (bindApp app) read ctx validatorId cardId patchPanelId
        accepted selectedExit score reason key participantId).rest
      (app.executeValidator ⟨patchPanelId, cardUuid, validatorId, accepted, selectedExit, reason, []⟩
        (requestOf (resolved w ctx ((truthyStr participantId).or (some validatorId))) key)) := by
  unfold submitValidatorDecision Application.executeValidator Application.executor
  simp only [Tool.rest_bind, Tool.rest_op, Tool.rest_ofExcept, hcard, patchPanel_rest]
  have hread : ∀ f : Uuid → Op σ CardEvent, (Op.ofExcept (.ok cardUuid) : Op σ Uuid) >>= f =
      f cardUuid := fun f => rfl
  rw [hread]
  refine (SameRuns.refl _).bind fun scope => ?_
  refine (authorize_sameRuns _ _ _ ?_).bind fun _ => ?_
  · exact resolve_requestOf w ctx _ key _ truthyStr_of_resolved_none
  · intro m
    rw [Exec.run_bind, Exec.run_bind, Exec.run_bind]
    rcases (BoundaryAdapterService.patchPanel app.runtime patchPanelId).run w m with ⟨r, m'⟩
    cases r with
    | error e => rfl
    | ok p =>
      simp only [hscore, if_true, Tool.rest_op]
      rfl

/-- The lease is read before the caller is known. -/
theorem submitArtifact_run {read : Readers} {leaseId : String} {leaseUuid : Uuid} {lease : Lease}
    {m m' : Machine σ} (hlease : read.uuid leaseId = .ok leaseUuid)
    (hread : (app.runtime.getLease leaseUuid).run w m = (.ok lease, m')) {artifactRefs : List Json}
    {refs : List ArtifactReference} (hrefs : read.artifactReferences artifactRefs = .ok refs)
    (outputPipe : String) (key participantId : Option String) :
    (submitArtifact (bindApp app) read ctx leaseId outputPipe artifactRefs key
        participantId).rest.run w m =
      (app.submitArtifact ⟨leaseUuid, outputPipe, refs⟩
        (requestOf (resolved w ctx ((truthyStr participantId).or (some lease.workerId))) key)).run
        w m := by
  unfold submitArtifact Application.submitArtifact
  simp only [Tool.rest_bind, Tool.rest_op, Tool.rest_ofExcept, hlease, hrefs]
  have hok : ∀ f : Uuid → Op σ (List ArtifactReference),
      (Op.ofExcept (.ok leaseUuid) : Op σ Uuid) >>= f = f leaseUuid := fun f => rfl
  rw [hok, Exec.run_bind_ok (show ((bindApp app).runtime.getLease leaseUuid).run w m = _ from hread),
    Exec.run_bind_ok hread]
  refine SameRuns.bind (.refl _) (fun scope => ?_) m'
  refine (authorize_sameRuns _ _ _ ?_).bind fun _ => .refl _
  exact resolve_requestOf w ctx _ key none fun _ => rfl

end Tools

/-! ## Decisions in another context -/

/-- The audit log without the contexts of its decisions. -/
def withoutContexts (s : InMemoryAuthorizationRepository) : InMemoryAuthorizationRepository :=
  { s with auditEvents := s.auditEvents.map fun e => { e with metadata := [] } }

/-- The same application and counters, but for the contexts in the audit log. -/
structure SameButContexts (m m' : Machine App) : Prop where
  runtime : m'.store.runtime = m.store.runtime
  registry : m'.store.registry = m.store.registry
  shadow : m'.store.shadow = m.store.shadow
  genesis : m'.store.genesis = m.store.genesis
  authorization : withoutContexts m'.store.authorization = withoutContexts m.store.authorization
  ticks : m'.ticks = m.ticks
  draws : m'.draws = m.draws

theorem SameButContexts.refl (m : Machine App) : SameButContexts m m :=
  ⟨rfl, rfl, rfl, rfl, rfl, rfl, rfl⟩

section Contexts
variable {w : World}

/-- The runtime does not see the audit log. -/
theorem SameButContexts.onRuntime {α : Type} {m m' : Machine App} (h : SameButContexts m m')
    (x : Op InMemoryCardRuntime α) :
    ((Op.on App.runtimeStore x).run w m').1 = ((Op.on App.runtimeStore x).run w m).1 ∧
      SameButContexts ((Op.on App.runtimeStore x).run w m).2
        ((Op.on App.runtimeStore x).run w m').2 := by
  have hstart : (⟨m'.store.runtime, m'.ticks, m'.draws⟩ : Machine InMemoryCardRuntime) =
      ⟨m.store.runtime, m.ticks, m.draws⟩ := by rw [h.runtime, h.ticks, h.draws]
  rw [Op.run_on, Op.run_on]
  simp only [App.runtimeStore, hstart]
  exact ⟨trivial, rfl, h.registry, h.shadow, h.genesis, h.authorization, rfl, rfl⟩

/-- Contexts in which every scope matches alike. -/
def SameScopes (context context' : JsonObj) : Prop :=
  ∀ grantScope targetScope, scopeMatches grantScope targetScope context' =
    scopeMatches grantScope targetScope context

/-- `scope_matches` looks at two keys of the context. -/
theorem sameScopes_of_keys {context context' : JsonObj}
    (hworkflow : JsonObj.get? context' "workflow_id" = JsonObj.get? context "workflow_id")
    (hpanel : JsonObj.get? context' "patch_panel_id" = JsonObj.get? context "patch_panel_id") :
    SameScopes context context' := by
  intro grantScope targetScope
  simp only [scopeMatches, contextNames, hworkflow, hpanel]

/-- A decision and its record, with the context named only in their metadata. -/
theorem authorize_contexts {context context' : JsonObj} (h : SameScopes context context')
    (participantId : String) (permission : PermissionName) (scope : Scope)
    (m : Machine InMemoryAuthorizationRepository) :
    ∃ d d' n n', (GhostMesh.authorize InMemoryAuthorizationRepository.repository participantId
        permission scope context).run w m = (.ok d, n) ∧
      (GhostMesh.authorize InMemoryAuthorizationRepository.repository participantId permission
        scope context').run w m = (.ok d', n') ∧
      d'.allowed = d.allowed ∧ d'.reason = d.reason ∧
      withoutContexts n'.store = withoutContexts n.store ∧ n'.ticks = n.ticks ∧
      n'.draws = n.draws := by
  have hmatched : ∀ grants, matchedGrants grants permission scope context' =
      matchedGrants grants permission scope context := by
    intro grants
    unfold matchedGrants
    refine List.filter_congr fun g _ => ?_
    rw [h g.scope scope]
  have hlogged : ∀ e e' : AuthorizationAuditEvent, ({ e' with metadata := [] } :
      AuthorizationAuditEvent) = { e with metadata := [] } →
        withoutContexts { m.store with auditEvents := m.store.auditEvents ++ [e'] } =
          withoutContexts { m.store with auditEvents := m.store.auditEvents ++ [e] } := by
    intro e e' heq
    simp only [withoutContexts, List.map_append, List.map_cons, List.map_nil, heq]
  simp only [GhostMesh.authorize, InMemoryAuthorizationRepository.repository,
    InMemoryAuthorizationRepository.getParticipant, Exec.run_bind, Op.run_get, Exec.run_pure,
    hmatched]
  cases m.store.participants.get? participantId with
  | none => exact ⟨_, _, _, _, rfl, rfl, rfl, rfl, hlogged _ _ rfl, rfl, rfl⟩
  | some p =>
    by_cases hactive : p.status = .active
    · simp only [hactive, ne_eq, not_true_eq_false, if_false,
        InMemoryAuthorizationRepository.listPermissionGrants, Exec.run_bind, Op.run_now,
        Op.run_get, Exec.run_pure]
      by_cases hnone : matchedGrants (m.store.grantsAt participantId (w.clock m.ticks)) permission
          scope context = []
      · simp only [hnone, not_true_eq_false, if_false]
        exact ⟨_, _, _, _, rfl, rfl, rfl, rfl, hlogged _ _ rfl, rfl, rfl⟩
      · simp only [hnone, not_false_eq_true, if_true]
        exact ⟨_, _, _, _, rfl, rfl, rfl, rfl, hlogged _ _ rfl, rfl, rfl⟩
    · simp only [ne_eq, hactive, not_false_eq_true, if_true]
      exact ⟨_, _, _, _, rfl, rfl, rfl, rfl, hlogged _ _ rfl, rfl, rfl⟩

/-- The check of a request in another context: the same answer, and a log that differs in
the context only. -/
theorem authorizeRequest_contexts {context context' : JsonObj} (h : SameScopes context context')
    (enabled : Bool) (request : Request) (permission : PermissionName) (scope : Scope)
    (fallback : Option String) (m : Machine App) :
    ((authorizeRequest App.authorizationRepository enabled request permission scope context'
        fallback).run w m).1 =
      ((authorizeRequest App.authorizationRepository enabled request permission scope context
        fallback).run w m).1 ∧
    SameButContexts
      ((authorizeRequest App.authorizationRepository enabled request permission scope context
        fallback).run w m).2
      ((authorizeRequest App.authorizationRepository enabled request permission scope context'
        fallback).run w m).2 := by
  unfold authorizeRequest
  cases enabled with
  | false => exact ⟨rfl, .refl m⟩
  | true =>
    simp only [if_true]
    cases request.resolve fallback with
    | none => exact ⟨rfl, .refl m⟩
    | some p =>
      obtain ⟨d, d', n, n', hrun, hrun', hallowed, hreason, hlog, hticks, hdraws⟩ :=
        authorize_contexts (w := w) h p permission scope
          ⟨m.store.authorization, m.ticks, m.draws⟩
      simp only [App.authorizationRepository, on_authorize]
      rw [Exec.run_bind_ok (Op.on_run (c := App.authorizationStore) hrun),
        Exec.run_bind_ok (Op.on_run (c := App.authorizationStore) hrun'), Op.run_ensure,
        Op.run_ensure, hallowed, hreason]
      exact ⟨rfl, rfl, rfl, rfl, rfl, hlog, hticks, hdraws⟩

end Contexts

/-! ## Boundary adapters on a component -/

section Lift
open BoundaryAdapterService NodeExecutor
variable {σ τ : Type} (c : Component τ σ) (R : CardRuntime σ)

theorem on_patchPanel (patchPanelId : String) :
    BoundaryAdapterService.patchPanel (R.on c) patchPanelId =
      Op.on c (BoundaryAdapterService.patchPanel R patchPanelId) := by
  unfold BoundaryAdapterService.patchPanel
  rw [Op.on_bind]
  refine congrArg _ (funext fun panels => ?_)
  cases panels.find? fun p => p.id = patchPanelId with
  | none => exact (Op.on_raise c _).symm
  | some p => exact (Op.on_pure c _).symm

theorem on_boundarySource (request : BoundarySourceRequest) :
    BoundaryAdapterService.executeSource (R.on c) request =
      Op.on c (BoundaryAdapterService.executeSource R request) := by
  unfold BoundaryAdapterService.executeSource
  simp only [Op.on_bind, Op.on_ofExcept, Op.on_world, Op.on_pure, on_patchPanel,
    NodeExecutor.on_executeSource c R (x := ⟨_, R.on c, none, none⟩) rfl]
  rfl

/-- Without a registry and a repository, a sink works on the runtime alone. -/
theorem on_executeSink (p : PatchPanel) (cardId : Uuid) (sinkId : String)
    (externalReference key : Option String) :
    (bare (R.on c) p).executeSink cardId sinkId externalReference key =
      Op.on c ((bare R p).executeSink cardId sinkId externalReference key) := by
  have hconfigured : ∀ n card, (bare (R.on c) p).executeConfiguredSink n card externalReference =
      Op.on c ((bare R p).executeConfiguredSink n card externalReference) := by
    intro n card
    unfold executeConfiguredSink
    split
    · exact (Op.on_raise c _).symm
    · split
      · exact (Op.on_raise c _).symm
      · exact (Op.on_pure c _).symm
  unfold NodeExecutor.executeSink
  simp only [Op.on_bind, Op.on_ofExcept, Op.on_world, Op.on_pure, hconfigured]
  rfl

theorem on_boundarySink (request : BoundarySinkRequest) :
    BoundaryAdapterService.executeSink (R.on c) request =
      Op.on c (BoundaryAdapterService.executeSink R request) := by
  unfold BoundaryAdapterService.executeSink
  have hsink := on_executeSink c R
  simp only [bare] at hsink
  simp only [Op.on_bind, Op.on_ofExcept, Op.on_world, Op.on_pure, on_patchPanel, hsink]
  rfl

end Lift

/-! ## Calls -/

/-- The endpoint of a tool, with its body. -/
inductive Endpoint where
  | claimCard (body : ClaimCardRequest)
  | submitArtifact (body : SubmitArtifactRequest)
  | executeValidator (body : ValidatorExecutionRequest)
  | executeBoundarySource (body : BoundarySourceRequest)
  | executeBoundarySink (body : BoundarySinkRequest)

def Endpoint.route : Endpoint → Route
  | claimCard body => .claimCard body
  | submitArtifact body => .submitArtifact body
  | executeValidator body => .executeValidator body
  | executeBoundarySource body => .executeBoundarySource body
  | executeBoundarySink body => .executeBoundarySink body

def Endpoint.reply {σ : Type} (app : Application σ) (request : Request) : Endpoint → Op σ Reply
  | claimCard body => Reply.lease <$> app.claimCard body request
  | submitArtifact body => Reply.artifacts <$> app.submitArtifact body request
  | executeValidator body => Reply.event <$> app.executeValidator body request
  | executeBoundarySource body => Reply.source <$> app.executeBoundarySource body request
  | executeBoundarySink body => Reply.sink <$> app.executeBoundarySink body request

theorem run_map {σ α β : Type} (f : α → β) (x : Op σ α) (w : World) (m : Machine σ) :
    (f <$> x).run w m = ((x.run w m).1.map f, (x.run w m).2) := by
  refine (Exec.run_bind x (fun a => pure (f a)) w m).trans ?_
  rcases x.run w m with ⟨r, m'⟩
  cases r <;> rfl

theorem discard_map {σ α β : Type} (f : α → β) (x : Op σ α) : (f <$> x).discard = x.discard := by
  apply congrArg Exec.mk
  funext w m
  refine (Op.run_discard (f <$> x) w m).trans (Eq.trans ?_ (Op.run_discard x w m).symm)
  rw [run_map]
  cases (x.run w m).1 <;> rfl

/-- The endpoint is the one that the application dispatches to. -/
theorem Endpoint.handle_route {σ : Type} (app : Application σ) (request : Request) (x : Endpoint) :
    app.handle request x.route = (x.reply app request).discard := by
  cases x <;> exact (discard_map _ _).symm

/-- The endpoint for a call whose arguments can be read. -/
def ToolCall.endpoint (read : Readers) : ToolCall → Option Endpoint
  | claimCard workerId inputPipe leaseSeconds _ _ => some (.claimCard ⟨inputPipe, workerId, leaseSeconds⟩)
  | submitArtifact leaseId outputPipe artifactRefs _ _ =>
    match read.uuid leaseId, read.artifactReferences artifactRefs with
    | .ok leaseUuid, .ok refs => some (.submitArtifact ⟨leaseUuid, outputPipe, refs⟩)
    | _, _ => none
  | submitValidatorDecision validatorId cardId patchPanelId accepted selectedExit score reason _ _ =>
    match read.uuid cardId with
    | .ok cardUuid =>
      if scoreInRange score then
        some (.executeValidator
          ⟨patchPanelId, cardUuid, validatorId, accepted, selectedExit, reason, []⟩)
      else none
    | .error _ => none
  | boundarySource patchPanelId sourceId externalPayload headers actorToken _ =>
    some (.executeBoundarySource
      ⟨patchPanelId, sourceId, externalPayload, headers.getD [], actorToken⟩)
  | boundarySink patchPanelId sinkId cardId externalResponse actorToken _ =>
    (read.uuidField cardId).map fun cardUuid =>
      .executeBoundarySink ⟨patchPanelId, sinkId, cardUuid, externalResponse.getD [], actorToken⟩

/-- The participant that a call is made for. -/
def ToolCall.caller (w : World) (read : Readers) (ctx : Option Context) (a : App) :
    ToolCall → Option String
  | claimCard workerId _ _ _ participantId =>
    resolved w ctx ((truthyStr participantId).or (some workerId))
  | submitArtifact leaseId _ _ _ participantId =>
    -- the worker of the lease, if there is one
    resolved w ctx ((truthyStr participantId).or
      (match read.uuid leaseId with
        | .ok leaseUuid => (a.runtime.leases.get? leaseUuid).map (·.workerId)
        | .error _ => none))
  | submitValidatorDecision validatorId _ _ _ _ _ _ _ participantId =>
    resolved w ctx ((truthyStr participantId).or (some validatorId))
  | boundarySource _ _ _ _ _ participantId => resolved w ctx participantId
  | boundarySink _ _ _ _ _ participantId => resolved w ctx participantId

def ToolCall.idempotencyKey : ToolCall → Option String
  | claimCard _ _ _ key _ => key
  | submitArtifact _ _ _ key _ => key
  | submitValidatorDecision _ _ _ _ _ _ _ key _ => key
  | boundarySource _ _ _ _ _ _ => none
  | boundarySink _ _ _ _ _ _ => none

/-- The request that the caller would have made. -/
def ToolCall.request (w : World) (read : Readers) (ctx : Option Context) (a : App)
    (call : ToolCall) : Request :=
  requestOf (call.caller w read ctx a) call.idempotencyKey

section Calls
variable {w : World} {enabled : Bool} {read : Readers} {ctx : Option Context} {m : Machine App}

theorem SameButAudit.trans {a b c : App} (h : SameButAudit a b) (h' : SameButAudit b c) :
    SameButAudit a c where
  runtime := h'.runtime.trans h.runtime
  registry := h'.registry.trans h.registry
  shadow := h'.shadow.trans h.shadow
  genesis := h'.genesis.trans h.genesis
  participants := h'.participants.trans h.participants
  roleAssignments := h'.roleAssignments.trans h.roleAssignments
  permissionGrants := h'.permissionGrants.trans h.permissionGrants

/-- From this machine the computation raises, and leaves everything but the audit log. -/
def RefusesAt {α : Type} (w : World) (m : Machine App) (x : Op App α) : Prop :=
  (∃ e, (x.run w m).1 = .error e) ∧ Keeps w m x

theorem RefusesAt.raise {α : Type} (e : PyErr) : RefusesAt w m (Op.raise e : Op App α) :=
  ⟨⟨e, rfl⟩, Keeps.raise e⟩

theorem RefusesAt.first {α β : Type} {x : Op App α} (h : RefusesAt w m x) (f : α → Op App β) :
    RefusesAt w m (x >>= f) := by
  obtain ⟨⟨e, he⟩, hkept⟩ := h
  have hrun := Exec.run_bind_error (f := f) (show x.run w m = (.error e, (x.run w m).2) from
    Prod.ext he rfl)
  unfold RefusesAt Keeps
  rw [hrun]
  exact ⟨⟨e, rfl⟩, hkept⟩

theorem RefusesAt.map {α β : Type} {x : Op App α} (f : α → β) (h : RefusesAt w m x) :
    RefusesAt w m (f <$> x) := h.first fun a => pure (f a)

def Refuses {α : Type} (w : World) (x : Op App α) : Prop := ∀ m, RefusesAt w m x

theorem Refuses.raise {α : Type} (e : PyErr) : Refuses w (Op.raise e : Op App α) :=
  fun _ => .raise e

theorem Refuses.bind {α β : Type} {x : Op App α} {f : α → Op App β} (hx : ∀ m, Keeps w m x)
    (hf : ∀ a, Refuses w (f a)) : Refuses w (x >>= f) := by
  intro n
  have hkept := hx n
  unfold RefusesAt Keeps at *
  rw [Exec.run_bind]
  rcases hr : x.run w n with ⟨r, m'⟩
  rw [hr] at hkept
  cases r with
  | error e => exact ⟨⟨e, rfl⟩, hkept⟩
  | ok a =>
    obtain ⟨hraises, hrest⟩ := hf a m'
    exact ⟨hraises, SameButAudit.trans hkept hrest⟩

theorem Refuses.map {α β : Type} {x : Op App α} (f : α → β) (h : Refuses w x) :
    Refuses w (f <$> x) := fun n => (h n).map f

/-- The check of the caller writes to nothing but the audit log. -/
theorem authorize_keeps (permission : PermissionName) (scope : Scope)
    (participantId : Option String) (context : JsonObj) :
    Keeps w m (authorize (bindApp (App.application enabled)) ctx permission scope participantId
      context).rest := by
  have hresolve := resolve_requestOf w ctx participantId none none fun _ => rfl
  unfold Keeps
  rw [authorize_sameRuns permission scope context hresolve m]
  cases enabled with
  | false => exact SameButAudit.refl _
  | true =>
    obtain ⟨m', hsame, ⟨-, hrun⟩ | ⟨-, detail, hrun⟩⟩ := App.run_authorizeRequest w m
      (requestOf (resolved w ctx participantId) none) permission scope context none
    · change SameButAudit m.store ((authorizeRequest _ _ _ _ _ _ _).run w m).2.store
      exact hrun ▸ hsame
    · change SameButAudit m.store ((authorizeRequest _ _ _ _ _ _ _).run w m).2.store
      exact hrun ▸ hsame

/-- The tool answers as the endpoint does, and leaves what the endpoint leaves, but for the
context in the audit log. -/
structure Mirrors (w : World) (app : Application App) (m : Machine App) (request : Request)
    (x : Tool App Reply) (y : Endpoint) : Prop where
  reply : (x.run w m).1.mapError ToolErr.rest = ((y.reply app request).run w m).1
  state : SameButContexts ((y.reply app request).run w m).2 (x.run w m).2

variable {app : Application App} {request : Request} {x : Tool App Reply} {y : Endpoint}

theorem Mirrors.of_run (h : x.rest.run w m = (y.reply app request).run w m) :
    Mirrors w app m request x y where
  reply := congrArg Prod.fst h
  state := by
    have hstate := congrArg Prod.snd h
    change (x.run w m).2 = _ at hstate
    rw [hstate]
    exact .refl _

/-- A check of the request, then an operation of the runtime. -/
def guarded {α : Type} (app : Application App) (request : Request) (permission : PermissionName)
    (type : ScopeType) (id : String) (context : JsonObj) (z : Op InMemoryCardRuntime α) :
    Op App α := do
  let scope ← Scope.build type (some id)
  app.authorize request permission scope context none
  Op.on App.runtimeStore z

theorem guarded_contexts {α : Type} {context context' : JsonObj} (h : SameScopes context context')
    (permission : PermissionName) (type : ScopeType) (id : String)
    (z : Op InMemoryCardRuntime α) :
    ((guarded (App.application enabled) request permission type id context' z).run w m).1 =
      ((guarded (App.application enabled) request permission type id context z).run w m).1 ∧
    SameButContexts
      ((guarded (App.application enabled) request permission type id context z).run w m).2
      ((guarded (App.application enabled) request permission type id context' z).run w m).2 := by
  have hscope : ∃ v, (Scope.build type (some id) : Op App Scope).run w m = (v, m) := by
    simp only [Scope.build, Exec.run_bind, Op.run_world]
    cases Scope.make? type (some id) <;> exact ⟨_, rfl⟩
  unfold guarded
  obtain ⟨v, hv⟩ := hscope
  rw [Exec.run_bind, Exec.run_bind, hv]
  cases v with
  | error e => exact ⟨rfl, .refl m⟩
  | ok scope =>
    obtain ⟨hanswer, hstate⟩ := authorizeRequest_contexts (w := w) h enabled request permission
      scope none m
    change ((Application.authorize _ _ _ _ _ _ >>= _).run w m).1 =
      ((Application.authorize _ _ _ _ _ _ >>= _).run w m).1 ∧ SameButContexts
        ((Application.authorize _ _ _ _ _ _ >>= _).run w m).2
        ((Application.authorize _ _ _ _ _ _ >>= _).run w m).2
    unfold Application.authorize App.application
    rw [Exec.run_bind, Exec.run_bind]
    rcases hrun : (authorizeRequest App.authorizationRepository enabled request permission scope
      context none).run w m with ⟨r, n⟩
    rcases hrun' : (authorizeRequest App.authorizationRepository enabled request permission scope
      context' none).run w m with ⟨r', n'⟩
    rw [hrun, hrun'] at hanswer hstate
    cases hanswer
    cases r with
    | error e => exact ⟨rfl, hstate⟩
    | ok u => exact hstate.onRuntime z

/-- A tool that is the guarded operation of its endpoint, in another context. -/
theorem Mirrors.of_guarded {α : Type} {context context' : JsonObj}
    (h : SameScopes context context') (permission : PermissionName) (type : ScopeType)
    (id : String) (z : Op InMemoryCardRuntime α) (f : α → Reply)
    (hx : x.rest.run w m = (f <$> guarded (App.application enabled) request permission type id
      context' z).run w m)
    (hy : y.reply (App.application enabled) request = f <$> guarded (App.application enabled)
      request permission type id context z) :
    Mirrors w (App.application enabled) m request x y := by
  have hcontexts : _ ∧ SameButContexts
      ((guarded (App.application enabled) request permission type id context z).run w m).2 _ :=
    guarded_contexts h permission type id z
  obtain ⟨hanswer, hstate⟩ := hcontexts
  rw [run_map] at hx
  have hreply := congrArg Prod.fst hx
  have hmachine := congrArg Prod.snd hx
  change (x.run w m).1.mapError ToolErr.rest = _ at hreply
  change (x.run w m).2 = _ at hmachine
  constructor
  · rw [hreply, hy, run_map, hanswer]
  · rw [hmachine, hy, run_map]
    exact hstate

theorem sameScopes_named (panel key value : String) (h : key ≠ "workflow_id") :
    SameScopes [("patch_panel_id", .str panel)]
      [("patch_panel_id", .str panel), (key, .str value)] := by
  refine sameScopes_of_keys ?_ ?_
  · simp [JsonObj.get?, Dict.lookupIn, h]
  · simp [JsonObj.get?, Dict.lookupIn]

theorem boundarySource_mirrors (patchPanelId sourceId : String) (externalPayload : JsonObj)
    (headers : Option JsonObj) (actorToken participantId : Option String) :
    Mirrors w (App.application enabled) m (requestOf (resolved w ctx participantId) none)
      ((ToolCall.boundarySource patchPanelId sourceId externalPayload headers actorToken
        participantId).run (bindApp (App.application enabled)) read ctx)
      (.executeBoundarySource
        ⟨patchPanelId, sourceId, externalPayload, headers.getD [], actorToken⟩) := by
  refine .of_guarded (sameScopes_named patchPanelId "source_id" sourceId (by decide))
    .boundarySourceIngress .patchPanel patchPanelId
    (BoundaryAdapterService.executeSource InMemoryCardRuntime.runtime
      ⟨patchPanelId, sourceId, externalPayload, headers.getD [], actorToken⟩) Reply.source ?_ ?_
  · simp only [ToolCall.run, Tool.rest_map]
    refine SameRuns.map _ ?_ m
    unfold boundarySource guarded
    simp only [Tool.rest_bind, Tool.rest_op]
    refine (SameRuns.refl _).bind fun scope => ?_
    refine (authorize_sameRuns _ _ _ (resolve_requestOf w ctx _ none none fun _ => rfl)).bind
      fun _ => ?_
    exact fun _ => congrArg (Exec.run · w _) (on_boundarySource App.runtimeStore
      InMemoryCardRuntime.runtime _)
  · unfold Endpoint.reply Application.executeBoundarySource guarded
    simp only [App.application, App.cardRuntime, on_boundarySource]

theorem boundarySink_mirrors (patchPanelId sinkId : String) {cardId : String} {cardUuid : Uuid}
    (hcard : read.uuidField cardId = some cardUuid) (externalResponse : Option JsonObj)
    (actorToken participantId : Option String) :
    Mirrors w (App.application enabled) m (requestOf (resolved w ctx participantId) none)
      ((ToolCall.boundarySink patchPanelId sinkId cardId externalResponse actorToken
        participantId).run (bindApp (App.application enabled)) read ctx)
      (.executeBoundarySink
        ⟨patchPanelId, sinkId, cardUuid, externalResponse.getD [], actorToken⟩) := by
  refine .of_guarded (sameScopes_named patchPanelId "sink_id" sinkId (by decide))
    .boundarySinkEgress .patchPanel patchPanelId
    (BoundaryAdapterService.executeSink InMemoryCardRuntime.runtime
      ⟨patchPanelId, sinkId, cardUuid, externalResponse.getD [], actorToken⟩) Reply.sink ?_ ?_
  · simp only [ToolCall.run, Tool.rest_map]
    refine SameRuns.map _ ?_ m
    unfold boundarySink guarded
    simp only [Tool.rest_bind, Tool.rest_op, hcard]
    refine (SameRuns.refl _).bind fun scope => ?_
    refine (authorize_sameRuns _ _ _ (resolve_requestOf w ctx _ none none fun _ => rfl)).bind
      fun _ => ?_
    exact fun _ => congrArg (Exec.run · w _) (on_boundarySink App.runtimeStore
      InMemoryCardRuntime.runtime _)
  · unfold Endpoint.reply Application.executeBoundarySink guarded
    simp only [App.application, App.cardRuntime, on_boundarySink]

theorem run_getLease_found {id : Uuid} {l : Lease} (h : m.store.runtime.leases.get? id = some l) :
    (App.cardRuntime.getLease id).run w m = (.ok l, m) := by
  have hread := Op.on_read (c := App.runtimeStore) (InMemoryCardRuntime.run_getLease
    (w := w) (m := ⟨m.store.runtime, m.ticks, m.draws⟩) id)
  simp only [h] at hread
  exact hread

theorem run_getLease_missing {id : Uuid} (h : m.store.runtime.leases.get? id = none) :
    (App.cardRuntime.getLease id).run w m =
      (.error (.notFound s!"lease '{id.str}' does not exist"), m) := by
  have hread := Op.on_read (c := App.runtimeStore) (InMemoryCardRuntime.run_getLease
    (w := w) (m := ⟨m.store.runtime, m.ticks, m.draws⟩) id)
  simp only [h] at hread
  exact hread

/-- A submission for the worker of the lease, if there is one. -/
theorem submitArtifact_mirrors {leaseId : String} {leaseUuid : Uuid}
    (hlease : read.uuid leaseId = .ok leaseUuid) {artifactRefs : List Json}
    {refs : List ArtifactReference} (hrefs : read.artifactReferences artifactRefs = .ok refs)
    (outputPipe : String) (key participantId : Option String) :
    Mirrors w (App.application enabled) m
      (requestOf (resolved w ctx ((truthyStr participantId).or
        ((m.store.runtime.leases.get? leaseUuid).map (·.workerId)))) key)
      ((ToolCall.submitArtifact leaseId outputPipe artifactRefs key participantId).run
        (bindApp (App.application enabled)) read ctx)
      (.submitArtifact ⟨leaseUuid, outputPipe, refs⟩) := by
  refine .of_run ?_
  simp only [ToolCall.run, Tool.rest_map, Endpoint.reply]
  rw [run_map, run_map]
  cases hfound : m.store.runtime.leases.get? leaseUuid with
  | some lease =>
    have hread := run_getLease_found (w := w) hfound
    have htool : (submitArtifact (bindApp (App.application enabled)) read ctx leaseId outputPipe
        artifactRefs key participantId).rest.run w m = _ :=
      submitArtifact_run hlease hread hrefs outputPipe key participantId
    rw [htool, Option.map_some]
  | none =>
    have hread := run_getLease_missing (w := w) hfound
    have htool : (submitArtifact (bindApp (App.application enabled)) read ctx leaseId outputPipe
        artifactRefs key participantId).rest.run w m = (.error (.notFound
          s!"lease '{leaseUuid.str}' does not exist"), m) := by
      unfold submitArtifact
      simp only [Tool.rest_bind, Tool.rest_op, Tool.rest_ofExcept, hlease]
      rw [Exec.run_bind_ok (Op.run_ofExcept (.ok leaseUuid) w m)]
      exact Exec.run_bind_error hread
    have hendpoint : ∀ request, ((App.application enabled).submitArtifact
        ⟨leaseUuid, outputPipe, refs⟩ request).run w m = (.error (.notFound
          s!"lease '{leaseUuid.str}' does not exist"), m) :=
      fun _ => Exec.run_bind_error hread
    rw [htool, hendpoint]

/-- A call whose arguments can be read is the request of its caller. -/
theorem ToolCall.mirrors {call : ToolCall} (h : call.endpoint read = some y) :
    Mirrors w (App.application enabled) m (call.request w read ctx m.store)
      (call.run (bindApp (App.application enabled)) read ctx) y := by
  cases call with
  | claimCard workerId inputPipe leaseSeconds key participantId =>
    cases h
    refine .of_run ?_
    simp only [ToolCall.run, Tool.rest_map, Endpoint.reply]
    exact SameRuns.map _ (claimCard_sameRuns workerId inputPipe leaseSeconds key participantId) m
  | submitArtifact leaseId outputPipe artifactRefs key participantId =>
    simp only [ToolCall.endpoint] at h
    split at h
    · rename_i leaseUuid refs hlease hrefs
      cases h
      simp only [ToolCall.request, ToolCall.caller, ToolCall.idempotencyKey, hlease]
      exact submitArtifact_mirrors hlease hrefs outputPipe key participantId
    · cases h
  | submitValidatorDecision validatorId cardId panelId accepted exit score reason key participantId =>
    simp only [ToolCall.endpoint] at h
    split at h
    · rename_i cardUuid hcard
      split at h
      · rename_i hscore
        cases h
        refine .of_run ?_
        simp only [ToolCall.run, Tool.rest_map, Endpoint.reply, ToolCall.request, ToolCall.caller,
          ToolCall.idempotencyKey]
        rw [run_map, run_map, submitValidatorDecision_sameRuns hcard hscore validatorId panelId
          accepted exit reason key participantId m]
      · cases h
    · cases h
  | boundarySource panelId sourceId payload headers actorToken participantId =>
    cases h
    exact boundarySource_mirrors panelId sourceId payload headers actorToken participantId
  | boundarySink panelId sinkId cardId response actorToken participantId =>
    obtain ⟨cardUuid, hcard, rfl⟩ := Option.map_eq_some_iff.mp h
    exact boundarySink_mirrors panelId sinkId hcard response actorToken participantId

theorem scopeBuild_keeps (type : ScopeType) (id : Option String) :
    Keeps w m (Scope.build type id : Op App Scope) := by
  unfold Keeps
  simp only [Scope.build, Exec.run_bind, Op.run_world]
  cases Scope.make? type id <;> exact SameButAudit.refl _

/-- A call with an argument that cannot be read raises. -/
theorem ToolCall.refuses {call : ToolCall} (h : call.endpoint read = none) :
    Refuses w (call.run (bindApp (App.application enabled)) read ctx).rest := by
  cases call with
  | claimCard workerId inputPipe leaseSeconds key participantId => cases h
  | submitArtifact leaseId outputPipe artifactRefs key participantId =>
    simp only [ToolCall.run, Tool.rest_map]
    refine Refuses.map _ ?_
    unfold Mcp.submitArtifact
    simp only [Tool.rest_bind, Tool.rest_op, Tool.rest_ofExcept]
    simp only [ToolCall.endpoint] at h
    cases hlease : read.uuid leaseId with
    | error e => exact Refuses.raise e
    | ok leaseUuid =>
      refine Refuses.bind (fun _ => SameButAudit.refl _) fun leaseUuid => ?_
      refine Refuses.bind (fun m => ?_) fun lease => ?_
      · obtain ⟨v, hv⟩ := getLease_reads (w := w) (m := m) leaseUuid
        change SameButAudit m.store ((App.cardRuntime.getLease leaseUuid).run w m).2.store
        rw [hv]
        exact SameButAudit.refl _
      refine Refuses.bind (fun _ => scopeBuild_keeps _ _) fun scope => ?_
      refine Refuses.bind (fun _ => authorize_keeps _ _ _ _) fun _ => ?_
      cases hrefs : read.artifactReferences artifactRefs with
      | error e => exact Refuses.raise e
      | ok refs =>
        rw [hlease, hrefs] at h
        cases h
  | submitValidatorDecision validatorId cardId panelId accepted exit score reason key participantId =>
    simp only [ToolCall.run, Tool.rest_map]
    refine Refuses.map _ ?_
    unfold Mcp.submitValidatorDecision
    simp only [Tool.rest_bind, Tool.rest_op, Tool.rest_ofExcept, patchPanel_rest]
    simp only [ToolCall.endpoint] at h
    cases hcard : read.uuid cardId with
    | error e => exact Refuses.raise e
    | ok cardUuid =>
      refine Refuses.bind (fun _ => SameButAudit.refl _) fun cardUuid => ?_
      refine Refuses.bind (fun _ => scopeBuild_keeps _ _) fun scope => ?_
      refine Refuses.bind (fun _ => authorize_keeps _ _ _ _) fun _ => ?_
      refine Refuses.bind (fun m => ?_) fun p => ?_
      · change SameButAudit m.store ((BoundaryAdapterService.patchPanel App.cardRuntime panelId).run w
          m).2.store
        rw [run_patchPanel]
        exact SameButAudit.refl _
      refine Refuses.bind (fun _ => SameButAudit.refl _) fun w' => ?_
      rw [hcard] at h
      cases hscore : scoreInRange score with
      | true =>
        rw [hscore] at h
        cases h
      | false => exact Refuses.raise _
  | boundarySource panelId sourceId payload headers actorToken participantId => cases h
  | boundarySink panelId sinkId cardId response actorToken participantId =>
    simp only [ToolCall.run, Tool.rest_map]
    refine Refuses.map _ ?_
    unfold Mcp.boundarySink
    simp only [Tool.rest_bind, Tool.rest_op]
    refine Refuses.bind (fun _ => scopeBuild_keeps _ _) fun scope => ?_
    refine Refuses.bind (fun _ => authorize_keeps _ _ _ _) fun _ => ?_
    refine Refuses.bind (fun _ => SameButAudit.refl _) fun w' => ?_
    rw [Option.map_eq_none_iff.mp h]
    exact Refuses.raise _

end Calls

/-- Every call is the request that its caller would have made to the endpoint, or is refused
because an argument cannot be read. -/
theorem tool_is_request (w : World) (enabled : Bool) (m : Machine App) (read : Readers)
    (ctx : Option Context) (call : ToolCall) :
    (∃ y, call.endpoint read = some y ∧
      ((call.run (bindApp (App.application enabled)) read ctx).run w m).1.mapError ToolErr.rest =
        ((y.reply (App.application enabled) (call.request w read ctx m.store)).run w m).1 ∧
      SameButContexts (App.respond w enabled m (call.request w read ctx m.store, y.route))
        ((call.run (bindApp (App.application enabled)) read ctx).run w m).2) ∨
    (call.endpoint read = none ∧
      (∃ e, ((call.run (bindApp (App.application enabled)) read ctx).run w m).1 = .error e) ∧
      SameButAudit m.store
        ((call.run (bindApp (App.application enabled)) read ctx).run w m).2.store) := by
  cases hendpoint : call.endpoint read with
  | some y =>
    have hmirrors : Mirrors w (App.application enabled) m (call.request w read ctx m.store)
        (call.run (bindApp (App.application enabled)) read ctx) y := ToolCall.mirrors hendpoint
    refine .inl ⟨y, rfl, hmirrors.reply, ?_⟩
    have hrespond : App.respond w enabled m (call.request w read ctx m.store, y.route) =
        ((y.reply (App.application enabled) (call.request w read ctx m.store)).run w m).2 := by
      unfold App.respond
      rw [Endpoint.handle_route, Op.run_discard]
    rw [hrespond]
    exact hmirrors.state
  | none =>
    have hrefuses : Refuses w (call.run (bindApp (App.application enabled)) read ctx).rest :=
      ToolCall.refuses hendpoint
    obtain ⟨⟨e, he⟩, hkept⟩ := hrefuses m
    refine .inr ⟨rfl, ?_, hkept⟩
    change ((call.run (bindApp (App.application enabled)) read ctx).run w m).1.mapError
      ToolErr.rest = .error e at he
    cases hr : ((call.run (bindApp (App.application enabled)) read ctx).run w m).1 with
    | error e' => exact ⟨e', rfl⟩
    | ok reply =>
      rw [hr] at he
      cases he

end Mcp

end GhostMesh
