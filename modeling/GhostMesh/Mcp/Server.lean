import GhostMesh.Api.Main

/-!
# The MCP server

The tools that FastMCP offers beside the REST application, on the same services.
-/

set_option autoImplicit false

namespace GhostMesh

namespace Mcp

/-- What a tool raises: errors of its own, or those of the services. -/
inductive ToolErr where
  /-- `PermissionError`. -/
  | permission (message : String)
  /-- `LookupError`. -/
  | lookup (message : String)
  | raised (e : PyErr)

abbrev Tool (σ α : Type) := Exec World ToolErr (Machine σ) α

namespace Tool

variable {σ α : Type}

/-- Call a service. -/
def op (x : Op σ α) : Tool σ α :=
  ⟨fun w m => match x.run w m with
    | (.ok a, m') => (.ok a, m')
    | (.error e, m') => (.error (.raised e), m')⟩

def raise (e : ToolErr) : Tool σ α := Exec.raise e

def ofExcept (x : Except PyErr α) : Tool σ α := op (Op.ofExcept x)

end Tool

/-! ## The caller -/

/-- The request behind a call: the participant header of the HTTP request, and the fields
of the message's metadata, `null` where they are absent. -/
structure Context where
  participantHeader : Option String
  ghostmeshParticipant : Json
  participantId : Json
  clientId : Json

/-- `_participant_from_context`. -/
def participantFromContext (w : World) (ctx : Option Context) : Option String :=
  match ctx with
  | none => none
  | some ctx =>
    match truthyStr ctx.participantHeader with
    | some participant => some participant
    | none =>
      ([ctx.ghostmeshParticipant, ctx.participantId, ctx.clientId].find? Json.truthy).map
        (Json.pyStr w)

/-- `MCPState`, which `bind_app` takes from the application. -/
structure MCPState (σ : Type) where
  runtime : CardRuntime σ
  registry : PatchPanelRegistry σ
  authorizationEnabled : Bool
  authorization : AuthorizationRepository σ

def bindApp {σ : Type} (app : Application σ) : MCPState σ :=
  ⟨app.runtime, app.registry, app.authorizationEnabled, app.authorization⟩

section Tools
variable {σ : Type} (state : MCPState σ)

/-- `_authorize`. -/
def authorize (ctx : Option Context) (permission : PermissionName) (scope : Scope)
    (participantId : Option String) (context : JsonObj) : Tool σ Unit :=
  if state.authorizationEnabled then do
    let w ← Tool.op Op.world
    match (truthyStr (participantFromContext w ctx)).or (truthyStr participantId) with
    | none => Tool.raise (.permission "missing Ghost Mesh participant")
    | some resolved => do
      let decision ← Tool.op
        (GhostMesh.authorize state.authorization resolved permission scope context)
      if decision.allowed then return () else Tool.raise (.permission decision.reason)
  else return ()

/-- `_patch_panel`. -/
def patchPanel (patchPanelId : String) : Tool σ PatchPanel := do
  let panels ← Tool.op state.runtime.listPatchPanels
  match panels.find? (fun p => p.id = patchPanelId) with
  | some p => return p
  | none => Tool.raise (.lookup s!"Patch Panel '{patchPanelId}' is not registered")

/-- How arguments are read that come as text or as JSON: `UUID(text)`, pydantic's UUID
field, and `ArtifactReference.model_validate`. -/
structure Readers where
  uuid : String → Except PyErr Uuid
  uuidField : String → Option Uuid
  artifactReference : Json → Except PyErr ArtifactReference

def Readers.artifactReferences (read : Readers) :
    List Json → Except PyErr (List ArtifactReference)
  | [] => .ok []
  | j :: js => do
    let ref ← read.artifactReference j
    let refs ← read.artifactReferences js
    return ref :: refs

/-- `ghostmesh.claim_card`. -/
def claimCard (ctx : Option Context) (workerId inputPipe : String) (leaseSeconds : Int)
    (idempotencyKey participantId : Option String) : Tool σ Lease := do
  let scope ← Tool.op (Scope.build .bucket (some inputPipe))
  authorize state ctx .cardClaim scope ((truthyStr participantId).or (some workerId))
    [("input_pipe", .str inputPipe), ("worker_id", .str workerId)]
  Tool.op (state.runtime.claimCard inputPipe workerId leaseSeconds idempotencyKey)

/-- `ghostmesh.submit_artifact`. -/
def submitArtifact (read : Readers) (ctx : Option Context) (leaseId outputPipe : String)
    (artifactRefs : List Json) (idempotencyKey participantId : Option String) :
    Tool σ (List ArtifactReference) := do
  let leaseUuid ← Tool.ofExcept (read.uuid leaseId)
  let lease ← Tool.op (state.runtime.getLease leaseUuid)
  let scope ← Tool.op (Scope.build .card (some lease.cardId.str))
  authorize state ctx .cardSubmitArtifact scope
    ((truthyStr participantId).or (some lease.workerId))
    [("lease_id", .str leaseUuid.str), ("output_pipe", .str outputPipe)]
  let refs ← Tool.ofExcept (read.artifactReferences artifactRefs)
  Tool.op (state.runtime.submitArtifact leaseUuid outputPipe refs idempotencyKey)

/-- The bounds of `score` in `ValidatorExecutionInput`. -/
def scoreInRange (score : Option Int) : Bool := score.all fun n => 0 ≤ n && n ≤ 10

/-- `ghostmesh.submit_validator_decision`; the score is checked and not used. -/
def submitValidatorDecision (read : Readers) (ctx : Option Context)
    (validatorId cardId patchPanelId : String) (accepted : Option Bool)
    (selectedExit : Option String) (score : Option Int)
    (reason idempotencyKey participantId : Option String) : Tool σ CardEvent := do
  let cardUuid ← Tool.ofExcept (read.uuid cardId)
  let scope ← Tool.op (Scope.build .card (some cardUuid.str))
  authorize state ctx .validationSubmit scope ((truthyStr participantId).or (some validatorId))
    [("patch_panel_id", .str patchPanelId), ("validator_id", .str validatorId)]
  let p ← patchPanel state patchPanelId
  let executor : NodeExecutor σ :=
    { patchPanel := p, runtime := state.runtime, registry := some state.registry,
      authorizationRepository := some state.authorization }
  let w ← Tool.op Op.world
  if scoreInRange score then
    Tool.op (executor.executeValidator
      { cardId := cardUuid, validatorId, accepted, selectedExit, reason, payload := [],
        idempotencyKey })
  else Tool.raise (.raised (.value (w.schemaError "ValidatorExecutionInput"
    (.obj [("card_id", .str cardUuid.str), ("validator_id", .str validatorId),
      ("accepted", accepted.elim .null .bool), ("selected_exit", Json.ofOptionStr selectedExit),
      ("score", score.elim .null .int), ("reason", Json.ofOptionStr reason),
      ("idempotency_key", Json.ofOptionStr idempotencyKey)]))))

/-- `ghostmesh.boundary_source`. -/
def boundarySource (ctx : Option Context) (patchPanelId sourceId : String)
    (externalPayload : JsonObj) (headers : Option JsonObj)
    (actorToken participantId : Option String) : Tool σ SourceBoundaryResult := do
  let scope ← Tool.op (Scope.build .patchPanel (some patchPanelId))
  authorize state ctx .boundarySourceIngress scope participantId
    [("patch_panel_id", .str patchPanelId), ("source_id", .str sourceId)]
  Tool.op (BoundaryAdapterService.executeSource state.runtime
    { patchPanelId, sourceId, externalPayload, headers := headers.getD [], actorToken })

/-- `ghostmesh.boundary_sink`. -/
def boundarySink (read : Readers) (ctx : Option Context) (patchPanelId sinkId cardId : String)
    (externalResponse : Option JsonObj) (actorToken participantId : Option String) :
    Tool σ SinkBoundaryResult := do
  let scope ← Tool.op (Scope.build .patchPanel (some patchPanelId))
  authorize state ctx .boundarySinkEgress scope participantId
    [("patch_panel_id", .str patchPanelId), ("sink_id", .str sinkId)]
  let w ← Tool.op Op.world
  match read.uuidField cardId with
  | none => Tool.raise (.raised (.value (w.schemaError "BoundarySinkRequest"
      (.obj [("patch_panel_id", .str patchPanelId), ("sink_id", .str sinkId),
        ("card_id", .str cardId), ("external_response", .obj (externalResponse.getD [])),
        ("actor_token", Json.ofOptionStr actorToken)]))))
  | some cardUuid =>
    Tool.op (BoundaryAdapterService.executeSink state.runtime
      { patchPanelId, sinkId, cardId := cardUuid, externalResponse := externalResponse.getD [],
        actorToken })

end Tools

/-- One call of a tool with its arguments. -/
inductive ToolCall where
  | claimCard (workerId inputPipe : String) (leaseSeconds : Int)
      (idempotencyKey participantId : Option String)
  | submitArtifact (leaseId outputPipe : String) (artifactRefs : List Json)
      (idempotencyKey participantId : Option String)
  | submitValidatorDecision (validatorId cardId patchPanelId : String) (accepted : Option Bool)
      (selectedExit : Option String) (score : Option Int)
      (reason idempotencyKey participantId : Option String)
  | boundarySource (patchPanelId sourceId : String) (externalPayload : JsonObj)
      (headers : Option JsonObj) (actorToken participantId : Option String)
  | boundarySink (patchPanelId sinkId cardId : String) (externalResponse : Option JsonObj)
      (actorToken participantId : Option String)

/-- What a tool returns, before it is dumped as JSON. -/
inductive Reply where
  | lease (lease : Lease)
  | artifacts (refs : List ArtifactReference)
  | event (event : CardEvent)
  | source (result : SourceBoundaryResult)
  | sink (result : SinkBoundaryResult)

def ToolCall.run {σ : Type} (state : MCPState σ) (read : Readers) (ctx : Option Context) :
    ToolCall → Tool σ Reply
  | claimCard workerId inputPipe leaseSeconds key participantId =>
    Reply.lease <$> Mcp.claimCard state ctx workerId inputPipe leaseSeconds key participantId
  | submitArtifact leaseId outputPipe artifactRefs key participantId =>
    Reply.artifacts <$> Mcp.submitArtifact state read ctx leaseId outputPipe artifactRefs key
      participantId
  | submitValidatorDecision validatorId cardId patchPanelId accepted selectedExit score reason key
      participantId =>
    Reply.event <$> Mcp.submitValidatorDecision state read ctx validatorId cardId patchPanelId
      accepted selectedExit score reason key participantId
  | boundarySource patchPanelId sourceId externalPayload headers actorToken participantId =>
    Reply.source <$> Mcp.boundarySource state ctx patchPanelId sourceId externalPayload headers
      actorToken participantId
  | boundarySink patchPanelId sinkId cardId externalResponse actorToken participantId =>
    Reply.sink <$> Mcp.boundarySink state read ctx patchPanelId sinkId cardId externalResponse
      actorToken participantId

end Mcp

end GhostMesh
