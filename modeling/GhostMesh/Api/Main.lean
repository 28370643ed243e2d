import GhostMesh.Api.Participants
import GhostMesh.Boundaries
import GhostMesh.Genesis.Service
import GhostMesh.Runtime.Shadow

/-!
# The REST application

The state-changing endpoints of `create_app`, each on the services it calls.
-/

set_option autoImplicit false

namespace GhostMesh

/-! ## Request bodies -/

structure RegisterPatchPanelRegistryRequest where
  patchPanel : PatchPanel
  registryMetadata : PatchPanelRegistryMetadata
  metadata : JsonObj

structure ProposeGenesisIntentRequest where
  proposedBy : String
  candidateDefinition : PatchPanel
  registryMetadata : PatchPanelRegistryMetadata
  basePatchPanelId : Option String
  baseVersion : Option String

structure CreateCardRequest where
  patchPanelId : String
  payload : JsonObj
  metadata : JsonObj

structure ClaimCardRequest where
  inputPipe : String
  workerId : String
  leaseSeconds : Int

structure SubmitArtifactRequest where
  leaseId : Uuid
  outputPipe : String
  artifactRefs : List ArtifactReference

structure ValidateCardRequest where
  validatorId : String
  accepted : Bool
  reason : Option String
  outputPipe : Option String

structure MoveCardRequest where
  toBucket : String
  actorId : Option String
  reason : Option String

structure HumanValidatorDecisionRequest where
  patchPanelId : String
  accepted : Bool
  selectedExit : Option String
  reason : Option String

structure SourceExecutionRequest where
  patchPanelId : String
  sourceId : String
  payload : JsonObj
  metadata : JsonObj

structure WorkerExecutionRequest where
  patchPanelId : String
  inputPipe : String
  outputPipe : String
  workerId : String
  artifactRefs : List ArtifactReference
  leaseSeconds : Int

structure ValidatorExecutionRequest where
  patchPanelId : String
  cardId : Uuid
  validatorId : String
  accepted : Option Bool
  selectedExit : Option String
  reason : Option String
  payload : JsonObj

structure SinkExecutionRequest where
  patchPanelId : String
  cardId : Uuid
  sinkId : String
  externalReference : Option String

structure CreateShadowRequest where
  productionCardId : Uuid
  candidateId : String
  sampleRate : PyFloat
  maxParallel : Int

structure ProposedMutationRequest where
  mutationType : String
  proposedBy : String
  payload : JsonObj

structure MutationValidationRequest where
  accepted : Bool
  validatorId : String
  reason : Option String

/-- What `create_app` builds its endpoints on. -/
structure Application (σ : Type) where
  runtime : CardRuntime σ
  registry : PatchPanelRegistry σ
  authorization : AuthorizationRepository σ
  shadowService : ShadowService σ
  genesisService : GenesisService σ
  authorizationEnabled : Bool

namespace Application

variable {σ : Type} (app : Application σ)

def authorize (request : Request) (permission : PermissionName) (scope : Scope)
    (context : JsonObj) (participantId : Option String) : Op σ Unit :=
  authorizeRequest app.authorization app.authorizationEnabled request permission scope context
    participantId

/-- `_record_audit`. -/
def recordAudit (action : AuditAction) (participantId : String) (permission : PermissionName)
    (scope : Scope) (targetRef : String) (metadata : JsonObj) : Op σ Unit :=
  GhostMesh.recordAudit app.authorization action (some participantId) (some permission)
    (some scope) (some true) none none (some targetRef) metadata

/-- `_executor`. -/
def executor (patchPanelId : String) : Op σ (NodeExecutor σ) := do
  let p ← BoundaryAdapterService.patchPanel app.runtime patchPanelId
  return { patchPanel := p, runtime := app.runtime, registry := some app.registry,
           authorizationRepository := some app.authorization }

/-! ## Panels and the registry -/

def registerPatchPanel (p : PatchPanel) (request : Request) : Op σ PatchPanel := do
  let scope ← Scope.build .patchPanel (some p.id)
  app.authorize request .patchPanelCreate scope [("patch_panel_id", .str p.id)] none
  app.runtime.registerPatchPanel p

def registerPatchPanelRegistryEntry (body : RegisterPatchPanelRegistryRequest)
    (request : Request) : Op σ PatchPanelRegistryEntry := do
  let scope ← Scope.build .patchPanel (some body.patchPanel.id)
  app.authorize request .patchPanelCreate scope
    [("patch_panel_id", .str body.patchPanel.id)] none
  let p ← app.runtime.registerPatchPanel body.patchPanel
  let entry ← PatchPanelRegistryEntry.fromPatchPanel p body.registryMetadata body.metadata
  app.registry.register entry

def updatePatchPanelRegistryEntry (entryId : Uuid) (body : PatchPanelRegistryMetadata)
    (request : Request) : Op σ PatchPanelRegistryEntry := do
  let entry ← app.registry.get entryId
  let scope ← Scope.build .patchPanel (some entry.patchPanelId)
  app.authorize request .patchPanelEditDraft scope
    [("patch_panel_id", .str entry.patchPanelId)] none
  app.registry.updateMetadata entryId body

def archivePatchPanelRegistryEntry (entryId : Uuid) (request : Request) :
    Op σ PatchPanelRegistryEntry := do
  let entry ← app.registry.get entryId
  let scope ← Scope.build .patchPanel (some entry.patchPanelId)
  app.authorize request .patchPanelArchive scope
    [("patch_panel_id", .str entry.patchPanelId)] none
  app.registry.archive entryId

def supersedePatchPanelRegistryEntry (entryId supersededByEntryId : Uuid) (request : Request) :
    Op σ PatchPanelRegistryEntry := do
  let entry ← app.registry.get entryId
  let scope ← Scope.build .patchPanel (some entry.patchPanelId)
  app.authorize request .patchPanelArchive scope
    [("patch_panel_id", .str entry.patchPanelId),
      ("superseded_by_entry_id", .str supersededByEntryId.str)] none
  app.registry.supersede entryId supersededByEntryId

/-! ## Genesis -/

def receiveGenesisIntent (body : ReceiveIntent) (request : Request) : Op σ GenesisIntent := do
  app.authorize request .patchPanelDiscover .globalScope
    [("deduplication_key", .str body.deduplicationKey), ("input_type", .str body.inputType),
      ("tags", Json.ofStrings body.tags)] (some body.requestedBy)
  let intent ← app.genesisService.receiveIntent body
  let actor := resolvedActor request (some body.requestedBy)
  app.recordAudit .genesisIntentReceived actor .patchPanelDiscover .globalScope intent.id.str
    [("candidate_count", .int intent.candidateRegistryEntryIds.length)]
  app.recordAudit .genesisRegistrySearched actor .patchPanelDiscover .globalScope intent.id.str
    [("candidate_registry_entry_ids",
      Json.ofStrings (intent.candidateRegistryEntryIds.map Uuid.str))]
  if intent.candidateRegistryEntryIds.isEmpty && body.proposeIfMissing then
    app.recordAudit .genesisDesignRequired actor .mutationPropose .globalScope intent.id.str
      [("input_type", .str intent.inputType), ("tags", Json.ofStrings intent.tags)]
  return intent

def launchGenesisIntent (intentId : Uuid) (registryEntryId : Option Uuid) (request : Request) :
    Op σ Card := do
  let intent ← app.genesisService.get intentId
  match GenesisService.selectedId intent registryEntryId with
  | none => Op.raise (.conflict "genesis intent has no registry candidate to launch")
  | some selected => do
    let entry ← app.registry.get selected
    let scope ← Scope.build .patchPanel (some entry.patchPanelId)
    app.authorize request .cardCreate scope
      [("genesis_intent_id", .str intentId.str), ("patch_panel_id", .str entry.patchPanelId)]
      (some intent.requestedBy)
    let card ← app.genesisService.launch intentId (some selected)
    let actor := resolvedActor request (some intent.requestedBy)
    app.recordAudit .genesisCandidateSelected actor .patchPanelDiscover scope entry.id.str
      [("genesis_intent_id", .str intentId.str)]
    app.recordAudit .genesisCardCreated actor .cardCreate scope card.id.str
      [("genesis_intent_id", .str intentId.str)]
    return card

def proposeGenesisIntent (intentId : Uuid) (body : ProposeGenesisIntentRequest)
    (request : Request) : Op σ Card := do
  let scope ← Scope.build .patchPanel (some body.candidateDefinition.id)
  app.authorize request .mutationPropose scope [("genesis_intent_id", .str intentId.str)]
    (some body.proposedBy)
  let card ← app.genesisService.propose intentId body.proposedBy body.candidateDefinition
    body.registryMetadata body.basePatchPanelId body.baseVersion
  app.recordAudit .genesisProposalSubmitted (resolvedActor request (some body.proposedBy))
    .mutationPropose scope card.id.str [("genesis_intent_id", .str intentId.str)]
  return card

/-! ## Cards and leases -/

def createCard (body : CreateCardRequest) (request : Request) : Op σ Card := do
  let scope ← Scope.build .patchPanel (some body.patchPanelId)
  app.authorize request .cardCreate scope [("patch_panel_id", .str body.patchPanelId)] none
  app.runtime.createCard body.patchPanelId body.payload (some body.metadata)
    request.idempotencyKey

/-- The scope is a bucket named after the pipe. -/
def claimCard (body : ClaimCardRequest) (request : Request) : Op σ Lease := do
  let scope ← Scope.build .bucket (some body.inputPipe)
  app.authorize request .cardClaim scope
    [("input_pipe", .str body.inputPipe), ("worker_id", .str body.workerId)] none
  app.runtime.claimCard body.inputPipe body.workerId body.leaseSeconds request.idempotencyKey

def submitArtifact (body : SubmitArtifactRequest) (request : Request) :
    Op σ (List ArtifactReference) := do
  let lease ← app.runtime.getLease body.leaseId
  let scope ← Scope.build .card (some lease.cardId.str)
  app.authorize request .cardSubmitArtifact scope
    [("lease_id", .str body.leaseId.str), ("output_pipe", .str body.outputPipe)] none
  app.runtime.submitArtifact body.leaseId body.outputPipe body.artifactRefs
    request.idempotencyKey

/-- No authorization. -/
def renewLease (leaseId : Uuid) (leaseSeconds : Int) (request : Request) : Op σ Lease :=
  app.runtime.renewLease leaseId leaseSeconds request.idempotencyKey

def releaseLease (leaseId : Uuid) (actorId : Option String) (request : Request) :
    Op σ Lease := do
  let lease ← app.runtime.getLease leaseId
  let scope ← Scope.build .card (some lease.cardId.str)
  app.authorize request .cardRelease scope [("lease_id", .str leaseId.str)] actorId
  app.runtime.releaseLease leaseId actorId request.idempotencyKey

/-- No authorization. -/
def expireLeases : Op σ (List Lease) := app.runtime.expireLeases

def validateCard (cardId : Uuid) (body : ValidateCardRequest) (request : Request) :
    Op σ CardEvent := do
  let scope ← Scope.build .card (some cardId.str)
  app.authorize request .validationSubmit scope [("validator_id", .str body.validatorId)]
    (some body.validatorId)
  app.runtime.validateCard cardId body.validatorId body.accepted body.reason body.outputPipe none
    request.idempotencyKey

/-- No authorization. -/
def moveCard (cardId : Uuid) (body : MoveCardRequest) (request : Request) : Op σ Card :=
  app.runtime.moveCard cardId body.toBucket body.actorId body.reason request.idempotencyKey

/-! ## Nodes -/

def submitValidatorDecision (validatorId : String) (cardId : Uuid)
    (body : HumanValidatorDecisionRequest) (request : Request) : Op σ CardEvent := do
  let scope ← Scope.build .card (some cardId.str)
  app.authorize request .validationSubmit scope
    [("patch_panel_id", .str body.patchPanelId), ("validator_id", .str validatorId)]
    (some validatorId)
  let executor ← app.executor body.patchPanelId
  executor.executeValidator
    { cardId, validatorId, accepted := some body.accepted, selectedExit := body.selectedExit,
      reason := body.reason, payload := [], idempotencyKey := request.idempotencyKey }

def executeSource (body : SourceExecutionRequest) (request : Request) : Op σ Card := do
  let scope ← Scope.build .patchPanel (some body.patchPanelId)
  app.authorize request .boundarySourceIngress scope
    [("patch_panel_id", .str body.patchPanelId), ("source_id", .str body.sourceId)] none
  let executor ← app.executor body.patchPanelId
  executor.executeSource body.sourceId body.payload (some body.metadata) request.idempotencyKey

def executeWorker (body : WorkerExecutionRequest) (request : Request) :
    Op σ (List ArtifactReference) := do
  let scope ← Scope.build .patchPanel (some body.patchPanelId)
  app.authorize request .cardSubmitArtifact scope
    [("patch_panel_id", .str body.patchPanelId), ("worker_id", .str body.workerId)]
    (some body.workerId)
  let executor ← app.executor body.patchPanelId
  executor.executeWorker
    { inputPipe := body.inputPipe, outputPipe := body.outputPipe, workerId := body.workerId,
      artifactRefs := body.artifactRefs, leaseSeconds := body.leaseSeconds,
      idempotencyKey := request.idempotencyKey }

def executeValidator (body : ValidatorExecutionRequest) (request : Request) :
    Op σ CardEvent := do
  let scope ← Scope.build .card (some body.cardId.str)
  app.authorize request .validationSubmit scope
    [("patch_panel_id", .str body.patchPanelId), ("validator_id", .str body.validatorId)]
    (some body.validatorId)
  let executor ← app.executor body.patchPanelId
  executor.executeValidator
    { cardId := body.cardId, validatorId := body.validatorId, accepted := body.accepted,
      selectedExit := body.selectedExit, reason := body.reason, payload := body.payload,
      idempotencyKey := request.idempotencyKey }

def executeSink (body : SinkExecutionRequest) (request : Request) : Op σ SinkResult := do
  let scope ← Scope.build .patchPanel (some body.patchPanelId)
  app.authorize request .sinkExecute scope
    [("patch_panel_id", .str body.patchPanelId), ("sink_id", .str body.sinkId)] none
  let executor ← app.executor body.patchPanelId
  executor.executeSink body.cardId body.sinkId body.externalReference request.idempotencyKey

def executeBoundarySource (body : BoundarySourceRequest) (request : Request) :
    Op σ SourceBoundaryResult := do
  let scope ← Scope.build .patchPanel (some body.patchPanelId)
  app.authorize request .boundarySourceIngress scope
    [("patch_panel_id", .str body.patchPanelId)] none
  BoundaryAdapterService.executeSource app.runtime body

def executeBoundarySink (body : BoundarySinkRequest) (request : Request) :
    Op σ SinkBoundaryResult := do
  let scope ← Scope.build .patchPanel (some body.patchPanelId)
  app.authorize request .boundarySinkEgress scope
    [("patch_panel_id", .str body.patchPanelId)] none
  BoundaryAdapterService.executeSink app.runtime body

/-! ## Shadows and mutations -/

def createShadow (body : CreateShadowRequest) (request : Request) : Op σ ShadowRun := do
  let scope ← Scope.build .card (some body.productionCardId.str)
  app.authorize request .shadowCreate scope [("candidate_id", .str body.candidateId)] none
  let productionCard ← app.runtime.getCard body.productionCardId
  app.shadowService.createShadowCard productionCard body.candidateId
    ⟨body.sampleRate, body.maxParallel⟩ request.idempotencyKey

def completeShadow (linkId : Uuid) (metrics : JsonObj) (request : Request) :
    Op σ ShadowCardLink := do
  app.authorize request .shadowComplete .globalScope [("shadow_link_id", .str linkId.str)] none
  app.shadowService.completeShadow linkId metrics

def proposeMutation (body : ProposedMutationRequest) (request : Request) :
    Op σ ProposedMutation := do
  app.authorize request .mutationPropose .globalScope
    [("mutation_type", .str body.mutationType)] (some body.proposedBy)
  app.shadowService.proposeMutation body.mutationType body.proposedBy body.payload

def validateMutation (mutationId : Uuid) (body : MutationValidationRequest)
    (request : Request) : Op σ ProposedMutation := do
  app.authorize request .mutationValidate .globalScope [("mutation_id", .str mutationId.str)]
    (some body.validatorId)
  app.shadowService.validateMutation mutationId body.accepted body.validatorId body.reason

def promoteMutation (mutationId : Uuid) (p : PatchPanel) (request : Request) :
    Op σ ProposedMutation := do
  let scope ← Scope.build .patchPanel (some p.id)
  app.authorize request .mutationPromote scope
    [("mutation_id", .str mutationId.str), ("patch_panel_id", .str p.id)] none
  app.authorize request .patchPanelPublishVersion scope
    [("mutation_id", .str mutationId.str), ("patch_panel_id", .str p.id)] none
  app.shadowService.promoteMutation mutationId p

end Application

/-- One state-changing request: the endpoint with its path parameters and body. -/
inductive Route where
  | createParticipant (body : CreateParticipantRequest)
  | assignParticipantRole (participantId : String) (body : AssignRoleRequest)
  | grantParticipantPermission (participantId : String) (body : GrantPermissionRequest)
  | registerPatchPanel (p : PatchPanel)
  | registerPatchPanelRegistryEntry (body : RegisterPatchPanelRegistryRequest)
  | updatePatchPanelRegistryEntry (entryId : Uuid) (body : PatchPanelRegistryMetadata)
  | archivePatchPanelRegistryEntry (entryId : Uuid)
  | supersedePatchPanelRegistryEntry (entryId supersededByEntryId : Uuid)
  | receiveGenesisIntent (body : ReceiveIntent)
  | launchGenesisIntent (intentId : Uuid) (registryEntryId : Option Uuid)
  | proposeGenesisIntent (intentId : Uuid) (body : ProposeGenesisIntentRequest)
  | createCard (body : CreateCardRequest)
  | claimCard (body : ClaimCardRequest)
  | submitArtifact (body : SubmitArtifactRequest)
  | renewLease (leaseId : Uuid) (leaseSeconds : Int)
  | releaseLease (leaseId : Uuid) (actorId : Option String)
  | expireLeases
  | validateCard (cardId : Uuid) (body : ValidateCardRequest)
  | moveCard (cardId : Uuid) (body : MoveCardRequest)
  | submitValidatorDecision (validatorId : String) (cardId : Uuid)
      (body : HumanValidatorDecisionRequest)
  | executeSource (body : SourceExecutionRequest)
  | executeWorker (body : WorkerExecutionRequest)
  | executeValidator (body : ValidatorExecutionRequest)
  | executeSink (body : SinkExecutionRequest)
  | executeBoundarySource (body : BoundarySourceRequest)
  | executeBoundarySink (body : BoundarySinkRequest)
  | createShadow (body : CreateShadowRequest)
  | completeShadow (linkId : Uuid) (metrics : JsonObj)
  | proposeMutation (body : ProposedMutationRequest)
  | validateMutation (mutationId : Uuid) (body : MutationValidationRequest)
  | promoteMutation (mutationId : Uuid) (p : PatchPanel)

def Application.handle {σ : Type} (app : Application σ) (request : Request) : Route → Op σ Unit
  | .createParticipant body =>
    (Api.createParticipant app.authorization app.authorizationEnabled body request).discard
  | .assignParticipantRole participantId body =>
    (Api.assignParticipantRole app.authorization app.authorizationEnabled participantId body
      request).discard
  | .grantParticipantPermission participantId body =>
    (Api.grantParticipantPermission app.authorization app.authorizationEnabled participantId body
      request).discard
  | .registerPatchPanel p => (app.registerPatchPanel p request).discard
  | .registerPatchPanelRegistryEntry body =>
    (app.registerPatchPanelRegistryEntry body request).discard
  | .updatePatchPanelRegistryEntry entryId body =>
    (app.updatePatchPanelRegistryEntry entryId body request).discard
  | .archivePatchPanelRegistryEntry entryId =>
    (app.archivePatchPanelRegistryEntry entryId request).discard
  | .supersedePatchPanelRegistryEntry entryId by_ =>
    (app.supersedePatchPanelRegistryEntry entryId by_ request).discard
  | .receiveGenesisIntent body => (app.receiveGenesisIntent body request).discard
  | .launchGenesisIntent intentId entryId =>
    (app.launchGenesisIntent intentId entryId request).discard
  | .proposeGenesisIntent intentId body => (app.proposeGenesisIntent intentId body request).discard
  | .createCard body => (app.createCard body request).discard
  | .claimCard body => (app.claimCard body request).discard
  | .submitArtifact body => (app.submitArtifact body request).discard
  | .renewLease leaseId seconds => (app.renewLease leaseId seconds request).discard
  | .releaseLease leaseId actorId => (app.releaseLease leaseId actorId request).discard
  | .expireLeases => app.expireLeases.discard
  | .validateCard cardId body => (app.validateCard cardId body request).discard
  | .moveCard cardId body => (app.moveCard cardId body request).discard
  | .submitValidatorDecision validatorId cardId body =>
    (app.submitValidatorDecision validatorId cardId body request).discard
  | .executeSource body => (app.executeSource body request).discard
  | .executeWorker body => (app.executeWorker body request).discard
  | .executeValidator body => (app.executeValidator body request).discard
  | .executeSink body => (app.executeSink body request).discard
  | .executeBoundarySource body => (app.executeBoundarySource body request).discard
  | .executeBoundarySink body => (app.executeBoundarySink body request).discard
  | .createShadow body => (app.createShadow body request).discard
  | .completeShadow linkId metrics => (app.completeShadow linkId metrics request).discard
  | .proposeMutation body => (app.proposeMutation body request).discard
  | .validateMutation mutationId body => (app.validateMutation mutationId body request).discard
  | .promoteMutation mutationId p => (app.promoteMutation mutationId p request).discard

end GhostMesh
