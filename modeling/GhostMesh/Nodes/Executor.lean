import GhostMesh.Auth.Repository
import GhostMesh.Domain.Schema
import GhostMesh.Registry.Service
import GhostMesh.Runtime.Service

/-!
# Node execution

`NodeExecutor` runs source, worker, validator and sink nodes of one Patch Panel on
a runtime, with a registry and an authorization repository where it has been given
them.
-/

set_option autoImplicit false

namespace GhostMesh

structure WorkerExecutionInput where
  inputPipe : String
  outputPipe : String
  workerId : String
  artifactRefs : List ArtifactReference
  leaseSeconds : Int
  idempotencyKey : Option String

structure ValidatorExecutionInput where
  cardId : Uuid
  validatorId : String
  selectedExit : Option String
  accepted : Option Bool
  reason : Option String
  payload : JsonObj
  idempotencyKey : Option String

structure SinkResult where
  event : CardEvent
  externalReference : Option String

structure NodeExecutor (σ : Type) where
  patchPanel : PatchPanel
  runtime : CardRuntime σ
  registry : Option (PatchPanelRegistry σ)
  authorizationRepository : Option (AuthorizationRepository σ)

/-- `f"{key}{suffix}" if key else None`. -/
def suffixedKey (key : Option String) (suffix : String) : Option String :=
  (truthyStr key).map (· ++ suffix)

namespace NodeExecutor

/-! ## Reading the panel -/

def node (p : PatchPanel) (nodeId : String) (expectedType : NodeType) :
    Except PyErr NodeDefinition :=
  match p.nodes.find? (fun n => n.id = nodeId) with
  | none => .error (.notFound s!"node '{nodeId}' does not exist")
  | some n =>
    if n.type = expectedType then .ok n
    else .error (.invalidOperation
      s!"node '{nodeId}' is '{n.type.value}', not '{expectedType.value}'")

def nodeForPipe (p : PatchPanel) (pipe : String) (expectedType : NodeType) :
    Except PyErr NodeDefinition :=
  match (p.pipeBindings.get? pipe).bind PipeBinding.node with
  | none => .error (.notFound s!"pipe '{pipe}' is not bound to a node")
  | some nodeId => node p nodeId expectedType

def configuredExit (n : NodeDefinition) (key : String) : Except PyErr String :=
  match JsonObj.get? n.config key with
  | some (.str value) => .ok value
  | _ => .error (.invalidOperation s!"validator '{n.id}' requires config.{key}")

def ensureValidatorExit (p : PatchPanel) (n : NodeDefinition) (selectedExit : String) :
    Except PyErr Unit :=
  if selectedExit ∉ n.outputPipes then
    .error (.invalidOperation
      s!"exit pipe '{selectedExit}' is not declared by validator '{n.id}'")
  else match p.pipeBindings.get? selectedExit with
    | none => .error (.invalidOperation
        s!"selected exit pipe '{selectedExit}' is missing a Patch Panel binding")
    | some binding =>
      if binding.node = some n.id ∧ binding.direction = some .output then .ok ()
      else .error (.invalidOperation
        (s!"selected exit pipe '{selectedExit}' is not an output binding for validator " ++
          s!"'{n.id}'"))

def requiresSelectedExit (n : NodeDefinition) : Bool :=
  n.validatorKind = some "routing" || decide (1 < n.outputPipes.length)

def validatorAccepted (n : NodeDefinition) (request : ValidatorExecutionInput) :
    Except PyErr Bool :=
  match request.accepted, request.selectedExit with
  | some accepted, _ => .ok accepted
  | none, none => .error (.invalidOperation
      s!"validator '{n.id}' requires either accepted or selected_exit")
  | none, some selectedExit => match JsonObj.get? n.config "accept_exits" with
    | some (.list acceptExits) => .ok (acceptExits.any (Json.isStr selectedExit))
    | _ => .error (.invalidOperation
        (s!"routing validator '{n.id}' requires config.accept_exits when accepted " ++
          "is not provided"))

/-- `_egress_contract_type`, `none` for an absent or null type. -/
def egressContractType (w : World) (n : NodeDefinition) : Option String :=
  match JsonObj.get? n.config "egress_contract" with
  | some (.obj contract) => match JsonObj.get? contract "type" with
    | none | some .null => none
    | some value => some (value.pyStr w)
  | _ => none

/-- Whether a configured sink takes the registry publication branch. -/
def isRegistryPublication (n : NodeDefinition) : Bool :=
  match JsonObj.get? n.config "egress_contract" with
  | some (.obj contract) => (JsonObj.getD contract "type" .null).isStr "registry_publication"
  | _ => false

def inputBuckets (p : PatchPanel) (n : NodeDefinition) : List String :=
  n.inputPipes.filterMap fun pipe => (p.pipeBindings.get? pipe).map PipeBinding.bucket

def ensureCardAtSink (p : PatchPanel) (n : NodeDefinition) (card : Card) : Except PyErr Unit :=
  let buckets := inputBuckets p n
  if buckets = [] ∨ card.currentBucket ∈ buckets then .ok ()
  else
    let formatted := ", ".intercalate (buckets.dedup.mergeSort (fun a b => decide (a ≤ b)))
    .error (.conflict
      (s!"card '{card.id.str}' is in bucket '{card.currentBucket}', not sink input " ++
        s!"bucket(s): {formatted}"))

/-! ## Validation handlers -/

def candidateId (w : World) (payload : JsonObj) : Json :=
  match JsonObj.get? payload "candidate_definition" with
  | some (.obj candidate) => match JsonObj.get? candidate "id" with
    | none | some .null => .null
    | some value => .str (value.pyStr w)
  | _ => .null

/-- `PatchPanel.model_validate(payload.get("candidate_definition"))`. -/
def parseCandidate (w : World) (payload : JsonObj) : Except PyErr PatchPanel :=
  let value := JsonObj.getD payload "candidate_definition" .null
  match PatchPanel.ofJson value with
  | some candidate => .ok candidate
  | none => .error (.value (w.schemaError "PatchPanel" value))

def parseOnboarding (w : World) (now : Instant) (payload : JsonObj) :
    Except PyErr ParticipantOnboardingPayload :=
  match ParticipantOnboardingPayload.ofJson w now payload with
  | some onboarding => .ok onboarding
  | none => .error (.value (w.schemaError "ParticipantOnboardingPayload" (.obj payload)))

def validationErrors : PyErr → List String
  | .validation errors => errors
  | e => [e.message]

/-- The verdict of the topology handler on a card. -/
def topologyVerdict (w : World) (validExit invalidExit : String)
    (request : ValidatorExecutionInput) (card : Card) : Except PyErr ValidatorExecutionInput :=
  let outcome := do
    let candidate ← parseCandidate w card.payload
    let report ← PatchPanelValidator.validate w candidate
    return (candidate, report)
  match outcome with
  | .ok (candidate, report) => .ok
      { request with
        accepted := some true
        selectedExit := some validExit
        reason := some ((truthyStr request.reason).getD "Patch Panel topology validation passed")
        payload := JsonObj.update request.payload
          [("validation_handler", .str "patch_panel_topology"),
            ("candidate_patch_panel_id", .str candidate.id),
            ("node_count", .int report.nodeCount), ("edge_count", .int report.edgeCount),
            ("cycles", .list (report.cycles.map Json.ofStrings))] }
  | .error e =>
    if e.isValueError then .ok
      { request with
        accepted := some false
        selectedExit := some invalidExit
        reason := some e.message
        payload := JsonObj.update request.payload
          [("validation_handler", .str "patch_panel_topology"),
            ("candidate_patch_panel_id", candidateId w card.payload),
            ("errors", Json.ofStrings (validationErrors e))] }
    else .error e

/-- The verdict of the onboarding handler on a card. -/
def onboardingVerdict (w : World) (now : Instant) (validExit invalidExit : String)
    (request : ValidatorExecutionInput) (card : Card) : ValidatorExecutionInput :=
  match parseOnboarding w now card.payload with
  | .ok onboarding =>
    { request with
      accepted := some true
      selectedExit := some validExit
      reason := some ((truthyStr request.reason).getD "Participant onboarding payload is compliant")
      payload := JsonObj.update request.payload
        [("validation_handler", .str "participant_onboarding_compliance"),
          ("participant_id", .str onboarding.participant.id),
          ("role_assignment_count", .int onboarding.roleAssignments.length)] }
  | .error e =>
    { request with
      accepted := some false
      selectedExit := some invalidExit
      reason := some e.message
      payload := JsonObj.update request.payload
        [("validation_handler", .str "participant_onboarding_compliance"),
          ("errors", Json.ofStrings [e.message])] }

def hasHandler (n : NodeDefinition) (handler : String) : Bool :=
  (JsonObj.getD n.config "validation_handler" .null).isStr handler

/-- A request that already decides is left as it is by both handlers. -/
def decided (request : ValidatorExecutionInput) : Bool :=
  request.accepted.isSome || request.selectedExit.isSome

section Operations
variable {σ : Type} (x : NodeExecutor σ)

def topologyValidationRequest (n : NodeDefinition) (request : ValidatorExecutionInput) :
    Op σ ValidatorExecutionInput :=
  if decided request then return request
  else do
    let card ← x.runtime.getCard request.cardId
    let validExit ← Op.ofExcept (configuredExit n "valid_exit")
    let invalidExit ← Op.ofExcept (configuredExit n "invalid_exit")
    let w ← Op.world
    Op.ofExcept (topologyVerdict w validExit invalidExit request card)

def participantOnboardingRequest (n : NodeDefinition) (request : ValidatorExecutionInput) :
    Op σ ValidatorExecutionInput :=
  if decided request then return request
  else do
    let card ← x.runtime.getCard request.cardId
    let validExit ← Op.ofExcept (configuredExit n "valid_exit")
    let invalidExit ← Op.ofExcept (configuredExit n "invalid_exit")
    let w ← Op.world
    let now ← Op.now
    return onboardingVerdict w now validExit invalidExit request card

/-! ## Nodes -/

def executeSource (sourceId : String) (payload : JsonObj) (metadata : Option JsonObj)
    (idempotencyKey : Option String) : Op σ Card := do
  let n ← Op.ofExcept (node x.patchPanel sourceId .source)
  let card ← x.runtime.createCard x.patchPanel.id payload (some (metadata.getD [])) idempotencyKey
  let _ ← x.runtime.recordEvent card.id "source_executed" (some n.id)
    (some [("source_id", .str n.id)]) (suffixedKey idempotencyKey ":source")
  return card

def executeWorker (request : WorkerExecutionInput) : Op σ (List ArtifactReference) := do
  let n ← Op.ofExcept (nodeForPipe x.patchPanel request.inputPipe .worker)
  let lease ← x.runtime.claimCard request.inputPipe request.workerId request.leaseSeconds
    (suffixedKey request.idempotencyKey ":claim")
  let refs ← x.runtime.submitArtifact lease.id request.outputPipe request.artifactRefs
    (suffixedKey request.idempotencyKey ":submit")
  Op.ensure (!refs.isEmpty)
    (.invalidOperation "worker execution produced no artifact references")
  let history ← x.runtime.cardHistory lease.cardId
  match history.getLast? with
  | none => Op.raise (.index "list index out of range")
  | some event => match x.patchPanel.pipeBindings.get? request.outputPipe with
    | none => Op.raise (.key s!"'{request.outputPipe}'")
    | some binding => do
      let eventNodeId := binding.node.getD "None"
      Op.ensure (binding.node = some n.id)
        (.invalidOperation
          (s!"worker pipe '{request.inputPipe}' resolved to '{n.id}' but output pipe " ++
            s!"was bound to '{eventNodeId}'"))
      Op.ensure (event.eventType = "artifact_submitted")
        (.invalidOperation "worker execution did not submit artifacts")
      return refs

/-- The request as the configured handlers leave it. -/
def handledRequest (n : NodeDefinition) (request : ValidatorExecutionInput) :
    Op σ ValidatorExecutionInput := do
  let request ←
    if hasHandler n "patch_panel_topology" then x.topologyValidationRequest n request
    else pure request
  if hasHandler n "participant_onboarding_compliance" then
    x.participantOnboardingRequest n request
  else return request

/-- The checks on the selected exit. -/
def ensureExit (n : NodeDefinition) (selectedExit : Option String) : Except PyErr Unit :=
  match selectedExit with
  | none =>
    if requiresSelectedExit n then
      .error (.invalidOperation s!"routing validator '{n.id}' requires selected_exit")
    else .ok ()
  | some exit => ensureValidatorExit x.patchPanel n exit

def executeValidator (request : ValidatorExecutionInput) : Op σ CardEvent := do
  let n ← Op.ofExcept (node x.patchPanel request.validatorId .validator)
  let request ← x.handledRequest n request
  Op.ofExcept (x.ensureExit n request.selectedExit)
  let accepted ← Op.ofExcept (validatorAccepted n request)
  x.runtime.validateCard request.cardId n.id accepted request.reason request.selectedExit
    (some request.payload) request.idempotencyKey

end Operations

/-! ## Sinks -/

/-- A `card_validated` event in which the actor accepted through the exit. -/
def approves (actor exit : String) (e : CardEvent) : Bool :=
  e.eventType = "card_validated" && e.actorId = some actor &&
    (JsonObj.getD e.payload "accepted" .null).isTrue &&
    (JsonObj.getD e.payload "output_pipe" .null).isStr exit

def publicationApproved (history : List CardEvent) : Bool :=
  history.any (approves "topological_validator" "topology_valid") &&
    history.any (approves "governance_reviewer" "proposal_approved")

def provisioningApproved (history : List CardEvent) : Bool :=
  history.any (approves "registration_compliance_validator" "registration_compliant") &&
    history.any (approves "registration_admin_reviewer" "registration_approved")

section Sinks
variable {σ : Type} (x : NodeExecutor σ)

def ensureRegistryPublicationHistory (card : Card) : Op σ Unit := do
  let history ← x.runtime.cardHistory card.id
  Op.ensure (publicationApproved history)
    (.conflict
      "registry publication requires topology validation and governance approval history")

def ensureAuthorityProvisioningHistory (card : Card) : Op σ Unit := do
  let history ← x.runtime.cardHistory card.id
  Op.ensure (provisioningApproved history)
    (.conflict
      "authority provisioning requires compliance validation and admin approval history")

def parseRegistryMetadata (w : World) (payload : JsonObj) :
    Except PyErr PatchPanelRegistryMetadata :=
  let value := JsonObj.getD payload "registry_metadata" .null
  match PatchPanelRegistryMetadata.ofJson value with
  | some metadata => .ok metadata
  | none => .error (.value (w.schemaError "PatchPanelRegistryMetadata" value))

def executeAuthorityProvisioningSink (card : Card) (externalReference : Option String) :
    Op σ (Option String) :=
  match x.authorizationRepository with
  | none => Op.raise (.invalidOperation
      "Authorization repository unavailable for system provisioning")
  | some repository => do
    x.ensureAuthorityProvisioningHistory card
    let w ← Op.world
    let now ← Op.now
    let onboarding ← Op.ofExcept (parseOnboarding w now card.payload)
    repository.upsertParticipant onboarding.participant
    Exec.forEach (fun (a : OnboardingRoleAssignmentPayload) => do
      let _ ← ensureBuiltinRoleAssignment repository onboarding.participant.id a.roleName
        a.scope a.assignedBy
      return ()) onboarding.roleAssignments
    return some ((truthyStr externalReference).getD onboarding.participant.id)

def publishedEntry (registry : PatchPanelRegistry σ) (n : NodeDefinition) (card : Card)
    (candidate : PatchPanel) (metadata : PatchPanelRegistryMetadata) :
    Op σ PatchPanelRegistryEntry := do
  let entries ← registry.search
    { PatchPanelRegistrySearch.any with includeArchived := true, includeSuperseded := true }
  match entries.find? (fun e =>
      e.patchPanelId = candidate.id && e.version = candidate.version) with
  | some existing => return existing
  | none => do
    let entry ← PatchPanelRegistryEntry.fromPatchPanel candidate
      { metadata with status := .published }
      [("proposal_card_id", .str card.id.str), ("published_by_sink", .str n.id),
        ("genesis_intent_id", JsonObj.getD card.payload "genesis_intent_id" .null)]
    registry.register entry

def executeRegistryPublication (n : NodeDefinition) (card : Card)
    (externalReference : Option String) : Op σ (Option String) :=
  match x.registry with
  | none => Op.raise (.invalidOperation "registry publication sink requires a registry")
  | some registry => do
    x.ensureRegistryPublicationHistory card
    let w ← Op.world
    let candidate ← Op.ofExcept (parseCandidate w card.payload)
    let metadata ← Op.ofExcept (parseRegistryMetadata w card.payload)
    let _ ← x.runtime.registerPatchPanel candidate
    let entry ← publishedEntry registry n card candidate metadata
    return some ((truthyStr externalReference).getD entry.id.str)

def executeConfiguredSink (n : NodeDefinition) (card : Card)
    (externalReference : Option String) : Op σ (Option String) :=
  if n.id = "authority_provisioner_sink" then
    x.executeAuthorityProvisioningSink card externalReference
  else if isRegistryPublication n then x.executeRegistryPublication n card externalReference
  else return externalReference

def ensureShadowEgress (n : NodeDefinition) (card : Card) : Except PyErr Unit :=
  if (JsonObj.getD card.metadata "shadow" .null).truthy &&
      !(JsonObj.getD n.config "allow_shadow_egress" (.bool false)).truthy then
    .error (.invalidOperation "shadow cards cannot execute production sinks")
  else .ok ()

def sinkPayload (w : World) (n : NodeDefinition) (externalReference : Option String) : JsonObj :=
  [("sink_id", .str n.id), ("external_reference", Json.ofOptionStr externalReference),
    ("registry_entry_id", if egressContractType w n = some "registry_publication" then
      Json.ofOptionStr externalReference else .null),
    ("egress_contract", JsonObj.getD n.config "egress_contract" .null),
    ("egress_idempotency", JsonObj.getD n.config "egress_idempotency" .null)]

def executeSink (cardId : Uuid) (sinkId : String) (externalReference idempotencyKey : Option String) :
    Op σ SinkResult := do
  let n ← Op.ofExcept (node x.patchPanel sinkId .sink)
  let card ← x.runtime.getCard cardId
  Op.ofExcept (ensureShadowEgress n card)
  Op.ofExcept (ensureCardAtSink x.patchPanel n card)
  let externalReference ← x.executeConfiguredSink n card externalReference
  let w ← Op.world
  let event ← x.runtime.recordEvent cardId "sink_executed" (some n.id)
    (some (sinkPayload w n externalReference)) idempotencyKey
  return { event, externalReference }

end Sinks

end NodeExecutor

end GhostMesh
