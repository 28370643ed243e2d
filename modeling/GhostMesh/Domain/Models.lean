import GhostMesh.Domain.Authority

/-!
# Domain records

Patch Panels, cards, leases, events and registry entries, field by field. A
`PatchPanel` carries the uniqueness of its local ids, which its model validator
checks at construction.
-/

set_option autoImplicit false

namespace GhostMesh

inductive NodeType where
  | source | worker | validator | learning | sink | subworkflow
deriving DecidableEq

def NodeType.value : NodeType → String
  | .source => "source"
  | .worker => "worker"
  | .validator => "validator"
  | .learning => "learning"
  | .sink => "sink"
  | .subworkflow => "subworkflow"

def NodeType.all : List NodeType := [.source, .worker, .validator, .learning, .sink, .subworkflow]

inductive MutationStatus where
  | proposed | shadowing | validated | rejected | promoted
deriving DecidableEq

inductive PatchPanelRegistryStatus where
  | draft | review | approved | published | archived | superseded
deriving DecidableEq

def PatchPanelRegistryStatus.value : PatchPanelRegistryStatus → String
  | .draft => "draft"
  | .review => "review"
  | .approved => "approved"
  | .published => "published"
  | .archived => "archived"
  | .superseded => "superseded"

def PatchPanelRegistryStatus.all : List PatchPanelRegistryStatus :=
  [.draft, .review, .approved, .published, .archived, .superseded]

inductive GenesisIntentStatus where
  | received | launched | designRequired | proposed
deriving DecidableEq

structure AcceptanceContract where
  id : String
  description : String
  schemaRef : Option String
  rules : List JsonObj

structure BucketDefinition where
  id : String
  description : Option String
  inputRequirements : List String
  outputRequirements : List String
  acceptanceContract : Option String
  shadowEligible : Bool

structure NodeDefinition where
  id : String
  type : NodeType
  validatorKind : Option String
  description : Option String
  inputPipes : List String
  outputPipes : List String
  acceptanceContract : Option String
  config : JsonObj

structure EdgeDefinition where
  fromNode : String
  toNode : String
  on : String
  condition : Option JsonObj

inductive Direction where
  | input | output
deriving DecidableEq

def Direction.value : Direction → String
  | .input => "input"
  | .output => "output"

structure PipeBinding where
  bucket : String
  node : Option String
  direction : Option Direction

structure PatchPanel where
  id : String
  version : String
  description : Option String
  buckets : List BucketDefinition
  nodes : List NodeDefinition
  edges : List EdgeDefinition
  pipeBindings : Dict String PipeBinding
  acceptanceContracts : List AcceptanceContract
  metadata : JsonObj
  uniqueBuckets : (buckets.map (·.id)).Nodup
  uniqueNodes : (nodes.map (·.id)).Nodup
  uniqueContracts : (acceptanceContracts.map (·.id)).Nodup

/-- `f"{id}:{version}"`. -/
def PatchPanel.workflowVersion (p : PatchPanel) : String := p.id ++ ":" ++ p.version

/-- The pipes a node declares for a direction. -/
def NodeDefinition.pipes (n : NodeDefinition) : Direction → List String
  | .input => n.inputPipes
  | .output => n.outputPipes

structure ArtifactReference where
  id : Uuid
  cardId : Uuid
  eventId : Option Uuid
  storageRef : String
  contentHash : String
  contentType : String
  sizeBytes : Int
  metadata : JsonObj
  createdAt : Instant

structure Lease where
  id : Uuid
  cardId : Uuid
  nodeId : String
  workerId : String
  inputPipe : String
  claimedAt : Instant
  expiresAt : Instant
  releasedAt : Option Instant
deriving DecidableEq

structure CardEvent where
  id : Uuid
  cardId : Uuid
  eventType : String
  actorId : Option String
  payload : JsonObj
  occurredAt : Instant

structure Card where
  id : Uuid
  workflowVersion : String
  currentBucket : String
  payload : JsonObj
  metadata : JsonObj
  createdAt : Instant

structure ShadowCardLink where
  id : Uuid
  productionCardId : Uuid
  shadowCardId : Uuid
  candidateId : String
  status : String
  metrics : JsonObj
  createdAt : Instant

structure ProposedMutation where
  id : Uuid
  mutationType : String
  proposedBy : String
  payload : JsonObj
  status : MutationStatus
  createdAt : Instant
  validatedAt : Option Instant
  promotedAt : Option Instant

structure PatchPanelRegistryMetadata where
  name : String
  description : Option String
  tags : List String
  inputTypes : List String
  outputTypes : List String
  requiredTools : List String
  requiredPermissions : List PermissionName
  riskLevel : Option String
  estimatedCost : Option String
  estimatedLatency : Option String
  ownerParticipantId : Option String
  status : PatchPanelRegistryStatus

structure PatchPanelRegistryEntry where
  id : Uuid
  patchPanelId : String
  version : String
  name : String
  description : Option String
  tags : List String
  inputTypes : List String
  outputTypes : List String
  requiredTools : List String
  requiredPermissions : List PermissionName
  riskLevel : Option String
  estimatedCost : Option String
  estimatedLatency : Option String
  ownerParticipantId : Option String
  status : PatchPanelRegistryStatus
  supersedesEntryId : Option Uuid
  metadata : JsonObj
  createdAt : Instant
  updatedAt : Instant
  archivedAt : Option Instant

structure GenesisIntentConstraints where
  riskLevel : Option String
  maxLatency : Option String
  requiresHumanApproval : Bool
  metadata : JsonObj

structure GenesisIntent where
  id : Uuid
  requestedBy : String
  deduplicationKey : String
  goal : String
  inputType : String
  desiredOutputs : List String
  tags : List String
  constraints : GenesisIntentConstraints
  launchIfExisting : Bool
  proposeIfMissing : Bool
  status : GenesisIntentStatus
  candidateRegistryEntryIds : List Uuid
  selectedRegistryEntryId : Option Uuid
  launchedCardId : Option Uuid
  proposalCardId : Option Uuid
  createdAt : Instant
  updatedAt : Instant
  metadata : JsonObj

end GhostMesh
