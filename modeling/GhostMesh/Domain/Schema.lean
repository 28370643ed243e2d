import GhostMesh.Domain.Models

/-!
# Reading and writing records as JSON

`model_validate` field by field, in pydantic's lax mode, and `model_dump`. A decoder
returns `none` where pydantic raises; the text of that error is the world's.
-/

set_option autoImplicit false

namespace GhostMesh

/-! ## Field decoders -/

namespace Decode

variable {α : Type}

def str : Json → Option String
  | .str s => some s
  | _ => none

/-- `X | None`. -/
def opt (f : Json → Option α) : Json → Option (Option α)
  | .null => some none
  | j => (f j).map some

/-- A `bool` field: booleans, the numbers 0 and 1, and the usual words in any case. -/
def bool : Json → Option Bool
  | .bool b => some b
  | .int n => if n = 0 then some false else if n = 1 then some true else none
  | .float (.finite m e) => if m = 0 then some false
      else if m * 2 ^ e.toNat = 2 ^ (-e).toNat then some true else none
  | .float _ => none
  | .str s =>
    let word := s.toLower
    if word ∈ ["0", "off", "f", "false", "n", "no"] then some false
    else if word ∈ ["1", "on", "t", "true", "y", "yes"] then some true else none
  | _ => none

def all (f : Json → Option α) : List Json → Option (List α)
  | [] => some []
  | j :: js => do
    let a ← f j
    let as ← all f js
    return a :: as

def list (f : Json → Option α) : Json → Option (List α)
  | .list js => all f js
  | _ => none

def obj : Json → Option JsonObj
  | .obj o => some o
  | _ => none

def entries (f : Json → Option α) : JsonObj → Option (Dict String α)
  | [] => some Dict.empty
  | (key, j) :: rest => do
    let a ← f j
    let d ← entries f rest
    return d.set key a

/-- `dict[str, X]`; entries keep their order. -/
def dict (f : Json → Option α) : Json → Option (Dict String α)
  | .obj o => entries f o.reverse
  | _ => none

/-- A `StrEnum` field, by value. -/
def enum (all : List α) (value : α → String) : Json → Option α
  | .str s => all.find? (fun a => value a = s)
  | _ => none

def field (o : JsonObj) (key : String) (f : Json → Option α) : Option α :=
  (JsonObj.get? o key).bind f

def fieldD (o : JsonObj) (key : String) (default : α) (f : Json → Option α) : Option α :=
  match JsonObj.get? o key with
  | some j => f j
  | none => some default

/-- `extra="forbid"`. -/
def onlyKeys (o : JsonObj) (keys : List String) : Option Unit :=
  if o.all (fun e => keys.contains e.1) then some () else none

end Decode

open Decode

/-! ## Patch Panels -/

def AcceptanceContract.ofJson : Json → Option AcceptanceContract
  | .obj o => do
    onlyKeys o ["id", "description", "schema_ref", "rules"]
    let id ← field o "id" str
    let description ← field o "description" str
    let schemaRef ← fieldD o "schema_ref" none (opt str)
    let rules ← fieldD o "rules" [] (list obj)
    return { id, description, schemaRef, rules }
  | _ => none

def BucketDefinition.ofJson : Json → Option BucketDefinition
  | .obj o => do
    onlyKeys o ["id", "description", "input_requirements", "output_requirements",
      "acceptance_contract", "shadow_eligible"]
    let id ← field o "id" str
    let description ← fieldD o "description" none (opt str)
    let inputRequirements ← fieldD o "input_requirements" [] (list str)
    let outputRequirements ← fieldD o "output_requirements" [] (list str)
    let acceptanceContract ← fieldD o "acceptance_contract" none (opt str)
    let shadowEligible ← fieldD o "shadow_eligible" false bool
    return { id, description, inputRequirements, outputRequirements, acceptanceContract,
             shadowEligible }
  | _ => none

def NodeDefinition.ofJson : Json → Option NodeDefinition
  | .obj o => do
    onlyKeys o ["id", "type", "validator_kind", "description", "input_pipes", "output_pipes",
      "acceptance_contract", "config"]
    let id ← field o "id" str
    let type ← field o "type" (enum NodeType.all NodeType.value)
    let validatorKind ← fieldD o "validator_kind" none (opt str)
    let description ← fieldD o "description" none (opt str)
    let inputPipes ← fieldD o "input_pipes" [] (list str)
    let outputPipes ← fieldD o "output_pipes" [] (list str)
    let acceptanceContract ← fieldD o "acceptance_contract" none (opt str)
    let config ← fieldD o "config" [] obj
    return { id, type, validatorKind, description, inputPipes, outputPipes, acceptanceContract,
             config }
  | _ => none

/-- The key under which an aliased field is looked up: the alias first, then the name.
Giving both leaves the name over as an extra key. -/
def aliasedKey (o : JsonObj) (alias_ name : String) : String :=
  if (JsonObj.get? o alias_).isSome then alias_ else name

def EdgeDefinition.ofJson : Json → Option EdgeDefinition
  | .obj o => do
    let fromKey := aliasedKey o "from" "from_node"
    let toKey := aliasedKey o "to" "to_node"
    onlyKeys o [fromKey, toKey, "on", "condition"]
    let fromNode ← field o fromKey str
    let toNode ← field o toKey str
    let on ← field o "on" str
    let condition ← fieldD o "condition" none (opt obj)
    return { fromNode, toNode, on, condition }
  | _ => none

def PipeBinding.ofJson : Json → Option PipeBinding
  | .obj o => do
    onlyKeys o ["bucket", "node", "direction"]
    let bucket ← field o "bucket" str
    let node ← fieldD o "node" none (opt str)
    let direction ← fieldD o "direction" none (opt (enum [.input, .output] Direction.value))
    return { bucket, node, direction }
  | _ => none

/-- `validate_unique_local_ids` is the condition on the last line. -/
def PatchPanel.ofJson : Json → Option PatchPanel
  | .obj o => do
    onlyKeys o ["id", "version", "description", "buckets", "nodes", "edges", "pipe_bindings",
      "acceptance_contracts", "metadata"]
    let id ← field o "id" str
    let version ← field o "version" str
    let description ← fieldD o "description" none (opt str)
    let buckets ← field o "buckets" (list BucketDefinition.ofJson)
    let nodes ← field o "nodes" (list NodeDefinition.ofJson)
    let edges ← field o "edges" (list EdgeDefinition.ofJson)
    let pipeBindings ← fieldD o "pipe_bindings" Dict.empty (dict PipeBinding.ofJson)
    let acceptanceContracts ← fieldD o "acceptance_contracts" [] (list AcceptanceContract.ofJson)
    let metadata ← fieldD o "metadata" [] obj
    if h : (buckets.map (·.id)).Nodup ∧ (nodes.map (·.id)).Nodup ∧
        (acceptanceContracts.map (·.id)).Nodup then
      return { id, version, description, buckets, nodes, edges, pipeBindings,
               acceptanceContracts, metadata, uniqueBuckets := h.1, uniqueNodes := h.2.1,
               uniqueContracts := h.2.2 }
    else none
  | _ => none

def AcceptanceContract.toJson (c : AcceptanceContract) : Json :=
  .obj [("id", .str c.id), ("description", .str c.description),
    ("schema_ref", Json.ofOptionStr c.schemaRef), ("rules", .list (c.rules.map .obj))]

def BucketDefinition.toJson (b : BucketDefinition) : Json :=
  .obj [("id", .str b.id), ("description", Json.ofOptionStr b.description),
    ("input_requirements", Json.ofStrings b.inputRequirements),
    ("output_requirements", Json.ofStrings b.outputRequirements),
    ("acceptance_contract", Json.ofOptionStr b.acceptanceContract),
    ("shadow_eligible", .bool b.shadowEligible)]

def NodeDefinition.toJson (n : NodeDefinition) : Json :=
  .obj [("id", .str n.id), ("type", .str n.type.value),
    ("validator_kind", Json.ofOptionStr n.validatorKind),
    ("description", Json.ofOptionStr n.description),
    ("input_pipes", Json.ofStrings n.inputPipes), ("output_pipes", Json.ofStrings n.outputPipes),
    ("acceptance_contract", Json.ofOptionStr n.acceptanceContract), ("config", .obj n.config)]

/-- Dumped under field names, not aliases. -/
def EdgeDefinition.toJson (e : EdgeDefinition) : Json :=
  .obj [("from_node", .str e.fromNode), ("to_node", .str e.toNode), ("on", .str e.on),
    ("condition", match e.condition with
      | some o => .obj o
      | none => .null)]

def PipeBinding.toJson (b : PipeBinding) : Json :=
  .obj [("bucket", .str b.bucket), ("node", Json.ofOptionStr b.node),
    ("direction", Json.ofOptionStr (b.direction.map Direction.value))]

def PatchPanel.toJson (p : PatchPanel) : Json :=
  .obj [("id", .str p.id), ("version", .str p.version),
    ("description", Json.ofOptionStr p.description),
    ("buckets", .list (p.buckets.map BucketDefinition.toJson)),
    ("nodes", .list (p.nodes.map NodeDefinition.toJson)),
    ("edges", .list (p.edges.map EdgeDefinition.toJson)),
    ("pipe_bindings", .obj (p.pipeBindings.entries.map fun e => (e.1, e.2.toJson))),
    ("acceptance_contracts", .list (p.acceptanceContracts.map AcceptanceContract.toJson)),
    ("metadata", .obj p.metadata)]

/-! ## Registry metadata -/

def PatchPanelRegistryMetadata.ofJson : Json → Option PatchPanelRegistryMetadata
  | .obj o => do
    onlyKeys o ["name", "description", "tags", "input_types", "output_types", "required_tools",
      "required_permissions", "risk_level", "estimated_cost", "estimated_latency",
      "owner_participant_id", "status"]
    let name ← field o "name" str
    let description ← fieldD o "description" none (opt str)
    let tags ← fieldD o "tags" [] (list str)
    let inputTypes ← fieldD o "input_types" [] (list str)
    let outputTypes ← fieldD o "output_types" [] (list str)
    let requiredTools ← fieldD o "required_tools" [] (list str)
    let requiredPermissions ← fieldD o "required_permissions" []
      (list (enum PermissionName.all PermissionName.value))
    let riskLevel ← fieldD o "risk_level" none (opt str)
    let estimatedCost ← fieldD o "estimated_cost" none (opt str)
    let estimatedLatency ← fieldD o "estimated_latency" none (opt str)
    let ownerParticipantId ← fieldD o "owner_participant_id" none (opt str)
    let status ← fieldD o "status" .draft
      (enum PatchPanelRegistryStatus.all PatchPanelRegistryStatus.value)
    return { name, description, tags, inputTypes, outputTypes, requiredTools,
             requiredPermissions, riskLevel, estimatedCost, estimatedLatency,
             ownerParticipantId, status }
  | _ => none

def PatchPanelRegistryMetadata.toJson (d : PatchPanelRegistryMetadata) : Json :=
  .obj [("name", .str d.name), ("description", Json.ofOptionStr d.description),
    ("tags", Json.ofStrings d.tags), ("input_types", Json.ofStrings d.inputTypes),
    ("output_types", Json.ofStrings d.outputTypes),
    ("required_tools", Json.ofStrings d.requiredTools),
    ("required_permissions", Json.ofStrings (d.requiredPermissions.map PermissionName.value)),
    ("risk_level", Json.ofOptionStr d.riskLevel),
    ("estimated_cost", Json.ofOptionStr d.estimatedCost),
    ("estimated_latency", Json.ofOptionStr d.estimatedLatency),
    ("owner_participant_id", Json.ofOptionStr d.ownerParticipantId),
    ("status", .str d.status.value)]

/-! ## Onboarding payloads -/

def Scope.ofJson : Json → Option Scope
  | .obj o => do
    onlyKeys o ["type", "id"]
    let type ← field o "type" (enum ScopeType.all ScopeType.value)
    let id ← fieldD o "id" none (opt str)
    Scope.make? type id
  | _ => none

/-- `now` is the reading that fills in a missing `created_at`. -/
def Participant.ofJson (w : World) (now : Instant) : Json → Option Participant
  | .obj o => do
    onlyKeys o ["id", "type", "display_name", "status", "trust_level", "auth_method", "metadata",
      "created_at", "archived_at"]
    let id ← field o "id" str
    let type ← field o "type" (enum ParticipantType.all ParticipantType.value)
    let displayName ← fieldD o "display_name" none (opt str)
    let status ← fieldD o "status" .active (enum ParticipantStatus.all ParticipantStatus.value)
    let trustLevel ← fieldD o "trust_level" none (opt str)
    let authMethod ← fieldD o "auth_method" none (opt str)
    let metadata ← fieldD o "metadata" [] obj
    let createdAt ← fieldD o "created_at" now w.parseDatetime
    let archivedAt ← fieldD o "archived_at" none (opt w.parseDatetime)
    return { id, type, displayName, status, trustLevel, authMethod, metadata, createdAt,
             archivedAt }
  | _ => none

structure OnboardingRoleAssignmentPayload where
  roleName : RoleName
  scope : Scope
  assignedBy : Option String

structure ParticipantOnboardingPayload where
  participant : Participant
  roleAssignments : List OnboardingRoleAssignmentPayload

/-- Extra keys are ignored here and in the payload as a whole. -/
def OnboardingRoleAssignmentPayload.ofJson : Json → Option OnboardingRoleAssignmentPayload
  | .obj o => do
    let roleName ← field o "role_name" (enum RoleName.all RoleName.value)
    let scope ← field o "scope" Scope.ofJson
    let assignedBy ← fieldD o "assigned_by" none (opt str)
    return { roleName, scope, assignedBy }
  | _ => none

def ParticipantOnboardingPayload.ofJson (w : World) (now : Instant) (o : JsonObj) :
    Option ParticipantOnboardingPayload := do
  let participant ← field o "participant" (Participant.ofJson w now)
  let roleAssignments ← field o "role_assignments" (list OnboardingRoleAssignmentPayload.ofJson)
  if roleAssignments = [] then none else return { participant, roleAssignments }

end GhostMesh
