import GhostMesh.Domain.Schema
import GhostMesh.Registry.Service
import GhostMesh.Runtime.Service

/-!
# Intent-driven genesis
-/

set_option autoImplicit false

namespace GhostMesh

structure GenesisStore where
  intents : Dict Uuid GenesisIntent
  deduplicationIndex : Dict String Uuid

def GenesisStore.init : GenesisStore := ⟨Dict.empty, Dict.empty⟩

/-- The service on a store that contains a runtime, a registry and the service's own
records. -/
structure GenesisService (σ : Type) where
  runtime : CardRuntime σ
  registry : PatchPanelRegistry σ
  store : Component σ GenesisStore

def systemPpApprovalId : String := "system_pp_approval"

structure ReceiveIntent where
  requestedBy : String
  deduplicationKey : String
  goal : String
  inputType : String
  desiredOutputs : List String
  tags : List String
  constraints : GenesisIntentConstraints
  launchIfExisting : Bool
  proposeIfMissing : Bool
  metadata : JsonObj

def GenesisIntentConstraints.toJson (c : GenesisIntentConstraints) : Json :=
  .obj [("risk_level", Json.ofOptionStr c.riskLevel),
    ("max_latency", Json.ofOptionStr c.maxLatency),
    ("requires_human_approval", .bool c.requiresHumanApproval), ("metadata", .obj c.metadata)]

/-- Append the entries that have not been seen yet. -/
def addUnseen (candidates entries : List PatchPanelRegistryEntry) :
    List PatchPanelRegistryEntry :=
  entries.foldl (fun acc e => if e.id ∈ acc.map (·.id) then acc else acc ++ [e]) candidates

namespace GenesisService

variable {σ : Type} (x : GenesisService σ)

def get (intentId : Uuid) : Op σ GenesisIntent := do
  let s ← Op.on x.store Op.get
  match s.intents.get? intentId with
  | some intent => return intent
  | none => Op.raise (.notFound s!"genesis intent '{intentId.str}' does not exist")

def putIntent (intent : GenesisIntent) : Op σ Unit :=
  Op.on x.store (Op.modify fun s => { s with intents := s.intents.set intent.id intent })

def searchFilters (intent : GenesisIntent) : List PatchPanelRegistrySearch :=
  { PatchPanelRegistrySearch.any with inputType := some intent.inputType } ::
    (intent.desiredOutputs.map fun output =>
      { PatchPanelRegistrySearch.any with outputType := some output }) ++
    (intent.tags.map fun tag => { PatchPanelRegistrySearch.any with tag := some tag }) ++
    match truthyStr intent.constraints.riskLevel with
    | some level => [{ PatchPanelRegistrySearch.any with riskLevel := some level }]
    | none => []

def searchEach (candidates : List PatchPanelRegistryEntry) :
    List PatchPanelRegistrySearch → Op σ (List PatchPanelRegistryEntry)
  | [] => return candidates
  | filters :: rest => do
    let entries ← x.registry.search filters
    searchEach (addUnseen candidates entries) rest

def searchCandidates (intent : GenesisIntent) : Op σ (List PatchPanelRegistryEntry) :=
  x.searchEach [] (searchFilters intent)

/-- `GenesisIntent(...)`; the key and the goal must not be empty. -/
def newIntent (r : ReceiveIntent) : Op σ GenesisIntent := do
  let w ← Op.world
  let id ← Op.uuid4
  let createdAt ← Op.now
  let updatedAt ← Op.now
  Op.ensure (r.deduplicationKey ≠ "" && r.goal ≠ "")
    (.value (w.schemaError "GenesisIntent"
      (.obj [("deduplication_key", .str r.deduplicationKey), ("goal", .str r.goal)])))
  return { id, requestedBy := r.requestedBy, deduplicationKey := r.deduplicationKey,
           goal := r.goal, inputType := r.inputType, desiredOutputs := r.desiredOutputs,
           tags := r.tags, constraints := r.constraints, launchIfExisting := r.launchIfExisting,
           proposeIfMissing := r.proposeIfMissing, status := .received,
           candidateRegistryEntryIds := [], selectedRegistryEntryId := none,
           launchedCardId := none, proposalCardId := none, createdAt, updatedAt,
           metadata := r.metadata }

/-- The status an intent gets from its candidates. -/
def withCandidates (intent : GenesisIntent) (candidates : List PatchPanelRegistryEntry) :
    Op σ GenesisIntent := do
  let intent := { intent with candidateRegistryEntryIds := candidates.map (·.id) }
  if candidates.isEmpty && intent.proposeIfMissing then do
    let updatedAt ← Op.now
    return { intent with status := .designRequired, updatedAt }
  else return intent

def receiveIntent (r : ReceiveIntent) : Op σ GenesisIntent := do
  let s ← Op.on x.store Op.get
  match s.deduplicationIndex.get? r.deduplicationKey with
  | some intentId => x.get intentId
  | none => do
    let intent ← newIntent r
    let candidates ← x.searchCandidates intent
    let intent ← withCandidates intent candidates
    x.putIntent intent
    Op.on x.store (Op.modify fun s =>
      { s with deduplicationIndex := s.deduplicationIndex.set r.deduplicationKey intent.id })
    return intent

/-- `registry_entry_id or (candidate_ids[0] if candidate_ids else None)`. -/
def selectedId (intent : GenesisIntent) (registryEntryId : Option Uuid) : Option Uuid :=
  registryEntryId.or intent.candidateRegistryEntryIds.head?

def launch (intentId : Uuid) (registryEntryId : Option Uuid) : Op σ Card := do
  let intent ← x.get intentId
  match selectedId intent registryEntryId with
  | none => Op.raise (.conflict "genesis intent has no registry candidate to launch")
  | some selected => do
    let entry ← x.registry.get selected
    let card ← x.runtime.createCard entry.patchPanelId
      [("goal", .str intent.goal), ("input_type", .str intent.inputType),
        ("desired_outputs", Json.ofStrings intent.desiredOutputs),
        ("tags", Json.ofStrings intent.tags), ("constraints", intent.constraints.toJson)]
      (some [("genesis_intent_id", .str intent.id.str), ("registry_entry_id", .str entry.id.str),
        ("requested_by", .str intent.requestedBy)])
      (some s!"genesis:launch:{intent.deduplicationKey}:{entry.id.str}")
    let updatedAt ← Op.now
    x.putIntent { intent with
      status := .launched, selectedRegistryEntryId := some entry.id,
      launchedCardId := some card.id, updatedAt }
    return card

def propose (intentId : Uuid) (proposedBy : String) (candidateDefinition : PatchPanel)
    (registryMetadata : PatchPanelRegistryMetadata) (basePatchPanelId baseVersion : Option String) :
    Op σ Card := do
  let intent ← x.get intentId
  let card ← x.runtime.createCard systemPpApprovalId
    [("kind", .str "patch_panel_proposal"), ("proposal_type", .str "create"),
      ("genesis_intent_id", .str intent.id.str), ("proposed_by", .str proposedBy),
      ("candidate_definition", candidateDefinition.toJson),
      ("registry_metadata", registryMetadata.toJson),
      ("base_patch_panel_id", Json.ofOptionStr basePatchPanelId),
      ("base_version", Json.ofOptionStr baseVersion)]
    (some [("genesis_intent_id", .str intent.id.str), ("proposed_by", .str proposedBy),
      ("candidate_patch_panel_id", .str candidateDefinition.id)])
    (some (s!"genesis:propose:{intent.id.str}:{candidateDefinition.id}:" ++
      candidateDefinition.version))
  let updatedAt ← Op.now
  x.putIntent { intent with
    status := .proposed, proposalCardId := some card.id, updatedAt }
  return card

end GenesisService

end GhostMesh
