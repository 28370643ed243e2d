import GhostMesh.Domain.Models

/-!
# The Patch Panel registry
-/

set_option autoImplicit false

namespace GhostMesh

structure PatchPanelRegistrySearch where
  tag : Option String
  inputType : Option String
  outputType : Option String
  requiredTool : Option String
  riskLevel : Option String
  ownerParticipantId : Option String
  includeArchived : Bool
  includeSuperseded : Bool

/-- `PatchPanelRegistrySearch()`, which the keyword arguments then override. -/
def PatchPanelRegistrySearch.any : PatchPanelRegistrySearch :=
  ⟨none, none, none, none, none, none, false, false⟩

structure PatchPanelRegistry (σ : Type) where
  register : PatchPanelRegistryEntry → Op σ PatchPanelRegistryEntry
  get : Uuid → Op σ PatchPanelRegistryEntry
  search : PatchPanelRegistrySearch → Op σ (List PatchPanelRegistryEntry)
  updateMetadata : Uuid → PatchPanelRegistryMetadata → Op σ PatchPanelRegistryEntry
  archive : Uuid → Op σ PatchPanelRegistryEntry
  supersede : Uuid → Uuid → Op σ PatchPanelRegistryEntry

/-- The registry of a component, seen from the store that contains it. -/
def PatchPanelRegistry.on {σ τ : Type} (c : Component τ σ)
    (r : PatchPanelRegistry σ) : PatchPanelRegistry τ where
  register e := Op.on c (r.register e)
  get id := Op.on c (r.get id)
  search f := Op.on c (r.search f)
  updateMetadata id d := Op.on c (r.updateMetadata id d)
  archive id := Op.on c (r.archive id)
  supersede id by_ := Op.on c (r.supersede id by_)

/-- A filter that is set must be met; an empty string is not set. -/
def meets (filter : Option String) (test : String → Bool) : Bool :=
  match truthyStr filter with
  | none => true
  | some value => test value

def entryMatches (entry : PatchPanelRegistryEntry) (filters : PatchPanelRegistrySearch) : Bool :=
  (filters.includeArchived || entry.status ≠ .archived) &&
  (filters.includeSuperseded || entry.status ≠ .superseded) &&
  meets filters.tag entry.tags.contains &&
  meets filters.inputType entry.inputTypes.contains &&
  meets filters.outputType entry.outputTypes.contains &&
  meets filters.requiredTool entry.requiredTools.contains &&
  meets filters.riskLevel (fun level => entry.riskLevel = some level) &&
  meets filters.ownerParticipantId (fun owner => entry.ownerParticipantId = some owner)

/-- `PatchPanelRegistryEntry.from_patch_panel`. -/
def PatchPanelRegistryEntry.fromPatchPanel {σ : Type} (p : PatchPanel)
    (d : PatchPanelRegistryMetadata) (metadata : JsonObj) : Op σ PatchPanelRegistryEntry := do
  let id ← Op.uuid4
  let createdAt ← Op.now
  let updatedAt ← Op.now
  return { id, patchPanelId := p.id, version := p.version, name := d.name,
           description := d.description, tags := d.tags, inputTypes := d.inputTypes,
           outputTypes := d.outputTypes, requiredTools := d.requiredTools,
           requiredPermissions := d.requiredPermissions, riskLevel := d.riskLevel,
           estimatedCost := d.estimatedCost, estimatedLatency := d.estimatedLatency,
           ownerParticipantId := d.ownerParticipantId, status := d.status,
           supersedesEntryId := none, metadata, createdAt, updatedAt, archivedAt := none }

structure InMemoryPatchPanelRegistry where
  entries : Dict Uuid PatchPanelRegistryEntry

namespace InMemoryPatchPanelRegistry

def init : InMemoryPatchPanelRegistry := ⟨Dict.empty⟩

def put (s : InMemoryPatchPanelRegistry) (e : PatchPanelRegistryEntry) :
    InMemoryPatchPanelRegistry :=
  ⟨s.entries.set e.id e⟩

def register (e : PatchPanelRegistryEntry) :
    Op InMemoryPatchPanelRegistry PatchPanelRegistryEntry := do
  Op.modify (·.put e)
  return e

def get (entryId : Uuid) : Op InMemoryPatchPanelRegistry PatchPanelRegistryEntry := do
  let s ← Op.get
  match s.entries.get? entryId with
  | some e => return e
  | none => Op.raise (.notFound s!"Patch Panel registry entry '{entryId.str}' does not exist")

theorem run_registryGet (entryId : Uuid) (w : World) (m : Machine InMemoryPatchPanelRegistry) :
    (get entryId).run w m =
      (match m.store.entries.get? entryId with
        | some e => .ok e
        | none => .error
            (.notFound s!"Patch Panel registry entry '{entryId.str}' does not exist"), m) := by
  unfold get
  rw [Exec.run_bind_ok (Op.run_get w m)]
  cases m.store.entries.get? entryId <;> rfl

def search (filters : PatchPanelRegistrySearch) :
    Op InMemoryPatchPanelRegistry (List PatchPanelRegistryEntry) := do
  let s ← Op.get
  return s.entries.values.filter (entryMatches · filters)

/-- `_entry_with_metadata`. -/
def entryWithMetadata (e : PatchPanelRegistryEntry) (d : PatchPanelRegistryMetadata)
    (updatedAt : Instant) : PatchPanelRegistryEntry :=
  { e with
    name := d.name, description := d.description, tags := d.tags, inputTypes := d.inputTypes,
    outputTypes := d.outputTypes, requiredTools := d.requiredTools,
    requiredPermissions := d.requiredPermissions, riskLevel := d.riskLevel,
    estimatedCost := d.estimatedCost, estimatedLatency := d.estimatedLatency,
    ownerParticipantId := d.ownerParticipantId, status := d.status, updatedAt }

def updateMetadata (entryId : Uuid) (d : PatchPanelRegistryMetadata) :
    Op InMemoryPatchPanelRegistry PatchPanelRegistryEntry := do
  let e ← get entryId
  Op.ensure (e.status = .draft) (.conflict "only draft registry entries can be edited")
  let updatedAt ← Op.now
  let updated := entryWithMetadata e d updatedAt
  Op.modify (·.put updated)
  return updated

def archive (entryId : Uuid) : Op InMemoryPatchPanelRegistry PatchPanelRegistryEntry := do
  let e ← get entryId
  let archivedAt ← Op.now
  let updatedAt ← Op.now
  let archived := { e with status := .archived, archivedAt := some archivedAt, updatedAt }
  Op.modify (·.put archived)
  return archived

def supersede (entryId supersededByEntryId : Uuid) :
    Op InMemoryPatchPanelRegistry PatchPanelRegistryEntry := do
  let e ← get entryId
  let updatedAt ← Op.now
  let superseded :=
    { e with status := .superseded, supersedesEntryId := some supersededByEntryId, updatedAt }
  Op.modify (·.put superseded)
  return superseded

def registry : PatchPanelRegistry InMemoryPatchPanelRegistry where
  register := register
  get := get
  search := search
  updateMetadata := updateMetadata
  archive := archive
  supersede := supersede

end InMemoryPatchPanelRegistry

end GhostMesh
