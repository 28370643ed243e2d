import GhostMesh.Domain.Schema
import GhostMesh.Registry.Service
import GhostMesh.Runtime.Service

/-!
# The system workflows

`SystemWorkflowBootstrapper` loads the configured files and registers each panel in the
runtime and in the registry, where its id and version are not listed yet.
-/

set_option autoImplicit false

namespace GhostMesh

/-- The files on disk: what a configured path stands for, and what `load_patch_panel` makes
of the file there. -/
structure PanelFiles where
  resolvePath : String → String
  loadPatchPanel : String → Except PyErr PatchPanel

structure BootstrapResult where
  patchPanelId : String
  version : String
  registeredRuntime : Bool
  registeredRegistry : Bool

/-- Id and version of the panel are those of the other. -/
def PatchPanel.names (p existing : PatchPanel) : Bool :=
  existing.id = p.id && existing.version = p.version

/-- Id and version of the panel are those of the entry. -/
def PatchPanel.entered (p : PatchPanel) (entry : PatchPanelRegistryEntry) : Bool :=
  entry.patchPanelId = p.id && entry.version = p.version

namespace SystemWorkflowBootstrapper

def defaultMetadata : PatchPanelRegistryMetadata where
  name := "System Patch Panel Approval"
  description := some "System workflow for Patch Panel proposal validation and governance."
  tags := ["system", "governance", "patch-panel-approval"]
  inputTypes := ["patch_panel_proposal"]
  outputTypes := ["patch_panel_registry_entry"]
  requiredTools := []
  requiredPermissions := []
  riskLevel := some "medium"
  estimatedCost := none
  estimatedLatency := none
  ownerParticipantId := none
  status := .published

/-- `_registry_metadata_for`. -/
def registryMetadataFor (w : World) : Json → Except PyErr PatchPanelRegistryMetadata
  | .obj raw =>
    let value : Json := .obj (JsonObj.update [("status", .str "published")] raw)
    match PatchPanelRegistryMetadata.ofJson value with
    | some metadata => .ok metadata
    | none => .error (.value (w.schemaError "PatchPanelRegistryMetadata" value))
  | _ => .ok defaultMetadata

section Operations
variable {σ : Type} (runtime : CardRuntime σ) (registry : PatchPanelRegistry σ)
  (files : PanelFiles)

/-- Registration of one panel in the runtime, unless it is listed there. -/
def registerRuntime (p : PatchPanel) : Op σ Bool := do
  let panels ← runtime.listPatchPanels
  if panels.any p.names then return false
  else do
    let _ ← runtime.registerPatchPanel p
    return true

/-- Registration of one panel in the registry, unless it has an entry of any status. -/
def registerRegistry (path : String) (p : PatchPanel) : Op σ Bool := do
  let entries ← registry.search
    { PatchPanelRegistrySearch.any with includeArchived := true, includeSuperseded := true }
  if entries.any p.entered then return false
  else do
    let w ← Op.world
    let metadata ← Op.ofExcept (registryMetadataFor w (JsonObj.getD p.metadata "registry" .null))
    let entry ← PatchPanelRegistryEntry.fromPatchPanel p metadata
      [("system_workflow", .bool true), ("source_path", .str path)]
    let _ ← registry.register entry
    return true

def bootstrapPath (configuredPath : String) : Op σ BootstrapResult := do
  let path := files.resolvePath configuredPath
  let p ← Op.ofExcept (files.loadPatchPanel path)
  let registeredRuntime ← registerRuntime runtime p
  let registeredRegistry ← registerRegistry registry path p
  return { patchPanelId := p.id, version := p.version, registeredRuntime, registeredRegistry }

/-- The files in the order in which they are configured. -/
def bootstrap : List String → Op σ (List BootstrapResult)
  | [] => return []
  | path :: paths => do
    let result ← bootstrapPath runtime registry files path
    let results ← bootstrap paths
    return result :: results

end Operations

end SystemWorkflowBootstrapper

end GhostMesh
