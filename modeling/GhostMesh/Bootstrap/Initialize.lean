import GhostMesh.Api.App
import GhostMesh.Bootstrap.Backends
import GhostMesh.Defaults.Bootstrap

/-!
# Initialization

`initialize_system` on the stores that the settings choose: the configured system panels,
then the root operator with its role.
-/

set_option autoImplicit false

namespace GhostMesh

/-- All stores of a process; which ones it uses is up to the settings. -/
structure SystemStores where
  runtime : InMemoryCardRuntime
  tables : Tables
  registry : InMemoryPatchPanelRegistry
  authorization : InMemoryAuthorizationRepository
  authorityTables : AuthorityTables

namespace SystemStores

def runtimeStore : Component SystemStores InMemoryCardRuntime where
  get := runtime
  put t s := { s with runtime := t }
  get_put _ _ := rfl
  put_get _ := rfl
  put_put _ _ _ := rfl

def tablesStore : Component SystemStores Tables where
  get := tables
  put t s := { s with tables := t }
  get_put _ _ := rfl
  put_get _ := rfl
  put_put _ _ _ := rfl

def registryStore : Component SystemStores InMemoryPatchPanelRegistry where
  get := registry
  put t s := { s with registry := t }
  get_put _ _ := rfl
  put_get _ := rfl
  put_put _ _ _ := rfl

def authorizationStore : Component SystemStores InMemoryAuthorizationRepository where
  get := authorization
  put t s := { s with authorization := t }
  get_put _ _ := rfl
  put_get _ := rfl
  put_put _ _ _ := rfl

def authorityStore : Component SystemStores AuthorityTables where
  get := authorityTables
  put t s := { s with authorityTables := t }
  get_put _ _ := rfl
  put_get _ := rfl
  put_put _ _ _ := rfl

def init : SystemStores :=
  ⟨InMemoryCardRuntime.init, Tables.init, InMemoryPatchPanelRegistry.init,
    InMemoryAuthorizationRepository.init, AuthorityTables.init⟩

end SystemStores

/-- A backend without an engine is in memory. -/
structure Settings where
  runtimeBackend : Option Engine
  registryBackend : Option AuthorityEngine
  authorizationRepository : Option AuthorityEngine
  systemPatchPanelPaths : List String
  rootParticipantId : String

namespace Settings

variable (settings : Settings)

def runtime : RuntimeBackend SystemStores :=
  match settings.runtimeBackend with
  | some engine => .postgres engine SystemStores.tablesStore
  | none => .memory SystemStores.runtimeStore

def registry : RegistryBackend SystemStores :=
  match settings.registryBackend with
  | some engine => .postgres engine SystemStores.authorityStore
  | none => .memory SystemStores.registryStore

def repository : AuthorizationBackend SystemStores :=
  match settings.authorizationRepository with
  | some engine => .postgres engine SystemStores.authorityStore
  | none => .memory SystemStores.authorizationStore

end Settings

def rootOperator (participantId : String) (createdAt : Instant) : Participant where
  id := participantId
  type := .systemService
  displayName := some "Root Operator"
  status := .active
  trustLevel := none
  authMethod := some "local_bootstrap"
  metadata := [("system_bootstrap", .bool true), ("root_operator", .bool true)]
  createdAt := createdAt
  archivedAt := none

def seedRootOperator {σ : Type} (repository : AuthorizationRepository σ) (participantId : String) :
    Op σ Unit := do
  let createdAt ← Op.now
  repository.upsertParticipant (rootOperator participantId createdAt)
  let _ ← ensureBuiltinRoleAssignment repository participantId .admin .globalScope
    (some participantId)
  return ()

/-- The configured panels through their bootstrapper. -/
def bootstrapPanels (settings : Settings) (files : PanelFiles) :
    Op SystemStores (List BootstrapResult) :=
  SystemWorkflowBootstrapper.bootstrap (createRuntime settings.runtime)
    (createRegistry settings.registry) files settings.systemPatchPanelPaths

def initializeSystem (settings : Settings) (files : PanelFiles) :
    Op SystemStores (List BootstrapResult) := do
  let results ← bootstrapPanels settings files
  seedRootOperator (createAuthorizationRepository settings.repository) settings.rootParticipantId
  return results

/-- On one application in memory the root operator is seeded alike. -/
theorem App.seedRootOperator_eq (participantId : String) :
    App.seedRootOperator participantId =
      GhostMesh.seedRootOperator App.authorizationRepository participantId := rfl

end GhostMesh
