import GhostMesh.Auth.Postgres
import GhostMesh.Registry.Postgres
import GhostMesh.Runtime.PostgresSteps

/-!
# Backends

The settings choose for the runtime, the registry and the authorization repository, each on
its own, whether it keeps its records in memory or in Postgres.
-/

set_option autoImplicit false

namespace GhostMesh

inductive RuntimeBackend (σ : Type) where
  | memory (store : Component σ InMemoryCardRuntime)
  | postgres (engine : Engine) (store : Component σ Tables)

inductive RegistryBackend (σ : Type) where
  | memory (store : Component σ InMemoryPatchPanelRegistry)
  | postgres (engine : AuthorityEngine) (store : Component σ AuthorityTables)

inductive AuthorizationBackend (σ : Type) where
  | memory (store : Component σ InMemoryAuthorizationRepository)
  | postgres (engine : AuthorityEngine) (store : Component σ AuthorityTables)

section Create
variable {σ : Type}

def createRuntime : RuntimeBackend σ → CardRuntime σ
  | .memory store => InMemoryCardRuntime.runtime.on store
  | .postgres engine store => (PostgresCardRuntime.runtime engine).on store

def createRegistry : RegistryBackend σ → PatchPanelRegistry σ
  | .memory store => InMemoryPatchPanelRegistry.registry.on store
  | .postgres engine store => (PostgresPatchPanelRegistry.registry engine).on store

def createAuthorizationRepository : AuthorizationBackend σ → AuthorizationRepository σ
  | .memory store => InMemoryAuthorizationRepository.repository.on store
  | .postgres engine store => (PostgresAuthorizationRepository.repository engine).on store

/-- The registry entries of a state. -/
def RegistryBackend.entries : RegistryBackend σ → σ → Dict Uuid PatchPanelRegistryEntry
  | .memory store, s => (store.get s).entries
  | .postgres _ store, s => (store.get s).patchPanelRegistryEntries

end Create

/-- The entries in the order in which the registry lists them. -/
def RegistryBackend.listed {σ : Type} :
    RegistryBackend σ → σ → List PatchPanelRegistryEntry
  | .memory store, s => (store.get s).entries.values
  | .postgres engine store, s =>
    engine.rows (store.get s) (store.get s).patchPanelRegistryEntries.values

theorem run_registrySearch {σ : Type} {registry : RegistryBackend σ} {w : World} {m : Machine σ}
    (filters : PatchPanelRegistrySearch) :
    ((createRegistry registry).search filters).run w m =
      (.ok ((registry.listed m.store).filter (entryMatches · filters)), m) := by
  cases registry with
  | memory store =>
    exact Op.on_read (c := store) (x := InMemoryPatchPanelRegistry.search filters) rfl
  | postgres engine store =>
    exact Op.on_read (c := store)
      (x := Op.committed (PostgresPatchPanelRegistry.searchTx engine filters)) rfl

end GhostMesh
