import GhostMesh.Api.Main
import GhostMesh.Runtime.MemorySteps

/-!
# The application in memory

All stores of one process, and the machine that answers requests on them.
-/

set_option autoImplicit false

namespace GhostMesh

structure App where
  runtime : InMemoryCardRuntime
  registry : InMemoryPatchPanelRegistry
  authorization : InMemoryAuthorizationRepository
  shadow : ShadowStore
  genesis : GenesisStore

namespace App

def runtimeStore : Component App InMemoryCardRuntime where
  get := App.runtime
  put s a := { a with runtime := s }
  get_put _ _ := rfl
  put_get _ := rfl
  put_put _ _ _ := rfl

def registryStore : Component App InMemoryPatchPanelRegistry where
  get := App.registry
  put s a := { a with registry := s }
  get_put _ _ := rfl
  put_get _ := rfl
  put_put _ _ _ := rfl

def authorizationStore : Component App InMemoryAuthorizationRepository where
  get := App.authorization
  put s a := { a with authorization := s }
  get_put _ _ := rfl
  put_get _ := rfl
  put_put _ _ _ := rfl

def shadowStore : Component App ShadowStore where
  get := App.shadow
  put s a := { a with shadow := s }
  get_put _ _ := rfl
  put_get _ := rfl
  put_put _ _ _ := rfl

def genesisStore : Component App GenesisStore where
  get := App.genesis
  put s a := { a with genesis := s }
  get_put _ _ := rfl
  put_get _ := rfl
  put_put _ _ _ := rfl

/-- The runtime of the application, with the counters. -/
def runtimeMachine (m : Machine App) : Machine InMemoryCardRuntime :=
  ⟨m.store.runtime, m.ticks, m.draws⟩

def withRuntime (m : Machine App) (s : Machine InMemoryCardRuntime) : Machine App :=
  ⟨{ m.store with runtime := s.store }, s.ticks, s.draws⟩

/-- A run of the runtime inside the application. -/
theorem runtime_cases {α : Type} {x : Op InMemoryCardRuntime α} {w : World} {m m' : Machine App}
    {r : Except PyErr α} (h : (Op.on runtimeStore x).run w m = (r, m')) :
    ∃ s, x.run w (runtimeMachine m) = (r, s) ∧ m' = withRuntime m s :=
  Op.on_cases h

def cardRuntime : CardRuntime App := InMemoryCardRuntime.runtime.on runtimeStore

def patchPanelRegistry : PatchPanelRegistry App :=
  InMemoryPatchPanelRegistry.registry.on registryStore

def authorizationRepository : AuthorizationRepository App :=
  InMemoryAuthorizationRepository.repository.on authorizationStore

/-- The service that the application has. -/
def genesisService : GenesisService App := ⟨cardRuntime, patchPanelRegistry, genesisStore⟩

def application (authorizationEnabled : Bool) : Application App where
  runtime := cardRuntime
  registry := patchPanelRegistry
  authorization := authorizationRepository
  shadowService := ⟨cardRuntime, shadowStore⟩
  genesisService := ⟨cardRuntime, patchPanelRegistry, genesisStore⟩
  authorizationEnabled := authorizationEnabled

def init : App :=
  ⟨InMemoryCardRuntime.init, InMemoryPatchPanelRegistry.init,
    InMemoryAuthorizationRepository.init, ShadowStore.init, GenesisStore.init⟩

/-- `seed_root_operator`. -/
def seedRootOperator (participantId : String) : Op App Unit := do
  let createdAt ← Op.now
  authorizationRepository.upsertParticipant
    { id := participantId, type := .systemService, displayName := some "Root Operator",
      status := .active, trustLevel := none, authMethod := some "local_bootstrap",
      metadata := [("system_bootstrap", .bool true), ("root_operator", .bool true)],
      createdAt, archivedAt := none }
  let _ ← ensureBuiltinRoleAssignment authorizationRepository participantId .admin .globalScope
    (some participantId)
  return ()

/-- A fresh process without configured system panels. -/
def start (w : World) (rootParticipantId : String) : Machine App :=
  ((seedRootOperator rootParticipantId).run w ⟨init, 0, 0⟩).2

/-- The machine after answering one request. -/
def respond (w : World) (authorizationEnabled : Bool) (m : Machine App)
    (call : Request × Route) : Machine App :=
  (((application authorizationEnabled).handle call.1 call.2).run w m).2

end App

end GhostMesh
