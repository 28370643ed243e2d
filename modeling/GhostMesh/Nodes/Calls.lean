import GhostMesh.Nodes.ExecutorSteps

/-!
# Runs of runtime and node operations

A run is any sequence of runtime calls and node executions by executors of any
Patch Panels, on an application whose runtime starts empty. To the runtime every
step is a short sequence of effects, so the invariants of the runtime hold here too.
-/

set_option autoImplicit false

namespace GhostMesh

open InMemoryCardRuntime Op
open Relation (ReflTransGen)

/-- How an executor was built: its panel, and what it was given besides the runtime. -/
structure ExecutorSetup where
  patchPanel : PatchPanel
  registry : Bool
  authorizationRepository : Bool

def ExecutorSetup.executor (x : ExecutorSetup) : NodeExecutor App where
  patchPanel := x.patchPanel
  runtime := App.cardRuntime
  registry := if x.registry then some App.patchPanelRegistry else none
  authorizationRepository :=
    if x.authorizationRepository then some App.authorizationRepository else none

inductive NodeCall where
  | source (sourceId : String) (payload : JsonObj) (metadata : Option JsonObj)
      (idempotencyKey : Option String)
  | worker (request : WorkerExecutionInput)
  | validator (request : ValidatorExecutionInput)
  | sink (cardId : Uuid) (sinkId : String) (externalReference idempotencyKey : Option String)

namespace NodeCall

/-- The machine after a node execution, whether it returned or raised. -/
def step (w : World) (x : ExecutorSetup) (m : Machine App) : NodeCall → Machine App
  | source sourceId payload metadata key =>
    ((x.executor.executeSource sourceId payload metadata key).run w m).2
  | worker request => ((x.executor.executeWorker request).run w m).2
  | validator request => ((x.executor.executeValidator request).run w m).2
  | sink cardId sinkId reference key =>
    ((x.executor.executeSink cardId sinkId reference key).run w m).2

end NodeCall

inductive MeshCall where
  | runtime (call : RuntimeCall)
  | node (setup : ExecutorSetup) (call : NodeCall)

def MeshCall.step (w : World) (m : Machine App) : MeshCall → Machine App
  | runtime call => App.withRuntime m (call.step w (App.runtimeMachine m))
  | node setup call => call.step w setup m

/-- An application with an empty runtime and anything in its other stores. -/
def App.boot (a : App) (ticks draws : Nat) : Machine App :=
  ⟨{ a with runtime := InMemoryCardRuntime.init }, ticks, draws⟩

/-! ## What a step does to the runtime -/

section Steps
variable {w : World} {m : Machine App} {x : ExecutorSetup}

theorem ExecutorSetup.registry_cases (x : ExecutorSetup) :
    x.executor.registry = none ∨ x.executor.registry = some App.patchPanelRegistry := by
  unfold executor
  cases x.registry <;> simp

theorem ExecutorSetup.authorization_cases (x : ExecutorSetup) :
    x.executor.authorizationRepository = none ∨
      x.executor.authorizationRepository = some App.authorizationRepository := by
  unfold executor
  cases x.authorizationRepository <;> simp

/-- Source, worker and validator nodes run on the runtime of the application. -/
theorem NodeCall.step_source (sourceId : String) (payload : JsonObj) (metadata : Option JsonObj)
    (key : Option String) : (source sourceId payload metadata key).step w x m =
      App.withRuntime m ((NodeExecutor.executeSource (NodeExecutor.onMemory x.patchPanel) sourceId
        payload metadata key).run w (App.runtimeMachine m)).2 := by
  simp only [step]
  rw [NodeExecutor.on_executeSource App.runtimeStore InMemoryCardRuntime.runtime
    (x := x.executor) rfl]
  rfl

theorem NodeCall.step_worker (request : WorkerExecutionInput) : (worker request).step w x m =
    App.withRuntime m ((NodeExecutor.executeWorker (NodeExecutor.onMemory x.patchPanel)
      request).run w (App.runtimeMachine m)).2 := by
  simp only [step]
  rw [NodeExecutor.on_executeWorker App.runtimeStore InMemoryCardRuntime.runtime
    (x := x.executor) rfl]
  rfl

theorem NodeCall.step_validator (request : ValidatorExecutionInput) :
    (validator request).step w x m =
      App.withRuntime m ((NodeExecutor.executeValidator (NodeExecutor.onMemory x.patchPanel)
        request).run w (App.runtimeMachine m)).2 := by
  simp only [step]
  rw [NodeExecutor.on_executeValidator App.runtimeStore InMemoryCardRuntime.runtime
    (x := x.executor) rfl]
  rfl

end Steps

section Effects
variable {w : World} {m m' : Machine InMemoryCardRuntime} {p : PatchPanel}

theorem source_effects {sourceId : String} {payload : JsonObj} {metadata : Option JsonObj}
    {key : Option String} {r : Except PyErr Card}
    (h : (NodeExecutor.executeSource (NodeExecutor.onMemory p) sourceId payload metadata key).run
      w m = (r, m')) : ReflTransGen (Effect w) m m' := by
  obtain ⟨s, hcreate, hrecord⟩ := NodeExecutor.executeSource_cases h
  have h1 : Effect w m s := hcreate.elim .of_same fun ⟨_, _, h⟩ => .creates h
  exact (ReflTransGen.single h1).tail (hrecord.elim .of_same fun ⟨_, _, h⟩ => .records h)

theorem submitted_effect {leaseId : Uuid} {request : WorkerExecutionInput}
    (h : NodeExecutor.Submitted w m m' leaseId request) : Effect w m m' :=
  h.elim .same fun ⟨_, _, _, _, _, h⟩ => .submits h

theorem worker_effects {request : WorkerExecutionInput}
    {r : Except PyErr (List ArtifactReference)}
    (h : (NodeExecutor.executeWorker (NodeExecutor.onMemory p) request).run w m = (r, m')) :
    ReflTransGen (Effect w) m m' := by
  rcases NodeExecutor.executeWorker_cases h with rfl | ⟨n, -, s, hclaim⟩
  · exact .refl
  rcases hclaim with ⟨hsame, rfl | ⟨v, l, -, -, hsub⟩⟩ | ⟨l, e, hclaims, hsub⟩
  · exact .single (.same hsame)
  · exact (ReflTransGen.single (.same hsame)).tail (submitted_effect hsub)
  · exact (ReflTransGen.single (.claims hclaims)).tail (submitted_effect hsub)

theorem validator_effects {request : ValidatorExecutionInput} {r : Except PyErr CardEvent}
    (h : (NodeExecutor.executeValidator (NodeExecutor.onMemory p) request).run w m = (r, m')) :
    ReflTransGen (Effect w) m m' := by
  rcases NodeExecutor.executeValidator_cases h with hsame | ⟨_, _, s, _, _, _, -, hsame, hval⟩
  · exact .single (.same hsame)
  · exact (ReflTransGen.single (.same hsame)).tail (.validates hval)

/-- A change outside the runtime leaves it alone. -/
theorem via_authorization_same {a a' : Machine App} (h : Via App.authorizationStore a a') :
    SameStore (App.runtimeMachine a) (App.runtimeMachine a') :=
  ⟨(congrArg App.runtime h.store).trans rfl, h.ticks, h.draws⟩

theorem via_registry_same {a a' : Machine App} (h : Via App.registryStore a a') :
    SameStore (App.runtimeMachine a) (App.runtimeMachine a') :=
  ⟨(congrArg App.runtime h.store).trans rfl, h.ticks, h.draws⟩

theorem sinkEffect_effects {x : NodeExecutor App} {n : NodeDefinition} {card : Card}
    {a a' : Machine App} {r : Except PyErr (Option String)}
    (h : NodeExecutor.SinkEffect w x n card a a' r) :
    ReflTransGen (Effect w) (App.runtimeMachine a) (App.runtimeMachine a') := by
  cases h with
  | passes same plain =>
    rw [same]
  | provisions _ _ _ writes => exact .single (.same (via_authorization_same writes))
  | publishes _ _ _ _ panel same writes =>
    have hpanel : Effect w (App.runtimeMachine a) ⟨panel, a.ticks, a.draws⟩ := by
      rcases same with rfl | ⟨p, report, hvalid, rfl⟩
      · exact .of_same rfl
      · exact .registers p report hvalid rfl
    exact (ReflTransGen.single hpanel).tail (.same (via_registry_same writes))

theorem sink_effects {x : ExecutorSetup} {a a' : Machine App} {cardId : Uuid} {sinkId : String}
    {reference key : Option String} {r : Except PyErr SinkResult}
    (h : (x.executor.executeSink cardId sinkId reference key).run w a = (r, a')) :
    ReflTransGen (Effect w) (App.runtimeMachine a) (App.runtimeMachine a') := by
  rcases NodeExecutor.executeSink_cases rfl x.registry_cases x.authorization_cases h with
    ⟨rfl, -⟩ | ⟨n, card, m1, r1, -, -, -, heffect, -, hrecord⟩
  · exact .refl
  have h1 := sinkEffect_effects heffect
  rcases hrecord with rfl | ⟨payload, s, e, hrecords, rfl⟩
  · exact h1
  · exact h1.tail (.records hrecords)

/-- To the runtime every step is a sequence of its own effects. -/
theorem MeshCall.step_effects (w : World) (a : Machine App) (call : MeshCall) :
    ReflTransGen (Effect w) (App.runtimeMachine a) (App.runtimeMachine (call.step w a)) := by
  cases call with
  | runtime call => exact .single (call.step_effect w (App.runtimeMachine a))
  | node x call =>
    cases call with
    | source sourceId payload metadata key =>
      simp only [step, NodeCall.step_source]
      exact source_effects rfl
    | worker request =>
      simp only [step, NodeCall.step_worker]
      exact worker_effects rfl
    | validator request =>
      simp only [step, NodeCall.step_validator]
      exact validator_effects rfl
    | sink cardId sinkId reference key => exact sink_effects rfl

end Effects

/-! ## Invariants of the runtime over these runs -/

theorem effects_invariant {w : World} {I : Machine InMemoryCardRuntime → Prop}
    (hstep : ∀ m m', I m → Effect w m m' → I m') {m m' : Machine InMemoryCardRuntime}
    (h : ReflTransGen (Effect w) m m') (hm : I m) : I m' := by
  induction h with
  | refl => exact hm
  | tail _ heffect ih => exact hstep _ _ ih heffect

end GhostMesh
