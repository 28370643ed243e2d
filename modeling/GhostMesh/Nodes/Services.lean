import GhostMesh.Nodes.Silent
import GhostMesh.Runtime.CardRecords

/-!
# Runs of the services

A run is any sequence of operations of the runtime, of `ShadowService`, of node
executors of any Patch Panels and of `BoundaryAdapterService`, on one application
whose runtime starts empty.
-/

set_option autoImplicit false

namespace GhostMesh

open InMemoryCardRuntime Op
open Relation (ReflTransGen)
open Exec (bind_cases bind_same)

inductive ShadowCall where
  | create (productionCard : Card) (candidateId : String) (policy : ShadowPolicy)
      (idempotencyKey : Option String)
  | complete (linkId : Uuid) (metrics : JsonObj)
  | propose (mutationType proposedBy : String) (payload : JsonObj)
  | validate (mutationId : Uuid) (accepted : Bool) (validatorId : String) (reason : Option String)
  | promote (mutationId : Uuid) (p : PatchPanel)

/-- The machine after an operation of the shadow service, whether it returned or raised. -/
def ShadowCall.step (w : World) (a : Machine App) : ShadowCall → Machine App
  | create card candidateId policy key =>
    ((App.shadowService.createShadowCard card candidateId policy key).run w a).2
  | complete linkId metrics => ((App.shadowService.completeShadow linkId metrics).run w a).2
  | propose mutationType proposedBy payload =>
    ((App.shadowService.proposeMutation mutationType proposedBy payload).run w a).2
  | validate mutationId accepted validatorId reason =>
    ((App.shadowService.validateMutation mutationId accepted validatorId reason).run w a).2
  | promote mutationId p => ((App.shadowService.promoteMutation mutationId p).run w a).2

inductive ServiceCall where
  | mesh (call : MeshCall)
  | shadow (call : ShadowCall)
  | boundarySource (request : BoundarySourceRequest)
  | boundarySink (request : BoundarySinkRequest)

def ServiceCall.step (w : World) (a : Machine App) : ServiceCall → Machine App
  | mesh call => call.step w a
  | shadow call => call.step w a
  | boundarySource request =>
    ((BoundaryAdapterService.executeSource App.cardRuntime request).run w a).2
  | boundarySink request =>
    ((BoundaryAdapterService.executeSink App.cardRuntime request).run w a).2

/-! ## The boundary sink -/

/-- An egress that gets past its contract: the sink execution, and the event after it. -/
structure Egresses (w : World) (a a' : Machine App) (request : BoundarySinkRequest)
    (p : PatchPanel) (n : NodeDefinition) (card : Card) (reference : Option String) (key : String)
    (r : Except PyErr SinkResult) (b : Machine App) : Prop where
  panel : a.store.runtime.patchPanels.values.find? (fun p => p.id = request.patchPanelId) = some p
  node : NodeExecutor.node p request.sinkId .sink = .ok n
  stored : a.store.runtime.cards.get? request.cardId = some card
  sink : ((NodeExecutor.bare App.cardRuntime p).executeSink card.id n.id reference (some key)).run
    w a = (r, b)
  after : a' = b ∨ (∃ result, r = .ok result) ∧ ∃ payload key,
    a' = ((App.cardRuntime.recordEvent card.id "boundary_sink_egressed" (some n.id) (some payload)
      (some key)).run w b).2

section Steps
variable {w : World} {a a' : Machine App}

theorem boundarySink_cases {request : BoundarySinkRequest} {r : Except PyErr SinkBoundaryResult}
    (h : (BoundaryAdapterService.executeSink App.cardRuntime request).run w a = (r, a')) :
    a' = a ∨ ∃ p n card reference key r b, Egresses w a a' request p n card reference key r b := by
  unfold BoundaryAdapterService.executeSink at h
  obtain ⟨rfl, -⟩ | ⟨p, hpanel, h⟩ := patchPanel_bind h
  · exact .inl rfl
  obtain ⟨rfl, -⟩ | ⟨n, hn, h⟩ := bind_same (Op.run_ofExcept _ w a) h
  · exact .inl rfl
  rw [Exec.run_bind_ok (Op.run_world w a)] at h
  obtain ⟨rfl, -⟩ | ⟨contract, -, h⟩ := bind_same (Op.run_ofExcept _ w a) h
  · exact .inl rfl
  obtain ⟨rfl, -⟩ | ⟨_, -, h⟩ := bind_same (Op.run_ofExcept _ w a) h
  · exact .inl rfl
  obtain ⟨rfl, -⟩ | ⟨card, hstored, h⟩ := NodeExecutor.getCard_bind h
  · exact .inl rfl
  obtain ⟨rfl, -⟩ | ⟨payload, -, h⟩ := bind_same (Op.run_ofExcept _ w a) h
  · exact .inl rfl
  obtain ⟨rfl, -⟩ | ⟨reference, -, h⟩ := bind_same (Op.run_ofExcept _ w a) h
  · exact .inl rfl
  obtain ⟨rfl, -⟩ | ⟨egressKey, -, h⟩ := bind_same (Op.run_ofExcept _ w a) h
  · exact .inl rfl
  have hegresses : ∀ {r : Except PyErr SinkResult} {b : Machine App},
      ((NodeExecutor.bare App.cardRuntime p).executeSink card.id n.id reference
        (some s!"boundary-sink:{p.id}:{n.id}:{egressKey}")).run w a = (r, b) →
      (a' = b ∨ (∃ result, r = .ok result) ∧ ∃ payload key,
        a' = ((App.cardRuntime.recordEvent card.id "boundary_sink_egressed" (some n.id)
          (some payload) (some key)).run w b).2) →
      a' = a ∨ ∃ p n card reference key r b,
        Egresses w a a' request p n card reference key r b :=
    fun hsink hafter => .inr ⟨p, n, card, reference, _, _, _, hpanel, hn, hstored, hsink, hafter⟩
  rcases bind_cases h with ⟨e, hsink, -⟩ | ⟨result, b, hsink, h⟩
  · exact hegresses hsink (.inl rfl)
  · refine hegresses hsink (.inr ⟨⟨result, rfl⟩, ?_⟩)
    rcases bind_cases h with ⟨e, hrecord, -⟩ | ⟨event, b', hrecord, h⟩
    · exact ⟨_, _, (congrArg Prod.snd hrecord).symm⟩
    · cases h
      exact ⟨_, _, (congrArg Prod.snd hrecord).symm⟩

/-! ## What a step does to the runtime -/

theorem ShadowCall.step_silent {type : String} (htype : type ∈ outcomeTypes) (call : ShadowCall) :
    Silent w type a (call.step w a) := by
  cases call with
  | create card candidateId policy key => exact createShadowCard_silent htype card candidateId _ key a
  | complete linkId metrics => exact completeShadow_silent htype linkId metrics a
  | propose mutationType proposedBy payload => exact proposeMutation_silent _ _ payload a
  | validate mutationId accepted validatorId reason =>
    exact validateMutation_silent mutationId accepted _ _ a
  | promote mutationId p => exact promoteMutation_silent mutationId p a

theorem ServiceCall.step_effects (call : ServiceCall) :
    ReflTransGen (Effect w) (App.runtimeMachine a) (App.runtimeMachine (call.step w a)) := by
  have htype : "card_validated" ∈ outcomeTypes := by decide
  cases call with
  | mesh call => exact call.step_effects w a
  | shadow call => exact (call.step_silent htype).effects
  | boundarySource request => exact (boundarySource_silent htype request a).effects
  | boundarySink request =>
    have hsilent : Exec.Within (Silent w "card_validated") w
        (BoundaryAdapterService.executeSink App.cardRuntime request) :=
      boundarySink_silent (by decide) (by decide) request
    exact (hsilent a).effects

/-- The machine after a sequence of operations. -/
def runServices (w : World) (a : Machine App) (calls : List ServiceCall) : Machine App :=
  calls.foldl (ServiceCall.step w) a

/-- The run lemma: cards keep everything but their bucket from any point of a run on. -/
theorem runServices_cardsKept (calls : List ServiceCall) {a : Machine App}
    (ha : CardsSound w (App.runtimeMachine a)) :
    CardsKept a.store.runtime (runServices w a calls).store.runtime ∧
      CardsSound w (App.runtimeMachine (runServices w a calls)) := by
  unfold runServices
  induction calls generalizing a with
  | nil => exact ⟨.of_same rfl, ha⟩
  | cons call calls ih =>
    obtain ⟨hkept, hsound⟩ := effects_cardsKept ha (call.step_effects (w := w) (a := a))
    obtain ⟨hkept', hsound'⟩ := ih hsound
    exact ⟨hkept.trans hkept', hsound'⟩

theorem boot_sound (a : App) (ticks draws : Nat) :
    CardsSound w (App.runtimeMachine (a.boot ticks draws)) where
  keyed := .init
  issued := by
    refine ⟨?_, ?_, ?_⟩
    · intro id c h
      simp [App.runtimeMachine, App.boot, InMemoryCardRuntime.init] at h
    · intro id l h
      simp [App.runtimeMachine, App.boot, InMemoryCardRuntime.init] at h
    · intro id h
      simp [App.runtimeMachine, App.boot, InMemoryCardRuntime.init, history] at h

end Steps

end GhostMesh
