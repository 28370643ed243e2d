import GhostMesh.Nodes.Services
import GhostMesh.Runtime.Idempotency

/-!
# One egress

A boundary sink works out its panel, contract, card, reference and key before it does
anything. The sink is checked next, and then the egress is two recorded events.
-/

set_option autoImplicit false

namespace GhostMesh

open InMemoryCardRuntime Op
open Exec (bind_ok bind_same)

/-! ## Recorded events -/

section Records
variable {w : World} {a : Machine App}

/-- The event that is recorded under a new key. -/
def App.nextEvent (w : World) (a : Machine App) (cardId : Uuid) (type : String)
    (actor : Option String) (payload : JsonObj) : CardEvent :=
  ⟨w.uuid4 a.draws, cardId, type, actor, payload, w.clock a.ticks⟩

def App.withEvent (a : Machine App) (key : Option String) (e : CardEvent) : Machine App :=
  ⟨{ a.store with runtime := (a.store.runtime.putEvent e).putKey key (.event e) }, a.ticks + 1,
    a.draws + 1⟩

theorem App.withEvent_runtime (a : Machine App) (key : Option String) (e : CardEvent) :
    (App.withEvent a key e).store.runtime = (a.store.runtime.putEvent e).putKey key (.event e) :=
  rfl

theorem App.withEvent_cards (a : Machine App) (key : Option String) (e : CardEvent) :
    (App.withEvent a key e).store.runtime.cards = a.store.runtime.cards := by
  rw [App.withEvent_runtime]
  unfold putKey
  cases truthyStr key <;> rfl

/-- A stored card's event is the one under the key, or a new one. -/
theorem App.recordEvent_run {cardId : Uuid} {c : Card} (type : String) (actor : Option String)
    (payload : JsonObj) (key : Option String)
    (hcard : a.store.runtime.cards.get? cardId = some c) :
    (App.cardRuntime.recordEvent cardId type actor (some payload) key).run w a =
      match a.store.runtime.cached key with
      | some v => (match v.event? with
        | some e => .ok e
        | none => .error (.conflict "idempotency key was already used for a different operation"),
          a)
      | none => (.ok (App.nextEvent w a cardId type actor payload),
          App.withEvent a key (App.nextEvent w a cardId type actor payload)) := by
  change (Op.on App.runtimeStore (InMemoryCardRuntime.recordEvent cardId type actor (some payload)
    key)).run w a = _
  have hget : (App.runtimeStore.get a.store).cards.get? cardId = some c := hcard
  have hcached : (App.runtimeStore.get a.store).cached key = a.store.runtime.cached key := rfl
  unfold InMemoryCardRuntime.recordEvent
  rw [Op.run_on, run_idempotent]
  dsimp only
  rw [hcached]
  cases a.store.runtime.cached key with
  | some v => cases v <;> rfl
  | none =>
    dsimp only
    rw [Exec.run_bind, run_getCard]
    dsimp only
    rw [hget]
    rfl

/-- Under a recorded event nothing happens. -/
theorem App.recordEvent_cached {cardId : Uuid} {c : Card} (type : String) (actor : Option String)
    (payload : JsonObj) {key : Option String} {e : CardEvent}
    (hcard : a.store.runtime.cards.get? cardId = some c)
    (hkey : a.store.runtime.cached key = some (.event e)) :
    (App.cardRuntime.recordEvent cardId type actor (some payload) key).run w a = (.ok e, a) := by
  rw [App.recordEvent_run type actor payload key hcard, hkey]
  rfl

theorem App.recordEvent_ok {cardId : Uuid} {c : Card} {type : String} {actor : Option String}
    {payload : JsonObj} {key : Option String} {e : CardEvent} {a' : Machine App}
    (hcard : a.store.runtime.cards.get? cardId = some c)
    (h : (App.cardRuntime.recordEvent cardId type actor (some payload) key).run w a = (.ok e, a')) :
    (a.store.runtime.cached key = some (.event e) ∧ a' = a) ∨
    (a.store.runtime.cached key = none ∧ e = App.nextEvent w a cardId type actor payload ∧
      a' = App.withEvent a key e) := by
  rw [App.recordEvent_run type actor payload key hcard] at h
  cases hkey : a.store.runtime.cached key with
  | some v =>
    rw [hkey] at h
    cases v with
    | event e' =>
      cases h
      exact .inl ⟨rfl, rfl⟩
    | _ => cases h
  | none =>
    rw [hkey] at h
    cases h
    exact .inr ⟨rfl, rfl, rfl⟩

end Records

/-! ## Histories and keys -/

section Events
variable {w : World} {a : Machine App} {key : Option String} {e : CardEvent}

theorem history_withEvent (id : Uuid) : (App.withEvent a key e).store.runtime.history id =
    if id = e.cardId then a.store.runtime.history id ++ [e] else a.store.runtime.history id := by
  have hkey : ∀ (s : InMemoryCardRuntime) v, (s.putKey key v).history id = s.history id := by
    intro s v
    unfold putKey
    cases truthyStr key <;> rfl
  rw [App.withEvent_runtime, hkey]
  unfold history putEvent
  dsimp only
  rw [Dict.get?_set]
  split
  · rename_i hid
    rw [hid]
    rfl
  · rfl

theorem mem_history_withEvent {id : Uuid} {e' : CardEvent} (hne : e' ≠ e) :
    e' ∈ (App.withEvent a key e).store.runtime.history id ↔ e' ∈ a.store.runtime.history id := by
  rw [history_withEvent]
  split
  · simp [hne]
  · exact Iff.rfl

/-- Under a key that is not empty the event answers from now on. -/
theorem cached_withEvent {k : String} (hk : k ≠ "") :
    (App.withEvent a (some k) e).store.runtime.cached (some k) = some (.event e) := by
  rw [App.withEvent_runtime]
  exact cached_putKey_self (truthyStr_some hk) rfl

/-- A new event takes no answer away. -/
theorem cached_withEvent_other {key' : Option String} {v : Stored}
    (hnew : a.store.runtime.cached key = none) (hv : a.store.runtime.cached key' = some v) :
    (App.withEvent a key e).store.runtime.cached key' = some v := by
  rw [App.withEvent_runtime]
  refine cached_putKey ?_ ?_
  · exact hnew
  · exact hv

end Events

/-! ## The steps of an egress -/

/-- What an egress works out. -/
structure Egress where
  panel : PatchPanel
  sink : NodeDefinition
  contract : SinkBoundaryContract
  card : Card
  externalPayload : JsonObj
  reference : Option String
  key : String

namespace Egress

def sinkKey (x : Egress) : String := s!"boundary-sink:{x.panel.id}:{x.sink.id}:{x.key}"

def envelope (card : Card) (request : BoundarySinkRequest) : JsonObj :=
  [("card", BoundaryAdapterService.cardJson card),
    ("external_response", .obj request.externalResponse)]

/-- The request gets as far as the rendered key. -/
structure Renders (w : World) (s : InMemoryCardRuntime) (request : BoundarySinkRequest)
    (x : Egress) : Prop where
  panel : s.patchPanels.values.find? (fun p => p.id = request.patchPanelId) = some x.panel
  node : NodeExecutor.node x.panel request.sinkId .sink = .ok x.sink
  contract : BoundaryAdapterService.parseContract w "SinkBoundaryContract"
    SinkBoundaryContract.ofJson (BoundaryAdapterService.contractJson x.sink "egress_contract") =
      .ok x.contract
  authorized : BoundaryAdapterService.ensureAuthorized x.contract.auth request.actorToken = .ok ()
  card : s.cards.get? request.cardId = some x.card
  payload : BoundaryAdapterService.mapPayload (envelope x.card request) x.contract.payloadMap =
    .ok x.externalPayload
  reference : BoundaryAdapterService.externalReferenceOf w (envelope x.card request) x.contract
    request.externalResponse = .ok x.reference
  key : BoundaryAdapterService.renderTemplate w
    ((truthyStr x.contract.idempotencyKey).getD "card_id + sink_id") x.card x.sink.id x.reference =
      .ok x.key

/-- The sink lets the card out, and needs neither registry nor authorization for it. -/
structure LetsOut (x : Egress) : Prop where
  shadow : NodeExecutor.ensureShadowEgress x.sink x.card = .ok ()
  atSink : NodeExecutor.ensureCardAtSink x.panel x.sink x.card = .ok ()
  unprivileged : x.sink.id ≠ "authority_provisioner_sink"
  unpublished : NodeExecutor.isRegistryPublication x.sink = false

/-- The events of the egress, and its result. -/
def record (w : World) (x : Egress) : Op App SinkBoundaryResult := do
  let event ← App.cardRuntime.recordEvent x.card.id "sink_executed" (some x.sink.id)
    (some (NodeExecutor.sinkPayload w x.sink x.reference)) (some x.sinkKey)
  let _ ← App.cardRuntime.recordEvent x.card.id "boundary_sink_egressed" (some x.sink.id)
    (some [("adapter", .str x.contract.adapter), ("sink_id", .str x.sink.id),
      ("external_payload", .obj x.externalPayload),
      ("external_reference", Json.ofOptionStr x.reference),
      ("egress_idempotency_key", .str x.key)]) (some (x.sinkKey ++ ":event"))
  return { event, externalReference := x.reference, egressIdempotencyKey := some x.key,
           adapter := x.contract.adapter }

section Steps
variable {w : World} {s : InMemoryCardRuntime} {a a' : Machine App}
  {request : BoundarySinkRequest} {x y : Egress}

/-- What a request works out is determined by the store. -/
theorem Renders.unique (hx : Renders w s request x) (hy : Renders w s request y) : y = x := by
  obtain ⟨panel, sink, contract, card, externalPayload, reference, key⟩ := x
  obtain ⟨panel', sink', contract', card', externalPayload', reference', key'⟩ := y
  cases hx.panel.symm.trans hy.panel
  cases hx.node.symm.trans hy.node
  cases hx.contract.symm.trans hy.contract
  cases hx.card.symm.trans hy.card
  cases hx.payload.symm.trans hy.payload
  cases hx.reference.symm.trans hy.reference
  cases hx.key.symm.trans hy.key
  rfl

theorem Renders.sink_id (hx : Renders w s request x) : x.sink.id = request.sinkId :=
  NodeExecutor.node_id hx.node

theorem Renders.panel_id (hx : Renders w s request x) : x.panel.id = request.patchPanelId := by
  simpa using List.find?_some hx.panel

theorem ofExcept_ok {α : Type} {r : Except PyErr α} {v : α} (h : r = .ok v) :
    (Op.ofExcept r : Op App α).run w a = (.ok v, a) := by
  rw [Op.run_ofExcept, h]

/-- The sink on its own: it checks the card and records its event. -/
theorem executeSink_run (hx : x.LetsOut) (hnode : NodeExecutor.node x.panel x.sink.id .sink =
      .ok x.sink) (hcard : a.store.runtime.cards.get? x.card.id = some x.card) :
    ((NodeExecutor.bare App.cardRuntime x.panel).executeSink x.card.id x.sink.id x.reference
        (some x.sinkKey)).run w a =
      (App.cardRuntime.recordEvent x.card.id "sink_executed" (some x.sink.id)
          (some (NodeExecutor.sinkPayload w x.sink x.reference)) (some x.sinkKey) >>= fun event =>
        pure (⟨event, x.reference⟩ : SinkResult)).run w a := by
  have hconfigured : (NodeExecutor.bare App.cardRuntime x.panel).executeConfiguredSink x.sink x.card
      x.reference = pure x.reference := by
    unfold NodeExecutor.executeConfiguredSink
    rw [if_neg hx.unprivileged, hx.unpublished]
    rfl
  have hget : (App.cardRuntime.getCard x.card.id).run w a = (.ok x.card, a) := by
    rw [NodeExecutor.getCard_run, hcard]
  unfold NodeExecutor.executeSink
  refine (Exec.run_bind_ok (ofExcept_ok hnode)).trans ?_
  refine (Exec.run_bind_ok hget).trans ?_
  refine (Exec.run_bind_ok (ofExcept_ok hx.shadow)).trans ?_
  refine (Exec.run_bind_ok (ofExcept_ok hx.atSink)).trans ?_
  rw [hconfigured]
  exact (Exec.run_bind_ok (Exec.run_pure _ w a)).trans (Exec.run_bind_ok (Op.run_world w a))

/-- A request that gets that far, of a sink that lets the card out, records the egress. -/
theorem run_of_renders (hkeyed : WellKeyed a.store.runtime)
    (hrenders : x.Renders w a.store.runtime request) (hout : x.LetsOut) :
    (BoundaryAdapterService.executeSink App.cardRuntime request).run w a =
      (x.record w).run w a := by
  have hget : (App.cardRuntime.getCard request.cardId).run w a = (.ok x.card, a) := by
    rw [NodeExecutor.getCard_run, hrenders.card]
  have hpanel : (BoundaryAdapterService.patchPanel App.cardRuntime request.patchPanelId).run w a =
      (.ok x.panel, a) := by
    rw [run_patchPanel, hrenders.panel]
  have hstored : a.store.runtime.cards.get? x.card.id = some x.card := by
    rw [hkeyed.cards hrenders.card]
    exact hrenders.card
  have hnode : NodeExecutor.node x.panel x.sink.id .sink = .ok x.sink := by
    rw [hrenders.sink_id]
    exact hrenders.node
  unfold BoundaryAdapterService.executeSink record
  rw [Exec.run_bind_ok hpanel, Exec.run_bind_ok (ofExcept_ok hrenders.node),
    Exec.run_bind_ok (Op.run_world w a), Exec.run_bind_ok (ofExcept_ok hrenders.contract),
    Exec.run_bind_ok (ofExcept_ok hrenders.authorized), Exec.run_bind_ok hget]
  refine (Exec.run_bind_ok (ofExcept_ok hrenders.payload)).trans ?_
  refine (Exec.run_bind_ok (ofExcept_ok hrenders.reference)).trans ?_
  refine (Exec.run_bind_ok (ofExcept_ok hrenders.key)).trans ?_
  have hsink := executeSink_run (w := w) hout hnode hstored
  refine (Exec.run_bind_congr hsink).trans ?_
  simp only [Exec.run_bind]
  rcases (App.cardRuntime.recordEvent x.card.id "sink_executed" (some x.sink.id)
    (some (NodeExecutor.sinkPayload w x.sink x.reference)) (some x.sinkKey)).run w a with ⟨r, b⟩
  cases r <;> rfl

/-- An executor without registry and repository gets through a sink only if the sink lets
the card out. -/
theorem letsOut_of_sink {p : PatchPanel} {sinkId : String} {cardId : Uuid} {c : Card}
    {n : NodeDefinition} {reference key : Option String} {result : SinkResult}
    (hnode : NodeExecutor.node p sinkId .sink = .ok n)
    (hcard : a.store.runtime.cards.get? cardId = some c)
    (h : ((NodeExecutor.bare App.cardRuntime p).executeSink cardId sinkId reference key).run w a =
      (.ok result, a')) :
    NodeExecutor.ensureShadowEgress n c = .ok () ∧ NodeExecutor.ensureCardAtSink p n c = .ok () ∧
      n.id ≠ "authority_provisioner_sink" ∧ NodeExecutor.isRegistryPublication n = false := by
  unfold NodeExecutor.executeSink at h
  obtain ⟨-, e, -, he⟩ | ⟨n', hn', h⟩ := bind_same (Op.run_ofExcept _ w a) h
  · cases he
  cases hnode.symm.trans hn'
  obtain ⟨-, e, he⟩ | ⟨c', hc', h⟩ := NodeExecutor.getCard_bind h
  · cases he
  rw [hcard] at hc'
  cases hc'
  obtain ⟨-, e, -, he⟩ | ⟨_, hshadow, h⟩ := bind_same (Op.run_ofExcept _ w a) h
  · cases he
  obtain ⟨-, e, -, he⟩ | ⟨_, hat, h⟩ := bind_same (Op.run_ofExcept _ w a) h
  · cases he
  refine ⟨hshadow, hat, ?_⟩
  obtain ⟨reference', b, hconfigured, -⟩ := bind_ok h
  unfold NodeExecutor.executeConfiguredSink at hconfigured
  split at hconfigured
  · cases hconfigured
  · rename_i hprivileged
    split at hconfigured
    · cases hconfigured
    · rename_i hpublished
      exact ⟨hprivileged, Bool.eq_false_iff.mpr hpublished⟩

/-- An egress that returns got to its key, was let out, and recorded its events. -/
theorem record_of_ok (hkeyed : WellKeyed a.store.runtime) {result : SinkBoundaryResult}
    (h : (BoundaryAdapterService.executeSink App.cardRuntime request).run w a = (.ok result, a')) :
    ∃ x : Egress, x.Renders w a.store.runtime request ∧ x.LetsOut ∧
      (x.record w).run w a = (.ok result, a') := by
  have hrun := h
  unfold BoundaryAdapterService.executeSink at h
  obtain ⟨-, e, he⟩ | ⟨p, hpanel, h⟩ := patchPanel_bind h
  · cases he
  obtain ⟨-, e, -, he⟩ | ⟨n, hn, h⟩ := bind_same (Op.run_ofExcept _ w a) h
  · cases he
  rw [Exec.run_bind_ok (Op.run_world w a)] at h
  obtain ⟨-, e, -, he⟩ | ⟨contract, hcontract, h⟩ := bind_same (Op.run_ofExcept _ w a) h
  · cases he
  obtain ⟨-, e, -, he⟩ | ⟨_, hauth, h⟩ := bind_same (Op.run_ofExcept _ w a) h
  · cases he
  obtain ⟨-, e, he⟩ | ⟨card, hstored, h⟩ := NodeExecutor.getCard_bind h
  · cases he
  obtain ⟨-, e, -, he⟩ | ⟨payload, hpayload, h⟩ := bind_same (Op.run_ofExcept _ w a) h
  · cases he
  obtain ⟨-, e, -, he⟩ | ⟨reference, hreference, h⟩ := bind_same (Op.run_ofExcept _ w a) h
  · cases he
  obtain ⟨-, e, -, he⟩ | ⟨key, hkey, h⟩ := bind_same (Op.run_ofExcept _ w a) h
  · cases he
  have hrenders : Renders w a.store.runtime request
      ⟨p, n, contract, card, payload, reference, key⟩ :=
    ⟨hpanel, hn, hcontract, hauth, hstored, hpayload, hreference, hkey⟩
  obtain ⟨sunk, b, hsink, -⟩ := bind_ok h
  have hnode : NodeExecutor.node p n.id .sink = .ok n := by
    rw [hrenders.sink_id]
    exact hn
  have hown : a.store.runtime.cards.get? card.id = some card := by
    rw [hkeyed.cards hstored]
    exact hstored
  obtain ⟨hshadow, hat, hprivileged, hpublished⟩ := letsOut_of_sink hnode hown hsink
  have hout : LetsOut ⟨p, n, contract, card, payload, reference, key⟩ :=
    ⟨hshadow, hat, hprivileged, hpublished⟩
  exact ⟨_, hrenders, hout, (run_of_renders hkeyed hrenders hout).symm.trans hrun⟩

end Steps

end Egress

end GhostMesh
