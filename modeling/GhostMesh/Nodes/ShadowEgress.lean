import GhostMesh.Nodes.Services

/-!
# Shadow cards and sinks

A sink node refuses a card that is marked as a shadow before it does anything else,
unless its configuration allows the egress. The mark is metadata, which stays as the
card was created with, so the guard decides the same at any point of a run.
-/

set_option autoImplicit false

namespace GhostMesh

open InMemoryCardRuntime Op
open Exec (bind_cases bind_same)

/-- `card.metadata.get("shadow")`, as a condition. -/
def Card.isShadow (c : Card) : Bool := (JsonObj.getD c.metadata "shadow" .null).truthy

/-- `node.config.get("allow_shadow_egress", False)`, as a condition. -/
def NodeDefinition.allowsShadowEgress (n : NodeDefinition) : Bool :=
  (JsonObj.getD n.config "allow_shadow_egress" (.bool false)).truthy

theorem ensureShadowEgress_iff {n : NodeDefinition} {c : Card} :
    NodeExecutor.ensureShadowEgress n c = .ok () ↔
      (c.isShadow = true → n.allowsShadowEgress = true) := by
  unfold NodeExecutor.ensureShadowEgress Card.isShadow NodeDefinition.allowsShadowEgress
  cases (JsonObj.getD c.metadata "shadow" .null).truthy <;>
    cases (JsonObj.getD n.config "allow_shadow_egress" (.bool false)).truthy <;> simp

/-- The call executes a sink node on a card, directly or through the boundary adapter. -/
def ServiceCall.ThroughSink (a : Machine App) (n : NodeDefinition) (cardId : Uuid) :
    ServiceCall → Prop
  | mesh (.node setup (.sink id sinkId _ _)) =>
    id = cardId ∧ NodeExecutor.node setup.patchPanel sinkId .sink = .ok n
  | boundarySink request => request.cardId = cardId ∧ ∃ p,
      a.store.runtime.patchPanels.values.find? (fun p => p.id = request.patchPanelId) = some p ∧
      NodeExecutor.node p request.sinkId .sink = .ok n
  | _ => False

/-- The caller records the event itself, without a node. -/
def ServiceCall.recordsType (type : String) : ServiceCall → Bool
  | mesh (.runtime (.recordEvent _ other _ _ _)) => other = type
  | _ => false

section Guard
variable {w : World} {a a' : Machine App}

/-- The guard comes before every effect of the sink. -/
theorem executeSink_refuses {x : NodeExecutor App} (hx : x.runtime = App.cardRuntime)
    {n : NodeDefinition} {cardId : Uuid} {sinkId : String} {reference key : Option String}
    {r : Except PyErr SinkResult} (hn : NodeExecutor.node x.patchPanel sinkId .sink = .ok n)
    (hshadow : ∀ c, a.store.runtime.cards.get? cardId = some c → c.isShadow = true)
    (hguard : n.allowsShadowEgress = false)
    (h : (x.executeSink cardId sinkId reference key).run w a = (r, a')) :
    a' = a ∧ ∃ e, r = .error e := by
  unfold NodeExecutor.executeSink at h
  obtain ⟨rfl, e, -, rfl⟩ | ⟨n', hn', h⟩ := bind_same (Op.run_ofExcept _ w a) h
  · exact ⟨rfl, e, rfl⟩
  rw [hn] at hn'
  cases hn'
  rw [hx] at h
  obtain ⟨rfl, e, rfl⟩ | ⟨card, hstored, h⟩ := NodeExecutor.getCard_bind h
  · exact ⟨rfl, e, rfl⟩
  obtain ⟨rfl, e, -, rfl⟩ | ⟨_, hallowed, -⟩ := bind_same (Op.run_ofExcept _ w a) h
  · exact ⟨rfl, e, rfl⟩
  · have hallows := ensureShadowEgress_iff.mp hallowed (hshadow card hstored)
    rw [hguard] at hallows
    cases hallows

/-- The step lemma of the guard: neither way to a sink does anything for such a card. -/
theorem throughSink_refuses {call : ServiceCall} {n : NodeDefinition} {cardId : Uuid}
    (hkeyed : WellKeyed a.store.runtime) (hcall : call.ThroughSink a n cardId)
    (hshadow : ∀ c, a.store.runtime.cards.get? cardId = some c → c.isShadow = true)
    (hguard : n.allowsShadowEgress = false) : call.step w a = a := by
  cases call with
  | shadow call => cases hcall
  | boundarySource request => cases hcall
  | mesh call =>
    cases call with
    | runtime call => cases hcall
    | node setup call =>
      cases call with
      | source _ _ _ _ => cases hcall
      | worker _ => cases hcall
      | validator _ => cases hcall
      | sink id sinkId reference key =>
        obtain ⟨rfl, hn⟩ := hcall
        exact (executeSink_refuses (x := setup.executor) rfl hn hshadow hguard rfl).1
  | boundarySink request =>
    obtain ⟨rfl, p, hp, hn⟩ := hcall
    rcases hrun : (BoundaryAdapterService.executeSink App.cardRuntime request).run w a with ⟨r, b⟩
    have hstep : ServiceCall.step w a (.boundarySink request) = b := congrArg Prod.snd hrun
    rw [hstep]
    rcases boundarySink_cases hrun with heq | ⟨q, n', card, reference, key, r', b', hegress⟩
    · exact heq
    · have hq := hegress.panel
      rw [hp] at hq
      cases hq
      have hn' := hegress.node
      rw [hn] at hn'
      cases hn'
      have hsink := hegress.sink
      rw [hkeyed.cards hegress.stored, NodeExecutor.node_id hn] at hsink
      obtain ⟨hsame, e, he⟩ := executeSink_refuses (x := NodeExecutor.bare App.cardRuntime p) rfl hn
        hshadow hguard hsink
      rcases hegress.after with heq | ⟨⟨result, hok⟩, -⟩
      · exact heq.trans hsame
      · rw [he] at hok
        cases hok

/-! ## Where sink events come from -/

/-- The events of a sink execution: by the node, on the card, and of no other kind that
an egress could be taken for. -/
def SinkEvent (n : NodeDefinition) (cardId : Uuid) (e : CardEvent) : Prop :=
  e.eventType = "sink_executed" → e.cardId = cardId ∧ e.actorId = some n.id

theorem executeSink_appends {x : NodeExecutor App} (hx : x.runtime = App.cardRuntime)
    (hregistry : x.registry = none ∨ x.registry = some App.patchPanelRegistry)
    (hauthorization : x.authorizationRepository = none ∨
      x.authorizationRepository = some App.authorizationRepository)
    {cardId : Uuid} {sinkId : String} {reference key : Option String}
    {r : Except PyErr SinkResult}
    (h : (x.executeSink cardId sinkId reference key).run w a = (r, a')) :
    a' = a ∨ ∃ n, NodeExecutor.node x.patchPanel sinkId .sink = .ok n ∧
      Appends (SinkEvent n cardId) a.store.runtime a'.store.runtime := by
  rcases NodeExecutor.executeSink_cases hx hregistry hauthorization h with
    ⟨heq, -⟩ | ⟨n, card, m1, r1, hn, -, -, heffect, -, hrecord⟩
  · exact .inl heq
  refine .inr ⟨n, hn, ?_⟩
  have hsilent : Silent w "sink_executed" a m1 := sinkEffect_silent heffect
  have hbefore : Appends (SinkEvent n cardId) a.store.runtime m1.store.runtime :=
    hsilent.appends.mono fun e hne htype => absurd htype hne
  rcases hrecord with heq | ⟨payload, s, e, hrecords, heq⟩
  · rw [heq]
    exact hbefore
  · rw [heq]
    refine hbefore.trans (.of_logged hrecords.noted ?_)
    intro _
    rw [NodeExecutor.node_id hn]
    exact ⟨hrecords.event.1, hrecords.event.2.2.1⟩

/-- A step records no sink event, or it executes the sink that the event names. -/
theorem ServiceCall.step_appends {call : ServiceCall} (hkeyed : WellKeyed a.store.runtime)
    (hcall : call.recordsType "sink_executed" = false) :
    AppendsNo "sink_executed" a.store.runtime (call.step w a).store.runtime ∨
      ∃ n cardId, call.ThroughSink a n cardId ∧
        Appends (SinkEvent n cardId) a.store.runtime (call.step w a).store.runtime := by
  have htype : "sink_executed" ∈ outcomeTypes := by decide
  cases call with
  | shadow call => exact .inl (call.step_silent htype).appends
  | boundarySource request => exact .inl (boundarySource_silent htype request a).appends
  | mesh call =>
    cases call with
    | runtime call =>
      refine .inl (RuntimeCall.step_silent (m := App.runtimeMachine a) (w := w) call ?_).appends
      cases call <;> simp_all [RuntimeCall.eventType, recordsType]
    | node setup call =>
      cases call with
      | source sourceId payload metadata key =>
        exact .inl (executeSource_silent (x := setup.executor) rfl htype sourceId payload metadata
          key a).appends
      | worker request =>
        exact .inl (executeWorker_silent (x := setup.executor) rfl htype request a).appends
      | validator request =>
        exact .inl (executeValidator_silent (x := setup.executor) rfl (by decide) request a).appends
      | sink cardId sinkId reference key =>
        rcases executeSink_appends (x := setup.executor) (w := w) (a := a) rfl
          setup.registry_cases setup.authorization_cases rfl with heq | ⟨n, hn, happends⟩
        · refine .inl (.of_history fun x => ?_)
          exact congrArg (fun b : Machine App => b.store.runtime.history x) heq
        · exact .inr ⟨n, cardId, ⟨rfl, hn⟩, happends⟩
  | boundarySink request =>
    rcases hrun : (BoundaryAdapterService.executeSink App.cardRuntime request).run w a with ⟨r, b⟩
    have hstep : ServiceCall.step w a (.boundarySink request) = b := congrArg Prod.snd hrun
    rw [hstep]
    rcases boundarySink_cases hrun with heq | ⟨p, n, card, reference, key, r', b', hegress⟩
    · rw [heq]
      exact .inl (.of_history fun _ => rfl)
    have hid : card.id = request.cardId := hkeyed.cards hegress.stored
    have hsink : Appends (SinkEvent n request.cardId) a.store.runtime b'.store.runtime := by
      have hrun' := hegress.sink
      rw [hid, NodeExecutor.node_id hegress.node] at hrun'
      rcases executeSink_appends (x := NodeExecutor.bare App.cardRuntime p) rfl (.inl rfl)
        (.inl rfl) hrun' with heq | ⟨n', hn', happends⟩
      · rw [heq]
        exact .of_history fun _ => rfl
      · have hsame : n' = n := Except.ok.inj (hn'.symm.trans hegress.node)
        rwa [hsame] at happends
    refine .inr ⟨n, request.cardId, ⟨rfl, p, hegress.panel, hegress.node⟩, ?_⟩
    rcases hegress.after with heq | ⟨-, payload, key', heq⟩
    · rwa [heq]
    · rw [heq]
      have hrecord : Exec.Within (Silent w "sink_executed") w (App.cardRuntime.recordEvent card.id
          "boundary_sink_egressed" (some n.id) (some payload) (some key')) :=
        recordEvent_silent (by decide) card.id (some n.id) (some payload) (some key')
      exact hsink.trans ((hrecord b').appends.mono fun e hne htype => absurd htype hne)

end Guard

/-- In every run, from any state of the other stores: a sink execution for a card that is
a shadow, at whatever point of the run its metadata is read, changes nothing when the
sink does not allow the egress, and a sink event that no caller recorded itself comes
from an execution of the sink that it names, for the card that it is about. -/
theorem shadow_never_egresses (w : World) (a : App) (ticks draws : Nat)
    (calls : List ServiceCall) :
    ∀ before call after, calls = before ++ call :: after →
      let m := runServices w (a.boot ticks draws) before
      let final := runServices w (a.boot ticks draws) calls
      (∀ n cardId card, call.ThroughSink m n cardId →
        final.store.runtime.cards.get? cardId = some card → card.isShadow = true →
        n.allowsShadowEgress = false → call.step w m = m) ∧
      ∀ id e, m.store.runtime.Adds (call.step w m).store.runtime id e →
        e.eventType = "sink_executed" → call.recordsType "sink_executed" = false →
        ∃ n, call.ThroughSink m n id ∧ e.cardId = id ∧ e.actorId = some n.id := by
  intro before call after hcalls m final
  have hsound : CardsSound w (App.runtimeMachine m) :=
    (runServices_cardsKept before (boot_sound a ticks draws)).2
  refine ⟨?_, ?_⟩
  · intro n cardId card hthrough hcard hshadow hguard
    apply throughSink_refuses hsound.keyed hthrough _ hguard
    intro c hc
    -- the metadata read now is the metadata of the final state
    have hrest : final = runServices w m (call :: after) := by
      simp only [final, m, hcalls, runServices, List.foldl_append]
    obtain ⟨bucket, hkept⟩ := (runServices_cardsKept (call :: after) hsound).1 cardId c hc
    rw [← hrest, hcard] at hkept
    cases hkept
    exact hshadow
  · intro id e hadds htype hcall
    have hnext := (effects_cardsKept hsound (call.step_effects (w := w) (a := m))).2
    have hid : e.cardId = id := hnext.keyed.history (List.mem_of_mem_drop hadds)
    rcases call.step_appends (w := w) hsound.keyed hcall with hno | ⟨n, cardId, hthrough, happends⟩
    · exact absurd htype (hno.adds hadds)
    · obtain ⟨hcard, hactor⟩ := happends.adds hadds htype
      have hsame : cardId = id := hcard.symm.trans hid
      exact ⟨n, hsame ▸ hthrough, hid, hactor⟩

/-- A panel, a card of it, and a shadow of that card. -/
def shadowedCalls : List ServiceCall :=
  [.mesh (.runtime (.registerPatchPanel (PatchPanelValidator.linePanel "orders" "1"))),
    .mesh (.runtime (.createCard "orders" [] none none)),
    .shadow (.create ⟨⟨0⟩, "orders:1", "inbox", [], [], 2⟩ "candidate" ⟨.finite 1 0, 1⟩ none)]

/-- The sink of the panel, on the shadow. -/
def shadowEgress : ServiceCall :=
  .mesh (.node ⟨PatchPanelValidator.linePanel "orders" "1", true, true⟩ (.sink ⟨2⟩ "done" none none))

theorem shadow_never_egresses_shadowed :
    shadowEgress.step .simple (runServices .simple (App.init.boot 0 0) shadowedCalls) =
      runServices .simple (App.init.boot 0 0) shadowedCalls := by
  have hcard : ∃ card, (runServices .simple (App.init.boot 0 0)
      (shadowedCalls ++ [shadowEgress])).store.runtime.cards.get? ⟨2⟩ = some card ∧
        card.isShadow = true := by
    refine ⟨_, rfl, ?_⟩
    decide +kernel
  obtain ⟨card, hstored, hshadow⟩ := hcard
  exact (shadow_never_egresses .simple App.init 0 0 (shadowedCalls ++ [shadowEgress]) shadowedCalls
    shadowEgress [] rfl).1 ⟨"done", .sink, none, none, ["done_in"], [], none, []⟩ ⟨2⟩ card
    ⟨rfl, rfl⟩ hstored hshadow (by decide)

end GhostMesh
