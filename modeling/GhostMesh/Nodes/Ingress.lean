import GhostMesh.Nodes.Egress

/-!
# One ingress

A boundary source works out its panel, contract, payload and deduplication value before it
does anything. Then it creates a card, or finds the one under its key, and records two
events. The three keys of a request are one text with three endings.
-/

set_option autoImplicit false

namespace GhostMesh

open InMemoryCardRuntime Op
open Exec (bind_cases bind_same)

/-! ## Created cards -/

section Creation
variable {w : World} {a : Machine App} {panel : String} {key : Option String}

def App.withCard (a : Machine App) (key : Option String) (c : Card) (e : CardEvent) :
    Machine App :=
  ⟨{ a.store with runtime := a.store.runtime.created key c e }, a.ticks + 2, a.draws + 2⟩

/-- Under a new key, a panel with a bucket for new cards gets one. -/
theorem App.createCard_new (payload : JsonObj) (metadata : Option JsonObj) {p : PatchPanel}
    {bucket : String} (hkey : a.store.runtime.cached key = none)
    (hp : a.store.runtime.patchPanels.get? panel = some p)
    (hbucket : resolveInitialBucket p = .ok bucket) :
    ∃ (c : Card) (e : CardEvent), c.id = w.uuid4 a.draws ∧ e.cardId = c.id ∧
      e.eventType = "card_created" ∧
      (App.cardRuntime.createCard panel payload metadata key).run w a =
        (.ok c, App.withCard a key c e) := by
  obtain ⟨e, hcard, htype, hrun⟩ := createCard_run (w := w) (m := App.runtimeMachine a) payload
    metadata hkey hp hbucket
  refine ⟨newCard w (App.runtimeMachine a) p bucket payload metadata, e, rfl, hcard, htype, ?_⟩
  change (Op.on App.runtimeStore (createCard panel payload metadata key)).run w a = _
  rw [Op.run_on]
  exact congrArg (fun r => (r.1, (⟨App.runtimeStore.put r.2.store a.store, r.2.ticks, r.2.draws⟩ :
    Machine App))) hrun

/-- Under a key in use the answer is the card there, if it is one. -/
theorem App.createCard_cached (payload : JsonObj) (metadata : Option JsonObj) {v : Stored}
    (hkey : a.store.runtime.cached key = some v) :
    (App.cardRuntime.createCard panel payload metadata key).run w a = (match v.card? with
      | some c => .ok c
      | none => .error (.conflict "idempotency key was already used for a different operation"),
      a) := by
  change (Op.on App.runtimeStore (createCard panel payload metadata key)).run w a = _
  have hcached : (App.runtimeStore.get a.store).cached key = some v := hkey
  unfold createCard
  rw [Op.run_on, run_idempotent]
  dsimp only
  rw [hcached]
  cases v <;> rfl

end Creation

/-- What an ingress works out. -/
structure Ingress where
  panel : PatchPanel
  node : NodeDefinition
  contract : SourceBoundaryContract
  mapped : JsonObj
  extra : JsonObj
  value : Option Json

namespace Ingress

def envelope (request : BoundarySourceRequest) : JsonObj :=
  [("payload", .obj request.externalPayload), ("headers", .obj request.headers)]

/-- The value along the configured path, before it is turned into text. -/
def extractedValue (envelope : JsonObj) (path : Option String) : Except PyErr (Option Json) :=
  match truthyStr path with
  | none => .ok none
  | some path => do
    let value ← BoundaryAdapterService.extractPath envelope path
    return some value

section Key
variable (w : World) (x : Ingress)

def text : Option String := x.value.map (Json.pyStr w)

/-- The key of the card. -/
def sourceKey : Option String :=
  (truthyStr (x.text w)).map fun key => s!"boundary-source:{x.panel.id}:{x.node.id}:{key}"

def payload (request : BoundarySourceRequest) : JsonObj :=
  if x.mapped.isEmpty then request.externalPayload else x.mapped

def metadata : JsonObj :=
  let metadata := JsonObj.update x.extra
    [("boundary_adapter", .str x.contract.adapter), ("boundary_source", .str x.node.id)]
  match truthyStr (x.text w) with
  | some key => JsonObj.set metadata "deduplication_key" (.str key)
  | none => metadata

def receivedPayload (request : BoundarySourceRequest) : JsonObj :=
  [("adapter", .str x.contract.adapter), ("source_id", .str x.node.id),
    ("deduplication_key", Json.ofOptionStr (x.text w)), ("headers", .obj request.headers)]

/-- The card of the ingress with its first event. -/
def source (request : BoundarySourceRequest) : Op App Card := do
  let card ← App.cardRuntime.createCard x.panel.id (x.payload request) (some (x.metadata w))
    (x.sourceKey w)
  let _ ← App.cardRuntime.recordEvent card.id "source_executed" (some x.node.id)
    (some [("source_id", .str x.node.id)]) (suffixedKey (x.sourceKey w) ":source")
  return card

/-- The card, its second event, and the result. -/
def receive (request : BoundarySourceRequest) : Op App SourceBoundaryResult := do
  let card ← x.source w request
  let _ ← App.cardRuntime.recordEvent card.id "boundary_source_received" (some x.node.id)
    (some (x.receivedPayload w request)) ((x.sourceKey w).map (· ++ ":event"))
  return { card, deduplicationKey := x.text w, adapter := x.contract.adapter }

end Key

/-- The request gets past its checks. -/
structure Receives (w : World) (s : InMemoryCardRuntime) (request : BoundarySourceRequest)
    (x : Ingress) : Prop where
  panel : s.patchPanels.values.find? (fun p => p.id = request.patchPanelId) = some x.panel
  node : NodeExecutor.node x.panel request.sourceId .source = .ok x.node
  contract : BoundaryAdapterService.parseContract w "SourceBoundaryContract"
    SourceBoundaryContract.ofJson
      (BoundaryAdapterService.contractJson x.node "ingress_contract") = .ok x.contract
  authorized : BoundaryAdapterService.ensureAuthorized x.contract.auth request.actorToken = .ok ()
  target : BoundaryAdapterService.ensureTarget x.panel x.node x.contract.targetWorkflowVersion =
    .ok ()
  mapped : BoundaryAdapterService.mapPayload (envelope request) x.contract.payloadMap =
    .ok x.mapped
  extra : BoundaryAdapterService.mapPayload (envelope request) x.contract.metadataMap = .ok x.extra
  value : extractedValue (envelope request) x.contract.deduplicationKey = .ok x.value

/-- The panel has a bucket for new cards. -/
def Enters (s : InMemoryCardRuntime) (x : Ingress) : Prop :=
  ∃ p bucket, s.patchPanels.get? x.panel.id = some p ∧ resolveInitialBucket p = .ok bucket

section Steps
variable {w : World} {s : InMemoryCardRuntime} {a a' : Machine App}
  {request : BoundarySourceRequest} {x y : Ingress}

theorem extractOption_eq (envelope : JsonObj) (path : Option String) :
    BoundaryAdapterService.extractOption w envelope path =
      (extractedValue envelope path).map (Option.map (Json.pyStr w)) := by
  unfold BoundaryAdapterService.extractOption extractedValue
  cases truthyStr path with
  | none => rfl
  | some path =>
    dsimp only
    cases BoundaryAdapterService.extractPath envelope path <;> rfl

/-- What a request works out is determined by the store. -/
theorem Receives.unique (hx : Receives w s request x) (hy : Receives w s request y) : y = x := by
  obtain ⟨panel, node, contract, mapped, extra, value⟩ := x
  obtain ⟨panel', node', contract', mapped', extra', value'⟩ := y
  cases hx.panel.symm.trans hy.panel
  cases hx.node.symm.trans hy.node
  cases hx.contract.symm.trans hy.contract
  cases hx.mapped.symm.trans hy.mapped
  cases hx.extra.symm.trans hy.extra
  cases hx.value.symm.trans hy.value
  rfl

theorem Receives.node_id (hx : Receives w s request x) : x.node.id = request.sourceId :=
  NodeExecutor.node_id hx.node

/-- A request that gets past its checks creates its card and records its events. -/
theorem run_of_receives (hx : Receives w a.store.runtime request x) :
    (BoundaryAdapterService.executeSource App.cardRuntime request).run w a =
      (x.receive w request).run w a := by
  have hpanel : (BoundaryAdapterService.patchPanel App.cardRuntime request.patchPanelId).run w a =
      (.ok x.panel, a) := by
    rw [run_patchPanel, hx.panel]
  have hnode : NodeExecutor.node x.panel x.node.id .source = .ok x.node := by
    rw [hx.node_id]
    exact hx.node
  have hvalue : BoundaryAdapterService.extractOption w (envelope request)
      x.contract.deduplicationKey = .ok (x.text w) := by
    rw [extractOption_eq, hx.value]
    rfl
  unfold BoundaryAdapterService.executeSource receive
  rw [Exec.run_bind_ok hpanel, Exec.run_bind_ok (Egress.ofExcept_ok hx.node),
    Exec.run_bind_ok (Op.run_world w a), Exec.run_bind_ok (Egress.ofExcept_ok hx.contract),
    Exec.run_bind_ok (Egress.ofExcept_ok hx.authorized),
    Exec.run_bind_ok (Egress.ofExcept_ok hx.target)]
  refine (Exec.run_bind_ok (Egress.ofExcept_ok hx.mapped)).trans ?_
  refine (Exec.run_bind_ok (Egress.ofExcept_ok hx.extra)).trans ?_
  refine (Exec.run_bind_ok (Egress.ofExcept_ok hvalue)).trans ?_
  unfold NodeExecutor.executeSource
  exact Exec.run_bind_congr (Exec.run_bind_ok (Egress.ofExcept_ok hnode))

/-- A request that does not get past its checks raises, and nothing happens. -/
theorem receives_or_raises (w : World) (a : Machine App) (request : BoundarySourceRequest) :
    (∃ x, Receives w a.store.runtime request x) ∨
    ∃ e, (BoundaryAdapterService.executeSource App.cardRuntime request).run w a = (.error e, a) := by
  rcases hrun : (BoundaryAdapterService.executeSource App.cardRuntime request).run w a with ⟨r, a'⟩
  have h := hrun
  unfold BoundaryAdapterService.executeSource at h
  obtain ⟨rfl, e, rfl⟩ | ⟨p, hpanel, h⟩ := patchPanel_bind h
  · exact .inr ⟨e, rfl⟩
  obtain ⟨rfl, e, -, rfl⟩ | ⟨n, hn, h⟩ := bind_same (Op.run_ofExcept _ w a) h
  · exact .inr ⟨e, rfl⟩
  rw [Exec.run_bind_ok (Op.run_world w a)] at h
  obtain ⟨rfl, e, -, rfl⟩ | ⟨contract, hcontract, h⟩ := bind_same (Op.run_ofExcept _ w a) h
  · exact .inr ⟨e, rfl⟩
  obtain ⟨rfl, e, -, rfl⟩ | ⟨_, hauth, h⟩ := bind_same (Op.run_ofExcept _ w a) h
  · exact .inr ⟨e, rfl⟩
  obtain ⟨rfl, e, -, rfl⟩ | ⟨_, htarget, h⟩ := bind_same (Op.run_ofExcept _ w a) h
  · exact .inr ⟨e, rfl⟩
  obtain ⟨rfl, e, -, rfl⟩ | ⟨mapped, hmapped, h⟩ := bind_same (Op.run_ofExcept _ w a) h
  · exact .inr ⟨e, rfl⟩
  obtain ⟨rfl, e, -, rfl⟩ | ⟨extra, hextra, h⟩ := bind_same (Op.run_ofExcept _ w a) h
  · exact .inr ⟨e, rfl⟩
  obtain ⟨rfl, e, -, rfl⟩ | ⟨key, hkey, -⟩ := bind_same (Op.run_ofExcept _ w a) h
  · exact .inr ⟨e, rfl⟩
  rw [extractOption_eq] at hkey
  cases hvalue : extractedValue (envelope request) contract.deduplicationKey with
  | error e =>
    change Except.map _ (extractedValue (envelope request) contract.deduplicationKey) = _ at hkey
    rw [hvalue] at hkey
    cases hkey
  | ok value =>
    exact .inl ⟨⟨p, n, contract, mapped, extra, value⟩, hpanel, hn, hcontract, hauth, htarget,
      hmapped, hextra, hvalue⟩

end Steps

/-! ## The keys of a request -/

section Keys
variable {w : World} {x : Ingress} {k l : String}

theorem sourceKey_ne (h : x.sourceKey w = some k) : k ≠ "" := by
  obtain ⟨text, -, rfl⟩ := Option.map_eq_some_iff.mp h
  intro hempty
  have hprefix : "boundary-source:" = "" := by
    simp only [String.append_eq_empty_iff] at hempty
    exact hempty.1.1.1.1.1
  exact absurd hprefix (by decide)

theorem suffixed_sourceKey (suffix : String) :
    suffixedKey (x.sourceKey w) suffix = (x.sourceKey w).map (· ++ suffix) := by
  unfold suffixedKey
  cases hkey : x.sourceKey w with
  | none => rfl
  | some k => rw [truthyStr_some (sourceKey_ne hkey)]

theorem append_ne (k : String) {suffix : String} (h : suffix ≠ "") : k ++ suffix ≠ "" := by
  intro hempty
  exact h (String.append_eq_empty_iff.mp hempty).2

theorem ne_append (k : String) {suffix : String} (h : suffix ≠ "") : k ≠ k ++ suffix := by
  intro heq
  have hsuffix : k ++ "" = k ++ suffix := by
    rw [String.append_empty]
    exact heq
  exact h ((String.append_right_inj k).mp hsuffix).symm

/-- The keys of the two events never meet. -/
theorem source_ne_event (k l : String) : k ++ ":source" ≠ l ++ ":event" := by
  intro heq
  have hlist := congrArg (fun s => s.toList.getLast?) heq
  simp [String.toList_append] at hlist

end Keys

end Ingress

end GhostMesh
