import GhostMesh.Nodes.Calls

/-!
# Isolation between Patch Panels

What a worker, validator or sink of one panel can do to the cards of another. The
executor looks nodes up in its own panel, the runtime resolves cards and pipes
against all panels; the two agree as long as the card that the call addresses
belongs to the panel of the executor.
-/

set_option autoImplicit false

namespace GhostMesh

open InMemoryCardRuntime Op

/-- Card, history and leases of `x` are as before. -/
structure Untouched (x : Uuid) (s s' : InMemoryCardRuntime) : Prop where
  card : s'.cards.get? x = s.cards.get? x
  history : s'.history x = s.history x
  leases : ∀ a l, l.cardId = x → (s'.leases.get? a = some l ↔ s.leases.get? a = some l)

namespace Untouched

variable {x : Uuid} {s s' s'' : InMemoryCardRuntime}

theorem refl (x : Uuid) (s : InMemoryCardRuntime) : Untouched x s s := ⟨rfl, rfl, fun _ _ _ => Iff.rfl⟩

theorem trans (h : Untouched x s s') (h' : Untouched x s' s'') : Untouched x s s'' :=
  ⟨h'.card.trans h.card, h'.history.trans h.history,
    fun a l hl => (h'.leases a l hl).trans (h.leases a l hl)⟩

theorem putCard {c : Card} (hc : x ≠ c.id) : Untouched x s (s.putCard c) :=
  ⟨Dict.get?_set_ne _ _ hc, rfl, fun _ _ _ => Iff.rfl⟩

/-- A lease of another card, written under an id that no lease of `x` has. -/
theorem putLease {l : Lease} (hl : l.cardId ≠ x)
    (hold : ∀ l', s.leases.get? l.id = some l' → l'.cardId ≠ x) :
    Untouched x s (s.putLease l) := by
  refine ⟨rfl, rfl, ?_⟩
  intro a l' hx
  rw [putLease_leases, Dict.get?_set]
  split
  · rename_i ha
    subst ha
    constructor
    · intro h
      cases h
      exact absurd hx hl
    · exact fun h => absurd hx (hold l' h)
  · exact Iff.rfl

theorem putArtifacts (refs : List ArtifactReference) : Untouched x s (s.putArtifacts refs) :=
  ⟨rfl, rfl, fun _ _ _ => Iff.rfl⟩

theorem putEvent {e : CardEvent} (he : x ≠ e.cardId) : Untouched x s (s.putEvent e) :=
  ⟨rfl, by rw [putEvent_history, if_neg he], fun _ _ _ => Iff.rfl⟩

theorem putKey (key : Option String) (v : Stored) : Untouched x s (s.putKey key v) := by
  refine ⟨by simp, by simp, fun a l _ => by simp⟩

theorem putPanel (p : PatchPanel) : Untouched x s (s.putPanel p) :=
  ⟨rfl, rfl, fun _ _ _ => Iff.rfl⟩

theorem routeCard {c : Card} (hc : x ≠ c.id) (route : Option (String × String)) :
    Untouched x s (s.routeCard c route) := by
  cases route with
  | none => exact refl x s
  | some r => exact putCard hc

theorem of_same {m m' : Machine InMemoryCardRuntime} (h : SameStore m m') :
    Untouched x m.store m'.store := by
  rw [h.store]
  exact refl x _

end Untouched

/-! ## The card that a call addresses -/

section Frames
variable {w : World} {m m' : Machine InMemoryCardRuntime} {x : Uuid}

theorem claims_untouched {pipe worker : String} {key : Option String} {l : Lease} {e : CardEvent}
    (hm : LeasesDrawn w m.draws m.store) (h : Claims w m m' pipe worker key l e)
    (hx : x ≠ l.cardId) : Untouched x m.store m'.store := by
  have hfresh : m.store.leases.get? l.id = none := h.unstored hm
  rw [h.store]
  refine ((Untouched.putLease hx.symm ?_).trans (.putEvent ?_)).trans (.putKey _ _)
  · rw [hfresh]
    simp
  · rw [h.event.1]
    exact hx

theorem submits_untouched {lease : Uuid} {pipe : String} {refs : List ArtifactReference}
    {key : Option String} {l : Lease} {c : Card} {d : String} {t : Instant} {e : CardEvent}
    (hm : WellKeyed m.store) (h : Submits w m m' lease pipe refs key l c d t e)
    (hx : x ≠ l.cardId) : Untouched x m.store m'.store := by
  obtain ⟨p, hchecks⟩ := h.checks
  have hc : x ≠ c.id := by
    rw [hm.cards hchecks.card]
    exact hx
  have hid : l.id = lease := hm.leases hchecks.lease
  have hcard : Untouched x m.store (m.store.putCard { c with currentBucket := d }) :=
    Untouched.putCard hc
  have hlease : Untouched x (m.store.putCard { c with currentBucket := d })
      ((m.store.putCard { c with currentBucket := d }).putLease { l with releasedAt := some t }) := by
    refine Untouched.putLease hx.symm ?_
    intro l' hl'
    rw [putCard_leases, show l.id = lease from hid, hchecks.lease] at hl'
    cases hl'
    exact hx.symm
  rw [h.store]
  refine (((hcard.trans hlease).trans (.putArtifacts _)).trans (.putEvent ?_)).trans (.putKey _ _)
  rw [h.event.1]
  exact hc

theorem validates_untouched {card : Uuid} {validator : String} {accepted : Bool}
    {reason pipe : Option String} {payload : Option JsonObj} {key : Option String} {c : Card}
    {route : Option (String × String)} {e : CardEvent} (hm : WellKeyed m.store)
    (h : Validates w m m' card validator accepted reason pipe payload key c route e)
    (hx : x ≠ card) : Untouched x m.store m'.store := by
  have hc : x ≠ c.id := by
    rw [hm.cards h.card]
    exact hx
  rw [h.store]
  refine ((Untouched.routeCard hc route).trans (.putEvent ?_)).trans (.putKey _ _)
  rw [h.event.1]
  exact hc

theorem records_untouched {card : Uuid} {type : String} {actor : Option String}
    {payload : Option JsonObj} {key : Option String} {e : CardEvent}
    (h : Records m m' card type actor payload key e) (hx : x ≠ card) :
    Untouched x m.store m'.store := by
  rw [h.store]
  refine (Untouched.putEvent ?_).trans (.putKey _ _)
  rw [h.event.1]
  exact hx

end Frames

/-! ## Calls that stay within their panel -/

/-- The card, where it exists, was created under the panel. -/
def Owns (p : PatchPanel) (s : InMemoryCardRuntime) (cardId : Uuid) : Prop :=
  ∀ c, s.cards.get? cardId = some c → c.workflowVersion = p.workflowVersion

theorem Owns.ne {p : PatchPanel} {s : InMemoryCardRuntime} {cardId x : Uuid} {c : Card}
    (h : Owns p s cardId) (hc : s.cards.get? x = some c)
    (hforeign : c.workflowVersion ≠ p.workflowVersion) : x ≠ cardId := by
  rintro rfl
  exact hforeign (h c hc)

/-- What a worker can reach through its pipe belongs to the panel: the card of the
lease that the claim key answers, or every card that the claim could take. -/
def WorkerWithin (w : World) (p : PatchPanel) (m : Machine InMemoryCardRuntime)
    (request : WorkerExecutionInput) : Prop :=
  (∀ v l l', m.store.cached (suffixedKey request.idempotencyKey ":claim") = some v →
    v.lease? = some l → m.store.leases.get? l.id = some l' →
    m.store.cached (suffixedKey request.idempotencyKey ":submit") = none →
    Owns p m.store l'.cardId) ∧
  (m.store.cached (suffixedKey request.idempotencyKey ":claim") = none →
    ∀ q bucket nodeId c i, q ∈ m.store.patchPanels.values →
    resolvePipeBucket q request.inputPipe .input = .ok (bucket, nodeId) → m.ticks ≤ i →
    Claimable m.store (w.clock i) q bucket c →
    (∀ q' ∈ m.store.patchPanels.values, Offers w m request.inputPipe q' → q' = q) →
    c.workflowVersion = p.workflowVersion)

/-- A call that fails its first checks, is answered from the idempotency map, or
addresses a card of the executor's own panel. -/
def NodeCall.Within (w : World) (p : PatchPanel) (m : Machine InMemoryCardRuntime) :
    NodeCall → Prop
  | source _ _ _ _ => True
  | worker request => (∃ n, NodeExecutor.nodeForPipe p request.inputPipe .worker = .ok n) →
    WorkerWithin w p m request
  | validator request => (∃ n, NodeExecutor.node p request.validatorId .validator = .ok n) →
    m.store.cached request.idempotencyKey = none → Owns p m.store request.cardId
  | sink cardId sinkId _ key => ∀ n c, NodeExecutor.node p sinkId .sink = .ok n →
    m.store.cards.get? cardId = some c → NodeExecutor.ensureCardAtSink p n c = .ok () →
    m.store.cached key = none → c.workflowVersion = p.workflowVersion

/-- A worker, validator or sink leaves the cards of other panels as they are. -/
def NodeCall.Isolated (p : PatchPanel) (s s' : InMemoryCardRuntime) : NodeCall → Prop
  | source _ _ _ _ => True
  | _ => ∀ x c, s.cards.get? x = some c → c.workflowVersion ≠ p.workflowVersion →
    Untouched x s s'

def MeshCall.Within (w : World) (m : Machine App) : MeshCall → Prop
  | runtime _ => True
  | node x call => call.Within w x.patchPanel (App.runtimeMachine m)

def MeshCall.Isolated (w : World) (m : Machine App) : MeshCall → Prop
  | runtime _ => True
  | node x call => call.Isolated x.patchPanel m.store.runtime (call.step w x m).store.runtime

section Steps
variable {w : World} {m m' : Machine InMemoryCardRuntime} {p : PatchPanel}

/-- The card of a claimed lease belongs to the panel. -/
theorem claims_owns {request : WorkerExecutionInput} {key : Option String} {l : Lease}
    {e : CardEvent} (hkeyed : WellKeyed m.store)
    (h : Claims w m m' request.inputPipe request.workerId key l e)
    (hwithin : ∀ q bucket nodeId c i, q ∈ m.store.patchPanels.values →
      resolvePipeBucket q request.inputPipe .input = .ok (bucket, nodeId) → m.ticks ≤ i →
      Claimable m.store (w.clock i) q bucket c →
      (∀ q' ∈ m.store.patchPanels.values, Offers w m request.inputPipe q' → q' = q) →
      c.workflowVersion = p.workflowVersion) : Owns p m.store l.cardId := by
  obtain ⟨q, bucket, c, i, hq, hres, hlo, -, hclaim, hcard, hsole⟩ := h.target
  have hown := hwithin q bucket _ c i hq hres hlo hclaim hsole
  intro c' hc'
  obtain ⟨x, hx⟩ := (Dict.mem_values_iff _ _).mp hclaim.stored
  have hxid : x = l.cardId := (hkeyed.cards hx).symm.trans hcard
  rw [hxid, hc'] at hx
  cases hx
  exact hown

theorem submitted_untouched {leaseId x : Uuid} {request : WorkerExecutionInput}
    (hkeyed : WellKeyed m.store) (h : NodeExecutor.Submitted w m m' leaseId request)
    (hx : ∀ l, m.store.leases.get? leaseId = some l →
      m.store.cached (suffixedKey request.idempotencyKey ":submit") = none → x ≠ l.cardId) :
    Untouched x m.store m'.store := by
  rcases h with hsame | ⟨l, c, d, t, e, hsubmits⟩
  · exact .of_same hsame
  · obtain ⟨p, hchecks⟩ := hsubmits.checks
    exact submits_untouched hkeyed hsubmits (hx l hchecks.lease hsubmits.uncached)

theorem worker_isolated {request : WorkerExecutionInput}
    {r : Except PyErr (List ArtifactReference)} (hkeyed : WellKeyed m.store)
    (hdrawn : LeasesDrawn w m.draws m.store)
    (hwithin : (NodeCall.worker request).Within w p m)
    (h : (NodeExecutor.executeWorker (NodeExecutor.onMemory p) request).run w m = (r, m')) :
    (NodeCall.worker request).Isolated p m.store m'.store := by
  intro x c hc hforeign
  rcases NodeExecutor.executeWorker_cases h with rfl | ⟨n, hn, s, hclaim⟩
  · exact .refl x _
  obtain ⟨hreplayed, hfresh⟩ := hwithin ⟨n, hn⟩
  rcases hclaim with ⟨hsame, rfl | ⟨v, l, hv, hcached, hsub⟩⟩ | ⟨l, e, hclaims, hsub⟩
  · exact .of_same hsame
  · refine (Untouched.of_same hsame).trans (submitted_untouched (hsame.store ▸ hkeyed) hsub ?_)
    rw [hsame.store]
    exact fun l' hl' hsubmit => (hreplayed v l l' hcached hv hl' hsubmit).ne hc hforeign
  · have hx : x ≠ l.cardId :=
      (claims_owns hkeyed hclaims (hfresh hclaims.uncached)).ne hc hforeign
    have hkeyed' : WellKeyed s.store := hkeyed.effect (.claims hclaims)
    refine (claims_untouched hdrawn hclaims hx).trans (submitted_untouched hkeyed' hsub ?_)
    intro l' hl' _
    rw [hclaims.store] at hl'
    simp only [claimed, putKey_leases, putEvent_leases, putLease_leases, Dict.get?_set_self] at hl'
    cases hl'
    exact hx

theorem validator_isolated {request : ValidatorExecutionInput} {r : Except PyErr CardEvent}
    (hkeyed : WellKeyed m.store) (hwithin : (NodeCall.validator request).Within w p m)
    (h : (NodeExecutor.executeValidator (NodeExecutor.onMemory p) request).run w m = (r, m')) :
    (NodeCall.validator request).Isolated p m.store m'.store := by
  intro x c hc hforeign
  rcases NodeExecutor.executeValidator_cases h with
    hsame | ⟨accepted, request', s, c', route, e, hverdict, hsame, hvalidates⟩
  · exact .of_same hsame
  have hnode : ∃ n, NodeExecutor.node p request.validatorId .validator = .ok n := by
    cases hn : NodeExecutor.node p request.validatorId .validator with
    | ok n => exact ⟨n, rfl⟩
    | error err =>
      simp only [NodeExecutor.verdict, hn, bind, Except.bind] at hverdict
      cases hverdict
  have huncached : m.store.cached request.idempotencyKey = none := hsame.store ▸ hvalidates.uncached
  refine (Untouched.of_same hsame).trans (validates_untouched (hsame.store ▸ hkeyed) hvalidates ?_)
  exact (hwithin hnode huncached).ne hc hforeign

/-- The configured branch of a sink writes no card, lease or event. -/
theorem sinkEffect_untouched {executor : NodeExecutor App} {n : NodeDefinition} {card : Card}
    {a a' : Machine App} {r : Except PyErr (Option String)}
    (h : NodeExecutor.SinkEffect w executor n card a a' r) (x : Uuid) :
    Untouched x a.store.runtime a'.store.runtime ∧
      a'.store.runtime.idempotency = a.store.runtime.idempotency := by
  cases h with
  | passes same _ =>
    rw [same]
    exact ⟨.refl x _, rfl⟩
  | provisions _ _ _ writes =>
    have hsame := (via_authorization_same writes).store
    simp only [App.runtimeMachine] at hsame
    rw [hsame]
    exact ⟨.refl x _, rfl⟩
  | publishes _ _ _ _ panel same writes =>
    have hsame := (via_registry_same writes).store
    simp only [App.runtimeMachine] at hsame
    rw [hsame]
    rcases same with rfl | ⟨p, -, -, rfl⟩
    · exact ⟨.refl x _, rfl⟩
    · exact ⟨.putPanel p, rfl⟩

theorem sink_isolated {setup : ExecutorSetup} {a a' : Machine App} {cardId : Uuid}
    {sinkId : String} {reference key : Option String} {r : Except PyErr SinkResult}
    (hwithin : (NodeCall.sink cardId sinkId reference key).Within w setup.patchPanel
      (App.runtimeMachine a))
    (h : (setup.executor.executeSink cardId sinkId reference key).run w a = (r, a')) :
    (NodeCall.sink cardId sinkId reference key).Isolated setup.patchPanel a.store.runtime
      a'.store.runtime := by
  intro x c hc hforeign
  rcases NodeExecutor.executeSink_cases rfl setup.registry_cases setup.authorization_cases h with
    ⟨rfl, -⟩ | ⟨n, card, m1, r1, hn, hcard, hat, heffect, -, hrecord⟩
  · exact .refl x _
  obtain ⟨huntouched, hkeys⟩ := sinkEffect_untouched heffect x
  rcases hrecord with rfl | ⟨payload, s, e, hrecords, rfl⟩
  · exact huntouched
  · have huncached : a.store.runtime.cached key = none := by
      have := hrecords.uncached
      simpa only [cached, App.runtimeMachine, hkeys] using this
    have hx : x ≠ cardId := by
      rintro rfl
      rw [hcard] at hc
      cases hc
      exact hforeign (hwithin n _ hn hcard hat huncached)
    exact huntouched.trans (records_untouched hrecords hx)

/-- The runtime invariants that isolation rests on. -/
def Sound (w : World) (m : Machine InMemoryCardRuntime) : Prop :=
  WellKeyed m.store ∧ LeasesDrawn w m.draws m.store

theorem Sound.effect (hm : Sound w m) (h : Effect w m m') : Sound w m' :=
  ⟨hm.1.effect h, hm.2.effect hm.1 h⟩

theorem Sound.boot (a : App) (ticks draws : Nat) :
    Sound w (App.runtimeMachine (App.boot a ticks draws)) :=
  ⟨WellKeyed.init, fun b l hl => by simp [App.runtimeMachine, App.boot, InMemoryCardRuntime.init] at hl⟩

theorem MeshCall.step_isolated {a : Machine App} {call : MeshCall}
    (ha : Sound w (App.runtimeMachine a)) (hwithin : call.Within w a) : call.Isolated w a := by
  cases call with
  | runtime call => trivial
  | node setup call =>
    cases call with
    | source _ _ _ _ => trivial
    | worker request =>
      simp only [Isolated]
      rw [NodeCall.step_worker]
      exact worker_isolated ha.1 ha.2 hwithin rfl
    | validator request =>
      simp only [Isolated]
      rw [NodeCall.step_validator]
      exact validator_isolated ha.1 hwithin rfl
    | sink cardId sinkId reference key => exact sink_isolated hwithin rfl

end Steps

/-- In every run whose node executions stay within their panel, no worker, validator
or sink touches a card of another panel. -/
theorem node_execution_isolated (w : World) (a : App) (ticks draws : Nat) (calls : List MeshCall)
    (h : Permitted (MeshCall.step w) (MeshCall.Within w) (App.boot a ticks draws) calls) :
    Permitted (MeshCall.step w) (MeshCall.Isolated w) (App.boot a ticks draws) calls := by
  refine h.of_invariant (I := fun b => Sound w (App.runtimeMachine b)) ?_ ?_ (Sound.boot a ticks draws)
  · intro b call hb
    exact effects_invariant (fun _ _ hm heffect => hm.effect heffect) (call.step_effects w b) hb
  · intro b call hb hwithin
    exact MeshCall.step_isolated hb hwithin

/-- Two panels of the same shape. -/
def orders : PatchPanel := PatchPanelValidator.linePanel "orders" "1"

def billing : PatchPanel := PatchPanelValidator.linePanel "billing" "1"

/-- A worker of the orders panel, on the pipe that both panels bind. -/
def ordersWork : NodeCall :=
  .worker { inputPipe := "work_in", outputPipe := "work_out", workerId := "w1",
            artifactRefs := [], leaseSeconds := 300, idempotencyKey := none }

abbrev ordersWorker : MeshCall := .node ⟨orders, false, false⟩ ordersWork

/-- A billing card that has left the shared bucket, and an orders card in it. -/
def apartCalls : List MeshCall :=
  [.runtime (.registerPatchPanel orders), .runtime (.registerPatchPanel billing),
    .runtime (.createCard "billing" [] none none), .runtime (.moveCard ⟨0⟩ "outbox" none none none),
    .runtime (.createCard "orders" [] none none), ordersWorker]

/-- The machine on which the worker runs. -/
def apartMachine : Machine App :=
  (apartCalls.take 5).foldl (MeshCall.step .simple) (App.boot App.init 0 0)

theorem node_execution_isolated_apart :
    Permitted (MeshCall.step .simple) (MeshCall.Isolated .simple) (App.boot App.init 0 0)
      apartCalls := by
  have hbuckets : ∀ q ∈ apartMachine.store.runtime.patchPanels.values,
      (resolvePipeBucket q "work_in" .input).toOption = some ("inbox", "work") := by
    decide +kernel
  have hcards : ∀ c ∈ apartMachine.store.runtime.cards.values,
      c.currentBucket = "inbox" → c.workflowVersion = orders.workflowVersion := by
    decide +kernel
  have hworker : ordersWorker.Within .simple apartMachine := by
    intro _
    refine ⟨fun v l l' hv => ?_, fun _ q bucket nodeId c i hq hres _ hclaim _ => ?_⟩
    · cases hv
    · have hbucket := hbuckets q hq
      rw [show resolvePipeBucket q "work_in" .input = .ok (bucket, nodeId) from hres] at hbucket
      cases hbucket
      exact hcards c hclaim.stored hclaim.bucket
  exact node_execution_isolated .simple App.init 0 0 apartCalls
    ⟨trivial, trivial, trivial, trivial, trivial, hworker, trivial⟩

/-- The only card belongs to the billing panel; the worker of the orders panel
claims it. -/
theorem node_execution_crosses_panels :
    ¬ ∀ (w : World) (a : App) (ticks draws : Nat) (calls : List MeshCall),
      Permitted (MeshCall.step w) (MeshCall.Isolated w) (App.boot a ticks draws) calls := by
  intro h
  let calls : List MeshCall := [.runtime (.registerPatchPanel orders),
    .runtime (.registerPatchPanel billing), .runtime (.createCard "billing" [] none none)]
  let m := calls.foldl (MeshCall.step .simple) (App.boot App.init 0 0)
  have hworker : ordersWorker.Isolated .simple m :=
    (Permitted.append_iff.mp (h .simple App.init 0 0 (calls ++ [ordersWorker]))).2.1
  have hcard : (m.store.runtime.cards.get? ⟨0⟩).map (·.workflowVersion) = some "billing:1" := by
    decide +kernel
  obtain ⟨c, hc, hversion⟩ := Option.map_eq_some_iff.mp hcard
  have hforeign : c.workflowVersion ≠ orders.workflowVersion := by
    rw [hversion]
    decide +kernel
  have hsame := congrArg List.length (Untouched.history (hworker ⟨0⟩ c hc hforeign))
  have hgrown : ((ordersWork.step .simple ⟨orders, false, false⟩ m).store.runtime.history
      ⟨0⟩).length ≠
      (m.store.runtime.history ⟨0⟩).length := by decide +kernel
  exact hgrown hsame

end GhostMesh
