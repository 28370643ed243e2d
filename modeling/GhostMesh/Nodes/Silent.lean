import GhostMesh.Boundaries
import GhostMesh.Nodes.Calls
import GhostMesh.Runtime.CallEffects
import GhostMesh.Runtime.Shadow

/-!
# Operations that leave the outcomes alone

Validations and sink executions are recorded by the runtime's `validate_card` and by
sink nodes. Every other operation of the services is a sequence of effects on the
runtime that records no such event. The rules below follow the operations bind by
bind.
-/

set_option autoImplicit false

namespace GhostMesh

open InMemoryCardRuntime Op
open Relation (ReflTransGen)

/-- The types of event that tell the outcome of a validator or of a sink. -/
def outcomeTypes : List String := ["card_validated", "sink_executed"]

/-- Histories grow by such events only. -/
def Appends (ok : CardEvent → Prop) (s s' : InMemoryCardRuntime) : Prop :=
  ∀ x, ∃ new, s'.history x = s.history x ++ new ∧ ∀ e ∈ new, ok e

/-- Histories grow by events of other types only. -/
abbrev AppendsNo (type : String) : InMemoryCardRuntime → InMemoryCardRuntime → Prop :=
  Appends fun e => e.eventType ≠ type

/-- An effect on the runtime that records no event of the type. -/
structure SilentEffect (w : World) (type : String) (m m' : Machine InMemoryCardRuntime) : Prop where
  effect : Effect w m m'
  appends : AppendsNo type m.store m'.store

/-- To the runtime: a sequence of such effects. -/
def Silent (w : World) (type : String) (a a' : Machine App) : Prop :=
  ReflTransGen (SilentEffect w type) (App.runtimeMachine a) (App.runtimeMachine a')

section Appends
variable {ok ok' : CardEvent → Prop} {s s' s'' : InMemoryCardRuntime} {e : CardEvent}

theorem Appends.of_history (h : ∀ x, s'.history x = s.history x) : Appends ok s s' :=
  fun x => ⟨[], by rw [h, List.append_nil], nofun⟩

theorem Appends.mono (himp : ∀ e, ok e → ok' e) (h : Appends ok s s') : Appends ok' s s' := by
  intro x
  obtain ⟨new, hnew, hall⟩ := h x
  exact ⟨new, hnew, fun e he => himp e (hall e he)⟩

theorem Appends.trans (h : Appends ok s s') (h' : Appends ok s' s'') : Appends ok s s'' := by
  intro x
  obtain ⟨new, hnew, hall⟩ := h x
  obtain ⟨more, hmore, hall'⟩ := h' x
  refine ⟨new ++ more, by rw [hmore, hnew, List.append_assoc], ?_⟩
  intro e he
  exact (List.mem_append.mp he).elim (hall e) (hall' e)

theorem Appends.of_logged {c : Option Card} (h : Logged s s' c e) (hok : ok e) :
    Appends ok s s' := by
  intro x
  rw [h.history]
  split
  · exact ⟨[e], rfl, fun e' he => List.mem_singleton.mp he ▸ hok⟩
  · exact ⟨[], (List.append_nil _).symm, nofun⟩

theorem Appends.of_expires {t : Instant} {ls : List Lease} (h : Expires t ls s s')
    (hok : ∀ e : CardEvent, e.eventType = "lease_expired" → ok e) : Appends ok s s' :=
  h.within (.of_history fun _ => rfl) Appends.trans
    fun s l e he => .of_logged (released_noted s l t e) (hok e he)

/-- The event is new in the history of the card. -/
def InMemoryCardRuntime.Adds (s s' : InMemoryCardRuntime) (id : Uuid) (e : CardEvent) : Prop :=
  e ∈ (s'.history id).drop (s.history id).length

theorem Appends.adds {id : Uuid} (h : Appends ok s s') (hadds : s.Adds s' id e) : ok e := by
  obtain ⟨new, hnew, hall⟩ := h id
  unfold InMemoryCardRuntime.Adds at hadds
  rw [hnew, List.drop_left] at hadds
  exact hall e hadds

end Appends

/-- The type of the events that a call records. -/
def RuntimeCall.eventType : RuntimeCall → Option String
  | createCard _ _ _ _ => some "card_created"
  | claimCard _ _ _ _ => some "card_claimed"
  | submitArtifact _ _ _ _ => some "artifact_submitted"
  | renewLease _ _ _ => some "lease_renewed"
  | releaseLease _ _ _ => some "lease_released"
  | expireLeases => some "lease_expired"
  | validateCard _ _ _ _ _ _ _ => some "card_validated"
  | moveCard _ _ _ _ _ => some "card_moved"
  | recordEvent _ type _ _ _ => some type
  | registerPatchPanel _ | listPatchPanels | listCards | listLeases | cardHistory _ => none

section Calls
variable {w : World} {type : String} {m m' : Machine InMemoryCardRuntime}

theorem RuntimeCall.step_silent (call : RuntimeCall) (h : call.eventType ≠ some type) :
    SilentEffect w type m (call.step w m) := by
  refine ⟨call.step_effect w m, ?_⟩
  have hne : ∀ {other : String}, call.eventType = some other → other ≠ type :=
    fun hother heq => h (heq ▸ hother)
  have hcase := call.step_cases w m
  generalize call.result w m = r at hcase
  cases hcase with
  | same h => exact .of_history fun x => by rw [h.store]
  | registers _ _ h => exact .of_history fun x => by rw [h]; rfl
  | creates h => exact .of_logged h.logged (h.event.2.1 ▸ hne rfl)
  | claims h => exact .of_logged h.noted (h.event.2.1 ▸ hne rfl)
  | submits h => exact .of_logged h.logged (h.event.2.1 ▸ hne rfl)
  | renews h => exact .of_logged h.noted (h.event.2.1 ▸ hne rfl)
  | releases h => exact .of_logged h.noted (h.event.2.1 ▸ hne rfl)
  | expires h _ => exact .of_expires h fun e he => he ▸ hne rfl
  | validates h => exact .of_logged h.logged (h.event.2.1 ▸ hne rfl)
  | moves h => exact .of_logged h.logged (h.event.2.1 ▸ hne rfl)
  | records h => exact .of_logged h.noted (h.event.2.1 ▸ hne rfl)

theorem SilentEffect.of_same (h : SameStore m m') : SilentEffect w type m m' :=
  ⟨.same h, .of_history fun x => by rw [h.store]⟩

end Calls

/-! ## The rules -/

namespace Silent

variable {w : World} {type : String} {α β : Type} {a a' b c : Machine App}

theorem refl (a : Machine App) : Silent w type a a := ReflTransGen.refl

theorem trans (h : Silent w type a b) (h' : Silent w type b c) : Silent w type a c :=
  ReflTransGen.trans h h'

theorem single (h : SilentEffect w type (App.runtimeMachine a) (App.runtimeMachine a')) :
    Silent w type a a' := ReflTransGen.single h

theorem of_same (h : SameStore (App.runtimeMachine a) (App.runtimeMachine a')) :
    Silent w type a a' := single (.of_same h)

theorem effects (h : Silent w type a a') :
    ReflTransGen (Effect w) (App.runtimeMachine a) (App.runtimeMachine a') :=
  ReflTransGen.mono (r := SilentEffect w type) (fun _ _ hstep => hstep.effect) _ _ h

theorem appends (h : Silent w type a a') : AppendsNo type a.store.runtime a'.store.runtime := by
  have hgen : ∀ {m m' : Machine InMemoryCardRuntime}, ReflTransGen (SilentEffect w type) m m' →
      AppendsNo type m.store m'.store := by
    intro m m' hm
    induction hm with
    | refl => exact .of_history fun _ => rfl
    | tail _ hstep ih => exact ih.trans hstep.appends
  exact hgen h

theorem pure (v : α) : Exec.Within (Silent w type) w (pure v : Op App α) := Exec.Within.pure refl v

theorem raise (e : PyErr) : Exec.Within (Silent w type) w (Op.raise e : Op App α) :=
  Exec.Within.raise refl e

theorem ofExcept (x : Except PyErr α) : Exec.Within (Silent w type) w (Op.ofExcept x : Op App α) :=
  Exec.Within.ofExcept refl x

theorem ensure (b : Bool) (e : PyErr) :
    Exec.Within (Silent w type) w (Op.ensure b e : Op App Unit) :=
  Exec.Within.ensure refl b e

theorem world : Exec.Within (Silent w type) w (Op.world : Op App World) := refl

theorem now : Exec.Within (Silent w type) w (Op.now : Op App Instant) :=
  fun _ => of_same ⟨rfl, Nat.le_succ _, Nat.le_refl _⟩

theorem uuid4 : Exec.Within (Silent w type) w (Op.uuid4 : Op App Uuid) :=
  fun _ => of_same ⟨rfl, Nat.le_refl _, Nat.le_succ _⟩

theorem bind {x : Op App α} {f : α → Op App β} (hx : Exec.Within (Silent w type) w x)
    (hf : ∀ v, Exec.Within (Silent w type) w (f v)) : Exec.Within (Silent w type) w (x >>= f) :=
  Exec.Within.bind (R := Silent w type) trans hx hf

theorem forEach {f : β → Op App Unit} (hf : ∀ b, Exec.Within (Silent w type) w (f b))
    (bs : List β) : Exec.Within (Silent w type) w (Exec.forEach f bs) :=
  Exec.Within.forEach (R := Silent w type) refl trans hf bs

theorem discard {x : Op App α} (hx : Exec.Within (Silent w type) w x) :
    Exec.Within (Silent w type) w (x >>= fun _ => (Pure.pure () : Op App Unit)) :=
  bind hx fun _ => pure ()

/-- A component of the application other than the runtime. -/
def Apart {S : Type} (c : Component App S) : Prop := ∀ s a, (c.put s a).runtime = a.runtime

theorem of_via {S : Type} {c : Component App S} (hc : Apart c) (h : Via c a a') :
    Silent w type a a' :=
  of_same ⟨(congrArg App.runtime h.store).trans (hc _ _), h.ticks, h.draws⟩

/-- What writes to another component alone. -/
theorem apart {S : Type} {c : Component App S} (hc : Apart c) {x : Op App α}
    (hx : Exec.Within (Via c) w x) : Exec.Within (Silent w type) w x := fun m => of_via hc (hx m)

theorem on {S : Type} {c : Component App S} (hc : Apart c) {x : Op S α}
    (hx : ∀ m, m.ticks ≤ (x.run w m).2.ticks ∧ m.draws ≤ (x.run w m).2.draws) :
    Exec.Within (Silent w type) w (Op.on c x) := apart hc (Via.on hx)

theorem runtime {x : Op InMemoryCardRuntime α}
    (hx : ∀ s, SilentEffect w type s (x.run w s).2) :
    Exec.Within (Silent w type) w (Op.on App.runtimeStore x) :=
  fun a => single (hx (App.runtimeMachine a))

theorem readsRuntime {x : Op InMemoryCardRuntime α} (hx : ∀ m, SameStore m (x.run w m).2) :
    Exec.Within (Silent w type) w (Op.on App.runtimeStore x) := runtime fun _ => .of_same (hx _)

end Silent

theorem registryStore_apart : Silent.Apart App.registryStore := fun _ _ => rfl

theorem authorizationStore_apart : Silent.Apart App.authorizationStore := fun _ _ => rfl

theorem shadowStore_apart : Silent.Apart App.shadowStore := fun _ _ => rfl

theorem genesisStore_apart : Silent.Apart App.genesisStore := fun _ _ => rfl

/-! ## Operations of the runtime -/

section Runtime
variable {w : World} {type : String}

theorem other_ne {other : String} (htype : type ∈ outcomeTypes) (h : other ∉ outcomeTypes) :
    other ≠ type := fun heq => h (heq ▸ htype)

theorem outcome_ne {other : String} (htype : type ∈ outcomeTypes) (h : other ∉ outcomeTypes) :
    some other ≠ some type := fun heq => other_ne htype h (Option.some.inj heq)

theorem registerPatchPanel_silent (p : PatchPanel) :
    Exec.Within (Silent w type) w (App.cardRuntime.registerPatchPanel p) :=
  Silent.runtime fun _ => RuntimeCall.step_silent (.registerPatchPanel p) nofun

theorem createCard_silent (htype : type ∈ outcomeTypes) (panel : String) (payload : JsonObj)
    (metadata : Option JsonObj) (key : Option String) :
    Exec.Within (Silent w type) w (App.cardRuntime.createCard panel payload metadata key) :=
  Silent.runtime fun _ => RuntimeCall.step_silent (.createCard panel payload metadata key)
    (outcome_ne htype (by decide))

theorem claimCard_silent (htype : type ∈ outcomeTypes) (pipe worker : String) (seconds : Int)
    (key : Option String) :
    Exec.Within (Silent w type) w (App.cardRuntime.claimCard pipe worker seconds key) :=
  Silent.runtime fun _ => RuntimeCall.step_silent (.claimCard pipe worker seconds key)
    (outcome_ne htype (by decide))

theorem submitArtifact_silent (htype : type ∈ outcomeTypes) (lease : Uuid) (pipe : String)
    (refs : List ArtifactReference) (key : Option String) :
    Exec.Within (Silent w type) w (App.cardRuntime.submitArtifact lease pipe refs key) :=
  Silent.runtime fun _ => RuntimeCall.step_silent (.submitArtifact lease pipe refs key)
    (outcome_ne htype (by decide))

theorem renewLease_silent (htype : type ∈ outcomeTypes) (lease : Uuid) (seconds : Int)
    (key : Option String) :
    Exec.Within (Silent w type) w (App.cardRuntime.renewLease lease seconds key) :=
  Silent.runtime fun _ => RuntimeCall.step_silent (.renewLease lease seconds key)
    (outcome_ne htype (by decide))

theorem releaseLease_silent (htype : type ∈ outcomeTypes) (lease : Uuid)
    (actor key : Option String) :
    Exec.Within (Silent w type) w (App.cardRuntime.releaseLease lease actor key) :=
  Silent.runtime fun _ => RuntimeCall.step_silent (.releaseLease lease actor key)
    (outcome_ne htype (by decide))

theorem expireLeases_silent (htype : type ∈ outcomeTypes) :
    Exec.Within (Silent w type) w App.cardRuntime.expireLeases :=
  Silent.runtime fun _ => RuntimeCall.step_silent .expireLeases
    (outcome_ne htype (by decide))

theorem moveCard_silent (htype : type ∈ outcomeTypes) (card : Uuid) (bucket : String)
    (actor reason key : Option String) :
    Exec.Within (Silent w type) w (App.cardRuntime.moveCard card bucket actor reason key) :=
  Silent.runtime fun _ => RuntimeCall.step_silent (.moveCard card bucket actor reason key)
    (outcome_ne htype (by decide))

theorem recordEvent_silent {other : String} (h : other ≠ type) (card : Uuid)
    (actor : Option String) (payload : Option JsonObj) (key : Option String) :
    Exec.Within (Silent w type) w (App.cardRuntime.recordEvent card other actor payload key) :=
  Silent.runtime fun _ => RuntimeCall.step_silent (.recordEvent card other actor payload key)
    fun heq => h (Option.some.inj heq)

theorem validateCard_silent (h : "card_validated" ≠ type) (card : Uuid) (validator : String)
    (accepted : Bool) (reason pipe : Option String) (payload : Option JsonObj)
    (key : Option String) : Exec.Within (Silent w type) w
      (App.cardRuntime.validateCard card validator accepted reason pipe payload key) :=
  Silent.runtime fun _ => RuntimeCall.step_silent
    (.validateCard card validator accepted reason pipe payload key)
    fun heq => h (Option.some.inj heq)

theorem listPatchPanels_silent : Exec.Within (Silent w type) w App.cardRuntime.listPatchPanels :=
  Silent.runtime fun _ => RuntimeCall.step_silent .listPatchPanels nofun

theorem getCard_silent (card : Uuid) : Exec.Within (Silent w type) w (App.cardRuntime.getCard card) :=
  Silent.readsRuntime fun m => by
    rw [run_getCard]
    exact .refl m

theorem getLease_silent (lease : Uuid) :
    Exec.Within (Silent w type) w (App.cardRuntime.getLease lease) :=
  Silent.readsRuntime fun m => by
    rw [run_getLease]
    exact .refl m

theorem cardHistory_silent (card : Uuid) :
    Exec.Within (Silent w type) w (App.cardRuntime.cardHistory card) :=
  Silent.runtime fun _ => RuntimeCall.step_silent (.cardHistory card) nofun

end Runtime

/-! ## Operations of the services -/

section Services
variable {w : World} {type : String}

/-- The panel that is found is the one listed under the id. -/
theorem run_patchPanel (panelId : String) (a : Machine App) :
    (BoundaryAdapterService.patchPanel App.cardRuntime panelId).run w a =
      (match a.store.runtime.patchPanels.values.find? (fun p => p.id = panelId) with
        | some p => .ok p
        | none => .error (.notFound s!"Patch Panel '{panelId}' is not registered"), a) := by
  have hlist : App.cardRuntime.listPatchPanels.run w a =
      (.ok a.store.runtime.patchPanels.values, a) := rfl
  unfold BoundaryAdapterService.patchPanel
  rw [Exec.run_bind_ok hlist]
  cases a.store.runtime.patchPanels.values.find? (fun p => p.id = panelId) <;> rfl

theorem patchPanel_bind {β : Type} {panelId : String} {f : PatchPanel → Op App β}
    {r : Except PyErr β} {a a' : Machine App}
    (h : (BoundaryAdapterService.patchPanel App.cardRuntime panelId >>= f).run w a = (r, a')) :
    (a' = a ∧ ∃ e, r = .error e) ∨
      ∃ p, a.store.runtime.patchPanels.values.find? (fun p => p.id = panelId) = some p ∧
        (f p).run w a = (r, a') :=
  (Exec.bind_lookup (fun p hp => by rw [run_patchPanel, hp])
    (fun hp => ⟨_, by rw [run_patchPanel, hp]⟩) h).imp_left (And.imp_right And.right)

theorem patchPanel_silent (id : String) :
    Exec.Within (Silent w type) w (BoundaryAdapterService.patchPanel App.cardRuntime id) := by
  apply Silent.bind listPatchPanels_silent
  intro panels
  split
  · exact Silent.pure _
  · exact Silent.raise _

section Nodes
variable {x : NodeExecutor App} (hx : x.runtime = App.cardRuntime)
include hx

theorem executeSource_silent (htype : type ∈ outcomeTypes) (sourceId : String) (payload : JsonObj)
    (metadata : Option JsonObj) (key : Option String) :
    Exec.Within (Silent w type) w (x.executeSource sourceId payload metadata key) := by
  simp only [NodeExecutor.executeSource, hx]
  apply Silent.bind (Silent.ofExcept _)
  intro n
  apply Silent.bind (createCard_silent htype _ _ _ _)
  intro card
  apply Silent.bind (recordEvent_silent (other_ne htype (by decide)) _ _ _ _)
  intro _
  exact Silent.pure _

theorem executeWorker_silent (htype : type ∈ outcomeTypes) (request : WorkerExecutionInput) :
    Exec.Within (Silent w type) w (x.executeWorker request) := by
  simp only [NodeExecutor.executeWorker, hx]
  apply Silent.bind (Silent.ofExcept _)
  intro n
  apply Silent.bind (claimCard_silent htype _ _ _ _)
  intro lease
  apply Silent.bind (submitArtifact_silent htype _ _ _ _)
  intro refs
  apply Silent.bind (Silent.ensure _ _)
  intro _
  apply Silent.bind (cardHistory_silent _)
  intro history
  split
  · exact Silent.raise _
  · split
    · exact Silent.raise _
    · apply Silent.bind (Silent.ensure _ _)
      intro _
      apply Silent.bind (Silent.ensure _ _)
      intro _
      exact Silent.pure _

theorem handledRequest_silent (n : NodeDefinition) (request : ValidatorExecutionInput) :
    Exec.Within (Silent w type) w (x.handledRequest n request) := by
  have htopology : ∀ r, Exec.Within (Silent w type) w (x.topologyValidationRequest n r) := by
    intro r
    simp only [NodeExecutor.topologyValidationRequest, hx]
    split
    · exact Silent.pure _
    · exact Silent.bind (getCard_silent _) fun _ => Silent.bind (Silent.ofExcept _) fun _ =>
        Silent.bind (Silent.ofExcept _) fun _ => Silent.bind Silent.world fun _ => Silent.ofExcept _
  have honboarding : ∀ r, Exec.Within (Silent w type) w (x.participantOnboardingRequest n r) := by
    intro r
    simp only [NodeExecutor.participantOnboardingRequest, hx]
    split
    · exact Silent.pure _
    · exact Silent.bind (getCard_silent _) fun _ => Silent.bind (Silent.ofExcept _) fun _ =>
        Silent.bind (Silent.ofExcept _) fun _ => Silent.bind Silent.world fun _ =>
          Silent.bind Silent.now fun _ => Silent.pure _
  have hrest : ∀ r, Exec.Within (Silent w type) w
      (if NodeExecutor.hasHandler n "participant_onboarding_compliance" then
        x.participantOnboardingRequest n r else pure r) := by
    intro r
    split
    · exact honboarding r
    · exact Silent.pure _
  simp only [NodeExecutor.handledRequest]
  split
  · exact Silent.bind (htopology request) hrest
  · exact Silent.bind (Silent.pure _) hrest

/-- A validator node records its verdict and nothing else. -/
theorem executeValidator_silent (h : "card_validated" ≠ type) (request : ValidatorExecutionInput) :
    Exec.Within (Silent w type) w (x.executeValidator request) := by
  unfold NodeExecutor.executeValidator
  apply Silent.bind (Silent.ofExcept _)
  intro n
  apply Silent.bind (handledRequest_silent hx n request)
  intro r
  apply Silent.bind (Silent.ofExcept _)
  intro _
  apply Silent.bind (Silent.ofExcept _)
  intro accepted
  rw [hx]
  exact validateCard_silent h _ _ _ _ _ _ _

end Nodes

/-- The configured branch of a sink writes to the other components, and may store a panel. -/
theorem sinkEffect_silent {x : NodeExecutor App} {n : NodeDefinition} {card : Card}
    {a a' : Machine App} {r : Except PyErr (Option String)}
    (h : NodeExecutor.SinkEffect w x n card a a' r) : Silent w type a a' := by
  cases h with
  | passes same plain =>
    rw [same]
    exact .refl _
  | provisions _ _ _ writes => exact .of_via authorizationStore_apart writes
  | publishes _ _ _ _ panel same writes =>
    refine Silent.trans ?_ (.of_via registryStore_apart writes)
    rcases same with heq | ⟨p, report, hvalid, heq⟩
    · exact .of_same ⟨heq, Nat.le_refl _, Nat.le_refl _⟩
    · have hmachine : App.runtimeMachine { a with store := { a.store with runtime := panel } } =
          { App.runtimeMachine a with store := a.store.runtime.putPanel p } := by
        rw [heq]
        rfl
      refine .single ⟨.registers p report hvalid hmachine, .of_history fun x => ?_⟩
      rw [hmachine]
      rfl

theorem executeSink_silent (h : "sink_executed" ≠ type) {x : NodeExecutor App}
    (hx : x.runtime = App.cardRuntime)
    (hregistry : x.registry = none ∨ x.registry = some App.patchPanelRegistry)
    (hauthorization : x.authorizationRepository = none ∨
      x.authorizationRepository = some App.authorizationRepository)
    (cardId : Uuid) (sinkId : String) (reference key : Option String) :
    Exec.Within (Silent w type) w (x.executeSink cardId sinkId reference key) := by
  intro a
  rcases hrun : (x.executeSink cardId sinkId reference key).run w a with ⟨r, a'⟩
  rcases NodeExecutor.executeSink_cases hx hregistry hauthorization hrun with
    ⟨heq, -⟩ | ⟨n, card, m1, r1, -, -, -, heffect, -, hrecord⟩
  · rw [heq]
    exact .refl a
  have h1 : Silent w type a m1 := sinkEffect_silent heffect
  rcases hrecord with heq | ⟨payload, s, e, hrecords, heq⟩
  · rw [heq]
    exact h1
  · rw [heq]
    refine h1.trans (.single ⟨.records hrecords, .of_logged hrecords.noted ?_⟩)
    rw [hrecords.event.2.1]
    exact h

theorem boundarySource_silent (htype : type ∈ outcomeTypes) (request : BoundarySourceRequest) :
    Exec.Within (Silent w type) w
      (BoundaryAdapterService.executeSource App.cardRuntime request) := by
  unfold BoundaryAdapterService.executeSource
  apply Silent.bind (patchPanel_silent _)
  intro p
  apply Silent.bind (Silent.ofExcept _)
  intro n
  apply Silent.bind Silent.world
  intro _
  apply Silent.bind (Silent.ofExcept _)
  intro contract
  apply Silent.bind (Silent.ofExcept _)
  intro _
  apply Silent.bind (Silent.ofExcept _)
  intro _
  apply Silent.bind (Silent.ofExcept _)
  intro mapped
  apply Silent.bind (Silent.ofExcept _)
  intro metadata
  apply Silent.bind (Silent.ofExcept _)
  intro deduplicationKey
  apply Silent.bind (executeSource_silent rfl htype _ _ _ _)
  intro card
  apply Silent.bind (recordEvent_silent (other_ne htype (by decide)) _ _ _ _)
  intro _
  exact Silent.pure _

theorem boundarySink_silent (h : "sink_executed" ≠ type) (hother : "boundary_sink_egressed" ≠ type)
    (body : BoundarySinkRequest) :
    Exec.Within (Silent w type) w (BoundaryAdapterService.executeSink App.cardRuntime body) := by
  unfold BoundaryAdapterService.executeSink
  apply Silent.bind (patchPanel_silent _)
  intro p
  apply Silent.bind (Silent.ofExcept _)
  intro n
  apply Silent.bind Silent.world
  intro _
  apply Silent.bind (Silent.ofExcept _)
  intro contract
  apply Silent.bind (Silent.ofExcept _)
  intro _
  apply Silent.bind (getCard_silent _)
  intro card
  apply Silent.bind (Silent.ofExcept _)
  intro externalPayload
  apply Silent.bind (Silent.ofExcept _)
  intro externalReference
  apply Silent.bind (Silent.ofExcept _)
  intro egressIdempotencyKey
  apply Silent.bind (executeSink_silent h rfl (.inl rfl) (.inl rfl) _ _ _ _)
  intro result
  apply Silent.bind (recordEvent_silent hother _ _ _ _)
  intro _
  exact Silent.pure _

end Services

/-! ## The shadow service -/

/-- The service that the application has. -/
def App.shadowService : ShadowService App := ⟨App.cardRuntime, App.shadowStore⟩

section Shadow
variable {w : World} {type : String}

theorem shadowGet_silent : Exec.Within (Silent w type) w (Op.on App.shadowStore Op.get) :=
  Silent.on shadowStore_apart fun _ => ⟨Nat.le_refl _, Nat.le_refl _⟩

theorem shadowModify_silent (f : ShadowStore → ShadowStore) :
    Exec.Within (Silent w type) w (Op.on App.shadowStore (Op.modify f)) :=
  Silent.on shadowStore_apart fun _ => ⟨Nat.le_refl _, Nat.le_refl _⟩

theorem shadowLink_silent (linkId : Uuid) :
    Exec.Within (Silent w type) w (App.shadowService.link linkId) := by
  apply Silent.bind shadowGet_silent
  intro s
  split
  · exact Silent.pure _
  · exact Silent.raise _

theorem shadowMutation_silent (mutationId : Uuid) :
    Exec.Within (Silent w type) w (App.shadowService.mutation mutationId) := by
  apply Silent.bind shadowGet_silent
  intro s
  split
  · exact Silent.pure _
  · exact Silent.raise _

theorem createShadowCard_silent (htype : type ∈ outcomeTypes) (card : Card) (candidateId : String)
    (policy : ShadowPolicy) (key : Option String) : Exec.Within (Silent w type) w
      (App.shadowService.createShadowCard card candidateId policy key) := by
  unfold ShadowService.createShadowCard
  apply Silent.bind (Silent.ensure _ _)
  intro _
  apply Silent.bind shadowGet_silent
  intro s
  apply Silent.bind (Silent.ensure _ _)
  intro _
  apply Silent.bind (createCard_silent htype _ _ _ _)
  intro shadow
  apply Silent.bind Silent.uuid4
  intro id
  apply Silent.bind Silent.now
  intro createdAt
  apply Silent.bind (shadowModify_silent _)
  intro _
  apply Silent.bind (recordEvent_silent (other_ne htype (by decide)) _ _ _ _)
  intro _
  exact Silent.pure _

theorem completeShadow_silent (htype : type ∈ outcomeTypes) (linkId : Uuid) (metrics : JsonObj) :
    Exec.Within (Silent w type) w (App.shadowService.completeShadow linkId metrics) := by
  unfold ShadowService.completeShadow
  apply Silent.bind (shadowLink_silent _)
  intro link
  apply Silent.bind (shadowModify_silent _)
  intro _
  apply Silent.bind (recordEvent_silent (other_ne htype (by decide)) _ _ _ _)
  intro _
  exact Silent.pure _

theorem proposeMutation_silent (mutationType proposedBy : String) (payload : JsonObj) :
    Exec.Within (Silent w type) w
      (App.shadowService.proposeMutation mutationType proposedBy payload) := by
  unfold ShadowService.proposeMutation
  apply Silent.bind Silent.uuid4
  intro id
  apply Silent.bind Silent.now
  intro createdAt
  apply Silent.bind (shadowModify_silent _)
  intro _
  exact Silent.pure _

theorem validateMutation_silent (mutationId : Uuid) (accepted : Bool) (validatorId : String)
    (reason : Option String) : Exec.Within (Silent w type) w
      (App.shadowService.validateMutation mutationId accepted validatorId reason) := by
  unfold ShadowService.validateMutation
  apply Silent.bind (shadowMutation_silent _)
  intro mutation
  apply Silent.bind Silent.now
  intro validatedAt
  apply Silent.bind (shadowModify_silent _)
  intro _
  exact Silent.pure _

theorem promoteMutation_silent (mutationId : Uuid) (p : PatchPanel) :
    Exec.Within (Silent w type) w (App.shadowService.promoteMutation mutationId p) := by
  unfold ShadowService.promoteMutation
  apply Silent.bind (shadowMutation_silent _)
  intro mutation
  apply Silent.bind (Silent.ensure _ _)
  intro _
  apply Silent.bind (registerPatchPanel_silent _)
  intro _
  apply Silent.bind Silent.now
  intro promotedAt
  apply Silent.bind (shadowModify_silent _)
  intro _
  exact Silent.pure _

end Shadow

end GhostMesh
