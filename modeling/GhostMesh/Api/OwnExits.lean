import GhostMesh.Api.SilentRoutes
import GhostMesh.Runtime.PipeRouting

/-!
# Routing through a validator's own exits

A validation with an output pipe moves its card. The executor checks the pipe against
the panel it was built for; `validate_card` only resolves it on the panel of the card,
so the two agree when the exit is one that the card's panel gives to the validator.
-/

set_option autoImplicit false

namespace GhostMesh

open InMemoryCardRuntime Op
open Exec (ok_of_bind)

/-! ## What a routed validation should tell -/

/-- The panel on which the runtime resolves the pipes of a card. -/
def InMemoryCardRuntime.PanelOf (s : InMemoryCardRuntime) (cardId : Uuid) (p : PatchPanel) : Prop :=
  ∃ c, s.cards.get? cardId = some c ∧
    s.patchPanels.get? (beforeLastColon c.workflowVersion) = some p

/-- The panel has a validator under the id that declares the pipe as an exit. -/
def PatchPanel.HasExit (p : PatchPanel) (validatorId pipe : String) : Prop :=
  ∃ n ∈ p.nodes, n.id = validatorId ∧ n.type = .validator ∧ pipe ∈ n.outputPipes

/-- The event names a validator of the card's panel and one of its exits, and the card
is in the bucket that the exit is bound to. -/
structure CardEvent.TellsOwnExit (e : CardEvent) (s s' : InMemoryCardRuntime) (p : PatchPanel)
    (n : NodeDefinition) (pipe : String) (binding : PipeBinding) (c : Card) : Prop where
  panel : s.PanelOf e.cardId p
  node : n ∈ p.nodes
  validator : n.type = .validator
  actor : e.actorId = some n.id
  outputPipe : JsonObj.get? e.payload "output_pipe" = some (.str pipe)
  exit : pipe ∈ n.outputPipes
  bound : p.pipeBindings.get? pipe = some binding
  card : s'.cards.get? e.cardId = some c
  bucket : c.currentBucket = binding.bucket

/-! ## What a request asks for -/

/-- The check in front of the three endpoints. -/
def Application.mayValidate {σ : Type} (app : Application σ) (request : Request) (cardId : Uuid)
    (context : JsonObj) (validatorId : String) : Op σ Unit := do
  let scope ← Scope.build .card (some cardId.str)
  app.authorize request .validationSubmit scope context (some validatorId)

/-- An operation behind that check. -/
def Application.checked {σ α : Type} (app : Application σ) (request : Request) (cardId : Uuid)
    (context : JsonObj) (validatorId : String) (x : Op σ α) : Op σ α := do
  let scope ← Scope.build .card (some cardId.str)
  app.authorize request .validationSubmit scope context (some validatorId)
  x

/-- A validation by the runtime: whom it is for, by whom, and the exit. -/
structure Asked where
  cardId : Uuid
  validatorId : String
  exit : Option String

/-- What a request asks an executor for. -/
structure Execution where
  patchPanelId : String
  context : JsonObj
  input : ValidatorExecutionInput

/-- The executor for the panel does what the request asks for. -/
def Execution.execute {σ : Type} (app : Application σ) (x : Execution) : Op σ CardEvent := do
  let executor ← app.executor x.patchPanelId
  executor.executeValidator x.input

/-- The exit with which an executor calls the runtime, if it gets that far. -/
def Execution.exit (w : World) (a : Machine App) (x : Execution) : Option String :=
  match a.store.runtime.patchPanels.values.find? (fun p => p.id = x.patchPanelId) with
  | none => none
  | some p =>
    match NodeExecutor.verdict w (w.clock a.ticks) p (a.store.runtime.cards.get? x.input.cardId)
      x.input with
    | .ok (_, input) => truthyStr input.selectedExit
    | .error _ => none

/-- The machine on which the executor runs. -/
def Execution.entered (w : World) (enabled : Bool) (a : Machine App) (request : Request)
    (x : Execution) : Machine App :=
  (((App.application enabled).mayValidate request x.input.cardId x.context x.input.validatorId).run
    w a).2

def Execution.asked (w : World) (enabled : Bool) (a : Machine App) (request : Request)
    (x : Execution) : Asked :=
  ⟨x.input.cardId, x.input.validatorId, x.exit w (x.entered w enabled a request)⟩

def Route.execution (request : Request) : Route → Option Execution
  | submitValidatorDecision validatorId cardId body =>
    some ⟨body.patchPanelId,
      [("patch_panel_id", .str body.patchPanelId), ("validator_id", .str validatorId)],
      { cardId, validatorId, accepted := some body.accepted, selectedExit := body.selectedExit,
        reason := body.reason, payload := [], idempotencyKey := request.idempotencyKey }⟩
  | executeValidator body =>
    some ⟨body.patchPanelId,
      [("patch_panel_id", .str body.patchPanelId), ("validator_id", .str body.validatorId)],
      { cardId := body.cardId, validatorId := body.validatorId, accepted := body.accepted,
        selectedExit := body.selectedExit, reason := body.reason, payload := body.payload,
        idempotencyKey := request.idempotencyKey }⟩
  | _ => none

/-- What a request asks the runtime for: directly, or through an executor. -/
def Route.asked (w : World) (enabled : Bool) (a : Machine App) (request : Request)
    (route : Route) : Option Asked :=
  match route with
  | validateCard cardId body => some ⟨cardId, body.validatorId, truthyStr body.outputPipe⟩
  | route => (route.execution request).map fun x => x.asked w enabled a request

/-- The exit asked for is one that the card's panel gives to the validator. -/
def Asked.IsOwn (s : InMemoryCardRuntime) (x : Asked) : Prop :=
  ∀ pipe, x.exit = some pipe → ∃ p, s.PanelOf x.cardId p ∧ p.HasExit x.validatorId pipe

theorem Asked.isOwn_iff {s : InMemoryCardRuntime} {x : Asked} : x.IsOwn s ↔
    ∀ pipe ∈ x.exit, ∃ p ∈ (s.cards.get? x.cardId).bind fun c =>
      s.patchPanels.get? (beforeLastColon c.workflowVersion), p.HasExit x.validatorId pipe := by
  unfold Asked.IsOwn InMemoryCardRuntime.PanelOf
  simp only [Option.mem_def, Option.bind_eq_some_iff]

instance (p : PatchPanel) (validatorId pipe : String) : Decidable (p.HasExit validatorId pipe) :=
  inferInstanceAs (Decidable (∃ n ∈ p.nodes, n.id = validatorId ∧ n.type = .validator ∧
    pipe ∈ n.outputPipes))

instance (s : InMemoryCardRuntime) (x : Asked) : Decidable (x.IsOwn s) :=
  decidable_of_iff' _ Asked.isOwn_iff

/-! ## One request -/

/-- The runtime made the validation that was asked for. -/
structure Asked.Done (w : World) (m m' : Machine InMemoryCardRuntime) (x : Asked) (c : Card)
    (route : Option (String × String)) (e : CardEvent) : Prop where
  validates : ∃ s accepted reason pipe payload key, SameStore m s ∧ truthyStr pipe = x.exit ∧
    Validates w s m' x.cardId x.validatorId accepted reason pipe payload key c route e

section Request
variable {w : World} {enabled : Bool} {request : Request} {a : Machine App}

theorem mayValidate_same (enabled : Bool) (request : Request) (cardId : Uuid) (context : JsonObj)
    (validatorId : String) :
    SameStore (App.runtimeMachine a) (App.runtimeMachine
      (((App.application enabled).mayValidate request cardId context validatorId).run w a).2) := by
  have hvia : Exec.Within (Via App.authorizationStore) w
      ((App.application enabled).mayValidate request cardId context validatorId) := by
    apply Via.bind (scopeBuild_via _ _)
    intro scope
    exact authorizeRequest_via enabled request _ scope context _
  exact via_authorization_same (hvia a)

theorem run_checked {α : Type} (cardId : Uuid) (context : JsonObj) (validatorId : String)
    (x : Op App α) :
    ((App.application enabled).checked request cardId context validatorId x).run w a =
      match ((App.application enabled).mayValidate request cardId context validatorId).run w a with
      | (.ok _, b) => x.run w b
      | (.error e, b) => (.error e, b) := by
  simp only [Application.checked, Application.mayValidate, Exec.run_bind]
  generalize (Scope.build .card (some cardId.str) : Op App Scope).run w a = out
  obtain ⟨r, b⟩ := out
  cases r with
  | error e => rfl
  | ok scope =>
    simp only
    generalize ((App.application enabled).authorize request .validationSubmit scope context
      (some validatorId)).run w b = out
    obtain ⟨r, b'⟩ := out
    cases r <;> rfl

/-- A request is refused by the check, or what is behind it runs. -/
theorem checked_cases {α : Type} (enabled : Bool) (request : Request) (cardId : Uuid)
    (context : JsonObj) (validatorId : String) (x : Op App α) :
    ∃ b, b = (((App.application enabled).mayValidate request cardId context
        validatorId).run w a).2 ∧ SameStore (App.runtimeMachine a) (App.runtimeMachine b) ∧
      ((((App.application enabled).checked request cardId context validatorId x).run w a).2 = b ∨
        (((App.application enabled).checked request cardId context validatorId x).run w a).2 =
          (x.run w b).2) := by
  have hsame := mayValidate_same (w := w) (a := a) enabled request cardId
    context validatorId
  rw [run_checked]
  generalize ((App.application enabled).mayValidate request cardId context validatorId).run w a =
    out at hsame ⊢
  obtain ⟨r, b⟩ := out
  cases r with
  | error e => exact ⟨b, rfl, hsame, .inl rfl⟩
  | ok u => exact ⟨b, rfl, hsame, .inr rfl⟩

theorem Asked.Done.of_same {m m' m'' : Machine InMemoryCardRuntime} {x : Asked} {c : Card}
    {route : Option (String × String)} {e : CardEvent} (hsame : SameStore m m')
    (h : x.Done w m' m'' c route e) : x.Done w m m'' c route e := by
  obtain ⟨s, accepted, reason, pipe, payload, key, hs, hexit, hvalidates⟩ := h.validates
  exact ⟨s, accepted, reason, pipe, payload, key, hsame.trans hs, hexit, hvalidates⟩

theorem execute_cases (x : Execution) {b : Machine App}
    (hb : b = ((x.execute (App.application enabled)).run w a).2) :
    SameStore (App.runtimeMachine a) (App.runtimeMachine b) ∨ ∃ c route e,
      Asked.Done w (App.runtimeMachine a) (App.runtimeMachine b)
        ⟨x.input.cardId, x.input.validatorId, x.exit w a⟩ c route e := by
  simp only [Execution.execute, Exec.run_bind, run_executor] at hb
  unfold Execution.exit
  cases hfind : a.store.runtime.patchPanels.values.find? (fun p => p.id = x.patchPanelId) with
  | none =>
    rw [hfind] at hb
    rw [hb]
    exact .inl (.refl _)
  | some p =>
    simp only [hfind] at hb ⊢
    rw [NodeExecutor.on_executeValidator App.runtimeStore InMemoryCardRuntime.runtime
      (x := App.executor p) rfl, Op.run_on] at hb
    rcases hrun : ((NodeExecutor.onMemory p).executeValidator x.input).run w
      (App.runtimeMachine a) with ⟨r, m'⟩
    have hmachine : App.runtimeMachine b = m' := by
      rw [hb]
      exact congrArg Prod.snd hrun
    rw [hmachine]
    rcases NodeExecutor.executeValidator_cases hrun with
      hsame | ⟨accepted, input, s, c, route, e, hverdict, hsame, hvalidates⟩
    · exact .inl hsame
    · refine .inr ⟨c, route, e, ⟨s, accepted, _, _, _, _, hsame, ?_, hvalidates⟩⟩
      have hverdict' : NodeExecutor.verdict w (w.clock a.ticks) p
          (a.store.runtime.cards.get? x.input.cardId) x.input = .ok (accepted, input) := hverdict
      simp only [hverdict']

theorem validateCard_asks {cardId : Uuid} {validatorId : String} {accepted : Bool}
    {reason pipe : Option String} {payload : Option JsonObj} {key : Option String}
    {b : Machine App} (hb : b = ((App.cardRuntime.validateCard cardId validatorId accepted reason
      pipe payload key).run w a).2) :
    SameStore (App.runtimeMachine a) (App.runtimeMachine b) ∨ ∃ c route e,
      Asked.Done w (App.runtimeMachine a) (App.runtimeMachine b)
        ⟨cardId, validatorId, truthyStr pipe⟩ c route e := by
  rcases hrun : (InMemoryCardRuntime.validateCard cardId validatorId accepted reason pipe payload
    key).run w (App.runtimeMachine a) with ⟨r, m'⟩
  have hmachine : App.runtimeMachine b = m' := by
    rw [hb]
    exact congrArg Prod.snd hrun
  rw [hmachine]
  rcases validateCard_cases hrun with hsame | ⟨c, route, e, -, hvalidates⟩
  · rw [hsame]
    exact .inl (.refl _)
  · exact .inr ⟨c, route, e, ⟨_, accepted, reason, pipe, payload, key, .refl _, rfl, hvalidates⟩⟩

theorem discard_machine {α : Type} (x : Op App α) : (x.discard.run w a).2 = (x.run w a).2 :=
  congrArg Prod.snd (Op.run_discard x w a)

theorem application_runtime : (App.application enabled).runtime = App.cardRuntime := by
  unfold App.application
  rfl

theorem handle_validateCard (cardId : Uuid) (body : ValidateCardRequest) :
    (App.application enabled).handle request (.validateCard cardId body) =
      ((App.application enabled).checked request cardId [("validator_id", .str body.validatorId)]
        body.validatorId (App.cardRuntime.validateCard cardId body.validatorId body.accepted
          body.reason body.outputPipe none request.idempotencyKey)).discard := by
  simp only [Application.handle, Application.validateCard, Application.checked,
    application_runtime]

theorem handle_execution {route : Route} {x : Execution} (h : route.execution request = some x) :
    (App.application enabled).handle request route =
      ((App.application enabled).checked request x.input.cardId x.context x.input.validatorId
        (x.execute (App.application enabled))).discard := by
  cases route <;> cases h <;>
    simp only [Application.handle, Application.submitValidatorDecision,
      Application.executeValidator, Application.checked, Execution.execute]

/-- A request records no validation, or it made the one that it asked for. -/
theorem respond_cases (enabled : Bool) (call : Request × Route) :
    Silent w "card_validated" a (App.respond w enabled a call) ∨ ∃ x c route e,
      call.2.asked w enabled a call.1 = some x ∧ x.Done w (App.runtimeMachine a)
        (App.runtimeMachine (App.respond w enabled a call)) c route e := by
  obtain ⟨request, route⟩ := call
  cases hroute : route.validates with
  | false => exact .inl (handle_silent enabled request hroute a)
  | true =>
    generalize hb : App.respond w enabled a (request, route) = b
    simp only [App.respond] at hb
    have hexecution : ∀ x, route.execution request = some x → Silent w "card_validated" a b ∨
        ∃ c r e, (x.asked w enabled a request).Done w (App.runtimeMachine a)
          (App.runtimeMachine b) c r e := by
      intro x hx
      rw [handle_execution hx, discard_machine] at hb
      obtain ⟨b', hb', hsame, hrun⟩ := checked_cases (w := w) (a := a) enabled request
        x.input.cardId x.context x.input.validatorId
        (x.execute (App.application enabled))
      have hentered : x.entered w enabled a request = b' := hb'.symm
      unfold Execution.asked
      rw [hentered]
      rcases hrun with hrefused | hrun
      · rw [← hb, hrefused]
        exact .inl (.of_same hsame)
      · rcases execute_cases x (hb.symm.trans hrun) with hsame' | ⟨c, r, e, hdone⟩
        · exact .inl (.of_same (hsame.trans hsame'))
        · exact .inr ⟨c, r, e, hdone.of_same hsame⟩
    cases route with
    | validateCard cardId body =>
      rw [handle_validateCard, discard_machine] at hb
      obtain ⟨b', -, hsame, hrun⟩ := checked_cases (w := w) (a := a) enabled request
        cardId [("validator_id", .str body.validatorId)]
        body.validatorId (App.cardRuntime.validateCard cardId body.validatorId body.accepted
          body.reason body.outputPipe none request.idempotencyKey)
      rcases hrun with hrefused | hrun
      · rw [← hb, hrefused]
        exact .inl (.of_same hsame)
      · rcases validateCard_asks (hb.symm.trans hrun) with hsame' | ⟨c, r, e, hdone⟩
        · exact .inl (.of_same (hsame.trans hsame'))
        · exact .inr ⟨_, c, r, e, rfl, hdone.of_same hsame⟩
    | submitValidatorDecision validatorId cardId body =>
      rcases hexecution _ rfl with hsilent | ⟨c, r, e, hdone⟩
      · exact .inl hsilent
      · exact .inr ⟨_, c, r, e, rfl, hdone⟩
    | executeValidator body =>
      rcases hexecution _ rfl with hsilent | ⟨c, r, e, hdone⟩
      · exact .inl hsilent
      · exact .inr ⟨_, c, r, e, rfl, hdone⟩
    | _ => cases hroute

end Request

/-- The machine after a sequence of requests to a fresh process. -/
def App.answered (w : World) (enabled : Bool) (root : String) (calls : List (Request × Route)) :
    Machine App :=
  calls.foldl (App.respond w enabled) (App.start w root)

/-- The request recorded a validation that moved its card. -/
structure MovesByValidation (w : World) (enabled : Bool) (a : Machine App)
    (call : Request × Route) (x : Asked) (e : CardEvent) : Prop where
  adds : a.store.runtime.Adds (App.respond w enabled a call).store.runtime e.cardId e
  type : e.eventType = "card_validated"
  asked : call.2.asked w enabled a call.1 = some x
  exit : x.exit.isSome = true

section Step
variable {w : World} {enabled : Bool} {a : Machine App} {call : Request × Route}

/-- A new validation is the one that was asked for. -/
theorem added_cases {e : CardEvent}
    (hadds : a.store.runtime.Adds (App.respond w enabled a call).store.runtime e.cardId e)
    (htype : e.eventType = "card_validated") : ∃ x c route,
      call.2.asked w enabled a call.1 = some x ∧ x.Done w (App.runtimeMachine a)
        (App.runtimeMachine (App.respond w enabled a call)) c route e := by
  rcases respond_cases (w := w) (a := a) enabled call with
    hsilent | ⟨x, c, route, e', hasked, hdone⟩
  · exact absurd htype (hsilent.appends.adds hadds)
  · obtain ⟨s, accepted, reason, pipe, payload, key, hsame, hexit, hvalidates⟩ := hdone.validates
    have hlogged := hvalidates.logged
    rw [hsame.store] at hlogged
    have heq : e = e' := (Appends.of_logged hlogged rfl : Appends (· = e') _ _).adds hadds
    rw [heq]
    exact ⟨x, c, route, hasked, hdone⟩

theorem respond_effects (call : Request × Route) :
    Relation.ReflTransGen (Effect w) (App.runtimeMachine a)
      (App.runtimeMachine (App.respond w enabled a call)) := by
  rcases respond_cases (w := w) (a := a) enabled call with
    hsilent | ⟨x, c, route, e, -, hdone⟩
  · exact hsilent.effects
  · obtain ⟨s, _, _, _, _, _, hsame, -, hvalidates⟩ := hdone.validates
    exact (Relation.ReflTransGen.single (.same hsame)).tail (.validates hvalidates)

/-- A binding that a pipe was resolved to. -/
theorem resolvePipeBucket_bound {p : PatchPanel} {pipe bucket id : String} {d : Direction}
    (h : resolvePipeBucket p pipe d = .ok (bucket, id)) :
    ∃ binding, p.pipeBindings.get? pipe = some binding ∧ bucket = binding.bucket := by
  cases hget : p.pipeBindings.get? pipe with
  | none =>
    simp only [resolvePipeBucket, hget] at h
    cases h
  | some binding => exact ⟨binding, rfl, (resolvePipeBucket_cases hget h).1⟩

theorem PanelOf.unique {s : InMemoryCardRuntime} {id : Uuid} {p q : PatchPanel}
    (hp : s.PanelOf id p) (hq : s.PanelOf id q) : p = q := by
  obtain ⟨c, hc, hp⟩ := hp
  obtain ⟨c', hc', hq⟩ := hq
  rw [hc] at hc'
  cases hc'
  rw [hp] at hq
  exact Option.some.inj hq

/-- The step lemma: the event tells the truth about a validator's own exit exactly when
such an exit was asked for. -/
theorem tellsOwnExit_iff {x : Asked} {e : CardEvent} (hkeyed : WellKeyed a.store.runtime)
    (h : MovesByValidation w enabled a call x e) :
    (∃ p n pipe binding c, e.TellsOwnExit a.store.runtime
      (App.respond w enabled a call).store.runtime p n pipe binding c) ↔
      x.IsOwn a.store.runtime := by
  obtain ⟨x', c, route, hasked, hdone⟩ := added_cases h.adds h.type
  rw [h.asked] at hasked
  cases hasked
  obtain ⟨s, accepted, reason, output, payload, key, hsame, hexit, hvalidates⟩ := hdone.validates
  obtain ⟨pipe, hpipe⟩ := Option.isSome_iff_exists.mp h.exit
  obtain ⟨hid, -, hactor, hpayload⟩ := hvalidates.event
  have hstore : s.store = a.store.runtime := hsame.store
  have hcard : a.store.runtime.cards.get? x.cardId = some c := by
    rw [← hstore]
    exact hvalidates.card
  have hcardId : e.cardId = x.cardId := hid.trans (hkeyed.cards hcard)
  have hrouted := hvalidates.routed
  rw [hstore] at hrouted
  cases route with
  | none =>
    -- without a route no exit was handed over
    have hnone : truthyStr output = none := hrouted
    rw [hexit, hpipe] at hnone
    cases hnone
  | some found =>
    obtain ⟨pipe', destination⟩ := found
    obtain ⟨htruthy, p, nodeId, hp, hresolved⟩ := hrouted
    rw [hexit, hpipe] at htruthy
    cases htruthy
    obtain ⟨binding, hbound, hbucket⟩ := resolvePipeBucket_bound hresolved
    have hpanel : a.store.runtime.PanelOf x.cardId p := ⟨c, hcard, hp⟩
    have houtput : JsonObj.get? e.payload "output_pipe" = some (.str pipe) := by
      rw [hpayload, routedPayload, JsonObj.get?_set_ne _ _ (by decide), JsonObj.get?_set_self]
    have hmoved : (App.respond w enabled a call).store.runtime.cards.get? e.cardId =
        some { c with currentBucket := destination } := by
      have hlogged := hvalidates.logged.cards
      change (App.respond w enabled a call).store.runtime.cards = _ at hlogged
      simp only [hlogged, routedCard, Option.map_some, Option.elim_some, hid, Dict.get?_set_self]
    constructor
    · rintro ⟨q, n, pipe', binding', c', htells⟩
      intro pipe'' hpipe''
      rw [hpipe] at hpipe''
      cases hpipe''
      have hq : q = p := PanelOf.unique (hcardId ▸ htells.panel) hpanel
      have hsamePipe := htells.outputPipe
      rw [houtput] at hsamePipe
      cases hsamePipe
      have hactor' := htells.actor
      rw [hactor] at hactor'
      exact ⟨p, hpanel, n, hq ▸ htells.node, (Option.some.inj hactor').symm, htells.validator,
        htells.exit⟩
    · intro hown
      obtain ⟨q, hq, n, hn, hnid, htype, hexits⟩ := hown pipe hpipe
      have hqp : q = p := PanelOf.unique hq hpanel
      refine ⟨p, n, pipe, binding, { c with currentBucket := destination }, ?_⟩
      exact {
        panel := hcardId.symm ▸ hpanel
        node := hqp ▸ hn
        validator := htype
        actor := hactor.trans (congrArg some hnid.symm)
        outputPipe := houtput
        exit := hexits
        bound := hbound
        card := hmoved
        bucket := hbucket }

/-- Without an exit the cards stay where they are. -/
theorem added_without_exit {e : CardEvent}
    (hadds : a.store.runtime.Adds (App.respond w enabled a call).store.runtime e.cardId e)
    (htype : e.eventType = "card_validated") (h : ∀ x, ¬ MovesByValidation w enabled a call x e) :
    (App.respond w enabled a call).store.runtime.cards = a.store.runtime.cards := by
  obtain ⟨x, c, route, hasked, hdone⟩ := added_cases hadds htype
  obtain ⟨s, accepted, reason, output, payload, key, hsame, hexit, hvalidates⟩ := hdone.validates
  have hnone : x.exit = none := by
    by_contra hsome
    exact h x ⟨hadds, htype, hasked, Option.isSome_iff_ne_none.mpr hsome⟩
  have hlogged := hvalidates.logged.cards
  change (App.respond w enabled a call).store.runtime.cards = _ at hlogged
  rw [hlogged, show s.store = a.store.runtime from hsame.store]
  cases route with
  | none => rfl
  | some found =>
    obtain ⟨htruthy, -⟩ := hvalidates.routed
    rw [hexit, hnone] at htruthy
    cases htruthy

end Step

/-! ## Executors of the card's own panel -/

section OwnPanel
variable {w : World} {enabled : Bool} {request : Request} {a : Machine App}

/-- What an executor lets through is an exit of the panel that it was built for. -/
theorem verdict_hasExit {t : Instant} {p : PatchPanel} {card : Option Card}
    {input input' : ValidatorExecutionInput} {accepted : Bool} {pipe : String}
    (h : NodeExecutor.verdict w t p card input = .ok (accepted, input'))
    (hpipe : truthyStr input'.selectedExit = some pipe) : p.HasExit input.validatorId pipe := by
  obtain ⟨n, hnode, h⟩ := ok_of_bind h
  obtain ⟨handled, -, h⟩ := ok_of_bind h
  obtain ⟨u, hexit, h⟩ := ok_of_bind h
  obtain ⟨b, -, h⟩ := ok_of_bind h
  cases h
  have hselected : input'.selectedExit = some pipe := by
    cases hs : input'.selectedExit with
    | none =>
      rw [hs] at hpipe
      cases hpipe
    | some exit =>
      rw [hs] at hpipe
      simp only [truthyStr] at hpipe
      split at hpipe
      · cases hpipe
      · exact hpipe
  rw [hselected] at hexit
  simp only [NodeExecutor.ensureExit, NodeExecutor.ensureValidatorExit] at hexit
  have hdeclared : pipe ∈ n.outputPipes := by
    by_contra hnot
    rw [if_pos hnot] at hexit
    cases hexit
  have hid := NodeExecutor.node_id hnode
  unfold NodeExecutor.node at hnode
  split at hnode
  · cases hnode
  · rename_i n' hfind
    split at hnode
    · rename_i htype
      cases hnode
      exact ⟨n, List.mem_of_find?_eq_some hfind, hid, htype, hdeclared⟩
    · cases hnode

/-- An executor of the card's own panel asks for the card's own exits only. -/
theorem Execution.asked_isOwn {x : Execution} {p : PatchPanel}
    (hfind : a.store.runtime.patchPanels.values.find? (fun p => p.id = x.patchPanelId) = some p)
    (hpanel : a.store.runtime.PanelOf x.input.cardId p) :
    (x.asked w enabled a request).IsOwn a.store.runtime := by
  have hsame := mayValidate_same (w := w) (a := a) enabled request
    x.input.cardId x.context x.input.validatorId
  change SameStore _ (App.runtimeMachine (x.entered w enabled a request)) at hsame
  intro pipe hpipe
  unfold Execution.asked at hpipe
  generalize x.entered w enabled a request = b at hsame hpipe
  have hstore : b.store.runtime = a.store.runtime := hsame.store
  simp only [Execution.exit, hstore, hfind] at hpipe
  generalize hverdict : NodeExecutor.verdict w _ p _ x.input = v at hpipe
  cases v with
  | error e => cases hpipe
  | ok verdict => exact ⟨p, hpanel, verdict_hasExit hverdict hpipe⟩

end OwnPanel

/-! ## Runs -/

section Runs
variable {w : World} {enabled : Bool} {root : String}

theorem start_runtime : (App.start w root).store.runtime = InMemoryCardRuntime.init := by
  have hvia : Exec.Within (Via App.authorizationStore) w (App.seedRootOperator root) := by
    apply Via.bind Via.now
    intro createdAt
    apply Via.bind (Via.on (x := InMemoryAuthorizationRepository.upsertParticipant _)
      fun _ => ⟨Nat.le_refl _, Nat.le_refl _⟩)
    intro _
    exact Via.bind (NodeExecutor.ensureBuiltinRoleAssignment_via _ _ _ _) fun _ => Via.pure _
  exact congrArg App.runtime (hvia ⟨App.init, 0, 0⟩).store

theorem respond_keyed (calls : List (Request × Route)) {a : Machine App}
    (ha : WellKeyed a.store.runtime) :
    WellKeyed (calls.foldl (App.respond w enabled) a).store.runtime := by
  induction calls generalizing a with
  | nil => exact ha
  | cons call calls ih =>
    apply ih
    exact effects_invariant (I := fun m => WellKeyed m.store)
      (fun _ _ hm heffect => hm.effect heffect) (respond_effects call) ha

theorem answered_keyed (calls : List (Request × Route)) :
    WellKeyed (App.answered w enabled root calls).store.runtime := by
  apply respond_keyed
  rw [start_runtime]
  exact .init

/-- What `tells` says holds of every validation in the run that moved a card. -/
def EachMove (w : World) (enabled : Bool) (root : String) (calls : List (Request × Route))
    (tells : Machine App → Request × Route → Asked → CardEvent → Prop) : Prop :=
  ∀ before call after x e, calls = before ++ call :: after →
    MovesByValidation w enabled (App.answered w enabled root before) call x e →
    tells (App.answered w enabled root before) call x e

end Runs

/-- In every run of requests, the validations that moved a card name a validator of the
card's panel and one of its exits exactly when the requests that made them asked for
such an exit. Every other validation leaves the cards where they are. -/
theorem validated_through_own_exit_iff (w : World) (enabled : Bool) (root : String)
    (calls : List (Request × Route)) :
    (EachMove w enabled root calls (fun a call _ e => ∃ p n pipe binding c, e.TellsOwnExit
        a.store.runtime (App.respond w enabled a call).store.runtime p n pipe binding c) ↔
      EachMove w enabled root calls fun a _ x _ => x.IsOwn a.store.runtime) ∧
    ∀ before call after e, calls = before ++ call :: after →
      let a := App.answered w enabled root before
      a.store.runtime.Adds (App.respond w enabled a call).store.runtime e.cardId e →
      e.eventType = "card_validated" → (∀ x, ¬ MovesByValidation w enabled a call x e) →
      (App.respond w enabled a call).store.runtime.cards = a.store.runtime.cards := by
  refine ⟨⟨?_, ?_⟩, ?_⟩
  · intro h before call after x e hcalls hmoves
    exact (tellsOwnExit_iff (answered_keyed before) hmoves).mp
      (h before call after x e hcalls hmoves)
  · intro h before call after x e hcalls hmoves
    exact (tellsOwnExit_iff (answered_keyed before) hmoves).mpr
      (h before call after x e hcalls hmoves)
  · intro before call after e _
    exact fun hadds htype hnone => added_without_exit hadds htype hnone

/-- The root operator registers a panel, creates a card, and routes it as the validator
through the exit of the worker. -/
def strayExitRequests : List (Request × Route) :=
  [(⟨some "root", none⟩, .registerPatchPanel (PatchPanelValidator.reviewPanel "orders" "1")),
    (⟨some "root", none⟩, .createCard ⟨"orders", [], []⟩)]

def strayExit : Request × Route :=
  (⟨some "root", none⟩, .validateCard ⟨31⟩ ⟨"check", true, none, some "work_out"⟩)

theorem validated_through_stray_exit :
    ¬ ∀ (w : World) (enabled : Bool) (root : String) (calls : List (Request × Route)),
      EachMove w enabled root calls fun a call _ e => ∃ p n pipe binding c, e.TellsOwnExit
        a.store.runtime (App.respond w enabled a call).store.runtime p n pipe binding c := by
  intro h
  let a := App.answered .simple true "root" strayExitRequests
  let b := App.respond .simple true a strayExit
  have hadds : ∃ e ∈ (b.store.runtime.history ⟨31⟩).drop (a.store.runtime.history ⟨31⟩).length,
      e.cardId = ⟨31⟩ ∧ e.eventType = "card_validated" := by decide +kernel
  obtain ⟨e, he, hid, htype⟩ := hadds
  have hmoves : MovesByValidation .simple true a strayExit ⟨⟨31⟩, "check", some "work_out"⟩ e :=
    ⟨by unfold InMemoryCardRuntime.Adds; rw [hid]; exact he, htype, rfl, rfl⟩
  have htells := h .simple true "root" (strayExitRequests ++ [strayExit]) strayExitRequests
    strayExit [] _ e rfl hmoves
  have hown := (tellsOwnExit_iff (answered_keyed strayExitRequests) hmoves).mp htells
  have hstray : ¬ Asked.IsOwn a.store.runtime ⟨⟨31⟩, "check", some "work_out"⟩ := by
    decide +kernel
  exact hstray hown

end GhostMesh
