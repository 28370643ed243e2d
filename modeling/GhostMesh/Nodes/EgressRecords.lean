import GhostMesh.Nodes.Egress

/-!
# The records of an egress

An egress is recorded under a key that its contract renders, not under its card. So the
answer to a card can be the event of another one, and the answer to a repeated request can
carry a reference that its event does not have.
-/

set_option autoImplicit false

namespace GhostMesh

open InMemoryCardRuntime Op
open Exec (bind_ok)
open Relation (ReflTransGen)

namespace Egress

section Results
variable {w : World} {a a' : Machine App} {request : BoundarySinkRequest} {x : Egress}

theorem sinkKey_ne (x : Egress) : x.sinkKey ≠ "" := by
  unfold sinkKey
  intro h
  have hcolon : ":" = "" := (String.append_eq_empty_iff.mp (String.append_eq_empty_iff.mp h).1).2
  exact absurd hcolon (by decide)

theorem eventKey_ne (x : Egress) : x.sinkKey ++ ":event" ≠ "" := by
  intro h
  exact absurd (String.append_eq_empty_iff.mp h).2 (by decide)

def boundaryPayload (x : Egress) : JsonObj :=
  [("adapter", .str x.contract.adapter), ("sink_id", .str x.sink.id),
    ("external_payload", .obj x.externalPayload),
    ("external_reference", Json.ofOptionStr x.reference), ("egress_idempotency_key", .str x.key)]

/-- The two events of an egress that returns: each is recorded now or answered from its key. -/
theorem record_cases (hcard : a.store.runtime.cards.get? x.card.id = some x.card)
    {result : SinkBoundaryResult} (h : (x.record w).run w a = (.ok result, a')) :
    result.externalReference = x.reference ∧ result.egressIdempotencyKey = some x.key ∧
    ∃ b e', ((a.store.runtime.cached (some x.sinkKey) = some (.event result.event) ∧ b = a) ∨
      (a.store.runtime.cached (some x.sinkKey) = none ∧
        result.event = App.nextEvent w a x.card.id "sink_executed" (some x.sink.id)
          (NodeExecutor.sinkPayload w x.sink x.reference) ∧
        b = App.withEvent a (some x.sinkKey) result.event)) ∧
      ((b.store.runtime.cached (some (x.sinkKey ++ ":event")) = some (.event e') ∧ a' = b) ∨
        (b.store.runtime.cached (some (x.sinkKey ++ ":event")) = none ∧
          e' = App.nextEvent w b x.card.id "boundary_sink_egressed" (some x.sink.id)
            x.boundaryPayload ∧
          a' = App.withEvent b (some (x.sinkKey ++ ":event")) e')) := by
  unfold record at h
  obtain ⟨event, b, hsink, h⟩ := bind_ok h
  obtain ⟨e', c, hboundary, h⟩ := bind_ok h
  cases h
  have hfirst := App.recordEvent_ok hcard hsink
  have hcards : b.store.runtime.cards.get? x.card.id = some x.card := by
    rcases hfirst with ⟨-, rfl⟩ | ⟨-, -, rfl⟩
    · exact hcard
    · rw [App.withEvent_cards]
      exact hcard
  exact ⟨rfl, rfl, b, e', hfirst, App.recordEvent_ok hcards hboundary⟩

/-- Both keys of the egress answer with events, the first with this one. -/
def Answers (s : InMemoryCardRuntime) (sinkKey : String) (e : CardEvent) : Prop :=
  s.cached (some sinkKey) = some (.event e) ∧
    ∃ e', s.cached (some (sinkKey ++ ":event")) = some (.event e')

theorem answers_of_record (hcard : a.store.runtime.cards.get? x.card.id = some x.card)
    {result : SinkBoundaryResult} (h : (x.record w).run w a = (.ok result, a')) :
    Answers a'.store.runtime x.sinkKey result.event := by
  obtain ⟨-, -, b, e', hfirst, hsecond⟩ := record_cases hcard h
  have hb : b.store.runtime.cached (some x.sinkKey) = some (.event result.event) := by
    rcases hfirst with ⟨hcached, rfl⟩ | ⟨-, -, rfl⟩
    · exact hcached
    · exact cached_withEvent x.sinkKey_ne
  rcases hsecond with ⟨hcached, rfl⟩ | ⟨hnew, -, rfl⟩
  · exact ⟨hb, e', hcached⟩
  · exact ⟨cached_withEvent_other hnew hb, e', cached_withEvent x.eventKey_ne⟩

/-- Where both keys answer, an egress repeats the recorded event beside its own reference. -/
theorem record_of_answers (hcard : a.store.runtime.cards.get? x.card.id = some x.card)
    {e : CardEvent} (h : Answers a.store.runtime x.sinkKey e) : (x.record w).run w a =
      (.ok ⟨e, x.reference, some x.key, x.contract.adapter⟩, a) := by
  obtain ⟨hsink, e', hboundary⟩ := h
  unfold record
  rw [Exec.run_bind_ok (App.recordEvent_cached _ _ _ hcard hsink),
    Exec.run_bind_ok (App.recordEvent_cached _ _ _ hcard hboundary)]
  rfl

theorem Answers.effects {m m' : Machine InMemoryCardRuntime}
    {sinkKey : String} {e : CardEvent} (h : Answers m.store sinkKey e)
    (heffects : ReflTransGen (Effect w) m m') : Answers m'.store sinkKey e := by
  obtain ⟨hsink, e', hboundary⟩ := h
  exact ⟨effects_keep_cached heffects hsink, e', effects_keep_cached heffects hboundary⟩

end Results

end Egress

/-! ## One card's egress -/

/-- The event tells that the sink was executed. -/
def SinkExecution (sinkId : String) (e : CardEvent) : Prop :=
  e.eventType = "sink_executed" ∧ e.actorId = some sinkId ∧
    JsonObj.get? e.payload "sink_id" = some (.str sinkId)

/-- The history of the card tells that the sink was executed. -/
def InMemoryCardRuntime.ShowsExecution (s : InMemoryCardRuntime) (cardId : Uuid)
    (sinkId : String) : Prop := ∃ e ∈ s.history cardId, SinkExecution sinkId e

/-- If the egress returns, it returns an event of the card, and the card's history tells
that the sink was executed. -/
def AnswersOwn (w : World) (a : Machine App) (request : BoundarySinkRequest) : Prop :=
  ∀ result a', (BoundaryAdapterService.executeSink App.cardRuntime request).run w a =
      (.ok result, a') →
    result.event.cardId = request.cardId ∧
      a'.store.runtime.ShowsExecution request.cardId request.sinkId

/-- What the code leaves to contracts and callers: if an egress that would be let out finds
an event under its key, and not something else under the key of its second event, then
that event is one of the card, whose history tells of the execution. -/
def OwnRecord (w : World) (a : Machine App) : ServiceCall → Prop
  | .boundarySink request => ∀ (x : Egress) (e : CardEvent),
    x.Renders w a.store.runtime request → x.LetsOut →
    a.store.runtime.cached (some x.sinkKey) = some (.event e) →
    (∀ v, a.store.runtime.cached (some (x.sinkKey ++ ":event")) = some v → v.event?.isSome) →
    e.cardId = request.cardId ∧ a.store.runtime.ShowsExecution request.cardId request.sinkId
  | _ => True

section Owners
variable {w : World} {a : Machine App} {request : BoundarySinkRequest} {x : Egress}
  {cardId : Uuid} {sinkId : String}

theorem mem_withEvent (key : Option String) (e : CardEvent) :
    e ∈ (App.withEvent a key e).store.runtime.history e.cardId := by
  rw [history_withEvent, if_pos rfl]
  exact List.mem_append_right _ List.mem_cons_self

theorem InMemoryCardRuntime.ShowsExecution.withEvent
    (h : a.store.runtime.ShowsExecution cardId sinkId) (key : Option String) (e : CardEvent) :
    (App.withEvent a key e).store.runtime.ShowsExecution cardId sinkId := by
  obtain ⟨e', hmem, hexecution⟩ := h
  refine ⟨e', ?_, hexecution⟩
  rw [history_withEvent]
  split
  · exact List.mem_append_left _ hmem
  · exact hmem

/-- The second event of an egress does not tell of an execution. -/
theorem shows_before {key : Option String} {e : CardEvent}
    (htype : e.eventType = "boundary_sink_egressed")
    (h : (App.withEvent a key e).store.runtime.ShowsExecution cardId sinkId) :
    a.store.runtime.ShowsExecution cardId sinkId := by
  obtain ⟨e', hmem, hexecution⟩ := h
  refine ⟨e', (mem_history_withEvent ?_).mp hmem, hexecution⟩
  rintro rfl
  exact absurd (htype.symm.trans hexecution.1) (by decide)

/-- An egress that finds its event, and returns. -/
theorem record_cached (hcard : a.store.runtime.cards.get? x.card.id = some x.card) {e : CardEvent}
    (hcached : a.store.runtime.cached (some x.sinkKey) = some (.event e))
    (hanswers : ∀ v, a.store.runtime.cached (some (x.sinkKey ++ ":event")) = some v →
      v.event?.isSome) : ∃ result a', (x.record w).run w a = (.ok result, a') ∧ result.event = e ∧
      (a' = a ∨ ∃ key e', e'.eventType = "boundary_sink_egressed" ∧
        a' = App.withEvent a key e') := by
  cases hboundary : a.store.runtime.cached (some (x.sinkKey ++ ":event")) with
  | some v =>
    cases v with
    | event e' =>
      exact ⟨_, a, Egress.record_of_answers hcard ⟨hcached, e', hboundary⟩, rfl, .inl rfl⟩
    | _ => cases hanswers _ hboundary
  | none =>
    have hnew := App.recordEvent_run (w := w) "boundary_sink_egressed" (some x.sink.id)
      x.boundaryPayload (some (x.sinkKey ++ ":event")) hcard
    rw [hboundary] at hnew
    unfold Egress.record
    rw [Exec.run_bind_ok (App.recordEvent_cached _ _ _ hcard hcached)]
    exact ⟨_, _, Exec.run_bind_ok hnew, rfl, .inr ⟨_, _, rfl, rfl⟩⟩

theorem answersOwn_iff (hkeyed : WellKeyed a.store.runtime) :
    AnswersOwn w a request ↔ OwnRecord w a (.boundarySink request) := by
  have hcard : ∀ {x : Egress}, x.Renders w a.store.runtime request →
      x.card.id = request.cardId ∧ a.store.runtime.cards.get? x.card.id = some x.card := by
    intro x hrenders
    have hid := hkeyed.cards hrenders.card
    exact ⟨hid, hid.symm ▸ hrenders.card⟩
  constructor
  · intro h x e hrenders hout hcached hanswers
    obtain ⟨result, a', hrecord, rfl, hafter⟩ :=
      record_cached (w := w) (hcard hrenders).2 hcached hanswers
    obtain ⟨hown, hshows⟩ := h result a'
      ((Egress.run_of_renders hkeyed hrenders hout).trans hrecord)
    refine ⟨hown, ?_⟩
    rcases hafter with rfl | ⟨key, e', htype, rfl⟩
    · exact hshows
    · exact shows_before htype hshows
  · intro h result a' hrun
    obtain ⟨x, hrenders, hout, hrecord⟩ := Egress.record_of_ok hkeyed hrun
    obtain ⟨hid, hstored⟩ := hcard hrenders
    obtain ⟨-, -, b, e', hfirst, hsecond⟩ := Egress.record_cases hstored hrecord
    have hb : result.event.cardId = request.cardId ∧
        b.store.runtime.ShowsExecution request.cardId request.sinkId := by
      rcases hfirst with ⟨hcached, rfl⟩ | ⟨-, hevent, rfl⟩
      · refine h x result.event hrenders hout hcached fun v hv => ?_
        rcases hsecond with ⟨hboundary, -⟩ | ⟨hnone, -⟩
        · rw [hboundary] at hv
          cases hv
          rfl
        · rw [hnone] at hv
          cases hv
      · have hown : result.event.cardId = request.cardId := by
          rw [hevent]
          exact hid
        refine ⟨hown, result.event, ?_, ?_⟩
        · rw [← hown]
          exact mem_withEvent _ _
        · rw [hevent]
          refine ⟨rfl, congrArg some hrenders.sink_id, ?_⟩
          rw [← hrenders.sink_id]
          rfl
    refine ⟨hb.1, ?_⟩
    rcases hsecond with ⟨-, rfl⟩ | ⟨-, -, rfl⟩
    · exact hb.2
    · exact hb.2.withEvent _ _

/-- Over whole runs: every egress answers for its own card exactly if every egress that
finds an event under its key finds its own. -/
theorem egresses_own_iff (w : World) (s : App) (ticks draws : Nat) (calls : List ServiceCall) :
    (∀ before request after, calls = before ++ .boundarySink request :: after →
      AnswersOwn w (runServices w (s.boot ticks draws) before) request) ↔
    Permitted (ServiceCall.step w) (OwnRecord w) (s.boot ticks draws) calls := by
  rw [Permitted.iff_steps]
  have hkeyed : ∀ before, WellKeyed (runServices w (s.boot ticks draws) before).store.runtime :=
    fun before => (runServices_cardsKept before (boot_sound s ticks draws)).2.keyed
  constructor
  · intro h before call after hcalls
    cases call with
    | boundarySink request =>
      exact (answersOwn_iff (hkeyed before)).mp (h before request after hcalls)
    | mesh call => trivial
    | shadow call => trivial
    | boundarySource request => trivial
  · intro h before request after hcalls
    exact (answersOwn_iff (hkeyed before)).mpr (h before _ after hcalls)

end Owners

/-- A line whose sink records its egresses under a key of this template. -/
def egressPanel (template : String) : PatchPanel :=
  { PatchPanelValidator.linePanel "orders" "1" with
    nodes := [⟨"intake", .source, none, none, [], ["intake_out"], none, []⟩,
      ⟨"work", .worker, none, none, ["work_in"], ["work_out"], none, []⟩,
      ⟨"done", .sink, none, none, ["done_in"], [], none,
        [("boundary_contract", .obj [("idempotency_key", .str template)])]⟩]
    uniqueNodes := by simp }

def egressOf (cardId : Uuid) (response : JsonObj) : BoundarySinkRequest :=
  ⟨"orders", "done", cardId, response, none⟩

/-- Two cards wait at a sink whose key template is no name of a value: the first is let out. -/
def sharedKeyCalls : List ServiceCall :=
  [.mesh (.runtime (.registerPatchPanel (egressPanel "card_id + sink_id + artifact_version"))),
    .mesh (.runtime (.createCard "orders" [] none none)),
    .mesh (.runtime (.createCard "orders" [] none none)),
    .mesh (.runtime (.moveCard ⟨0⟩ "outbox" none none none)),
    .mesh (.runtime (.moveCard ⟨2⟩ "outbox" none none none)),
    .boundarySink (egressOf ⟨0⟩ [])]

/-- The second card is answered with the first card's event. -/
theorem sharedKey_answers_other :
    ¬ AnswersOwn .simple (runServices .simple (App.init.boot 0 0) sharedKeyCalls)
      (egressOf ⟨2⟩ []) := by
  have hrun : ∃ result a', (BoundaryAdapterService.executeSink App.cardRuntime
      (egressOf ⟨2⟩ [])).run .simple (runServices .simple (App.init.boot 0 0) sharedKeyCalls) =
        (.ok result, a') ∧ result.event.cardId = ⟨0⟩ := by
    refine ⟨_, _, rfl, ?_⟩
    decide +kernel
  obtain ⟨result, a', hrun, hcard⟩ := hrun
  intro h
  have hown : result.event.cardId = ⟨2⟩ := (h result a' hrun).1
  rw [hcard] at hown
  exact absurd hown (by decide)

/-! ## The same key again -/

/-- The external reference that the event records. -/
def CardEvent.recordedReference (e : CardEvent) : Option String :=
  match JsonObj.get? e.payload "external_reference" with
  | some (.str reference) => some reference
  | _ => none

/-- The request returns this event with the reference recorded in it, and appends no event. -/
def Repeats (w : World) (a : Machine App) (request : BoundarySinkRequest) (e : CardEvent) :
    Prop :=
  ∃ result a', (BoundaryAdapterService.executeSink App.cardRuntime request).run w a =
      (.ok result, a') ∧ result.event = e ∧ result.externalReference = e.recordedReference ∧
    ∀ cardId, a'.store.runtime.history cardId = a.store.runtime.history cardId

section Repetitions
variable {w : World} {a : Machine App} {request : BoundarySinkRequest} {x : Egress}

theorem ServiceCall.answers {a : Machine App} {sinkKey : String} {e : CardEvent}
    (h : Egress.Answers a.store.runtime sinkKey e) (calls : List ServiceCall) :
    Egress.Answers (runServices w a calls).store.runtime sinkKey e := by
  unfold runServices
  induction calls generalizing a with
  | nil => exact h
  | cons call calls ih =>
    have hstep := Egress.Answers.effects (m := App.runtimeMachine a) h (call.step_effects (w := w))
    exact ih hstep

/-- Once both keys answer, a request that renders this key repeats the event exactly if it
is let out with the reference that the event has. -/
theorem repeats_iff (hkeyed : WellKeyed a.store.runtime) {e : CardEvent}
    (hanswers : Egress.Answers a.store.runtime x.sinkKey e)
    (hrenders : x.Renders w a.store.runtime request) :
    Repeats w a request e ↔ x.LetsOut ∧ x.reference = e.recordedReference := by
  have hstored : a.store.runtime.cards.get? x.card.id = some x.card := by
    rw [hkeyed.cards hrenders.card]
    exact hrenders.card
  have hrecord := Egress.record_of_answers (w := w) hstored hanswers
  constructor
  · rintro ⟨result, a', hrun, -, hreference, -⟩
    obtain ⟨y, hy, hout, hy'⟩ := Egress.record_of_ok hkeyed hrun
    cases hrenders.unique hy
    rw [hrecord] at hy'
    cases hy'
    exact ⟨hout, hreference⟩
  · rintro ⟨hout, hreference⟩
    have hrun := (Egress.run_of_renders hkeyed hrenders hout).trans hrecord
    exact ⟨_, a, hrun, rfl, hreference, fun _ => rfl⟩

/-- An egress that returned is repeated by a later request of its sink that renders the same
key exactly if that request is let out with the recorded reference. -/
theorem repeated_egress_iff (w : World) (s : App) (ticks draws : Nat) (before : List ServiceCall)
    (request : BoundarySinkRequest) (between : List ServiceCall) (request' : BoundarySinkRequest)
    (result : SinkBoundaryResult) (a : Machine App) (x : Egress)
    (hfirst : (BoundaryAdapterService.executeSink App.cardRuntime request).run w
      (runServices w (s.boot ticks draws) before) = (.ok result, a))
    (hpanel : request'.patchPanelId = request.patchPanelId)
    (hsink : request'.sinkId = request.sinkId)
    (hrenders : x.Renders w (runServices w a between).store.runtime request')
    (hkey : result.egressIdempotencyKey = some x.key) :
    Repeats w (runServices w a between) request' result.event ↔
      x.LetsOut ∧ x.reference = result.event.recordedReference := by
  have hbefore := (runServices_cardsKept (w := w) before (boot_sound s ticks draws)).2
  have ha : a = ServiceCall.step w (runServices w (s.boot ticks draws) before)
      (.boundarySink request) := (congrArg Prod.snd hfirst).symm
  have hsound : CardsSound w (App.runtimeMachine a) := by
    rw [ha]
    exact (effects_cardsKept hbefore (ServiceCall.step_effects _)).2
  obtain ⟨y, hy, -, hrecord⟩ := Egress.record_of_ok hbefore.keyed hfirst
  have hstored : (runServices w (s.boot ticks draws) before).store.runtime.cards.get? y.card.id =
      some y.card := by
    rw [hbefore.keyed.cards hy.card]
    exact hy.card
  -- both requests record under one key: the panel, the sink and the rendered text agree
  have hsame : y.sinkKey = x.sinkKey := by
    have hrendered : some y.key = some x.key :=
      (Egress.record_cases hstored hrecord).2.1.symm.trans hkey
    unfold Egress.sinkKey
    rw [hy.panel_id, hy.sink_id, hrenders.panel_id, hrenders.sink_id, hpanel, hsink,
      Option.some.inj hrendered]
  have hanswers := ServiceCall.answers (w := w) (Egress.answers_of_record hstored hrecord) between
  rw [hsame] at hanswers
  exact repeats_iff (runServices_cardsKept between hsound).2.keyed hanswers hrenders

end Repetitions

/-- A card at a sink that records under the card and the sink. -/
def outgoingCalls : List ServiceCall :=
  [.mesh (.runtime (.registerPatchPanel (egressPanel "card_id + sink_id"))),
    .mesh (.runtime (.createCard "orders" [] none none)),
    .mesh (.runtime (.moveCard ⟨0⟩ "outbox" none none none))]

def outgoingMachine : Machine App := runServices .simple (App.init.boot 0 0) outgoingCalls

/-- The response of the external system, with a reference in it. -/
def respondedEgress (reference status : String) : BoundarySinkRequest :=
  egressOf ⟨0⟩ [("external_reference", .str reference), ("status", .str status)]

/-- The card is let out. -/
def firstEgress : Except PyErr SinkBoundaryResult × Machine App :=
  (BoundaryAdapterService.executeSink App.cardRuntime (respondedEgress "first" "sent")).run
    .simple outgoingMachine

def egressAnswer (result : SinkBoundaryResult) : Option String × Option String × Option String :=
  (result.egressIdempotencyKey, result.externalReference, result.event.recordedReference)

theorem firstEgress_answer : firstEgress.1.toOption.map egressAnswer =
    some (some "00000000-0000-0000-0000-000000000000:done", some "first", some "first") := by
  decide +kernel

theorem repeated_egress_first : ∃ result,
    (BoundaryAdapterService.executeSink App.cardRuntime (respondedEgress "first" "sent")).run
        .simple outgoingMachine = (.ok result, firstEgress.2) ∧
      Repeats .simple (runServices .simple firstEgress.2 [.mesh (.runtime .listCards)])
        (respondedEgress "first" "late") result.event := by
  obtain ⟨result, hfirst, hanswer⟩ := Exec.run_ok_of_toOption firstEgress_answer
  have hlate : ((BoundaryAdapterService.executeSink App.cardRuntime
      (respondedEgress "first" "late")).run .simple
        (runServices .simple firstEgress.2 [.mesh (.runtime .listCards)])).1.toOption.map
          egressAnswer =
      some (some "00000000-0000-0000-0000-000000000000:done", some "first", some "first") := by
    decide +kernel
  obtain ⟨result', hsecond, hanswer'⟩ := Exec.run_ok_of_toOption hlate
  have hwaiting : CardsSound .simple (App.runtimeMachine outgoingMachine) :=
    (runServices_cardsKept outgoingCalls (boot_sound App.init 0 0)).2
  have hsound : CardsSound .simple (App.runtimeMachine firstEgress.2) :=
    (effects_cardsKept hwaiting
      (ServiceCall.step_effects (.boundarySink (respondedEgress "first" "sent")))).2
  have hkeyed : WellKeyed
      (runServices .simple firstEgress.2 [.mesh (.runtime .listCards)]).store.runtime :=
    (runServices_cardsKept [.mesh (.runtime .listCards)] hsound).2.keyed
  obtain ⟨x, hrenders, hout, hrecord⟩ := Egress.record_of_ok hkeyed hsecond
  have hstored : (runServices .simple firstEgress.2
      [.mesh (.runtime .listCards)]).store.runtime.cards.get? x.card.id = some x.card := by
    rw [hkeyed.cards hrenders.card]
    exact hrenders.card
  obtain ⟨hx, hxkey, -⟩ := Egress.record_cases hstored hrecord
  have hsame : egressAnswer result = egressAnswer result' := hanswer.trans hanswer'.symm
  have hrecorded : result'.externalReference = result.event.recordedReference :=
    (congrArg (fun answer => answer.2.1) hanswer').trans
      (congrArg (fun answer => answer.2.2) hanswer).symm
  refine ⟨result, hfirst, (repeated_egress_iff .simple App.init 0 0 outgoingCalls
    (respondedEgress "first" "sent") [.mesh (.runtime .listCards)] (respondedEgress "first" "late")
    result firstEgress.2 x hfirst rfl rfl hrenders ?_).mpr ⟨hout, ?_⟩⟩
  · exact (congrArg Prod.fst hsame).trans hxkey
  · exact hx.symm.trans hrecorded

/-- A repeated request with another reference gets the recorded event beside its own
reference. -/
theorem repeated_egress_contradicts : ∃ result result' a',
    (BoundaryAdapterService.executeSink App.cardRuntime (respondedEgress "first" "sent")).run
        .simple outgoingMachine = (.ok result, firstEgress.2) ∧
      (BoundaryAdapterService.executeSink App.cardRuntime (respondedEgress "second" "sent")).run
        .simple firstEgress.2 = (.ok result', a') ∧
      result'.egressIdempotencyKey = result.egressIdempotencyKey ∧
      ¬ Repeats .simple firstEgress.2 (respondedEgress "second" "sent") result.event := by
  obtain ⟨result, hfirst, hanswer⟩ := Exec.run_ok_of_toOption firstEgress_answer
  have hother : ((BoundaryAdapterService.executeSink App.cardRuntime
      (respondedEgress "second" "sent")).run .simple firstEgress.2).1.toOption.map egressAnswer =
      some (some "00000000-0000-0000-0000-000000000000:done", some "second", some "first") := by
    decide +kernel
  obtain ⟨result', hsecond, hanswer'⟩ := Exec.run_ok_of_toOption hother
  have hkey : result'.egressIdempotencyKey = result.egressIdempotencyKey :=
    (congrArg Prod.fst hanswer').trans (congrArg Prod.fst hanswer).symm
  refine ⟨result, result', _, hfirst, hsecond, hkey, ?_⟩
  rintro ⟨result'', a'', hrun, -, hrepeated, -⟩
  rw [hsecond] at hrun
  cases hrun
  have hreference : result'.externalReference = some "second" :=
    congrArg (fun answer => answer.2.1) hanswer'
  have hrecorded : result.event.recordedReference = some "first" :=
    congrArg (fun answer => answer.2.2) hanswer
  rw [hreference, hrecorded] at hrepeated
  exact absurd hrepeated (by decide)

end GhostMesh
