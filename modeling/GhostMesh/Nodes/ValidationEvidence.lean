import GhostMesh.Nodes.ExecutorSteps
import GhostMesh.Runtime.Replay
import GhostMesh.Runtime.SameCalls

/-!
# What a validation event says

A `card_validated` event is put together from the arguments of the call, the payload
of the caller and the route of the card, in this order. The caller's payload comes
after the arguments, so the event tells what happened exactly when that payload does
not speak of the fields that the runtime writes, or says the same.
-/

set_option autoImplicit false

namespace GhostMesh

open Op (inside)
open ReadCommitted (Txn)
open InMemoryCardRuntime (run_getCard routedPayload)

/-- One call of `validate_card` with its arguments. -/
structure ValidationCall where
  cardId : Uuid
  validatorId : String
  accepted : Bool
  reason : Option String
  outputPipe : Option String
  payload : Option JsonObj
  key : Option String

namespace ValidationCall

def runOn {σ : Type} (a : ValidationCall) (R : CardRuntime σ) : Op σ CardEvent :=
  R.validateCard a.cardId a.validatorId a.accepted a.reason a.outputPipe a.payload a.key

/-- A field of the caller's dictionary. -/
def field (a : ValidationCall) (key : String) : Option Json :=
  JsonObj.get? (JsonObj.update [] (a.payload.getD [])) key

/-- The caller's dictionary says nothing else than the call. -/
structure Keeps (a : ValidationCall) : Prop where
  accepted : ∀ v, a.field "accepted" = some v → v = .bool a.accepted
  reason : ∀ v, a.field "reason" = some v → v = Json.ofOptionStr a.reason
  routing : truthyStr a.outputPipe = none →
    a.field "output_pipe" = none ∧ a.field "destination_bucket" = none

/-- The event payload says what the call said and what became of the card. -/
structure Tells (a : ValidationCall) (before after : Option Card) (payload : JsonObj) : Prop where
  accepted : JsonObj.get? payload "accepted" = some (.bool a.accepted)
  reason : JsonObj.get? payload "reason" = some (Json.ofOptionStr a.reason)
  moved : ∀ pipe, truthyStr a.outputPipe = some pipe → ∃ c, after = some c ∧
    JsonObj.get? payload "output_pipe" = some (.str pipe) ∧
    JsonObj.get? payload "destination_bucket" = some (.str c.currentBucket)
  stayed : truthyStr a.outputPipe = none → after = before ∧
    JsonObj.get? payload "output_pipe" = none ∧ JsonObj.get? payload "destination_bucket" = none

/-- What became of the card along the route of a validation. -/
def Routed (a : ValidationCall) (before after : Option Card) : Option (String × String) → Prop
  | none => truthyStr a.outputPipe = none ∧ after = before
  | some (pipe, destination) => truthyStr a.outputPipe = some pipe ∧
      ∃ c, after = some c ∧ c.currentBucket = destination

section Payload
variable {a : ValidationCall} {before after : Option Card} {route : Option (String × String)}
  {base : JsonObj}

theorem routedPayload_get? {payload : JsonObj} {key : String} (hpipe : key ≠ "output_pipe")
    (hdestination : key ≠ "destination_bucket") :
    JsonObj.get? (routedPayload payload route) key = JsonObj.get? payload key := by
  cases route with
  | none => rfl
  | some r =>
    unfold routedPayload
    rw [JsonObj.get?_set_ne _ _ hdestination, JsonObj.get?_set_ne _ _ hpipe]

/-- An entry that the caller may override has its value exactly when the caller agrees. -/
theorem or_eq_some_iff {v : Json} {o : Option Json} : o.or (some v) = some v ↔
    ∀ x, o = some x → x = v := by
  cases o <;> simp

/-- Over a base with the arguments of the call and no routing fields, the event tells
what happened exactly when the caller keeps to it. -/
theorem tells_iff (haccepted : JsonObj.get? base "accepted" = some (.bool a.accepted))
    (hreason : JsonObj.get? base "reason" = some (Json.ofOptionStr a.reason))
    (hpipe : JsonObj.get? base "output_pipe" = none)
    (hdestination : JsonObj.get? base "destination_bucket" = none)
    (hroute : a.Routed before after route) :
    a.Tells before after (routedPayload (JsonObj.update base (a.payload.getD [])) route) ↔
      a.Keeps := by
  have hget : ∀ key, JsonObj.get? (JsonObj.update base (a.payload.getD [])) key =
      (a.field key).or (JsonObj.get? base key) := fun key => JsonObj.get?_update _ _ key
  have hacc : JsonObj.get? (routedPayload (JsonObj.update base (a.payload.getD [])) route)
      "accepted" = (a.field "accepted").or (some (.bool a.accepted)) := by
    rw [routedPayload_get? (by decide) (by decide), hget, haccepted]
  have hrea : JsonObj.get? (routedPayload (JsonObj.update base (a.payload.getD [])) route)
      "reason" = (a.field "reason").or (some (Json.ofOptionStr a.reason)) := by
    rw [routedPayload_get? (by decide) (by decide), hget, hreason]
  constructor
  · intro h
    refine ⟨or_eq_some_iff.mp (hacc ▸ h.accepted), or_eq_some_iff.mp (hrea ▸ h.reason), ?_⟩
    intro hnone
    obtain ⟨-, hstay⟩ := h.stayed hnone
    cases route with
    | none =>
      simp only [routedPayload, hget, hpipe, hdestination, Option.or_none] at hstay
      exact hstay
    | some r =>
      have hsome : truthyStr a.outputPipe = some r.1 := hroute.1
      rw [hnone] at hsome
      cases hsome
  · intro h
    refine ⟨hacc.trans (or_eq_some_iff.mpr h.accepted),
      hrea.trans (or_eq_some_iff.mpr h.reason), ?_, ?_⟩
    · intro pipe hsome
      cases route with
      | none =>
        have hnone : truthyStr a.outputPipe = none := hroute.1
        rw [hnone] at hsome
        cases hsome
      | some r =>
        obtain ⟨hr, c, hc, hbucket⟩ := hroute
        rw [hr] at hsome
        cases hsome
        refine ⟨c, hc, ?_, ?_⟩
        · unfold routedPayload
          rw [JsonObj.get?_set_ne _ _ (by decide), JsonObj.get?_set_self]
        · unfold routedPayload
          rw [JsonObj.get?_set_self, hbucket]
    · intro hnone
      cases route with
      | none =>
        refine ⟨hroute.2, ?_⟩
        simp only [routedPayload, hget, hpipe, hdestination, Option.or_none]
        exact h.routing hnone
      | some r =>
        have hsome : truthyStr a.outputPipe = some r.1 := hroute.1
        rw [hnone] at hsome
        cases hsome

end Payload

end ValidationCall

/-! ## In memory -/

/-- The event of the call is the next one of the card, and tells what happened. -/
structure ValidationCall.TellsMemory (a : ValidationCall) (s s' : InMemoryCardRuntime)
    (e : CardEvent) : Prop where
  appended : s'.history a.cardId = s.history a.cardId ++ [e]
  event : e.eventType = "card_validated" ∧ e.actorId = some a.validatorId
  tells : a.Tells (s.cards.get? a.cardId) (s'.cards.get? a.cardId) e.payload

section Memory
open InMemoryCardRuntime
variable {w : World} {m m' : Machine InMemoryCardRuntime} {a : ValidationCall} {e : CardEvent}

/-- A validation that returns and is no replay has taken effect. -/
theorem validateCard_returns
    (h : (a.runOn InMemoryCardRuntime.runtime).run w m = (.ok e, m'))
    (hkey : m.store.cached a.key = none) : ∃ c route,
      Validates w m m' a.cardId a.validatorId a.accepted a.reason a.outputPipe a.payload a.key c
        route e := by
  have hrun : (InMemoryCardRuntime.validateCard a.cardId a.validatorId a.accepted a.reason
    a.outputPipe a.payload a.key).run w m = (.ok e, m') := h
  rcases validateCard_cases hrun with hsame | ⟨c, route, e', he, hvalidates⟩
  · -- The event of a call that returned has drawn an id.
    exfalso
    rw [InMemoryCardRuntime.validateCard, run_idempotent, hkey] at hrun
    obtain ⟨c, m1, h1, hrun⟩ := Exec.bind_ok hrun
    obtain ⟨route, m2, h2, hrun⟩ := Exec.bind_ok hrun
    rw [run_getCard] at h1
    have hm1 : m1 = m := (Prod.mk.inj h1).2.symm
    have hm2 : m2 = m1 := (validationRoute_cases h2).1
    rw [hm2, hm1] at hrun
    have hdraws : m'.draws = m.draws + 1 := by
      cases hrun
      rfl
    rw [hsame] at hdraws
    omega
  · cases he
    exact ⟨c, route, hvalidates⟩

theorem memory_tells_iff (hkeyed : WellKeyed m.store)
    (h : (a.runOn InMemoryCardRuntime.runtime).run w m = (.ok e, m'))
    (hkey : m.store.cached a.key = none) : a.TellsMemory m.store m'.store e ↔ a.Keeps := by
  obtain ⟨c, route, hvalidates⟩ := validateCard_returns h hkey
  obtain ⟨hcard, htype, hactor, hpayload⟩ := hvalidates.event
  have hid : c.id = a.cardId := hkeyed.cards hvalidates.card
  have hlogged := hvalidates.logged
  have hroute : a.Routed (m.store.cards.get? a.cardId) (m'.store.cards.get? a.cardId) route := by
    have hok := hvalidates.routed
    rw [hlogged.cards]
    cases route with
    | none => exact ⟨hok, rfl⟩
    | some r =>
      refine ⟨hok.1, { c with currentBucket := r.2 }, ?_, rfl⟩
      simp only [routedCard, Option.map_some, Option.elim_some, ← hid, Dict.get?_set_self]
  have htells : a.Tells (m.store.cards.get? a.cardId) (m'.store.cards.get? a.cardId) e.payload ↔
      a.Keeps := by
    rw [hpayload]
    exact ValidationCall.tells_iff rfl rfl rfl rfl hroute
  constructor
  · intro h
    exact htells.mp h.tells
  · intro h
    refine ⟨?_, ⟨htype, hactor⟩, htells.mpr h⟩
    rw [hlogged.history, hcard, hid, if_pos rfl]

end Memory

/-! ## In the tables -/

/-- The call inserted the event and one row of its verdict, the event tells what
happened, and says of acceptance what the row says. -/
structure ValidationCall.TellsTables (a : ValidationCall) (d d' : Tables) (e : CardEvent) : Prop where
  inserted : d.cardEvents.get? e.id = none ∧ d'.cardEvents.get? e.id = some e
  event : e.cardId = a.cardId ∧ e.eventType = "card_validated" ∧ e.actorId = some a.validatorId
  tells : a.Tells (d.cards.get? a.cardId) (d'.cards.get? a.cardId) e.payload
  row : ∃ row, d.validationResults.get? row.id = none ∧
    d'.validationResults = d.validationResults.set row.id row ∧ row.cardId = a.cardId ∧
    JsonObj.get? e.payload "accepted" = some (.bool row.accepted)

namespace PostgresCardRuntime

section Tables
variable {w : World} {m m' : Machine Tables} (engine : Engine)

theorem returns_bind {α β : Type} {x : Tx α} {f : α → Tx β} {b : β}
    (h : (inside (x >>= f)).run w m = (.ok b, m')) :
    ∃ a m1, (inside x).run w m = (.ok a, m1) ∧ (inside (f a)).run w m1 = (.ok b, m') := by
  rw [Op.inside_bind] at h
  obtain ⟨_, -, he⟩ | h := Exec.bind_cases h
  · cases he
  · exact h

theorem insert_returns {l : RowLock} {taken : Tables → Bool} {x : RowWrite} {err : PyErr}
    (h : (inside (Txn.insert (S := postgres) l taken x err)).run w m = (.ok (), m')) :
    taken m.store = false ∧ m' = { m with store := x.apply m.store } := by
  rw [Op.run_insert] at h
  split at h
  · cases (Prod.mk.inj h).1
  · rename_i hfree
    exact ⟨Bool.eq_false_iff.mpr hfree, (Prod.mk.inj h).2.symm⟩

/-- A movement touches the bucket of its card, locations and events. -/
theorem moveCardRow_returns {c c' : Card} {bucket : String} {actor reason : Option String}
    (hc : m.store.cards.contains c.id = true)
    (h : (inside (moveCardRow engine c bucket actor reason true)).run w m = (.ok c', m')) :
    m'.store.cards = m.store.cards.modify c.id (fun c => { c with currentBucket := bucket }) ∧
      m'.store.validationResults = m.store.validationResults ∧
      ∀ id, m'.store.cardEvents.get? id = none → m.store.cardEvents.get? id = none := by
  unfold moveCardRow at h
  rw [Op.run_clock] at h
  obtain ⟨_, m1, h1, h⟩ := returns_bind h
  obtain ⟨table, hexit, -⟩ :=
    run_exitLocations w { m with ticks := m.ticks + 1 } engine c.id (w.clock m.ticks)
  rw [hexit] at h1
  cases h1
  rw [Op.run_ident] at h
  obtain ⟨_, m2, h2, h⟩ := returns_bind h
  obtain ⟨-, hm2⟩ := insert_returns h2
  obtain ⟨_, m3, h3, h⟩ := returns_bind h
  have hcontains : m2.store.cards.contains c.id = true := by
    rw [hm2]
    exact hc
  rw [run_updateCardBucket _ _ hcontains] at h3
  have hm3 := (Prod.mk.inj h3).2
  simp only [if_true] at h
  rw [Op.run_bind_ok (run_newEvent _ _ _ _ _ _)] at h
  obtain ⟨_, m4, h4, h⟩ := returns_bind h
  obtain ⟨-, hm4⟩ := insert_returns h4
  have hm' : m' = m4 := (Prod.mk.inj h).2.symm
  rw [hm', hm4, ← hm3, hm2]
  refine ⟨rfl, rfl, ?_⟩
  intro id hid
  simp only [RowWrite.apply] at hid
  rw [Dict.get?_set] at hid
  split at hid
  · cases hid
  · exact hid

theorem storeIdempotency_returns {key : Option String} {operation : String} {ref : ResponseRef}
    (h : (inside (storeIdempotency key operation ref)).run w m = (.ok (), m')) :
    ∃ table, m'.store = { m.store with idempotencyRecords := table } := by
  unfold storeIdempotency at h
  cases hkey : truthyStr key with
  | none =>
    rw [hkey] at h
    cases h
    exact ⟨_, rfl⟩
  | some k =>
    rw [hkey] at h
    simp only at h
    rw [Op.run_clock] at h
    obtain ⟨-, hm'⟩ := insert_returns h
    rw [hm']
    exact ⟨_, rfl⟩

/-- The route of a validation, with the movement that it makes. -/
theorem validationRoute_returns {c : Card} {validator : String} {outputPipe : Option String}
    {route : Option (String × String)} (hc : m.store.cards.get? c.id = some c)
    (h : (inside (validationRoute engine c validator outputPipe)).run w m = (.ok route, m')) :
    m'.store.validationResults = m.store.validationResults ∧
      (∀ id, m'.store.cardEvents.get? id = none → m.store.cardEvents.get? id = none) ∧
      ((truthyStr outputPipe = none ∧ route = none ∧ m'.store.cards = m.store.cards) ∨
        ∃ pipe destination, truthyStr outputPipe = some pipe ∧ route = some (pipe, destination) ∧
          m'.store.cards.get? c.id = some { c with currentBucket := destination }) := by
  unfold validationRoute at h
  cases hpipe : truthyStr outputPipe with
  | none =>
    rw [hpipe] at h
    cases h
    exact ⟨rfl, fun _ hid => hid, .inl ⟨rfl, rfl, rfl⟩⟩
  | some pipe =>
    rw [hpipe] at h
    simp only at h
    obtain ⟨p, m1, h1, h⟩ := returns_bind h
    have hm1 : m1 = m := by
      unfold getPatchPanelForCard at h1
      split at h1
      · cases (Prod.mk.inj h1).1
      · rw [Op.run_query] at h1
        split at h1
        · exact (Prod.mk.inj h1).2.symm
        · cases (Prod.mk.inj h1).1
    obtain ⟨found, m2, h2, h⟩ := returns_bind h
    rw [Op.inside_ofExcept, Op.run_ofExcept] at h2
    have hm2 : m2 = m1 := (Prod.mk.inj h2).2.symm
    obtain ⟨moved, m3, h3, h⟩ := returns_bind h
    rw [hm2, hm1] at h3
    obtain ⟨hcards, hresults, hevents⟩ := moveCardRow_returns engine (Dict.contains_of_get? hc) h3
    cases h
    refine ⟨hresults, hevents, .inr ⟨pipe, found.1, rfl, rfl, ?_⟩⟩
    rw [hcards, Dict.get?_modify, if_pos rfl, hc]
    rfl

theorem tables_tell_iff {a : ValidationCall} {e : CardEvent}
    (hcards : ∀ id c, m.store.cards.get? id = some c → c.id = id)
    (h : (a.runOn (runtime engine)).run w m = (.ok e, m'))
    (hkey : recorded m.store a.key = none) : a.TellsTables m.store m'.store e ↔ a.Keeps := by
  have hrun : (inside (validateCard engine a.cardId a.validatorId a.accepted a.reason a.outputPipe
      a.payload a.key)).run w m = (.ok e, m') := by
    have hatomic : (Op.atomically (validateCard engine a.cardId a.validatorId a.accepted a.reason
      a.outputPipe a.payload a.key)).run w m = (.ok e, m') := h
    rw [Op.atomically_run] at hatomic
    split at hatomic
    · rename_i heq
      rw [heq]
      exact hatomic
    · cases hatomic
  rw [validateCard, run_idempotent, hkey] at hrun
  simp only at hrun
  obtain ⟨c, m0, h0, hrun⟩ := returns_bind hrun
  rw [run_getCard] at h0
  have hm0 : m0 = m := (Prod.mk.inj h0).2.symm
  have hc : m.store.cards.get? a.cardId = some c := by
    have hfound := (Prod.mk.inj h0).1
    split at hfound
    · cases hfound
      assumption
    · cases hfound
  have hid : c.id = a.cardId := hcards _ _ hc
  rw [hm0, Op.run_ident, Op.run_clock] at hrun
  obtain ⟨_, m1, h1, hrun⟩ := returns_bind hrun
  obtain ⟨hfree, hm1⟩ := insert_returns h1
  obtain ⟨route, m2, h2, hrun⟩ := returns_bind hrun
  have hc1 : m1.store.cards.get? c.id = some c := by
    rw [hm1, hid]
    exact hc
  obtain ⟨hresults, hevents, hmoved⟩ := validationRoute_returns engine hc1 h2
  rw [Op.run_bind_ok (run_newEvent _ _ _ _ _ _)] at hrun
  obtain ⟨_, m3, h3, hrun⟩ := returns_bind hrun
  obtain ⟨hnew, hm3⟩ := insert_returns h3
  obtain ⟨_, m4, h4, hrun⟩ := returns_bind hrun
  obtain ⟨keys, hm4⟩ := storeIdempotency_returns h4
  have he := Except.ok.inj (Prod.mk.inj hrun).1
  have hm' : m' = m4 := (Prod.mk.inj hrun).2.symm
  rw [he] at hnew hm3
  have hfinal : m'.store.cards = m2.store.cards ∧
      m'.store.cardEvents = m2.store.cardEvents.set e.id e ∧
      m'.store.validationResults = m2.store.validationResults := by
    rw [hm', hm4, hm3]
    exact ⟨rfl, rfl, rfl⟩
  obtain ⟨hcards', hevents', hresults'⟩ := hfinal
  have hroute : a.Routed (m.store.cards.get? a.cardId) (m'.store.cards.get? a.cardId) route := by
    rw [hcards']
    rcases hmoved with ⟨hpipe, rfl, hsame⟩ | ⟨pipe, destination, hpipe, rfl, hcard⟩
    · refine ⟨hpipe, ?_⟩
      rw [hsame, hm1]
      rfl
    · exact ⟨hpipe, _, hid ▸ hcard, rfl⟩
  have hpayload : e.payload = routedPayload
      (validationPayload a.accepted a.reason (w.uuid4 m.draws) a.payload) route := by
    rw [← he]
  have hevent : e.cardId = a.cardId ∧ e.eventType = "card_validated" ∧
      e.actorId = some a.validatorId := by
    rw [← he]
    exact ⟨hid, rfl, rfl⟩
  have hsays : a.Tells (m.store.cards.get? a.cardId) (m'.store.cards.get? a.cardId) e.payload ↔
      a.Keeps := by
    rw [hpayload]
    exact ValidationCall.tells_iff rfl rfl rfl rfl hroute
  constructor
  · intro h
    exact hsays.mp h.tells
  · intro h
    have htold := hsays.mpr h
    refine ⟨⟨?_, ?_⟩, hevent, htold, ?_⟩
    · have hnone : m2.store.cardEvents.get? e.id = none := by
        simpa [Dict.contains] using hnew
      have hbefore := hevents _ hnone
      rw [hm1] at hbefore
      exact hbefore
    · rw [hevents', Dict.get?_set_self]
    · refine ⟨⟨w.uuid4 m.draws, c.id, a.validatorId, a.accepted, a.reason, a.outputPipe,
        a.payload.getD [], w.clock m.ticks⟩, ?_, ?_, hid, htold.accepted⟩
      · simpa [Dict.contains] using hfree
      · rw [hresults', hresults, hm1]
        rfl

end Tables

/-- Both runtimes find a card in their table of cards. -/
theorem tables_looksUp (engine : Engine) : NodeExecutor.LooksUp (runtime engine) (·.cards) := by
  intro id w m
  change (Op.atomically (getCard id)).run w m = _
  rw [Op.atomically_run, run_getCard]
  cases m.store.cards.get? id <;> rfl

end PostgresCardRuntime

/-! ## Through the executor -/

namespace NodeExecutor

/-- The call that a validator node makes for a verdict. -/
def validationCall (request : ValidatorExecutionInput)
    (verdict : Bool × ValidatorExecutionInput) : ValidationCall where
  cardId := request.cardId
  validatorId := request.validatorId
  accepted := verdict.1
  reason := verdict.2.reason
  outputPipe := verdict.2.selectedExit
  payload := some verdict.2.payload
  key := request.idempotencyKey

section Handled
variable {w : World} {t : Instant} {n : NodeDefinition} {card : Option Card}
  {request request' : ValidatorExecutionInput} {key : String}

/-- The fields that the handlers add to the caller's dictionary. -/
def handlerKeys : List String :=
  ["validation_handler", "candidate_patch_panel_id", "errors", "node_count", "edge_count",
    "cycles", "participant_id", "role_assignment_count"]

theorem field_update {o extra : JsonObj} (h : ∀ e ∈ extra, key ≠ e.1) :
    JsonObj.get? (JsonObj.update [] (JsonObj.update o extra)) key =
      JsonObj.get? (JsonObj.update [] o) key := by
  induction extra generalizing o with
  | nil => rfl
  | cons e es ih =>
    have hhead : key ≠ e.1 := h e List.mem_cons_self
    have hset : JsonObj.get? (JsonObj.update [] (JsonObj.set o e.1 e.2)) key =
        JsonObj.get? (JsonObj.update [] o) key := JsonObj.get?_update_nil_set hhead e.2 o
    exact (ih fun x hx => h x (List.mem_cons_of_mem e hx)).trans hset

/-- The handlers add no field that the runtime writes. -/
theorem handled_field (h : handled w t n card request = .ok request') (hkey : key ∉ handlerKeys) :
    JsonObj.get? (JsonObj.update [] request'.payload) key =
      JsonObj.get? (JsonObj.update [] request.payload) key := by
  simp only [handlerKeys, List.mem_cons, List.not_mem_nil, or_false, not_or] at hkey
  have hwith : ∀ judge, handledWith judge n card request = .ok request' →
      (∀ v i c q, judge v i c = .ok q → JsonObj.get? (JsonObj.update [] q.payload) key =
        JsonObj.get? (JsonObj.update [] request.payload) key) →
      JsonObj.get? (JsonObj.update [] request'.payload) key =
        JsonObj.get? (JsonObj.update [] request.payload) key := by
    intro judge hj hkeep
    unfold handledWith at hj
    cases card with
    | none => cases hj
    | some card =>
      cases hv : configuredExit n "valid_exit" <;> cases hi : configuredExit n "invalid_exit" <;>
        rw [hv, hi] at hj <;> try cases hj
      exact hkeep _ _ _ _ hj
  unfold handled at h
  split at h
  · cases h
    rfl
  split at h
  · apply hwith _ h
    intro v i c q hq
    simp only [topologyVerdict] at hq
    split at hq
    · cases hq
      exact field_update (by simp [hkey])
    · split at hq <;> cases hq
      exact field_update (by simp [hkey])
  split at h
  · apply hwith _ h
    intro v i c q hq
    cases hq
    unfold onboardingVerdict
    split
    · exact field_update (by simp [hkey])
    · exact field_update (by simp [hkey])
  · cases h
    rfl

theorem verdict_field {p : PatchPanel} {found : Bool × ValidatorExecutionInput}
    (h : verdict w t p card request = .ok found) (hkey : key ∉ handlerKeys) :
    (validationCall request found).field key =
      JsonObj.get? (JsonObj.update [] request.payload) key := by
  simp only [verdict, bind, Except.bind, pure, Except.pure] at h
  split at h
  · cases h
  · split at h
    · cases h
    · rename_i request' hhandled
      split at h
      · cases h
      · split at h
        · cases h
        · cases h
          exact handled_field hhandled hkey

end Handled

end NodeExecutor

/-! ## Every path -/

/-- On either runtime, directly or through a validator node, a validation that returns
and is no replay leaves an event that tells what happened exactly when the caller's
dictionary keeps to the call; through a node the fields in question are those of the
request. -/
theorem validation_tells_iff (w : World) (engine : Engine) :
    (∀ calls a e m', (ValidationCall.runOn a InMemoryCardRuntime.runtime).run w (runCalls w calls) =
        (.ok e, m') → (runCalls w calls).store.cached a.key = none →
      (a.TellsMemory (runCalls w calls).store m'.store e ↔ a.Keeps)) ∧
    (∀ (m : Machine Tables) a e m', (∀ id c, m.store.cards.get? id = some c → c.id = id) →
      (ValidationCall.runOn a (PostgresCardRuntime.runtime engine)).run w m = (.ok e, m') →
      PostgresCardRuntime.recorded m.store a.key = none →
      (a.TellsTables m.store m'.store e ↔ a.Keeps)) ∧
    (∀ calls p request e m',
      ((NodeExecutor.bare InMemoryCardRuntime.runtime p).executeValidator request).run w
        (runCalls w calls) = (.ok e, m') →
      (runCalls w calls).store.cached request.idempotencyKey = none → ∃ found,
        NodeExecutor.verdict w (w.clock (runCalls w calls).ticks) p
          ((runCalls w calls).store.cards.get? request.cardId) request = .ok found ∧
        ((NodeExecutor.validationCall request found).TellsMemory (runCalls w calls).store m'.store e ↔
          (NodeExecutor.validationCall request found).Keeps) ∧
        ∀ key ∈ routingKeys, (NodeExecutor.validationCall request found).field key =
          JsonObj.get? (JsonObj.update [] request.payload) key) ∧
    (∀ (m : Machine Tables) p request e m', (∀ id c, m.store.cards.get? id = some c → c.id = id) →
      ((NodeExecutor.bare (PostgresCardRuntime.runtime engine) p).executeValidator request).run w m =
        (.ok e, m') →
      PostgresCardRuntime.recorded m.store request.idempotencyKey = none → ∃ found,
        NodeExecutor.verdict w (w.clock m.ticks) p (m.store.cards.get? request.cardId) request =
          .ok found ∧
        ((NodeExecutor.validationCall request found).TellsTables m.store m'.store e ↔
          (NodeExecutor.validationCall request found).Keeps) ∧
        ∀ key ∈ routingKeys, (NodeExecutor.validationCall request found).field key =
          JsonObj.get? (JsonObj.update [] request.payload) key) := by
  have hfields : ∀ {t p card request found},
      NodeExecutor.verdict w t p card request = .ok found → ∀ key ∈ routingKeys,
        (NodeExecutor.validationCall request found).field key =
          JsonObj.get? (JsonObj.update [] request.payload) key := by
    intro t p card request found hverdict key hkey
    have hapart : ∀ key ∈ routingKeys, key ∉ NodeExecutor.handlerKeys := by decide
    exact NodeExecutor.verdict_field hverdict (hapart key hkey)
  refine ⟨?_, ?_, ?_, ?_⟩
  · intro calls a e m' h hkey
    exact memory_tells_iff (runCalls_wellKeyed w calls) h hkey
  · intro m a e m' hcards h hkey
    exact PostgresCardRuntime.tables_tell_iff engine hcards h hkey
  · intro calls p request e m' h hkey
    obtain ⟨accepted, request', s, hverdict, hsame, hcall⟩ :=
      NodeExecutor.executeValidator_returns NodeExecutor.memory_looksUp h
    refine ⟨(accepted, request'), hverdict, ?_, hfields hverdict⟩
    have hkeyed := runCalls_wellKeyed w calls
    rw [← hsame.store] at hkeyed hkey ⊢
    exact memory_tells_iff (a := NodeExecutor.validationCall request (accepted, request')) hkeyed
      hcall hkey
  · intro m p request e m' hcards h hkey
    obtain ⟨accepted, request', s, hverdict, hsame, hcall⟩ :=
      NodeExecutor.executeValidator_returns (PostgresCardRuntime.tables_looksUp engine) h
    refine ⟨(accepted, request'), hverdict, ?_, hfields hverdict⟩
    rw [← hsame.store] at hcards hkey ⊢
    exact PostgresCardRuntime.tables_tell_iff engine
      (a := NodeExecutor.validationCall request (accepted, request')) hcards hcall hkey

/-- A card of an accepted panel, in memory and in the tables. -/
def reviewCalls : List RuntimeCall :=
  [.registerPatchPanel (PatchPanelValidator.reviewPanel "orders" "1"),
    .createCard "orders" [] none none]

def reviewCard : Machine InMemoryCardRuntime := runCalls .simple reviewCalls

def reviewTables : Machine Tables where
  store := { Tables.init with
    patchPanels := Dict.empty.set ("orders", "1") ⟨PatchPanelValidator.reviewPanel "orders" "1", 0⟩
    cards := Dict.empty.set ⟨0⟩ ⟨⟨0⟩, "orders:1", "inbox", [], [], 0⟩ }
  ticks := 1
  draws := 1

/-- A rejection whose dictionary says that it is an acceptance. -/
def contradictedVerdict : ValidationCall :=
  ⟨⟨0⟩, "check", false, some "late", none, some [("accepted", .bool true)], none⟩

theorem contradicted_verdict : ∃ e m',
    (contradictedVerdict.runOn InMemoryCardRuntime.runtime).run .simple reviewCard = (.ok e, m') ∧
      reviewCard.store.cached contradictedVerdict.key = none ∧
      ¬ contradictedVerdict.TellsMemory reviewCard.store m'.store e := by
  refine ⟨⟨⟨2⟩, ⟨0⟩, "card_validated", some "check",
    [("accepted", .bool true), ("reason", .str "late")], 2⟩, _, rfl, rfl, ?_⟩
  intro h
  have haccepted := h.tells.accepted
  simp [contradictedVerdict, JsonObj.get?, Dict.lookupIn] at haccepted

/-- A verdict with a dictionary of its own, as a call and as a request to the node. -/
def scoredVerdict : ValidationCall :=
  ⟨⟨0⟩, "check", true, none, some "check_ok", some [("score", .int 1)], none⟩

def scoredRequest : ValidatorExecutionInput :=
  ⟨⟨0⟩, "check", some "check_ok", none, none, [("score", .int 1)], none⟩

theorem validation_tells_iff_scored :
    (∃ e m', (scoredVerdict.runOn InMemoryCardRuntime.runtime).run .simple reviewCard = (.ok e, m') ∧
      (scoredVerdict.TellsMemory reviewCard.store m'.store e ↔ scoredVerdict.Keeps)) ∧
    (∃ e m', (scoredVerdict.runOn (PostgresCardRuntime.runtime .simple)).run .simple reviewTables =
        (.ok e, m') ∧
      (scoredVerdict.TellsTables reviewTables.store m'.store e ↔ scoredVerdict.Keeps)) ∧
    (∃ e m', ((NodeExecutor.bare InMemoryCardRuntime.runtime
        (PatchPanelValidator.reviewPanel "orders" "1")).executeValidator scoredRequest).run .simple
          reviewCard = (.ok e, m') ∧
      ∃ found, (NodeExecutor.validationCall scoredRequest found).TellsMemory reviewCard.store
        m'.store e ↔ (NodeExecutor.validationCall scoredRequest found).Keeps) ∧
    (∃ e m', ((NodeExecutor.bare (PostgresCardRuntime.runtime .simple)
        (PatchPanelValidator.reviewPanel "orders" "1")).executeValidator scoredRequest).run .simple
          reviewTables = (.ok e, m') ∧
      ∃ found, (NodeExecutor.validationCall scoredRequest found).TellsTables reviewTables.store
        m'.store e ↔ (NodeExecutor.validationCall scoredRequest found).Keeps) := by
  have hcards : ∀ id c, reviewTables.store.cards.get? id = some c → c.id = id :=
    Dict.forall_values_set (fun _ _ h => by simp at h) rfl
  obtain ⟨hmemory, htables, hnode, hnodeTables⟩ := validation_tells_iff .simple .simple
  refine ⟨⟨_, _, rfl, hmemory reviewCalls scoredVerdict _ _ rfl rfl⟩,
    ⟨_, _, rfl, htables reviewTables scoredVerdict _ _ hcards rfl rfl⟩, ⟨_, _, rfl, ?_⟩,
    ⟨_, _, rfl, ?_⟩⟩
  · obtain ⟨found, -, htells, -⟩ := hnode reviewCalls
      (PatchPanelValidator.reviewPanel "orders" "1") scoredRequest _ _ rfl rfl
    exact ⟨found, htells⟩
  · obtain ⟨found, -, htells, -⟩ := hnodeTables reviewTables
      (PatchPanelValidator.reviewPanel "orders" "1") scoredRequest _ _ hcards rfl rfl
    exact ⟨found, htells⟩

end GhostMesh
