import GhostMesh.Nodes.Egress
import GhostMesh.Nodes.ShadowLinks
import GhostMesh.Nodes.SinkStores

/-!
# Asking for a shadow again

The key of `create_shadow_card` reaches only the creation of the card inside it. The
limit is checked before and the link is made after, so a repetition is refused or makes
another link.
-/

set_option autoImplicit false

namespace GhostMesh

open InMemoryCardRuntime Op

/-- A call after the first that answers as the first did, and adds neither a link nor an
event. -/
structure ShadowRepeats {σ : Type} (runtime : RuntimeBackend σ) (store : Component σ ShadowStore)
    (first : ShadowRun) (s s' : σ) (r : Except PyErr ShadowRun) : Prop where
  answer : ∃ again, r = .ok again ∧ again.shadowCard = first.shadowCard ∧
    again.shadowMetadata = first.shadowMetadata
  links : (store.get s').links = (store.get s).links
  events : ∀ cardId, (runtime.history s' cardId).filter (fun e => e.eventType = "shadow_created") =
    (runtime.history s cardId).filter fun e => e.eventType = "shadow_created"

/-! ## On any runtime -/

section Draws
variable {σ : Type} {w : World} {m m' : Machine σ}

/-- The supply of identifiers is not turned back. -/
def DrawsOn (m m' : Machine σ) : Prop := m.draws ≤ m'.draws

theorem DrawsOn.trans {m'' : Machine σ} (h : DrawsOn m m') (h' : DrawsOn m' m'') :
    DrawsOn m m'' := Nat.le_trans h h'

theorem DrawsOn.of_run {α : Type} {x : Op σ α} {r : Except PyErr α}
    (hx : Exec.Within DrawsOn w x) (h : x.run w m = (r, m')) : DrawsOn m m' := by
  have hm := hx m
  rwa [h] at hm

theorem createRuntime_createCard_draws (runtime : RuntimeBackend σ) (panelId : String)
    (payload : JsonObj) (metadata : Option JsonObj) (key : Option String) :
    Exec.Within DrawsOn w ((createRuntime runtime).createCard panelId payload metadata key) := by
  intro m
  cases runtime with
  | memory store =>
    have heffect := RuntimeCall.step_effect w ⟨store.get m.store, m.ticks, m.draws⟩
      (.createCard panelId payload metadata key)
    exact heffect.later.draws
  | postgres engine store =>
    exact (Op.atomically_later (PostgresCardRuntime.createCard engine panelId payload metadata key)
      w ⟨store.get m.store, m.ticks, m.draws⟩).2

theorem createRuntime_recordEvent_draws (runtime : RuntimeBackend σ) (cardId : Uuid) (type : String)
    (actor : Option String) (payload : Option JsonObj) (key : Option String) :
    Exec.Within DrawsOn w ((createRuntime runtime).recordEvent cardId type actor payload key) := by
  intro m
  cases runtime with
  | memory store =>
    have heffect := RuntimeCall.step_effect w ⟨store.get m.store, m.ticks, m.draws⟩
      (.recordEvent cardId type actor payload key)
    exact heffect.later.draws
  | postgres engine store =>
    exact (Op.atomically_later
      (PostgresCardRuntime.recordEvent engine cardId type actor payload key)
      w ⟨store.get m.store, m.ticks, m.draws⟩).2

/-- The link that a call answers with has an identifier drawn during the call. -/
theorem createShadowCard_draws {runtime : RuntimeBackend σ} {store : Component σ ShadowStore}
    {card : Card} {candidateId : String} {policy : ShadowPolicy} {key : Option String}
    {made : ShadowRun}
    (h : ((ShadowService.mk (createRuntime runtime) store).createShadowCard card candidateId policy
      key).run w m = (.ok made, m')) :
    ∃ i, m.draws ≤ i ∧ i < m'.draws ∧
      JsonObj.get? made.shadowMetadata "shadow_link_id" = some (.str (w.uuid4 i).str) := by
  unfold ShadowService.createShadowCard at h
  rcases Exec.ensure_bind h with ⟨-, -, herror⟩ | ⟨-, h⟩
  · cases herror
  have hget : (Op.on store Op.get).run w m = (.ok (store.get m.store), m) :=
    Op.on_read (c := store) rfl
  rw [Exec.run_bind_ok hget] at h
  rcases Exec.ensure_bind h with ⟨-, -, herror⟩ | ⟨-, h⟩
  · cases herror
  obtain ⟨shadow, m₁, hcreate, h⟩ := Exec.bind_ok h
  have hcreated : DrawsOn m m₁ := .of_run (createRuntime_createCard_draws runtime _ _ _ _) hcreate
  rw [Exec.run_bind_ok (Op.run_uuid4 _ _), Exec.run_bind_ok (Op.run_now _ _)] at h
  have hput : ∀ l m, ((ShadowService.mk (createRuntime runtime) store).putLink l).run w m =
      (.ok (), ⟨store.put ((store.get m.store).putLink l.id l) m.store, m.ticks, m.draws⟩) :=
    fun _ _ => rfl
  rw [Exec.run_bind_ok (hput _ _)] at h
  obtain ⟨event, m₂, hrecord, h⟩ := Exec.bind_ok h
  have hrecorded : m₁.draws + 1 ≤ m₂.draws :=
    DrawsOn.of_run (createRuntime_recordEvent_draws runtime _ _ _ _ _) hrecord
  cases h
  exact ⟨m₁.draws, hcreated, hrecorded, rfl⟩

/-- On either backend, in whatever state: no later call repeats the first. Identifiers are
not handed out twice, so what it answers with is another link. -/
theorem createShadowCard_never_repeats (w : World) (runtime : RuntimeBackend σ)
    (store : Component σ ShadowStore) (card : Card) (candidateId : String) (policy : ShadowPolicy)
    (key : Option String) (m later : Machine σ) (first : ShadowRun) :
    let call := (ShadowService.mk (createRuntime runtime) store).createShadowCard card candidateId
      policy key
    (call.run w m).1 = .ok first → (call.run w m).2.draws ≤ later.draws →
      ¬ ShadowRepeats runtime store first later.store (call.run w later).2.store
        (call.run w later).1 := by
  intro call hfirst hlater hrepeats
  obtain ⟨again, hagain, -, hsame⟩ := hrepeats.answer
  obtain ⟨i, -, hi, hlink⟩ := createShadowCard_draws (Prod.ext hfirst rfl)
  obtain ⟨j, hj, -, hlink'⟩ := createShadowCard_draws (Prod.ext hagain rfl)
  rw [hsame, hlink] at hlink'
  have hstr : (w.uuid4 i).str = (w.uuid4 j).str := Json.str.inj (Option.some.inj hlink')
  have heq : i = j := w.uuid4_injective (Uuid.str_injective hstr)
  have hlt : i < later.draws := Nat.lt_of_lt_of_le hi hlater
  omega

end Draws

/-- A registered panel and a card of it. -/
def retriedCalls : List ServiceCall :=
  [.mesh (.runtime (.registerPatchPanel (PatchPanelValidator.linePanel "orders" "1"))),
    .mesh (.runtime (.createCard "orders" [] none none))]

def retriedMachine : Machine App := runServices .simple (App.init.newServices 0 0) retriedCalls

def retriedCard : Card := ⟨⟨0⟩, "orders:1", "inbox", [], [], 0⟩

/-- The shadow of the card, one at a time, under the key "k". -/
def retriedShadow : Op App ShadowRun :=
  App.shadowService.createShadowCard retriedCard "candidate" ⟨.finite 1 0, 1⟩ (some "k")

theorem createShadowCard_never_repeats_second :
    ∃ first, (retriedShadow.run .simple retriedMachine).1 = .ok first ∧
      ¬ ShadowRepeats (.memory App.runtimeStore) App.shadowStore first
        (retriedShadow.run .simple retriedMachine).2.store
        (retriedShadow.run .simple (retriedShadow.run .simple retriedMachine).2).2.store
        (retriedShadow.run .simple (retriedShadow.run .simple retriedMachine).2).1 :=
  ⟨_, rfl, createShadowCard_never_repeats .simple (.memory App.runtimeStore) App.shadowStore
    retriedCard "candidate" ⟨.finite 1 0, 1⟩ (some "k") retriedMachine
    (retriedShadow.run .simple retriedMachine).2 _ rfl (Nat.le_refl _)⟩

/-- The retry is refused: the shadow that it asks for again counts against the limit. -/
theorem second_shadow_refused :
    ∃ first, (retriedShadow.run .simple retriedMachine).1 = .ok first ∧
      ∃ message, (retriedShadow.run .simple (retriedShadow.run .simple retriedMachine).2).1 =
        .error (.conflict message) := ⟨_, rfl, _, rfl⟩

/-! ## What a repetition does -/

section Again
variable {w : World} {a : Machine App} {card : Card} {candidateId : String} {policy : ShadowPolicy}

/-- An event is only recorded for a card that is stored. -/
theorem App.recordEvent_stored {cardId : Uuid} {type : String} {actor : Option String}
    {payload : JsonObj} {e : CardEvent} {a' : Machine App}
    (h : (App.cardRuntime.recordEvent cardId type actor (some payload) none).run w a =
      (.ok e, a')) :
    ∃ c, a.store.runtime.cards.get? cardId = some c ∧
      a' = App.withEvent a none (App.nextEvent w a cardId type actor payload) := by
  cases hcard : a.store.runtime.cards.get? cardId with
  | none =>
    obtain ⟨b, hb, rfl⟩ := App.runtime_cases (x := InMemoryCardRuntime.recordEvent cardId type actor
      (some payload) none) h
    have hget : (App.runtimeMachine a).store.cards.get? cardId = none := hcard
    rw [InMemoryCardRuntime.recordEvent, run_idempotent] at hb
    simp only [cached, truthyStr, Option.bind_none, Exec.run_bind, run_getCard, hget] at hb
    cases hb
  | some c =>
    rw [App.recordEvent_run type actor payload none hcard] at h
    cases h
    exact ⟨c, rfl, rfl⟩

/-- What a creation under a key answers, the key answers from then on. -/
theorem createCard_answers {panelId : String} {payload : JsonObj} {metadata : Option JsonObj}
    {k : String} (hk : k ≠ "") {m m' : Machine InMemoryCardRuntime} {c : Card}
    (h : (createCard panelId payload metadata (some k)).run w m = (.ok c, m')) :
    m'.store.cached (some k) = some (.card c) := by
  rcases idempotent_cases h with ⟨rfl, v, hv, hanswer⟩ | ⟨hnone, -⟩
  · rw [hv]
    have hcard : v.card? = some c := hanswer c rfl
    cases v with
    | card c' => exact congrArg (fun o => o.map Stored.card) hcard
    | lease l => cases hcard
    | artifacts refs => cases hcard
    | event e => cases hcard
  · rcases createCard_outcome hnone h with ⟨-, e, he⟩ | ⟨c', e, hc, hcreates⟩
    · cases he
    · cases hc
      rw [hcreates.store]
      exact cached_putKey_self (truthyStr_some hk) rfl

/-- The answer of a call that made the link `linkId`. -/
def shadowRun (card shadow : Card) (candidateId : String) (linkId : Uuid) : ShadowRun where
  productionCard := card
  shadowCard := shadow
  shadowMetadata := [("production_card_id", .str card.id.str),
    ("shadow_card_id", .str shadow.id.str), ("shadow_link_id", .str linkId.str),
    ("candidate_id", .str candidateId)]

/-- What the event of the call says. -/
def shadowPayload (shadow : Card) (candidateId : String) (linkId : Uuid) : JsonObj :=
  [("shadow_card_id", .str shadow.id.str), ("shadow_link_id", .str linkId.str),
    ("candidate_id", .str candidateId)]

/-- The machine with the link, before the event. -/
def App.linked (w : World) (a : Machine App) (card shadow : Card) (candidateId : String)
    (b : Machine InMemoryCardRuntime) : Machine App :=
  ⟨{ a.store with
      runtime := b.store
      shadow := a.store.shadow.putLink (w.uuid4 b.draws) (newLink w b card shadow candidateId) },
    b.ticks + 1, b.draws + 1⟩

theorem createShadowCard_refused (hsampled : policy.sampleRate.leZero = false) (key : Option String)
    (hfull : policy.maxParallel ≤ (ShadowService.activeLinks a.store.shadow card.id).length) :
    (App.shadowService.createShadowCard card candidateId policy key).run w a =
      (.error (.conflict
        s!"production card '{card.id.str}' already has maximum parallel shadows"), a) := by
  have hget : (Op.on App.shadowService.store Op.get).run w a = (.ok a.store.shadow, a) := rfl
  have hnot : ¬ ((ShadowService.activeLinks a.store.shadow card.id).length : Int) <
      policy.maxParallel := not_lt.mpr hfull
  unfold ShadowService.createShadowCard
  rw [hsampled, Exec.run_bind_ok (Op.run_ensure _ _ _ _), Exec.run_bind_ok hget,
    decide_eq_false hnot]
  rfl

/-- Once `create_card` has answered, the rest is the event. -/
theorem createShadowCard_created {key : Option String} {shadow : Card}
    {b : Machine InMemoryCardRuntime}
    (hwanted : policy.refuses a.store.shadow card.id = false)
    (hcreated : shadowCard w a card candidateId key = (.ok shadow, b)) :
    (App.shadowService.createShadowCard card candidateId policy key).run w a =
      (App.cardRuntime.recordEvent card.id "shadow_created" (some candidateId)
        (some (shadowPayload shadow candidateId (w.uuid4 b.draws))) none >>= fun _ =>
          pure (shadowRun card shadow candidateId (w.uuid4 b.draws))).run w
        (App.linked w a card shadow candidateId b) := by
  obtain ⟨hsampled, hroom⟩ := Bool.or_eq_false_iff.mp hwanted
  have hlt : ((ShadowService.activeLinks a.store.shadow card.id).length : Int) <
      policy.maxParallel := not_le.mp (of_decide_eq_false hroom)
  have hget : (Op.on App.shadowService.store Op.get).run w a = (.ok a.store.shadow, a) := rfl
  have hcreate : (App.shadowService.runtime.createCard (beforeFirstColon card.workflowVersion)
      card.payload (some (shadowMetadata card candidateId)) key).run w a =
        (.ok shadow, App.withRuntime a b) := Op.on_run (c := App.runtimeStore) hcreated
  unfold ShadowService.createShadowCard
  rw [hsampled, Exec.run_bind_ok (Op.run_ensure _ _ _ _), Exec.run_bind_ok hget,
    decide_eq_true hlt, Exec.run_bind_ok (Op.run_ensure _ _ _ _)]
  change (App.shadowService.runtime.createCard (beforeFirstColon card.workflowVersion)
    card.payload (some (shadowMetadata card candidateId)) key >>= _).run w a = _
  rw [Exec.run_bind_ok hcreate]
  rfl

/-- A call that returns has made its link and recorded its event. -/
theorem createShadowCard_linked {key : Option String} {a' : Machine App} {made : ShadowRun}
    (h : (App.shadowService.createShadowCard card candidateId policy key).run w a =
      (.ok made, a')) :
    policy.refuses a.store.shadow card.id = false ∧ ∃ shadow b c,
      shadowCard w a card candidateId key = (.ok shadow, b) ∧
      b.store.cards.get? card.id = some c ∧
      made = shadowRun card shadow candidateId (w.uuid4 b.draws) ∧
      a' = App.withEvent (App.linked w a card shadow candidateId b) none
        (App.nextEvent w (App.linked w a card shadow candidateId b) card.id "shadow_created"
          (some candidateId) (shadowPayload shadow candidateId (w.uuid4 b.draws))) := by
  rcases createShadowCard_cases h with ⟨-, ⟨e, he⟩, -⟩ | ⟨shadow, b, hcreates⟩
  · cases he
  refine ⟨hcreates.wanted, shadow, b, ?_⟩
  rw [createShadowCard_created hcreates.wanted hcreates.created] at h
  obtain ⟨event, a₁, hrecord, hret⟩ := Exec.bind_ok h
  obtain ⟨c, hc, rfl⟩ := App.recordEvent_stored hrecord
  cases hret
  exact ⟨c, hcreates.created, hc, rfl, rfl⟩

theorem runServices_effects (calls : List ServiceCall) (a : Machine App) :
    Relation.ReflTransGen (Effect w) (App.runtimeMachine a)
      (App.runtimeMachine (runServices w a calls)) := by
  unfold runServices
  induction calls generalizing a with
  | nil => exact .refl
  | cons call calls ih => exact (call.step_effects (w := w) (a := a)).trans (ih (call.step w a))

/-- What the runtime keeps of a call that returned. -/
structure ShadowMade (w : World) (a : Machine App) (card : Card) (k : String) (shadow : Card) :
    Prop where
  sound : CardsSound w (App.runtimeMachine a)
  answers : a.store.runtime.cached (some k) = some (.card shadow)
  stored : ∃ c, a.store.runtime.cards.get? card.id = some c

theorem ShadowMade.of_run {k : String} (hk : k ≠ "") {a' : Machine App} {made : ShadowRun}
    (hsound : CardsSound w (App.runtimeMachine a))
    (h : (App.shadowService.createShadowCard card candidateId policy (some k)).run w a =
      (.ok made, a')) :
    ShadowMade w a' card k made.shadowCard ∧ made.productionCard = card ∧
      policy.sampleRate.leZero = false := by
  have hstep : ServiceCall.step w a (.shadow (.create card candidateId policy (some k))) = a' :=
    congrArg Prod.snd h
  have heffects := ServiceCall.step_effects (w := w) (a := a)
    (.shadow (.create card candidateId policy (some k)))
  rw [hstep] at heffects
  obtain ⟨hwanted, shadow, b, c, hcreated, hstored, rfl, rfl⟩ := createShadowCard_linked h
  refine ⟨⟨(effects_cardsKept hsound heffects).2, ?_, ?_⟩, rfl, (Bool.or_eq_false_iff.mp hwanted).1⟩
  · exact createCard_answers hk hcreated
  · exact ⟨c, hstored⟩

theorem ShadowMade.later {k : String} {shadow : Card} (h : ShadowMade w a card k shadow)
    (calls : List ServiceCall) : ShadowMade w (runServices w a calls) card k shadow := by
  obtain ⟨hkept, hsound⟩ := runServices_cardsKept calls h.sound
  obtain ⟨c, hc⟩ := h.stored
  obtain ⟨bucket, hbucket⟩ := hkept _ _ hc
  exact ⟨hsound, effects_keep_cached (runServices_effects calls a) h.answers, _, hbucket⟩

/-- The two outcomes of a call after the first: the limit refuses it, or it answers with
the same card, another link and another event. -/
structure AnotherShadow (w : World) (a : Machine App) (card shadow : Card) (policy : ShadowPolicy)
    (candidateId : String) (r : Except PyErr ShadowRun) (a' : Machine App) : Prop where
  full : policy.maxParallel ≤ (ShadowService.activeLinks a.store.shadow card.id).length →
    (∃ message, r = .error (.conflict message)) ∧ a' = a
  room : (ShadowService.activeLinks a.store.shadow card.id).length < policy.maxParallel →
    r = .ok (shadowRun card shadow candidateId (w.uuid4 a.draws)) ∧
      a'.store.shadow = a.store.shadow.putLink (w.uuid4 a.draws)
        (newLink w (App.runtimeMachine a) card shadow candidateId) ∧
      ∃ e, e.eventType = "shadow_created" ∧
        a'.store.runtime.history card.id = a.store.runtime.history card.id ++ [e]

theorem ShadowMade.again {k : String} {shadow : Card} (h : ShadowMade w a card k shadow)
    (candidateId : String) (hsampled : policy.sampleRate.leZero = false) :
    AnotherShadow w a card shadow policy candidateId
      ((App.shadowService.createShadowCard card candidateId policy (some k)).run w a).1
      ((App.shadowService.createShadowCard card candidateId policy (some k)).run w a).2 where
  full hfull := by
    rw [createShadowCard_refused hsampled (some k) hfull]
    exact ⟨⟨_, rfl⟩, rfl⟩
  room hroom := by
    have hwanted : policy.refuses a.store.shadow card.id = false := by
      rw [ShadowPolicy.refuses, hsampled, decide_eq_false (not_le.mpr hroom)]
      rfl
    have hcreated : shadowCard w a card candidateId (some k) =
        (.ok shadow, App.runtimeMachine a) := by
      have hanswers : (App.runtimeMachine a).store.cached (some k) = some (.card shadow) :=
        h.answers
      unfold shadowCard
      rw [InMemoryCardRuntime.createCard, run_idempotent, hanswers]
      rfl
    obtain ⟨c, hc⟩ := h.stored
    have hstored : (App.linked w a card shadow candidateId
        (App.runtimeMachine a)).store.runtime.cards.get? card.id = some c := hc
    rw [createShadowCard_created hwanted hcreated, Exec.run_bind,
      App.recordEvent_run "shadow_created" (some candidateId) _ none hstored]
    refine ⟨rfl, rfl, App.nextEvent w
      (App.linked w a card shadow candidateId (App.runtimeMachine a)) card.id "shadow_created"
      (some candidateId)
      (shadowPayload shadow candidateId (w.uuid4 a.draws)), rfl, ?_⟩
    exact (InMemoryCardRuntime.putEvent_history _ _ _).trans (if_pos rfl)

/-- In every run: from a call under a key that returned on, each call with the same
arguments and key is refused by the limit or makes another link. -/
theorem createShadowCard_again (w : World) (a : App) (ticks draws : Nat)
    (before later : List ServiceCall) (card : Card) (candidateId : String) (policy : ShadowPolicy)
    {k : String} (hk : k ≠ "") {first : ShadowRun} {m₁ : Machine App}
    (hfirst : (App.shadowService.createShadowCard card candidateId policy (some k)).run w
      (runServices w (a.newServices ticks draws) before) = (.ok first, m₁)) :
    AnotherShadow w (runServices w m₁ later) card first.shadowCard policy candidateId
      ((App.shadowService.createShadowCard card candidateId policy (some k)).run w
        (runServices w m₁ later)).1
      ((App.shadowService.createShadowCard card candidateId policy (some k)).run w
        (runServices w m₁ later)).2 := by
  obtain ⟨-, hsound⟩ := runServices_cardsKept before
    (boot_sound (w := w) { a with shadow := ShadowStore.init } ticks draws)
  obtain ⟨hmade, -, hsampled⟩ := ShadowMade.of_run hk hsound hfirst
  exact (hmade.later later).again candidateId hsampled

end Again

end GhostMesh
