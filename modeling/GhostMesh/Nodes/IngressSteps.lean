import GhostMesh.Nodes.Ingress

/-!
# The steps of an ingress

A boundary source creates a card or finds one, and records events. A card stays behind the
key of the request that it was created for, so two requests return one card exactly if they
have one key.
-/

set_option autoImplicit false

namespace GhostMesh

open InMemoryCardRuntime Op
open Relation (ReflTransGen)
open Exec (bind_cases bind_ok)

/-- All that a boundary source does to the runtime. -/
inductive IngressStep (w : World) (m m' : Machine InMemoryCardRuntime) : Prop where
  | creates {panel payload metadata key c e} (h : Creates w m m' panel payload metadata key c e)
  | records {card type actor payload key e} (h : Records m m' card type actor payload key e)

/-! ## Cards under keys -/

namespace InMemoryCardRuntime

/-- A card that answers a key is stored, and answers no other key. -/
structure CardKeys (s : InMemoryCardRuntime) : Prop where
  stored : ∀ k c, s.cached (some k) = some (.card c) → (s.cards.get? c.id).isSome = true
  unique : ∀ k k' c c', s.cached (some k) = some (.card c) → s.cached (some k') = some (.card c') →
    c.id = c'.id → k = k'

/-- The card is stored, answers this key if there is one, and no other. -/
structure Holds (s : InMemoryCardRuntime) (key : Option String) (c : Card) : Prop where
  stored : (s.cards.get? c.id).isSome = true
  answers : ∀ k, key = some k → s.cached (some k) = some (.card c)
  only : ∀ k c', s.cached (some k) = some (.card c') → c'.id = c.id → key = some k

end InMemoryCardRuntime

namespace IngressStep

section Steps
variable {w : World} {m m' : Machine InMemoryCardRuntime} {key : Option String} {c : Card}

theorem effect (h : IngressStep w m m') : Effect w m m' := by
  cases h with
  | creates h => exact .creates h
  | records h => exact .records h

theorem panels (h : IngressStep w m m') : m'.store.patchPanels = m.store.patchPanels := by
  have hkey : ∀ (s : InMemoryCardRuntime) key v, (s.putKey key v).patchPanels = s.patchPanels := by
    intro s key v
    unfold putKey
    cases truthyStr key <;> rfl
  cases h with
  | creates h =>
    rw [h.store]
    exact hkey _ _ _
  | records h =>
    rw [h.store]
    exact hkey _ _ _

/-- A card that answers after a creation is the new one, under its key, or answered before. -/
theorem cached_created {s : InMemoryCardRuntime} {key : Option String} {c c' : Card}
    {e : CardEvent} {k : String} (h : (s.created key c e).cached (some k) = some (.card c')) :
    (c' = c ∧ truthyStr key = some k) ∨ s.cached (some k) = some (.card c') := by
  cases hkey : truthyStr key with
  | none =>
    have hsame : s.created key c e = (s.putCard c).putEvent e := by
      unfold created putKey
      rw [hkey]
    rw [hsame] at h
    exact .inr h
  | some k' =>
    obtain ⟨hne, rfl⟩ : k' ≠ "" ∧ key = some k' := by
      cases key with
      | none => cases hkey
      | some k₀ =>
        simp only [truthyStr] at hkey
        split at hkey
        · cases hkey
        · rename_i hk₀
          cases hkey
          exact ⟨hk₀, rfl⟩
    unfold created at h
    rw [cached_putKey_some hne rfl] at h
    split at h
    · rename_i heq
      cases h
      exact .inl ⟨rfl, by rw [heq]⟩
    · exact .inr h

theorem cached_recorded {s : InMemoryCardRuntime} {key : Option String} {e : CardEvent}
    {k : String} {c : Card}
    (h : ((s.putEvent e).putKey key (.event e)).cached (some k) = some (.card c)) :
    s.cached (some k) = some (.card c) := by
  rcases cached_putKey_cases h with h | h
  · exact h
  · cases h

theorem cards_created {s : InMemoryCardRuntime} {key : Option String} {c : Card} {e : CardEvent}
    (id : Uuid) : (s.created key c e).cards.get? id = if id = c.id then some c else
      s.cards.get? id := by
  have hkey : ∀ (s : InMemoryCardRuntime) v, (s.putKey key v).cards = s.cards := by
    intro s v
    unfold putKey
    cases truthyStr key <;> rfl
  unfold created
  rw [hkey]
  exact Dict.get?_set _ _ _ _

theorem stored_created {s : InMemoryCardRuntime} {key : Option String} {c : Card} {e : CardEvent}
    {id : Uuid} (h : (s.cards.get? id).isSome = true) :
    ((s.created key c e).cards.get? id).isSome = true := by
  rw [cards_created]
  split
  · rfl
  · exact h

theorem cards_recorded {s : InMemoryCardRuntime} {key : Option String} {e : CardEvent} :
    ((s.putEvent e).putKey key (.event e)).cards = s.cards := by
  unfold putKey
  cases truthyStr key <;> rfl

/-- The created card is new. -/
theorem created_ne (hissued : Issued w m) {panel : String} {payload : JsonObj}
    {metadata : Option JsonObj} {c : Card} {e : CardEvent}
    (h : Creates w m m' panel payload metadata key c e) {id : Uuid}
    (hid : (m.store.cards.get? id).isSome = true) : id ≠ c.id := by
  intro heq
  rw [heq, h.fresh.1, hissued.unused] at hid
  cases hid

theorem cardKeys (hissued : Issued w m) (hm : CardKeys m.store) (h : IngressStep w m m') :
    CardKeys m'.store := by
  cases h with
  | records h =>
    rw [h.store]
    refine ⟨?_, ?_⟩
    · intro k c hc
      rw [cards_recorded]
      exact hm.stored k c (cached_recorded hc)
    · intro k k' c c' hc hc' hid
      exact hm.unique k k' c c' (cached_recorded hc) (cached_recorded hc') hid
  | @creates _ _ _ key c₀ e h =>
    rw [h.store]
    refine ⟨?_, ?_⟩
    · intro k c hc
      rcases cached_created hc with ⟨rfl, -⟩ | hold
      · rw [cards_created, if_pos rfl]
        rfl
      · exact stored_created (hm.stored k c hold)
    · intro k k' c c' hc hc' hid
      rcases cached_created hc with ⟨rfl, hk⟩ | hold
      · rcases cached_created hc' with ⟨rfl, hk'⟩ | hold'
        · exact Option.some.inj (hk.symm.trans hk')
        · exact absurd hid.symm (created_ne hissued h (hm.stored k' c' hold'))
      · rcases cached_created hc' with ⟨rfl, hk'⟩ | hold'
        · exact absurd hid (created_ne hissued h (hm.stored k c hold))
        · exact hm.unique k k' c c' hold hold' hid

theorem holds (hissued : Issued w m) (hm : Holds m.store key c) (h : IngressStep w m m') :
    Holds m'.store key c := by
  have heffect := h.effect
  refine ⟨?_, fun k hk => heffect.keeps_cached (hm.answers k hk), ?_⟩
  · cases h with
    | records h =>
      rw [h.store, cards_recorded]
      exact hm.stored
    | creates h =>
      rw [h.store]
      exact stored_created hm.stored
  · intro k c' hc hid
    cases h with
    | records h =>
      rw [h.store] at hc
      exact hm.only k c' (cached_recorded hc) hid
    | creates h =>
      rw [h.store] at hc
      rcases cached_created hc with ⟨rfl, -⟩ | hold
      · exact absurd hid.symm (created_ne hissued h hm.stored)
      · exact hm.only k c' hold hid

end Steps

end IngressStep

/-! ## The steps of an ingress -/

section Runs
variable {w : World} {m m' : Machine InMemoryCardRuntime}

/-- What holds of the cards of every run of source requests. -/
structure IngressSound (w : World) (m : Machine InMemoryCardRuntime) : Prop where
  cards : CardsSound w m
  keys : CardKeys m.store

theorem IngressSound.steps (hm : IngressSound w m) (h : ReflTransGen (IngressStep w) m m') :
    IngressSound w m' := by
  induction h with
  | refl => exact hm
  | tail _ hstep ih =>
    exact ⟨ih.cards.effect hstep.effect, hstep.cardKeys ih.cards.issued ih.keys⟩

/-- The run lemma: a card stays behind its key. -/
theorem InMemoryCardRuntime.Holds.steps {key : Option String} {c : Card} (hm : IngressSound w m)
    (hc : Holds m.store key c) (h : ReflTransGen (IngressStep w) m m') : Holds m'.store key c := by
  induction h with
  | refl => exact hc
  | tail hsteps hstep ih => exact hstep.holds (hm.steps hsteps).cards.issued ih

theorem steps_effects (h : ReflTransGen (IngressStep w) m m') : ReflTransGen (Effect w) m m' := by
  induction h with
  | refl => exact .refl
  | tail _ hstep ih => exact ih.tail hstep.effect

theorem panels_steps (h : ReflTransGen (IngressStep w) m m') :
    m'.store.patchPanels = m.store.patchPanels := by
  induction h with
  | refl => rfl
  | tail _ hstep ih => exact hstep.panels.trans ih

end Runs

/-- A creation answers with the card under its key, or with a new one. -/
theorem InMemoryCardRuntime.createCard_ok {w : World} {m m' : Machine InMemoryCardRuntime}
    {panel : String} {payload : JsonObj} {metadata : Option JsonObj} {key : Option String} {c : Card}
    (h : (createCard panel payload metadata key).run w m = (.ok c, m')) :
    (m.store.cached key = some (.card c) ∧ m' = m) ∨
      ∃ e, Creates w m m' panel payload metadata key c e := by
  cases hkey : m.store.cached key with
  | some v =>
    unfold createCard at h
    rw [run_idempotent, hkey] at h
    cases v with
    | card c' =>
      cases h
      exact .inl ⟨rfl, rfl⟩
    | _ => cases h
  | none =>
    have hreturns := (createCard_returns_iff _ _).mp (congrArg Prod.fst h)
    rcases createCard_cases h with rfl | ⟨c', e, hc, hcreates⟩
    · rcases hreturns with hcached | ⟨-, p, bucket, hp, hbucket, -⟩
      · exact .inl ⟨hkey ▸ hcached, rfl⟩
      · obtain ⟨e, -, -, hrun⟩ := createCard_run (w := w) payload metadata hkey hp hbucket
        have hticks := congrArg (fun r => r.2.ticks) (h.symm.trans hrun)
        simp at hticks
    · cases hc
      exact .inr ⟨e, hcreates⟩

/-- A record that returns found no answer of another kind under its key. -/
theorem InMemoryCardRuntime.recordEvent_answer {w : World} {m m' : Machine InMemoryCardRuntime}
    {cardId : Uuid} {type : String} {actor : Option String} {payload : Option JsonObj}
    {key : Option String} {e : CardEvent} {v : Stored}
    (h : (recordEvent cardId type actor payload key).run w m = (.ok e, m'))
    (hv : m.store.cached key = some v) : ∃ e, v = .event e := by
  unfold recordEvent at h
  rw [run_idempotent, hv] at h
  cases v with
  | event e => exact ⟨e, rfl⟩
  | _ => cases h

namespace Ingress

section Receive
variable {w : World} {a a' : Machine App} {request : BoundarySourceRequest} {x y : Ingress}

theorem createCard_steps {panel : String} {payload : JsonObj} {metadata : Option JsonObj}
    {key : Option String} {r : Except PyErr Card}
    (h : (App.cardRuntime.createCard panel payload metadata key).run w a = (r, a')) :
    ReflTransGen (IngressStep w) (App.runtimeMachine a) (App.runtimeMachine a') := by
  obtain ⟨s, hrun, rfl⟩ := App.runtime_cases h
  rcases createCard_cases hrun with rfl | ⟨c, e, -, hcreates⟩
  · exact .refl
  · exact .single (.creates hcreates)

theorem recordEvent_steps {cardId : Uuid} {type : String} {actor : Option String}
    {payload : Option JsonObj} {key : Option String} {r : Except PyErr CardEvent}
    (h : (App.cardRuntime.recordEvent cardId type actor payload key).run w a = (r, a')) :
    ReflTransGen (IngressStep w) (App.runtimeMachine a) (App.runtimeMachine a') := by
  obtain ⟨s, hrun, rfl⟩ := App.runtime_cases h
  rcases recordEvent_cases hrun with rfl | ⟨e, -, hrecords⟩
  · exact .refl
  · exact .single (.records hrecords)

/-- What a card's creation leaves is followed by records. -/
theorem receive_cases {r : Except PyErr SourceBoundaryResult}
    (h : (x.receive w request).run w a = (r, a')) :
    ∃ r' b, (App.cardRuntime.createCard x.panel.id (x.payload request) (some (x.metadata w))
        (x.sourceKey w)).run w a = (r', b) ∧
      ReflTransGen (IngressStep w) (App.runtimeMachine b) (App.runtimeMachine a') ∧
      ∀ result, r = .ok result → r' = .ok result.card := by
  unfold receive source at h
  rcases bind_cases h with ⟨e, hsource, rfl⟩ | ⟨card, b, hsource, hafter⟩
  · rcases bind_cases hsource with ⟨e', hcreate, -⟩ | ⟨card, c, hcreate, h⟩
    · refine ⟨_, _, hcreate, .refl, ?_⟩
      intro result hresult
      cases hresult
    · refine ⟨_, _, hcreate, ?_, ?_⟩
      · rcases bind_cases h with ⟨e', hrecord, -⟩ | ⟨event, d, hrecord, h⟩
        · exact recordEvent_steps hrecord
        · cases h
      · intro result hresult
        cases hresult
  · obtain ⟨card', c, hcreate, h⟩ := bind_ok hsource
    obtain ⟨event, d, hrecord, h⟩ := bind_ok h
    cases h
    have hsteps := recordEvent_steps hrecord
    rcases bind_cases hafter with ⟨e', hrecord', rfl⟩ | ⟨event', d', hrecord', h⟩
    · refine ⟨_, _, hcreate, hsteps.trans (recordEvent_steps hrecord'), ?_⟩
      intro result hresult
      cases hresult
    · cases h
      refine ⟨_, _, hcreate, hsteps.trans (recordEvent_steps hrecord'), ?_⟩
      intro result hresult
      cases hresult
      rfl

theorem executeSource_steps {r : Except PyErr SourceBoundaryResult}
    (h : (BoundaryAdapterService.executeSource App.cardRuntime request).run w a = (r, a')) :
    ReflTransGen (IngressStep w) (App.runtimeMachine a) (App.runtimeMachine a') := by
  rcases receives_or_raises w a request with ⟨x, hx⟩ | ⟨e, hraises⟩
  · rw [run_of_receives hx] at h
    obtain ⟨r', b, hcreate, hsteps, -⟩ := receive_cases h
    exact (createCard_steps hcreate).trans hsteps
  · rw [hraises] at h
    cases h
    exact .refl

/-- A returned card is held by the key of its request. -/
theorem holds_of_receive (ha : IngressSound w (App.runtimeMachine a))
    {result : SourceBoundaryResult} (h : (x.receive w request).run w a = (.ok result, a')) :
    a'.store.runtime.Holds (x.sourceKey w) result.card := by
  obtain ⟨r', b, hcreate, hsteps, hok⟩ := receive_cases h
  rw [hok result rfl] at hcreate
  have hb := ha.steps (createCard_steps hcreate)
  suffices hholds : b.store.runtime.Holds (x.sourceKey w) result.card from hholds.steps hb hsteps
  obtain ⟨s, hrun, rfl⟩ := App.runtime_cases hcreate
  rcases createCard_ok hrun with ⟨hcached, rfl⟩ | ⟨e, hcreates⟩
  · cases hkey : x.sourceKey w with
    | none =>
      rw [hkey] at hcached
      cases hcached
    | some k =>
      rw [hkey] at hcached
      refine ⟨ha.keys.stored k _ hcached, ?_, ?_⟩
      · rintro k' ⟨⟩
        exact hcached
      · intro k' c' hc hid
        rw [ha.keys.unique k' k c' _ hc hcached hid]
  · have hstore : (App.withRuntime a s).store.runtime =
        a.store.runtime.created (x.sourceKey w) result.card e := hcreates.store
    rw [hstore]
    refine ⟨?_, ?_, ?_⟩
    · rw [IngressStep.cards_created, if_pos rfl]
      rfl
    · intro k hk
      unfold created
      rw [hk, cached_putKey_some (sourceKey_ne hk) rfl, if_pos rfl]
    · intro k c' hc hid
      rcases IngressStep.cached_created hc with ⟨-, hk⟩ | hold
      · cases hkey : x.sourceKey w with
        | none =>
          rw [hkey] at hk
          cases hk
        | some k' =>
          rw [hkey, truthyStr_some (sourceKey_ne hkey)] at hk
          exact hk
      · exact absurd hid (IngressStep.created_ne ha.cards.issued hcreates
          (ha.keys.stored k c' hold))

/-- Two requests return one card exactly if they have one key. -/
theorem sameCard_iff (ha : IngressSound w (App.runtimeMachine a)) {key : Option String} {c : Card}
    (hc : a.store.runtime.Holds key c) {result : SourceBoundaryResult}
    (h : (x.receive w request).run w a = (.ok result, a')) :
    (result.card.id = c.id → ∃ k, key = some k ∧ x.sourceKey w = some k) ∧
      ∀ k, key = some k → x.sourceKey w = some k → result.card = c := by
  obtain ⟨r', b, hcreate, -, hok⟩ := receive_cases h
  rw [hok result rfl] at hcreate
  obtain ⟨s, hrun, -⟩ := App.runtime_cases hcreate
  rcases createCard_ok hrun with ⟨hcached, -⟩ | ⟨e, hcreates⟩
  · cases hkey : x.sourceKey w with
    | none =>
      rw [hkey] at hcached
      cases hcached
    | some k =>
      rw [hkey] at hcached
      refine ⟨fun hid => ⟨k, hc.only k _ hcached hid, rfl⟩, ?_⟩
      rintro k' hk ⟨⟩
      have hanswer := hc.answers k hk
      have hsame := hcached.symm.trans hanswer
      cases hsame
      rfl
  · refine ⟨fun hid => ?_, fun k hk hkey => ?_⟩
    · exact absurd hid.symm (IngressStep.created_ne ha.cards.issued hcreates hc.stored)
    · have hnew := hcreates.uncached
      rw [hkey] at hnew
      have hanswer := hc.answers k hk
      cases hnew.symm.trans hanswer

end Receive

/-! ## A request that is received for the first time -/

/-- The answers that a request leaves under its three keys. -/
def Own (k k' : String) (v : Stored) : Prop :=
  (k' = k ∧ ∃ c, v = .card c) ∨ ((k' = k ++ ":source" ∨ k' = k ++ ":event") ∧ ∃ e, v = .event e)

/-- All three keys of a request answer. -/
def Answers (s : InMemoryCardRuntime) (k : String) : Prop :=
  ∃ c e e', s.cached (some k) = some (.card c) ∧
    s.cached (some (k ++ ":source")) = some (.event e) ∧
    s.cached (some (k ++ ":event")) = some (.event e')

def eventTypes : List String := ["card_created", "source_executed", "boundary_source_received"]

/-- The card is new and has its three events, and only its keys answer anew. -/
structure Received (w : World) (a a' : Machine App) (key : Option String) (c : Card) : Prop where
  id : c.id = w.uuid4 a.draws
  stored : ∀ id, a'.store.runtime.cards.get? id =
    if id = c.id then some c else a.store.runtime.cards.get? id
  own : ∃ es, a'.store.runtime.history c.id = a.store.runtime.history c.id ++ es ∧
    es.map (·.eventType) = eventTypes
  others : ∀ id, id ≠ c.id → a'.store.runtime.history id = a.store.runtime.history id
  answers : ∀ k, key = some k → Answers a'.store.runtime k
  fresh : ∀ k' v, a'.store.runtime.cached (some k') = some v →
    a.store.runtime.cached (some k') = some v ∨ ∃ k, key = some k ∧ Own k k' v

section First
variable {w : World} {a : Machine App} {key : Option String} {c : Card} {e : CardEvent}

theorem cached_withCard (hkey : ∀ k, key = some k → k ≠ "") (k : String) :
    (App.withCard a key c e).store.runtime.cached (some k) =
      if key = some k then some (.card c) else a.store.runtime.cached (some k) := by
  change (a.store.runtime.created key c e).cached (some k) = _
  unfold created
  cases key with
  | none => rfl
  | some k' =>
    rw [cached_putKey_some (hkey k' rfl) rfl]
    simp only [Option.some.injEq, eq_comm (a := k)]
    rfl

theorem cached_withEvent_key (hkey : ∀ k, key = some k → k ≠ "") (k : String) :
    (App.withEvent a key e).store.runtime.cached (some k) =
      if key = some k then some (.event e) else a.store.runtime.cached (some k) := by
  rw [App.withEvent_runtime]
  cases key with
  | none => rfl
  | some k' =>
    rw [cached_putKey_some (hkey k' rfl) rfl]
    simp only [Option.some.injEq, eq_comm (a := k)]
    rfl

theorem suffixed_ne {suffix : String} (hsuffix : suffix ≠ "") :
    ∀ k, key.map (· ++ suffix) = some k → k ≠ "" := by
  intro k hk
  obtain ⟨k₀, -, rfl⟩ := Option.map_eq_some_iff.mp hk
  exact append_ne k₀ hsuffix

theorem history_withCard (id : Uuid) : (App.withCard a key c e).store.runtime.history id =
    if id = e.cardId then a.store.runtime.history id ++ [e] else a.store.runtime.history id := by
  have hsame : (App.withCard a key c e).store.runtime.history id =
      ((a.store.runtime.putCard c).putEvent e).history id := by
    change (a.store.runtime.created key c e).history id = _
    unfold created putKey
    cases truthyStr key <;> rfl
  rw [hsame]
  unfold history putEvent
  dsimp only
  rw [Dict.get?_set]
  split
  · rename_i hid
    rw [hid]
    rfl
  · rfl

end First

/-- The application with a new card and its three events. -/
def App.withIngress (a : Machine App) (key : Option String) (c : Card) (e e₁ e₂ : CardEvent) :
    Machine App :=
  App.withEvent (App.withEvent (App.withCard a key c e) (key.map (· ++ ":source")) e₁)
    (key.map (· ++ ":event")) e₂

section Receive
variable {w : World} {a : Machine App} {request : BoundarySourceRequest} {x : Ingress}
  {key : Option String} {c : Card} {e e₁ e₂ : CardEvent}

theorem cached_withIngress (hkey : ∀ k, key = some k → k ≠ "") (k : String) :
    (App.withIngress a key c e e₁ e₂).store.runtime.cached (some k) =
      if key.map (· ++ ":event") = some k then some (.event e₂)
      else if key.map (· ++ ":source") = some k then some (.event e₁)
      else if key = some k then some (.card c) else a.store.runtime.cached (some k) := by
  unfold App.withIngress
  rw [cached_withEvent_key (suffixed_ne (by decide)), cached_withEvent_key (suffixed_ne (by decide)),
    cached_withCard hkey]

/-- Under new keys the card and the events are new. -/
theorem received_withIngress (hkey : ∀ k, key = some k → k ≠ "") (hid : c.id = w.uuid4 a.draws)
    (hcards : e.cardId = c.id ∧ e₁.cardId = c.id ∧ e₂.cardId = c.id)
    (htypes : [e, e₁, e₂].map (·.eventType) = eventTypes) :
    Received w a (App.withIngress a key c e e₁ e₂) key c where
  id := hid
  stored id := by
    unfold App.withIngress
    rw [App.withEvent_cards, App.withEvent_cards]
    exact IngressStep.cards_created id
  own := by
    obtain ⟨h, h₁, h₂⟩ := hcards
    refine ⟨[e, e₁, e₂], ?_, htypes⟩
    unfold App.withIngress
    rw [history_withEvent, if_pos h₂.symm, history_withEvent, if_pos h₁.symm, history_withCard,
      if_pos h.symm]
    simp
  others id hne := by
    obtain ⟨h, h₁, h₂⟩ := hcards
    unfold App.withIngress
    rw [history_withEvent, if_neg, history_withEvent, if_neg, history_withCard, if_neg]
    · rwa [h]
    · rwa [h₁]
    · rwa [h₂]
  answers := by
    rintro k rfl
    refine ⟨c, e₁, e₂, ?_, ?_, ?_⟩
    · rw [cached_withIngress hkey, if_neg, if_neg, if_pos rfl]
      · rw [Option.map_some, Option.some.injEq]
        exact (ne_append k (by decide)).symm
      · rw [Option.map_some, Option.some.injEq]
        exact (ne_append k (by decide)).symm
    · rw [cached_withIngress hkey, if_neg]
      · exact if_pos rfl
      · rw [Option.map_some, Option.some.injEq]
        exact (source_ne_event k k).symm
    · rw [cached_withIngress hkey]
      exact if_pos rfl
  fresh k' v hv := by
    rw [cached_withIngress hkey] at hv
    split at hv
    · rename_i hevent
      obtain ⟨k, rfl, rfl⟩ := Option.map_eq_some_iff.mp hevent
      cases hv
      exact .inr ⟨k, rfl, .inr ⟨.inr rfl, e₂, rfl⟩⟩
    · split at hv
      · rename_i hsource
        obtain ⟨k, rfl, rfl⟩ := Option.map_eq_some_iff.mp hsource
        cases hv
        exact .inr ⟨k, rfl, .inr ⟨.inl rfl, e₁, rfl⟩⟩
      · split at hv
        · rename_i hcard
          cases hv
          exact .inr ⟨k', hcard, .inl ⟨rfl, c, rfl⟩⟩
        · exact .inl hv

/-- Where none of its keys answers, a request gets a new card. -/
theorem receive_new (request : BoundarySourceRequest) (henters : x.Enters a.store.runtime)
    (hcard : a.store.runtime.cached (x.sourceKey w) = none)
    (hsource : a.store.runtime.cached ((x.sourceKey w).map (· ++ ":source")) = none)
    (hevent : a.store.runtime.cached ((x.sourceKey w).map (· ++ ":event")) = none) :
    ∃ c a', (x.receive w request).run w a = (.ok ⟨c, x.text w, x.contract.adapter⟩, a') ∧
      Received w a a' (x.sourceKey w) c := by
  obtain ⟨p, bucket, hp, hbucket⟩ := henters
  obtain ⟨c, e, hid, hecard, hetype, hcreate⟩ := App.createCard_new (w := w) (x.payload request)
    (some (x.metadata w)) hcard hp hbucket
  generalize hkey : x.sourceKey w = key at *
  have hne : ∀ k, key = some k → k ≠ "" := fun k hk => sourceKey_ne (hkey.trans hk)
  have hstored : (App.withCard a key c e).store.runtime.cards.get? c.id = some c := by
    change (a.store.runtime.created key c e).cards.get? c.id = some c
    rw [IngressStep.cards_created, if_pos rfl]
  have hfirst : (App.withCard a key c e).store.runtime.cached (key.map (· ++ ":source")) =
      none := by
    cases key with
    | none => rfl
    | some k =>
      rw [Option.map_some, cached_withCard hne, if_neg]
      · exact hsource
      · rw [Option.some.injEq]
        exact ne_append k (by decide)
  have hrecord := App.recordEvent_run (w := w) "source_executed" (some x.node.id)
    [("source_id", .str x.node.id)] (key.map (· ++ ":source")) hstored
  rw [hfirst] at hrecord
  generalize he₁ : App.nextEvent w (App.withCard a key c e) c.id "source_executed"
    (some x.node.id) [("source_id", .str x.node.id)] = e₁ at hrecord
  have hstored' : (App.withEvent (App.withCard a key c e) (key.map (· ++ ":source"))
      e₁).store.runtime.cards.get? c.id = some c := by
    rw [App.withEvent_cards]
    exact hstored
  have hsecond : (App.withEvent (App.withCard a key c e) (key.map (· ++ ":source"))
      e₁).store.runtime.cached (key.map (· ++ ":event")) = none := by
    cases hmap : key.map (· ++ ":event") with
    | none => rfl
    | some k' =>
      obtain ⟨k, rfl, rfl⟩ := Option.map_eq_some_iff.mp hmap
      rw [cached_withEvent_key (suffixed_ne (by decide)), if_neg, cached_withCard hne, if_neg]
      · exact hevent
      · rw [Option.some.injEq]
        exact ne_append k (by decide)
      · rw [Option.map_some, Option.some.injEq]
        exact source_ne_event k k
  have hrecord' := App.recordEvent_run (w := w) "boundary_source_received" (some x.node.id)
    (x.receivedPayload w request) (key.map (· ++ ":event")) hstored'
  rw [hsecond] at hrecord'
  generalize he₂ : App.nextEvent w (App.withEvent (App.withCard a key c e)
    (key.map (· ++ ":source")) e₁) c.id "boundary_source_received" (some x.node.id)
      (x.receivedPayload w request) = e₂ at hrecord'
  refine ⟨c, App.withIngress a key c e e₁ e₂, ?_, received_withIngress hne hid ⟨hecard, ?_, ?_⟩ ?_⟩
  · have hsourced : (x.source w request).run w a = (.ok c, App.withEvent (App.withCard a key c e)
        (key.map (· ++ ":source")) e₁) := by
      unfold source
      rw [suffixed_sourceKey, hkey]
      exact (Exec.run_bind_ok hcreate).trans (Exec.run_bind_ok hrecord)
    unfold receive
    rw [hkey]
    exact (Exec.run_bind_ok hsourced).trans (Exec.run_bind_ok hrecord')
  · rw [← he₁]
    rfl
  · rw [← he₂]
    rfl
  · rw [← he₁, ← he₂, List.map_cons, hetype]
    rfl

/-- Where all of its keys answer, a request returns the card there, and nothing happens. -/
theorem receive_answered (request : BoundarySourceRequest)
    (ha : IngressSound w (App.runtimeMachine a)) {k : String}
    (hkey : x.sourceKey w = some k) (h : Answers a.store.runtime k) :
    ∃ result, (x.receive w request).run w a = (.ok result, a) := by
  obtain ⟨c, e₁, e₂, hcard, hsource, hevent⟩ := h
  obtain ⟨c', hstored⟩ := Option.isSome_iff_exists.mp (ha.keys.stored k c hcard)
  have hcreate : (App.cardRuntime.createCard x.panel.id (x.payload request) (some (x.metadata w))
      (some k)).run w a = (.ok c, a) := App.createCard_cached _ _ hcard
  have hsourced : (x.source w request).run w a = (.ok c, a) := by
    unfold source
    rw [suffixed_sourceKey, hkey]
    exact (Exec.run_bind_ok hcreate).trans
      (Exec.run_bind_ok (App.recordEvent_cached _ _ _ hstored hsource))
  refine ⟨⟨c, x.text w, x.contract.adapter⟩, ?_⟩
  unfold receive
  rw [hkey]
  exact (Exec.run_bind_ok hsourced).trans
    (Exec.run_bind_ok (App.recordEvent_cached _ _ _ hstored hevent))

/-- On a panel without a bucket for new cards, a request only finds cards. -/
theorem receive_blocked (request : BoundarySourceRequest) (henters : ¬ x.Enters a.store.runtime)
    (hcard : ∀ c, a.store.runtime.cached (x.sourceKey w) ≠ some (.card c)) :
    ∃ e, (x.receive w request).run w a = (.error e, a) := by
  rcases hcreate : (App.cardRuntime.createCard x.panel.id (x.payload request) (some (x.metadata w))
    (x.sourceKey w)).run w a with ⟨r, b⟩
  obtain ⟨s, hrun, rfl⟩ := App.runtime_cases hcreate
  rcases createCard_cases hrun with rfl | ⟨c, e, -, hcreates⟩
  · cases r with
    | error e =>
      have hsourced : (x.source w request).run w a = (.error e, a) := Exec.run_bind_error hcreate
      exact ⟨e, Exec.run_bind_error hsourced⟩
    | ok c =>
      rcases createCard_ok hrun with ⟨hcached, -⟩ | ⟨e, hcreates⟩
      · exact absurd hcached (hcard c)
      · obtain ⟨p, hp, hbucket, -⟩ := hcreates.panel
        exact absurd ⟨p, _, hp, hbucket⟩ henters
  · obtain ⟨p, hp, hbucket, -⟩ := hcreates.panel
    exact absurd ⟨p, _, hp, hbucket⟩ henters

theorem recordEvent_ok_key {a' : Machine App} {cardId : Uuid} {type : String}
    {actor : Option String} {payload : Option JsonObj}
    (h : (App.cardRuntime.recordEvent cardId type actor payload key).run w a = (.ok e, a'))
    {v : Stored} (hv : a.store.runtime.cached key = some v) : ∃ e, v = .event e := by
  obtain ⟨s, hrun, -⟩ := App.runtime_cases h
  exact recordEvent_answer hrun hv

/-- A request that returns found no answer of the wrong kind under its keys. -/
theorem receive_ok_keys {a' : Machine App} {k : String} {result : SourceBoundaryResult}
    (hkey : x.sourceKey w = some k) (h : (x.receive w request).run w a = (.ok result, a')) :
    (∀ v, a.store.runtime.cached (some k) = some v → ∃ c, v = .card c) ∧
    (∀ v, a.store.runtime.cached (some (k ++ ":source")) = some v → ∃ e, v = .event e) ∧
    ∀ v, a.store.runtime.cached (some (k ++ ":event")) = some v → ∃ e, v = .event e := by
  unfold receive source at h
  rw [suffixed_sourceKey, hkey] at h
  obtain ⟨card, b, hsource, h⟩ := bind_ok h
  obtain ⟨event, d, hevent, -⟩ := bind_ok h
  obtain ⟨card', c, hcreate, h⟩ := bind_ok hsource
  obtain ⟨event', d', hrecord, h⟩ := bind_ok h
  cases h
  have hkeeps : ∀ {m m' : Machine App} {k' : String} {v : Stored},
      ReflTransGen (IngressStep w) (App.runtimeMachine m) (App.runtimeMachine m') →
      m.store.runtime.cached (some k') = some v → m'.store.runtime.cached (some k') = some v := by
    intro m m' k' v hsteps hv
    exact effects_keep_cached (steps_effects hsteps) hv
  have hcreated := createCard_steps hcreate
  refine ⟨?_, ?_, ?_⟩
  · intro v hv
    rw [App.createCard_cached _ _ hv] at hcreate
    cases v with
    | card c => exact ⟨c, rfl⟩
    | _ => cases hcreate
  · intro v hv
    exact recordEvent_ok_key hrecord (hkeeps hcreated hv)
  · intro v hv
    exact recordEvent_ok_key hevent (hkeeps (hcreated.trans (recordEvent_steps hrecord)) hv)

end Receive

end Ingress

end GhostMesh
