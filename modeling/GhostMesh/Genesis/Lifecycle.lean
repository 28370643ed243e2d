import Mathlib
import GhostMesh.Genesis.Candidates
import GhostMesh.Genesis.Proposals
import GhostMesh.Lib.Indexed

/-!
# The life of an intent

An intent is filed once for each key and is then only moved on by launches and proposals.
What it says of itself stays consistent, and what it refers to exists.
-/

set_option autoImplicit false

namespace GhostMesh

open InMemoryCardRuntime Op

/-! ## One intent -/

namespace GenesisIntent

/-- No card has been noted. -/
def Open (i : GenesisIntent) : Prop := i.launchedCardId = none ∧ i.proposalCardId = none

/-- The search has found nothing and a design is wanted. -/
def NeedsDesign (i : GenesisIntent) : Prop :=
  i.candidateRegistryEntryIds = [] ∧ i.proposeIfMissing = true

/-- The status agrees with the cards, the candidates and the times. -/
structure Consistent (i : GenesisIntent) : Prop where
  named : i.deduplicationKey ≠ "" ∧ i.goal ≠ ""
  candidates : i.candidateRegistryEntryIds.Nodup
  received : i.status = .received ↔ i.Open ∧ ¬ i.NeedsDesign
  designRequired : i.status = .designRequired ↔ i.Open ∧ i.NeedsDesign
  launched : i.status = .launched → i.launchedCardId ≠ none
  proposed : i.status = .proposed → i.proposalCardId ≠ none
  selected : i.selectedRegistryEntryId = none ↔ i.launchedCardId = none
  times : i.createdAt ≤ i.updatedAt

/-- What may happen to an intent after it has been filed. -/
inductive Step (i : GenesisIntent) : GenesisIntent → Prop where
  | launch (entryId cardId : Uuid) (t : Instant) (later : i.updatedAt ≤ t) : Step i
    { i with
      status := .launched, selectedRegistryEntryId := some entryId,
      launchedCardId := some cardId, updatedAt := t }
  | propose (cardId : Uuid) (t : Instant) (later : i.updatedAt ≤ t) : Step i
    { i with status := .proposed, proposalCardId := some cardId, updatedAt := t }

/-- The same intent at a later time. -/
structure Follows (i i' : GenesisIntent) : Prop where
  request : i' = { i with
    status := i'.status, selectedRegistryEntryId := i'.selectedRegistryEntryId,
    launchedCardId := i'.launchedCardId, proposalCardId := i'.proposalCardId,
    updatedAt := i'.updatedAt }
  status : i'.status = i.status ∨ i'.status = .launched ∨ i'.status = .proposed
  launched : i.launchedCardId ≠ none → i'.launchedCardId ≠ none
  proposed : i.proposalCardId ≠ none → i'.proposalCardId ≠ none
  updated : i.updatedAt ≤ i'.updatedAt

variable {i i' i'' : GenesisIntent}

theorem Step.id_eq (h : i.Step i') : i'.id = i.id := by
  cases h with
  | launch _ _ _ _ => rfl
  | propose _ _ _ => rfl

theorem Step.key_eq (h : i.Step i') : i'.deduplicationKey = i.deduplicationKey := by
  cases h with
  | launch _ _ _ _ => rfl
  | propose _ _ _ => rfl

theorem Consistent.step (hi : i.Consistent) (h : i.Step i') : i'.Consistent := by
  cases h with
  | launch entryId cardId t later =>
    exact
      { named := hi.named
        candidates := hi.candidates
        received := by simp [Open]
        designRequired := by simp [Open]
        launched := by simp
        proposed := by simp
        selected := by simp
        times := hi.times.trans later }
  | propose cardId t later =>
    exact
      { named := hi.named
        candidates := hi.candidates
        received := by simp [Open]
        designRequired := by simp [Open]
        launched := by simp
        proposed := by simp
        selected := hi.selected
        times := hi.times.trans later }

theorem Follows.refl (i : GenesisIntent) : i.Follows i :=
  ⟨rfl, .inl rfl, fun h => h, fun h => h, le_refl _⟩

theorem Follows.trans (h : i.Follows i') (h' : i'.Follows i'') : i.Follows i'' where
  request := by
    have hsecond := h'.request
    rw [h.request] at hsecond
    exact hsecond
  status := by
    rcases h'.status with hsame | hmoved
    · rw [hsame]
      exact h.status
    · exact .inr hmoved
  launched hcard := h'.launched (h.launched hcard)
  proposed hcard := h'.proposed (h.proposed hcard)
  updated := h.updated.trans h'.updated

theorem Step.follows (h : i.Step i') : i.Follows i' := by
  cases h with
  | launch entryId cardId t later => exact ⟨rfl, .inr (.inl rfl), by simp, fun h => h, later⟩
  | propose cardId t later => exact ⟨rfl, .inr (.inr rfl), fun h => h, by simp, later⟩

/-- What the intent refers to is stored. -/
structure Linked (i : GenesisIntent) (s : App) : Prop where
  candidates : ∀ id ∈ i.candidateRegistryEntryIds, s.registry.entries.contains id
  selected : ∀ id, i.selectedRegistryEntryId = some id → s.registry.entries.contains id
  launched : ∀ id, i.launchedCardId = some id → s.runtime.cards.contains id
  proposed : ∀ id, i.proposalCardId = some id → s.runtime.cards.contains id

end GenesisIntent

/-! ## What stays in the other stores -/

/-- No entry and no card goes away, and entries stay under their identifiers. -/
structure Grows (a a' : Machine App) : Prop where
  ticks : a.ticks ≤ a'.ticks
  entries : ∀ id, a.store.registry.entries.contains id → a'.store.registry.entries.contains id
  keyed : (RegistryBackend.memory App.registryStore).Keyed a.store →
    (RegistryBackend.memory App.registryStore).Keyed a'.store
  cards : ∀ id, a.store.runtime.cards.contains id → a'.store.runtime.cards.contains id

/-- The registry has not been written. -/
theorem Grows.of_registry {a a' : Machine App} (hticks : a.ticks ≤ a'.ticks)
    (hsame : a'.store.registry = a.store.registry)
    (hcards : ∀ id, a.store.runtime.cards.contains id → a'.store.runtime.cards.contains id) :
    Grows a a' := by
  refine ⟨hticks, ?_, ?_, hcards⟩
  · rw [hsame]
    exact fun _ => id
  · intro h id e he
    refine h id e ?_
    change a.store.registry.entries.get? id = some e
    rw [← hsame]
    exact he

theorem Grows.refl (a : Machine App) : Grows a a := .of_registry (le_refl _) rfl fun _ => id

theorem Grows.trans {a a' a'' : Machine App} (h : Grows a a') (h' : Grows a' a'') :
    Grows a a'' where
  ticks := h.ticks.trans h'.ticks
  entries id hid := h'.entries id (h.entries id hid)
  keyed hkeyed := h'.keyed (h.keyed hkeyed)
  cards id hid := h'.cards id (h.cards id hid)

theorem GenesisIntent.Linked.grow {i : GenesisIntent} {a a' : Machine App}
    (hi : i.Linked a.store) (h : Grows a a') : i.Linked a'.store where
  candidates id hid := h.entries id (hi.candidates id hid)
  selected id hid := h.entries id (hi.selected id hid)
  launched id hid := h.cards id (hi.launched id hid)
  proposed id hid := h.cards id (hi.proposed id hid)

theorem InMemoryCardRuntime.CardsKept.contains {s s' : InMemoryCardRuntime} (h : CardsKept s s')
    (id : Uuid) (hid : s.cards.contains id) : s'.cards.contains id := by
  obtain ⟨c, hc⟩ := Option.isSome_iff_exists.mp hid
  obtain ⟨bucket, hkept⟩ := h id c hc
  exact Option.isSome_iff_exists.mpr ⟨_, hkept⟩

/-- A card under a key is stored. -/
def InMemoryCardRuntime.AnswersStored (s : InMemoryCardRuntime) : Prop :=
  ∀ k c, s.cached (some k) = some (.card c) → s.cards.contains c.id

section Registry
open Exec (Within)
variable {w : World}

/-- No entry goes away. -/
def EntriesStay (m m' : Machine InMemoryPatchPanelRegistry) : Prop :=
  ∀ id, m.store.entries.contains id → m'.store.entries.contains id

theorem EntriesStay.bind {α β : Type} {x : Op InMemoryPatchPanelRegistry α}
    {f : α → Op InMemoryPatchPanelRegistry β} (hx : Within EntriesStay w x)
    (hf : ∀ a, Within EntriesStay w (f a)) : Within EntriesStay w (x >>= f) :=
  Within.bind (fun h h' id hid => h' id (h id hid)) hx hf

theorem EntriesStay.put (e : PatchPanelRegistryEntry) :
    Within EntriesStay w (do
      Op.modify (·.put e)
      return e : Op InMemoryPatchPanelRegistry PatchPanelRegistryEntry) := by
  intro m id hid
  change ((m.store.entries.set e.id e).get? id).isSome
  rw [Dict.get?_set]
  split
  · rfl
  · exact hid

theorem EntriesStay.get (entryId : Uuid) :
    Within EntriesStay w (InMemoryPatchPanelRegistry.get entryId) := by
  intro m
  rw [InMemoryPatchPanelRegistry.run_registryGet]
  exact fun _ => id

theorem RegistryCall.step_grows (a : Machine App) (call : RegistryCall) :
    Grows a (call.step w a) := by
  obtain ⟨hstore, hticks, -⟩ := call.step_via (w := w) (a := a)
  have hruntime : (call.step w a).store.runtime = a.store.runtime := by
    rw [hstore]
    rfl
  refine ⟨hticks, ?_, RegistryCall.step_keyed a call, fun id hid => by rw [hruntime]; exact hid⟩
  have hnow : Within EntriesStay w Op.now := fun m => fun _ => id
  have hgrows : ∀ {x : Op InMemoryPatchPanelRegistry PatchPanelRegistryEntry},
      Within EntriesStay w x → ∀ id, a.store.registry.entries.contains id →
        ((Op.on App.registryStore x).run w a).2.store.registry.entries.contains id := by
    intro x hx
    rw [Op.run_on]
    exact hx ⟨a.store.registry, a.ticks, a.draws⟩
  cases call with
  | register entry => exact hgrows (EntriesStay.put entry)
  | updateMetadata entryId metadata =>
    refine hgrows (EntriesStay.bind (EntriesStay.get entryId) fun e => ?_)
    refine EntriesStay.bind (Within.ensure (fun m => fun _ => id) _ _) fun _ => ?_
    exact EntriesStay.bind hnow fun updatedAt => EntriesStay.put _
  | archive entryId =>
    refine hgrows (EntriesStay.bind (EntriesStay.get entryId) fun e => ?_)
    refine EntriesStay.bind hnow fun archivedAt => ?_
    exact EntriesStay.bind hnow fun updatedAt => EntriesStay.put _
  | supersede entryId supersededByEntryId =>
    refine hgrows (EntriesStay.bind (EntriesStay.get entryId) fun e => ?_)
    exact EntriesStay.bind hnow fun updatedAt => EntriesStay.put _

end Registry

section Answers
variable {w : World} {m m' : Machine InMemoryCardRuntime}

/-- A write of something else leaves the cards under keys alone. -/
theorem InMemoryCardRuntime.cached_putKey_card {s : InMemoryCardRuntime} {key : Option String}
    {k : String} {v : Stored} {c : Card}
    (h : (s.putKey key v).cached (some k) = some (.card c)) (hv : ∀ c, v ≠ .card c) :
    s.cached (some k) = some (.card c) := by
  rcases cached_putKey_cases h with hold | hnew
  · exact hold
  · exact absurd hnew.symm (hv c)

/-- A card that an effect puts under a key is one that it stores. -/
theorem Effect.card_of_answer (h : Effect w m m') {k : String} {c : Card}
    (hc : m'.store.cached (some k) = some (.card c)) :
    m.store.cached (some k) = some (.card c) ∨ m'.store.cards.contains c.id := by
  cases h with
  | same h =>
    rw [h.store] at hc
    exact .inl hc
  | registers p report valid h =>
    rw [h, cached_putPanel] at hc
    exact .inl hc
  | expires h later =>
    rw [cached_expires h] at hc
    exact .inl hc
  | creates h =>
    rw [h.store] at hc
    rcases cached_putKey_cases hc with hold | hnew
    · exact .inl hold
    · cases hnew
      right
      rw [h.store]
      simp [created, putCard, putEvent, Dict.contains]
  | moves h =>
    rw [h.store] at hc
    rcases cached_putKey_cases hc with hold | hnew
    · exact .inl hold
    · cases hnew
      right
      rw [h.store]
      simp [moved, putCard, putEvent, Dict.contains]
  | claims h =>
    rw [h.store] at hc
    have hold := cached_putKey_card hc (by simp)
    exact .inl hold
  | submits h =>
    rw [h.store] at hc
    have hold := cached_putKey_card hc (by simp)
    exact .inl hold
  | renews h =>
    rw [h.store] at hc
    have hold := cached_putKey_card hc (by simp)
    exact .inl hold
  | releases h =>
    rw [h.store] at hc
    have hold := cached_putKey_card hc (by simp)
    exact .inl hold
  | validates h =>
    rw [h.store] at hc
    have hold := cached_putKey_card hc (by simp)
    exact .inl ((cached_routeCard _ _).symm.trans hold)
  | records h =>
    rw [h.store] at hc
    have hold := cached_putKey_card hc (by simp)
    exact .inl hold

theorem InMemoryCardRuntime.AnswersStored.effect (hm : m.store.AnswersStored)
    (hsound : CardsSound w m) (h : Effect w m m') : m'.store.AnswersStored := by
  intro k c hc
  rcases h.card_of_answer hc with hold | hnew
  · exact (h.cardsKept hsound.keyed hsound.issued).contains _ (hm k c hold)
  · exact hnew

/-- A creation that returns and writes nothing has found its card under the key. -/
theorem createCard_found {panel : String} {payload : JsonObj} {metadata : Option JsonObj}
    {key : String} {c : Card}
    (h : (createCard panel payload metadata (some key)).run w m = (.ok c, m)) :
    m.store.cached (some key) = some (.card c) := by
  rcases (createCard_returns_iff payload metadata).mp (congrArg Prod.fst h) with
    hcached | ⟨hkey, p, bucket, hp, hbucket, -⟩
  · exact hcached
  · obtain ⟨e, -, -, hrun⟩ := createCard_run (w := w) (m := m) payload metadata hkey hp hbucket
    have hdraws := congrArg (·.2.draws) (h.symm.trans hrun)
    exact absurd hdraws (by simp)

/-- A card that a creation returns is stored, and found under the key. -/
theorem createCard_stored (hm : m.store.AnswersStored) {panel : String} {payload : JsonObj}
    {metadata : Option JsonObj} {key : String} {c : Card}
    (h : (createCard panel payload metadata (some key)).run w m = (.ok c, m')) :
    m'.store.cards.contains c.id := by
  rcases createCard_cases h with rfl | ⟨c', e, hc, hcreates⟩
  · exact hm key c (createCard_found h)
  · cases hc
    rw [hcreates.store]
    simp [created, putCard, putEvent, Dict.contains]

theorem createCard_kept {panel : String} {payload : JsonObj} {metadata : Option JsonObj}
    {key : String} {c : Card} (hkey : key ≠ "")
    (h : (createCard panel payload metadata (some key)).run w m = (.ok c, m')) :
    m'.store.cached (some key) = some (.card c) := by
  rcases createCard_cases h with rfl | ⟨c', e, hc, hcreates⟩
  · exact createCard_found h
  · cases hc
    rw [hcreates.store]
    exact cached_putKey_self (truthyStr_some hkey) rfl

end Answers

/-! ## What a call writes -/

/-- What the genesis service knows, and what it refers to. -/
structure IntentsAccounted (s : App) : Prop where
  keyed : ∀ id i, s.genesis.intents.get? id = some i → i.id = id
  indexed : Dict.IndexedBy (·.deduplicationKey) s.genesis.intents s.genesis.deduplicationIndex
  consistent : ∀ id i, s.genesis.intents.get? id = some i → i.Consistent
  linked : ∀ id i, s.genesis.intents.get? id = some i → i.Linked s

/-- What a call does to the records of the service. -/
inductive IntentWrite (w : World) (a a' : Machine App) : Prop where
  | nothing (same : a'.store.genesis = a.store.genesis)
  | files (i : GenesisIntent) (newId : a.store.genesis.intents.get? i.id = none)
      (newKey : a.store.genesis.deduplicationIndex.get? i.deduplicationKey = none)
      (consistent : i.Consistent) (linked : i.Linked a'.store)
      (recent : ∃ t ≤ a'.ticks, i.updatedAt = w.clock t)
      (filed : a'.store.genesis = ⟨a.store.genesis.intents.set i.id i,
        a.store.genesis.deduplicationIndex.set i.deduplicationKey i.id⟩)
  | moves (old new : GenesisIntent) (stored : a.store.genesis.intents.get? old.id = some old)
      (step : old.Step new) (linked : new.Linked a'.store)
      (recent : ∃ t ≤ a'.ticks, new.updatedAt = w.clock t)
      (moved : a'.store.genesis = ⟨a.store.genesis.intents.set old.id new,
        a.store.genesis.deduplicationIndex⟩)

/-- The invariant of a run, with what the service relies on in the other stores. -/
structure IntentsKept (w : World) (a : Machine App) : Prop where
  platform : PlatformSound w a
  registry : (RegistryBackend.memory App.registryStore).Keyed a.store
  answers : a.store.runtime.AnswersStored
  accounted : IntentsAccounted a.store
  recent : ∀ id i, a.store.genesis.intents.get? id = some i → ∃ t ≤ a.ticks, i.updatedAt = w.clock t

section Writes
variable {w : World} {a a' : Machine App}

/-- The step lemma for one intent. -/
theorem IntentWrite.follows (h : IntentWrite w a a') {id : Uuid} {i : GenesisIntent}
    (hi : a.store.genesis.intents.get? id = some i) :
    ∃ i', a'.store.genesis.intents.get? id = some i' ∧ i.Follows i' := by
  cases h with
  | nothing same =>
    rw [same]
    exact ⟨i, hi, .refl i⟩
  | files new newId newKey consistent linked recent filed =>
    refine ⟨i, ?_, .refl i⟩
    rw [filed]
    change (a.store.genesis.intents.set new.id new).get? id = some i
    rw [Dict.get?_set_ne]
    · exact hi
    · rintro rfl
      rw [newId] at hi
      cases hi
  | moves old new stored step linked recent moved =>
    rw [moved]
    change ∃ i', (a.store.genesis.intents.set old.id new).get? id = some i' ∧ i.Follows i'
    rw [Dict.get?_set]
    split
    · rename_i hid
      rw [hid, stored] at hi
      cases hi
      exact ⟨new, rfl, step.follows⟩
    · exact ⟨i, hi, .refl i⟩

/-- The step lemma for all records. -/
theorem IntentWrite.accounted (h : IntentWrite w a a') (ha : IntentsAccounted a.store)
    (hgrows : Grows a a') : IntentsAccounted a'.store := by
  have hlinked : ∀ id i, a.store.genesis.intents.get? id = some i → i.Linked a'.store :=
    fun id i hi => (ha.linked id i hi).grow hgrows
  cases h with
  | nothing same =>
    constructor
    · rw [same]
      exact ha.keyed
    · rw [same]
      exact ha.indexed
    · rw [same]
      exact ha.consistent
    · rw [same]
      exact hlinked
  | files i newId newKey consistent linked recent filed =>
    constructor
    · rw [filed]
      exact Dict.forall_values_set (P := fun id i => GenesisIntent.id i = id) ha.keyed rfl
    · rw [filed]
      exact ha.indexed.insert newId newKey
    · rw [filed]
      exact Dict.forall_values_set (P := fun _ => GenesisIntent.Consistent) ha.consistent consistent
    · rw [filed]
      exact Dict.forall_values_set (P := fun _ i => GenesisIntent.Linked i a'.store) hlinked linked
  | moves old new stored step linked recent moved =>
    constructor
    · rw [moved]
      exact Dict.forall_values_set (P := fun id i => GenesisIntent.id i = id) ha.keyed step.id_eq
    · rw [moved]
      exact ha.indexed.replace stored step.key_eq
    · rw [moved]
      exact Dict.forall_values_set (P := fun _ => GenesisIntent.Consistent) ha.consistent
        ((ha.consistent _ old stored).step step)
    · rw [moved]
      exact Dict.forall_values_set (P := fun _ i => GenesisIntent.Linked i a'.store) hlinked linked

theorem IntentWrite.recent (h : IntentWrite w a a') (hticks : a.ticks ≤ a'.ticks)
    (ha : ∀ id i, a.store.genesis.intents.get? id = some i → ∃ t ≤ a.ticks, i.updatedAt = w.clock t) :
    ∀ id i, a'.store.genesis.intents.get? id = some i →
      ∃ t ≤ a'.ticks, i.updatedAt = w.clock t := by
  have hold : ∀ id i, a.store.genesis.intents.get? id = some i →
      ∃ t ≤ a'.ticks, i.updatedAt = w.clock t := by
    intro id i hi
    obtain ⟨t, ht, hupdated⟩ := ha id i hi
    exact ⟨t, ht.trans hticks, hupdated⟩
  cases h with
  | nothing same =>
    rw [same]
    exact hold
  | files i newId newKey consistent linked recent filed =>
    rw [filed]
    exact Dict.forall_values_set
      (P := fun _ i => ∃ t ≤ a'.ticks, GenesisIntent.updatedAt i = w.clock t) hold recent
  | moves old new stored step linked recent moved =>
    rw [moved]
    exact Dict.forall_values_set
      (P := fun _ i => ∃ t ≤ a'.ticks, GenesisIntent.updatedAt i = w.clock t) hold recent

end Writes

/-! ## The calls of the service -/

section Calls
variable {w : World} {a a' : Machine App}

theorem searchCandidates_found (hkeyed : (RegistryBackend.memory App.registryStore).Keyed a.store)
    {intent : GenesisIntent} {found : List PatchPanelRegistryEntry}
    (h : (App.genesisService.searchCandidates intent).run w a = (.ok found, a)) :
    (found.map (·.id)).Nodup ∧ ∀ e ∈ found, a.store.registry.entries.get? e.id = some e := by
  have hrun := @run_searchCandidates App (.memory App.registryStore) App.cardRuntime
    App.genesisStore w a intent
  have hscans : found = _ := Except.ok.inj (congrArg Prod.fst (h.symm.trans hrun))
  have hlive : (((RegistryBackend.memory App.registryStore).live a.store).map (·.id)).Nodup :=
    hkeyed.listed_nodup.sublist (List.filter_sublist.map _)
  have hranked := Scans.scans_ranked hlive (Criterion.scans (intent.criteria false))
  rw [← hscans] at hranked
  have hstored : ∀ e ∈ found, a.store.registry.entries.get? e.id = some e := by
    intro e he
    have hlisted : e ∈ a.store.registry.entries.values :=
      (List.mem_filter.mp ((hranked.mem_iff e).mp he).1).1
    obtain ⟨id, hid⟩ := (Dict.mem_values_iff _ e).mp hlisted
    have hown : e.id = id := hkeyed id e hid
    rw [hown]
    exact hid
  refine ⟨hranked.once.map_on ?_, hstored⟩
  intro e he e' he' hid
  have hsame := hstored e he
  rw [hid, hstored e' he'] at hsame
  exact (Option.some.inj hsame).symm

open GenesisService (drafted searched)

theorem searched_consistent (hclock : Monotone w.clock) {request : ReceiveIntent}
    (hnamed : request.deduplicationKey ≠ "" ∧ request.goal ≠ "") (ticks draws : Nat)
    {found : List PatchPanelRegistryEntry} (hfound : (found.map (·.id)).Nodup) :
    (searched (drafted w ticks draws request) found (w.clock (ticks + 2))).Consistent := by
  unfold searched
  split
  · rename_i hdesign
    simp only [Bool.and_eq_true, List.isEmpty_iff] at hdesign
    obtain ⟨rfl, hpropose⟩ := hdesign
    exact
      { named := hnamed
        candidates := hfound
        received := by simp [GenesisIntent.NeedsDesign, hpropose]
        designRequired := by
          simpa [GenesisIntent.Open, GenesisIntent.NeedsDesign, drafted] using hpropose
        launched := by simp
        proposed := by simp
        selected := by simp [drafted]
        times := hclock (Nat.le_add_right _ 2) }
  · rename_i hdesign
    simp only [Bool.and_eq_true, List.isEmpty_iff] at hdesign
    exact
      { named := hnamed
        candidates := hfound
        received := by
          simpa [GenesisIntent.Open, GenesisIntent.NeedsDesign, drafted] using hdesign
        designRequired := by
          simpa [GenesisIntent.Open, GenesisIntent.NeedsDesign, drafted] using hdesign
        launched := by simp [drafted]
        proposed := by simp [drafted]
        selected := by simp [drafted]
        times := hclock (Nat.le_succ _) }

/-- The application after a card creation. -/
theorem createCard_grows (ha : IntentsKept w a) {panel : String} {payload : JsonObj}
    {metadata : Option JsonObj} {key : Option String} {r : Except PyErr Card}
    (h : (App.cardRuntime.createCard panel payload metadata key).run w a = (r, a')) :
    a'.store.genesis = a.store.genesis ∧ Grows a a' := by
  rcases createCard_creates h with rfl | ⟨b, c, e, rfl, hcreates⟩
  · exact ⟨rfl, .refl _⟩
  · have heffect : Effect w (App.runtimeMachine a) b := .creates hcreates
    have hkept := heffect.cardsKept ha.platform.cards.keyed ha.platform.cards.issued
    exact ⟨rfl, .of_registry hcreates.later.ticks rfl hkept.contains⟩

theorem createCard_lists (ha : IntentsKept w a) {panel : String} {payload : JsonObj}
    {metadata : Option JsonObj} {key : String} {c : Card}
    (h : (App.cardRuntime.createCard panel payload metadata (some key)).run w a = (.ok c, a')) :
    a'.store.runtime.cards.contains c.id := by
  obtain ⟨b, hb, rfl⟩ := App.runtime_cases (x := InMemoryCardRuntime.createCard _ _ _ _) h
  exact createCard_stored (w := w) (m := App.runtimeMachine a) ha.answers hb

/-- The intent that a card is noted on follows the stored one. -/
theorem IntentsKept.later (ha : IntentsKept w a) (hclock : Monotone w.clock) {id : Uuid}
    {i : GenesisIntent} (hi : a.store.genesis.intents.get? id = some i) {ticks : Nat}
    (hticks : a.ticks ≤ ticks) : i.updatedAt ≤ w.clock ticks := by
  obtain ⟨t, ht, hupdated⟩ := ha.recent id i hi
  rw [hupdated]
  exact hclock (ht.trans hticks)

theorem receive_writes (hclock : Monotone w.clock) (ha : IntentsKept w a)
    (request : ReceiveIntent) : IntentWrite w a ((GenesisCall.receive request).step w a) ∧
      Grows a ((GenesisCall.receive request).step w a) := by
  rcases hrun : (App.genesisService.receiveIntent request).run w a with ⟨r, a'⟩
  have hstep : (GenesisCall.receive request).step w a = a' := congrArg Prod.snd hrun
  rw [hstep]
  rcases GenesisService.receiveIntent_outcome hrun with ⟨intentId, -, h⟩ |
    ⟨hkey, ⟨rfl, e, rfl⟩ | ⟨found, ticks, hticks, hnamed, hsearch, i, rfl, hi, rfl⟩⟩
  · rw [GenesisService.run_get] at h
    cases h
    exact ⟨.nothing rfl, .refl _⟩
  · exact ⟨.nothing rfl, .of_registry (Nat.le_add_right _ 2) rfl fun _ => id⟩
  · obtain ⟨hnodup, hstored⟩ := searchCandidates_found
      (a := ⟨a.store, a.ticks + 2, a.draws + 1⟩) ha.registry hsearch
    have hfields : i.id = w.uuid4 a.draws ∧ i.deduplicationKey = request.deduplicationKey ∧
        i.candidateRegistryEntryIds = found.map (·.id) ∧ i.selectedRegistryEntryId = none ∧
        i.launchedCardId = none ∧ i.proposalCardId = none ∧
        ∃ t ≤ ticks, i.updatedAt = w.clock t := by
      rw [hi]
      unfold searched
      split
      · exact ⟨rfl, rfl, rfl, rfl, rfl, rfl, a.ticks + 2, hticks, rfl⟩
      · exact ⟨rfl, rfl, rfl, rfl, rfl, rfl, a.ticks + 1, by omega, rfl⟩
    obtain ⟨hid, hsame, hcandidates, hselected, hlaunched, hproposed, hrecent⟩ := hfields
    refine ⟨.files i ?_ ?_ ?_ ?_ hrecent ?_,
      .of_registry (Nat.le_of_add_right_le hticks) rfl fun _ => id⟩
    · cases hget : a.store.genesis.intents.get? i.id with
      | none => rfl
      | some old =>
        obtain ⟨n, hn, hold⟩ := ha.platform.intents.drawn _ _ hget
        have heq : a.draws = n := w.uuid4_injective (hid.symm.trans hold)
        omega
    · rw [hsame]
      exact hkey
    · rw [hi]
      exact searched_consistent hclock hnamed a.ticks a.draws hnodup
    · constructor
      · intro id hmem
        rw [hcandidates] at hmem
        obtain ⟨e, he, rfl⟩ := List.mem_map.mp hmem
        exact Option.isSome_iff_exists.mpr ⟨e, hstored e he⟩
      · simp [hselected]
      · simp [hlaunched]
      · simp [hproposed]
    · rw [hsame]

/-- An intent that is moved on because a card has been returned for it. -/
theorem createCard_noted (hclock : Monotone w.clock) (ha : IntentsKept w a) {id : Uuid}
    {intent new : GenesisIntent} (hintent : a.store.genesis.intents.get? id = some intent)
    {b : Machine App} {panel : String} {payload : JsonObj} {metadata : Option JsonObj}
    {key : String} {card : Card}
    (hcard : (App.cardRuntime.createCard panel payload metadata (some key)).run w a = (.ok card, b))
    (hstep : intent.updatedAt ≤ w.clock b.ticks → intent.Step new)
    (hupdated : new.updatedAt = w.clock b.ticks)
    (hlinked : intent.Linked b.store → b.store.runtime.cards.contains card.id → new.Linked b.store) :
    IntentWrite w a ((App.genesisService.putIntent new).run w { b with ticks := b.ticks + 1 }).2 ∧
      Grows a ((App.genesisService.putIntent new).run w { b with ticks := b.ticks + 1 }).2 := by
  obtain ⟨hgenesis, hgrows⟩ := createCard_grows ha hcard
  have hstored : a.store.genesis.intents.get? intent.id = some intent := by
    rw [ha.accounted.keyed _ _ hintent]
    exact hintent
  have hmoved := hstep (ha.later hclock hstored hgrows.ticks)
  have hnew := hlinked ((ha.accounted.linked _ _ hstored).grow hgrows) (createCard_lists ha hcard)
  refine ⟨.moves intent new hstored hmoved ?_ ⟨b.ticks, Nat.le_succ _, hupdated⟩ ?_,
    ⟨hgrows.ticks.trans (Nat.le_succ _), hgrows.entries, hgrows.keyed, hgrows.cards⟩⟩
  · exact ⟨hnew.candidates, hnew.selected, hnew.launched, hnew.proposed⟩
  · rw [← hgenesis, ← hmoved.id_eq]
    rfl

theorem launch_writes (hclock : Monotone w.clock) (ha : IntentsKept w a) (intentId : Uuid)
    (registryEntryId : Option Uuid) :
    IntentWrite w a ((GenesisCall.launch intentId registryEntryId).step w a) ∧
      Grows a ((GenesisCall.launch intentId registryEntryId).step w a) := by
  rcases hrun : (App.genesisService.launch intentId registryEntryId).run w a with ⟨r, a'⟩
  have hstep : (GenesisCall.launch intentId registryEntryId).step w a = a' :=
    congrArg Prod.snd hrun
  rw [hstep]
  rcases GenesisService.launch_cases appRegistry_gets hrun with
    ⟨rfl, -⟩ | ⟨intent, entry, b, hselects, hcard, hafter⟩
  · exact ⟨.nothing rfl, .refl _⟩
  obtain ⟨hgenesis, hgrows⟩ := createCard_grows ha hcard
  rcases hafter with ⟨rfl, -⟩ | ⟨card, rfl, rfl⟩
  · exact ⟨.nothing hgenesis, hgrows⟩
  refine createCard_noted hclock ha hselects.stored hcard (.launch entry.id card.id _) rfl ?_
  intro hlinked hlisted
  obtain ⟨selected, hselected, hentry⟩ := hselects.chosen
  have hentryId : entry.id = selected := ha.registry selected entry hentry
  constructor
  · exact hlinked.candidates
  · intro id hid
    cases hid
    rw [hentryId]
    exact hgrows.entries _ (Option.isSome_iff_exists.mpr ⟨entry, hentry⟩)
  · intro id hid
    cases hid
    exact hlisted
  · exact hlinked.proposed

theorem propose_writes (hclock : Monotone w.clock) (ha : IntentsKept w a) (intentId : Uuid)
    (proposedBy : String) (candidate : PatchPanel) (metadata : PatchPanelRegistryMetadata)
    (baseId baseVersion : Option String) :
    IntentWrite w a ((GenesisCall.propose intentId proposedBy candidate metadata baseId
      baseVersion).step w a) ∧ Grows a ((GenesisCall.propose intentId proposedBy candidate
        metadata baseId baseVersion).step w a) := by
  rcases hrun : (App.genesisService.propose intentId proposedBy candidate metadata baseId
    baseVersion).run w a with ⟨r, a'⟩
  have hstep : (GenesisCall.propose intentId proposedBy candidate metadata baseId
    baseVersion).step w a = a' := congrArg Prod.snd hrun
  rw [hstep]
  rcases GenesisService.propose_outcome hrun with ⟨rfl, -⟩ | ⟨intent, b, hintent, hcard, hafter⟩
  · exact ⟨.nothing rfl, .refl _⟩
  obtain ⟨hgenesis, hgrows⟩ := createCard_grows ha hcard
  rcases hafter with ⟨rfl, -⟩ | ⟨card, rfl, rfl⟩
  · exact ⟨.nothing hgenesis, hgrows⟩
  refine createCard_noted hclock ha hintent hcard (.propose card.id _) rfl ?_
  intro hlinked hlisted
  constructor
  · exact hlinked.candidates
  · exact hlinked.selected
  · exact hlinked.launched
  · intro id hid
    cases hid
    exact hlisted

/-- Every call of the platform files an intent, moves one on or leaves them alone. -/
theorem PlatformCall.writes (hclock : Monotone w.clock) (ha : IntentsKept w a)
    (call : PlatformCall) : IntentWrite w a (call.step w a) ∧ Grows a (call.step w a) := by
  cases call with
  | runtime call =>
    have heffect := RuntimeCall.step_effect w (App.runtimeMachine a) call
    have hkept := heffect.cardsKept ha.platform.cards.keyed ha.platform.cards.issued
    exact ⟨.nothing rfl, .of_registry heffect.later.ticks rfl hkept.contains⟩
  | registry call =>
    obtain ⟨hstore, -⟩ := call.step_via (w := w) (a := a)
    have hsame : (call.step w a).store.genesis = a.store.genesis := congrArg (·.genesis) hstore
    exact ⟨.nothing hsame, call.step_grows a⟩
  | genesis call =>
    cases call with
    | receive request => exact receive_writes hclock ha request
    | launch intentId registryEntryId => exact launch_writes hclock ha intentId registryEntryId
    | propose intentId proposedBy candidate metadata baseId baseVersion =>
      exact propose_writes hclock ha intentId proposedBy candidate metadata baseId baseVersion

/-- A card under a key stays stored. -/
theorem PlatformCall.step_answers (ha : IntentsKept w a) (call : PlatformCall) :
    (call.step w a).store.runtime.AnswersStored := by
  have hstart : (App.runtimeMachine a).store.AnswersStored := ha.answers
  cases call with
  | runtime call => exact hstart.effect ha.platform.cards (RuntimeCall.step_effect w _ call)
  | registry call =>
    obtain ⟨hstore, -⟩ := call.step_via (w := w) (a := a)
    have hruntime : (call.step w a).store.runtime = a.store.runtime := by
      rw [hstore]
      rfl
    change (call.step w a).store.runtime.AnswersStored
    rw [hruntime]
    exact hstart
  | genesis call =>
    change (call.step w a).store.runtime.AnswersStored
    rcases call.step_runtime (w := w) (a := a) with
      hsame | ⟨b, panel, payload, tags, key, c, e, hb, hcreates, -⟩
    · rw [hsame]
      exact hstart
    · rw [hb]
      exact hstart.effect ha.platform.cards (.creates hcreates)

theorem IntentsKept.step (hclock : Monotone w.clock) (ha : IntentsKept w a)
    (call : PlatformCall) : IntentsKept w (call.step w a) := by
  obtain ⟨hwrite, hgrows⟩ := call.writes hclock ha
  exact
    { platform := ha.platform.step call
      registry := hgrows.keyed ha.registry
      answers := call.step_answers ha
      accounted := hwrite.accounted ha.accounted hgrows
      recent := hwrite.recent hgrows.ticks ha.recent }

/-- From one point of a run to a later one: nothing goes away, and every intent follows the one
before. -/
structure Develops (a a' : Machine App) : Prop where
  grows : Grows a a'
  intents : ∀ id i, a.store.genesis.intents.get? id = some i → ∃ i',
    a'.store.genesis.intents.get? id = some i' ∧ i.Follows i'

theorem Develops.refl (a : Machine App) : Develops a a := ⟨.refl a, fun _ i hi => ⟨i, hi, .refl i⟩⟩

theorem Develops.trans {a'' : Machine App} (h : Develops a a') (h' : Develops a' a'') :
    Develops a a'' := by
  refine ⟨h.grows.trans h'.grows, fun id i hi => ?_⟩
  obtain ⟨i', hi', hstep⟩ := h.intents id i hi
  obtain ⟨i'', hi'', hlater⟩ := h'.intents id i' hi'
  exact ⟨i'', hi'', hstep.trans hlater⟩

theorem IntentsKept.develops (hclock : Monotone w.clock) (ha : IntentsKept w a)
    (call : PlatformCall) : Develops a (call.step w a) := by
  obtain ⟨hwrite, hgrows⟩ := call.writes hclock ha
  exact ⟨hgrows, fun id i hi => hwrite.follows hi⟩

/-- What does not write to the runtime, the registry and the records of the service. -/
structure Aside (a a' : Machine App) : Prop where
  runtime : a'.store.runtime = a.store.runtime
  registry : a'.store.registry = a.store.registry
  genesis : a'.store.genesis = a.store.genesis
  ticks : a.ticks ≤ a'.ticks
  draws : a.draws ≤ a'.draws

theorem Aside.develops (h : Aside a a') : Develops a a' := by
  refine ⟨.of_registry h.ticks h.registry ?_, fun id i hi => ?_⟩
  · rw [h.runtime]
    exact fun _ => id
  · rw [h.genesis]
    exact ⟨i, hi, .refl i⟩

theorem IntentsKept.aside (ha : IntentsKept w a) (h : Aside a a') : IntentsKept w a' := by
  have hwrite : IntentWrite w a a' := .nothing h.genesis
  have hgrows := h.develops.grows
  exact
    { platform :=
        { cards := ha.platform.cards.of_same h.runtime h.draws
          intents := ha.platform.intents.of_same (congrArg GenesisStore.intents h.genesis) h.draws }
      registry := hgrows.keyed ha.registry
      answers := by
        rw [h.runtime]
        exact ha.answers
      accounted := hwrite.accounted ha.accounted hgrows
      recent := hwrite.recent hgrows.ticks ha.recent }

/-- An application whose runtime, registry and genesis service are new. -/
def App.newPlatform (s : App) (ticks draws : Nat) : Machine App :=
  ({ s with registry := InMemoryPatchPanelRegistry.init } : App).newGenesis ticks draws

theorem IntentsKept.start (s : App) (ticks draws : Nat) :
    IntentsKept w (s.newPlatform ticks draws) where
  platform := .start _ ticks draws
  registry id e he := by cases he
  answers k c hc := by
    unfold InMemoryCardRuntime.cached at hc
    cases hkey : truthyStr (some k) with
    | none =>
      rw [hkey] at hc
      cases hc
    | some key =>
      rw [hkey] at hc
      cases hc
  accounted :=
    { keyed := fun id i hi => by cases hi
      indexed := .empty
      consistent := fun id i hi => by cases hi
      linked := fun id i hi => by cases hi }
  recent id i hi := by cases hi

/-- A request under a known key is answered with the stored intent and changes nothing. -/
theorem receive_known (ha : IntentsAccounted a.store) {id : Uuid} {i : GenesisIntent}
    (hi : a.store.genesis.intents.get? id = some i) {request : ReceiveIntent}
    (hkey : request.deduplicationKey = i.deduplicationKey) :
    (App.genesisService.receiveIntent request).run w a = (.ok i, a) := by
  have hknown : (App.genesisService.store.get a.store).deduplicationIndex.get?
      request.deduplicationKey = some id := by
    rw [hkey]
    exact ha.indexed.found hi
  have hstored : (App.genesisService.store.get a.store).intents.get? id = some i := hi
  unfold GenesisService.receiveIntent
  rw [Exec.run_bind_ok GenesisService.run_storeGet, hknown]
  dsimp only
  rw [GenesisService.run_get, hstored]

end Calls

end GhostMesh
