import GhostMesh.Genesis.Lifecycle

/-!
# Asking again

A launch or a proposal asks the runtime for its card under a key that is made of what the
intent keeps, so that the key answers the same call at every later time.
-/

set_option autoImplicit false

namespace GhostMesh

open InMemoryCardRuntime Op
open GenesisService (launchKey proposeKey)

/-- The key under which a call asks the runtime for its card. -/
def GenesisCall.AsksUnder (s : App) (k : String) : GenesisCall → Prop
  | receive _ => False
  | launch intentId registryEntryId => ∃ intent entry,
    App.genesisService.Selects (fun s => s.registry.entries) s intentId registryEntryId intent
      entry ∧ launchKey intent entry = k
  | propose intentId _ candidate _ _ _ => ∃ intent,
    s.genesis.intents.get? intentId = some intent ∧ proposeKey intent candidate = k

/-- The call returns the card. -/
def GenesisCall.Returns (w : World) (a : Machine App) (card : Card) : GenesisCall → Prop
  | receive _ => False
  | launch intentId registryEntryId =>
    ((App.genesisService.launch intentId registryEntryId).run w a).1 = .ok card
  | propose intentId proposedBy candidate metadata baseId baseVersion =>
    ((App.genesisService.propose intentId proposedBy candidate metadata baseId baseVersion).run
      w a).1 = .ok card

section Again
variable {w : World} {a a' : Machine App} {k : String} {card : Card}

theorem launchKey_ne (intent : GenesisIntent) (entry : PatchPanelRegistryEntry) :
    launchKey intent entry ≠ "" := by
  unfold launchKey
  intro hempty
  have hprefix : "genesis:launch:" = "" := by
    simp only [String.append_eq_empty_iff] at hempty
    exact hempty.1.1.1
  exact absurd hprefix (by decide)

theorem proposeKey_ne (intent : GenesisIntent) (candidate : PatchPanel) :
    proposeKey intent candidate ≠ "" := by
  unfold proposeKey
  intro hempty
  have hprefix : "genesis:propose:" = "" := by
    simp only [String.append_eq_empty_iff] at hempty
    exact hempty.1.1.1.1.1
  exact absurd hprefix (by decide)

/-- With an answer under its key a creation returns it and changes nothing. -/
theorem createCard_of_answer (h : answer k a = some (.card card)) (panel : String)
    (payload : JsonObj) (metadata : Option JsonObj) :
    (App.cardRuntime.createCard panel payload metadata (some k)).run w a = (.ok card, a) := by
  rcases hrun : (App.cardRuntime.createCard panel payload metadata (some k)).run w a with ⟨r, a'⟩
  obtain ⟨b, hb, rfl⟩ := App.runtime_cases (x := InMemoryCardRuntime.createCard _ _ _ _) hrun
  have hreturns : ((InMemoryCardRuntime.createCard panel payload metadata (some k)).run w
      (App.runtimeMachine a)).1 = .ok card :=
    (createCard_returns_iff payload metadata).mpr (.inl h)
  obtain rfl : r = .ok card := (congrArg Prod.fst hb).symm.trans hreturns
  rcases createCard_cases hb with rfl | ⟨c, e, -, hcreates⟩
  · rfl
  · have huncached : answer k a = none := hcreates.uncached
    rw [h] at huncached
    cases huncached

theorem answer_of_createCard (hk : k ≠ "") {panel : String} {payload : JsonObj}
    {metadata : Option JsonObj}
    (h : (App.cardRuntime.createCard panel payload metadata (some k)).run w a = (.ok card, a')) :
    answer k a' = some (.card card) := by
  obtain ⟨b, hb, rfl⟩ := App.runtime_cases (x := InMemoryCardRuntime.createCard _ _ _ _) h
  exact createCard_kept hk hb

/-- A card that a call returns is from then on the answer of the key that it asks under. -/
theorem GenesisCall.Returns.answered {call : GenesisCall} (h : call.Returns w a card) :
    ∃ k, call.AsksUnder a.store k ∧ answer k (call.step w a) = some (.card card) := by
  cases call with
  | receive request => exact h.elim
  | launch intentId registryEntryId =>
    rcases hrun : (App.genesisService.launch intentId registryEntryId).run w a with ⟨r, a'⟩
    obtain rfl : r = .ok card := (congrArg Prod.fst hrun).symm.trans h
    have hstep : (GenesisCall.launch intentId registryEntryId).step w a = a' :=
      congrArg Prod.snd hrun
    rw [hstep]
    rcases GenesisService.launch_cases appRegistry_gets hrun with
      ⟨-, ⟨e, he⟩, -⟩ | ⟨intent, entry, b, hselects, hcard, hafter⟩
    · cases he
    have hanswer := answer_of_createCard (launchKey_ne intent entry) hcard
    rcases hafter with ⟨-, e, he⟩ | ⟨c, -, rfl⟩
    · cases he
    · exact ⟨_, ⟨intent, entry, hselects, rfl⟩, hanswer⟩
  | propose intentId proposedBy candidate metadata baseId baseVersion =>
    rcases hrun : (App.genesisService.propose intentId proposedBy candidate metadata baseId
      baseVersion).run w a with ⟨r, a'⟩
    obtain rfl : r = .ok card := (congrArg Prod.fst hrun).symm.trans h
    have hstep : (GenesisCall.propose intentId proposedBy candidate metadata baseId
      baseVersion).step w a = a' := congrArg Prod.snd hrun
    rw [hstep]
    rcases GenesisService.propose_outcome hrun with
      ⟨-, e, he⟩ | ⟨intent, b, hintent, hcard, hafter⟩
    · cases he
    have hanswer := answer_of_createCard (proposeKey_ne intent candidate) hcard
    rcases hafter with ⟨-, e, he⟩ | ⟨c, -, rfl⟩
    · cases he
    · exact ⟨_, ⟨intent, hintent, rfl⟩, hanswer⟩

/-- The key of a call stays the same, whatever happens. -/
theorem GenesisCall.AsksUnder.later {call : GenesisCall} (h : call.AsksUnder a.store k)
    (ha : IntentsKept w a) (ha' : IntentsKept w a') (hdevelops : Develops a a') :
    call.AsksUnder a'.store k := by
  cases call with
  | receive request => exact h.elim
  | launch intentId registryEntryId =>
    obtain ⟨intent, entry, hselects, rfl⟩ := h
    obtain ⟨selected, hselected, hentry⟩ := hselects.chosen
    obtain ⟨intent', hintent', hlater⟩ := hdevelops.intents _ _ hselects.stored
    have hcontains := hdevelops.grows.entries selected (Option.isSome_iff_exists.mpr ⟨entry, hentry⟩)
    obtain ⟨entry', hentry'⟩ := Option.isSome_iff_exists.mp hcontains
    have hsame : entry'.id = entry.id :=
      (ha'.registry selected entry' hentry').trans (ha.registry selected entry hentry).symm
    refine ⟨intent', entry', ⟨hintent', selected, ?_, hentry'⟩, ?_⟩
    · rw [hlater.request]
      exact hselected
    · rw [hlater.request]
      unfold launchKey
      rw [hsame]
  | propose intentId proposedBy candidate metadata baseId baseVersion =>
    obtain ⟨intent, hintent, rfl⟩ := h
    obtain ⟨intent', hintent', hlater⟩ := hdevelops.intents _ _ hintent
    refine ⟨intent', hintent', ?_⟩
    rw [hlater.request]
    rfl

/-- A launch whose card creation finds the card. -/
theorem launch_of_card {intentId : Uuid} {registryEntryId : Option Uuid} {intent : GenesisIntent}
    {entry : PatchPanelRegistryEntry} (hselects : App.genesisService.Selects
      (fun s => s.registry.entries) a.store intentId registryEntryId intent entry)
    (hcard : (App.genesisService.launchCard intent entry).run w a = (.ok card, a)) :
    (App.genesisService.launch intentId registryEntryId).run w a =
      (.ok card, ((App.genesisService.putIntent (GenesisService.launched intent entry card
        (w.clock a.ticks))).run w { a with ticks := a.ticks + 1 }).2) := by
  obtain ⟨selected, hselected, hentry⟩ := hselects.chosen
  have hget : (App.genesisService.get intentId).run w a = (.ok intent, a) := by
    rw [GenesisService.run_get, hselects.stored]
  have hfound : (App.patchPanelRegistry.get selected).run w a = (.ok entry, a) := by
    rw [appRegistry_gets, hentry]
  unfold GenesisService.launch
  rw [Exec.run_bind_ok hget]
  simp only [hselected]
  refine (Exec.run_bind_ok hfound).trans ((Exec.run_bind_ok hcard).trans ?_)
  rw [Exec.run_bind_ok (Op.run_now w a)]
  rfl

theorem propose_of_card {intentId : Uuid} {proposedBy : String} {candidate : PatchPanel}
    {metadata : PatchPanelRegistryMetadata} {baseId baseVersion : Option String}
    {intent : GenesisIntent} (hintent : a.store.genesis.intents.get? intentId = some intent)
    (hcard : (App.genesisService.proposalCard intent proposedBy candidate metadata baseId
      baseVersion).run w a = (.ok card, a)) :
    (App.genesisService.propose intentId proposedBy candidate metadata baseId baseVersion).run w a =
      (.ok card, ((App.genesisService.putIntent { intent with
        status := .proposed, proposalCardId := some card.id, updatedAt := w.clock a.ticks }).run w
          { a with ticks := a.ticks + 1 }).2) := by
  have hstored : (App.genesisService.store.get a.store).intents.get? intentId = some intent :=
    hintent
  have hget : (App.genesisService.get intentId).run w a = (.ok intent, a) := by
    rw [GenesisService.run_get, hstored]
  unfold GenesisService.propose
  rw [Exec.run_bind_ok hget]
  refine (Exec.run_bind_ok hcard).trans ?_
  rw [Exec.run_bind_ok (Op.run_now w a)]
  rfl

/-- A call whose key has an answer returns it and leaves the runtime as it is. -/
theorem GenesisCall.AsksUnder.returns {call : GenesisCall} (h : call.AsksUnder a.store k)
    (hanswer : answer k a = some (.card card)) :
    call.Returns w a card ∧ (call.step w a).store.runtime = a.store.runtime := by
  cases call with
  | receive request => exact h.elim
  | launch intentId registryEntryId =>
    obtain ⟨intent, entry, hselects, rfl⟩ := h
    have hrun := launch_of_card (w := w) hselects (createCard_of_answer hanswer _ _ _)
    exact ⟨congrArg Prod.fst hrun, congrArg (·.2.store.runtime) hrun⟩
  | propose intentId proposedBy candidate metadata baseId baseVersion =>
    obtain ⟨intent, hintent, rfl⟩ := h
    have hrun : (App.genesisService.propose intentId proposedBy candidate metadata baseId
        baseVersion).run w a = _ :=
      propose_of_card hintent (createCard_of_answer hanswer _ _ _)
    exact ⟨congrArg Prod.fst hrun, congrArg (·.2.store.runtime) hrun⟩

end Again

end GhostMesh
