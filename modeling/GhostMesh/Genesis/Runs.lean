import GhostMesh.Nodes.Services

/-!
# Runs of the genesis service

A run is any sequence of operations of the runtime, of the registry and of the genesis
service. An intent is stored by the request that is first to use its key, and keeps
what that request said.
-/

set_option autoImplicit false

namespace GhostMesh

open InMemoryCardRuntime Op
open Exec (bind_cases bind_same)

/-! ## A launch on any stores -/

/-- The registry looks its entries up and changes nothing. -/
def PatchPanelRegistry.Gets {σ : Type} (R : PatchPanelRegistry σ)
    (entries : σ → Dict Uuid PatchPanelRegistryEntry) : Prop :=
  ∀ w m id, (R.get id).run w m =
    (match (entries m.store).get? id with
      | some e => .ok e
      | none => .error (.notFound s!"Patch Panel registry entry '{id.str}' does not exist"), m)

theorem PatchPanelRegistry.Gets.bind {σ β : Type} {R : PatchPanelRegistry σ}
    {entries : σ → Dict Uuid PatchPanelRegistryEntry} (hgets : R.Gets entries) {w : World}
    {m m' : Machine σ} {id : Uuid} {f : PatchPanelRegistryEntry → Op σ β} {r : Except PyErr β}
    (h : (R.get id >>= f).run w m = (r, m')) :
    (m' = m ∧ (entries m.store).get? id = none ∧ ∃ e, r = .error e) ∨
      ∃ entry, (entries m.store).get? id = some entry ∧ (f entry).run w m = (r, m') :=
  Exec.bind_lookup (fun entry hentry => by rw [hgets, hentry])
    (fun hentry => ⟨_, by rw [hgets, hentry]⟩) h

namespace GenesisService

section Launch
variable {σ : Type} (x : GenesisService σ) (entries : σ → Dict Uuid PatchPanelRegistryEntry)

/-- The intent and the entry that a launch gets as far as. -/
structure Selects (s : σ) (intentId : Uuid) (registryEntryId : Option Uuid)
    (intent : GenesisIntent) (entry : PatchPanelRegistryEntry) : Prop where
  stored : (x.store.get s).intents.get? intentId = some intent
  chosen : ∃ selected, selectedId intent registryEntryId = some selected ∧
    (entries s).get? selected = some entry

def launchKey (intent : GenesisIntent) (entry : PatchPanelRegistryEntry) : String :=
  s!"genesis:launch:{intent.deduplicationKey}:{entry.id.str}"

/-- The card that a launch asks the runtime for. -/
def launchCard (intent : GenesisIntent) (entry : PatchPanelRegistryEntry) : Op σ Card :=
  x.runtime.createCard entry.patchPanelId
    [("goal", .str intent.goal), ("input_type", .str intent.inputType),
      ("desired_outputs", Json.ofStrings intent.desiredOutputs),
      ("tags", Json.ofStrings intent.tags), ("constraints", intent.constraints.toJson)]
    (some [("genesis_intent_id", .str intent.id.str), ("registry_entry_id", .str entry.id.str),
      ("requested_by", .str intent.requestedBy)])
    (some (launchKey intent entry))

def launched (intent : GenesisIntent) (entry : PatchPanelRegistryEntry) (card : Card)
    (updatedAt : Instant) : GenesisIntent :=
  { intent with
    status := .launched, selectedRegistryEntryId := some entry.id,
    launchedCardId := some card.id, updatedAt }

variable {x entries} {w : World} {m m' : Machine σ}

theorem Selects.unique {s : σ} {intentId : Uuid} {registryEntryId : Option Uuid}
    {intent intent' : GenesisIntent} {entry entry' : PatchPanelRegistryEntry}
    (h : x.Selects entries s intentId registryEntryId intent entry)
    (h' : x.Selects entries s intentId registryEntryId intent' entry') :
    intent' = intent ∧ entry' = entry := by
  obtain rfl : intent' = intent := Option.some.inj (h'.stored.symm.trans h.stored)
  obtain ⟨selected, hselected, hentry⟩ := h.chosen
  obtain ⟨selected', hselected', hentry'⟩ := h'.chosen
  rw [hselected] at hselected'
  cases hselected'
  exact ⟨rfl, Option.some.inj (hentry'.symm.trans hentry)⟩

theorem run_storeGet : (Op.on x.store Op.get).run w m = (.ok (x.store.get m.store), m) := by
  rw [Op.run_on]
  simp only [Op.run_get, x.store.put_get]

theorem run_get (intentId : Uuid) : (x.get intentId).run w m =
    (match (x.store.get m.store).intents.get? intentId with
      | some intent => .ok intent
      | none => .error (.notFound s!"genesis intent '{intentId.str}' does not exist"), m) := by
  unfold get
  rw [Exec.run_bind_ok run_storeGet]
  cases (x.store.get m.store).intents.get? intentId <;> rfl

theorem get_bind {β : Type} {intentId : Uuid} {f : GenesisIntent → Op σ β} {r : Except PyErr β}
    (h : (x.get intentId >>= f).run w m = (r, m')) :
    (m' = m ∧ (x.store.get m.store).intents.get? intentId = none ∧ ∃ e, r = .error e) ∨
      ∃ intent, (x.store.get m.store).intents.get? intentId = some intent ∧
        (f intent).run w m = (r, m') :=
  Exec.bind_lookup (fun intent hintent => by rw [run_get, hintent])
    (fun hintent => ⟨_, by rw [run_get, hintent]⟩) h

/-- A launch raises before it gets to an entry, or its outcome is that of the card
creation. -/
theorem launch_cases (hgets : x.registry.Gets entries) {intentId : Uuid}
    {registryEntryId : Option Uuid} {r : Except PyErr Card}
    (h : (x.launch intentId registryEntryId).run w m = (r, m')) :
    (m' = m ∧ (∃ e, r = .error e) ∧
      ∀ intent entry, ¬ x.Selects entries m.store intentId registryEntryId intent entry) ∨
    ∃ intent entry b, x.Selects entries m.store intentId registryEntryId intent entry ∧
      (x.launchCard intent entry).run w m = (r, b) ∧
      ((m' = b ∧ ∃ e, r = .error e) ∨ ∃ card, r = .ok card ∧
        m' = ((x.putIntent (launched intent entry card (w.clock b.ticks))).run w
          { b with ticks := b.ticks + 1 }).2) := by
  unfold launch at h
  obtain ⟨rfl, hnone, e, rfl⟩ | ⟨intent, hstored, h⟩ := get_bind h
  · refine .inl ⟨rfl, ⟨e, rfl⟩, fun intent entry hselects => ?_⟩
    rw [hselects.stored] at hnone
    cases hnone
  have honly : ∀ intent' entry,
      x.Selects entries m.store intentId registryEntryId intent' entry → intent' = intent := by
    intro intent' entry hselects
    exact Option.some.inj (hselects.stored.symm.trans hstored)
  cases hselected : selectedId intent registryEntryId with
  | none =>
    rw [hselected] at h
    cases h
    refine .inl ⟨rfl, ⟨_, rfl⟩, fun intent' entry hselects => ?_⟩
    obtain ⟨selected, hsome, -⟩ := hselects.chosen
    rw [honly _ _ hselects, hselected] at hsome
    cases hsome
  | some selected =>
    simp only [hselected] at h
    obtain ⟨rfl, hnone, e, rfl⟩ | ⟨entry, hget, h⟩ := hgets.bind h
    · refine .inl ⟨rfl, ⟨e, rfl⟩, fun intent' entry hselects => ?_⟩
      obtain ⟨selected', hsome, hget⟩ := hselects.chosen
      rw [honly _ _ hselects, hselected] at hsome
      cases hsome
      rw [hget] at hnone
      cases hnone
    have hselects : x.Selects entries m.store intentId registryEntryId intent entry :=
      ⟨hstored, selected, hselected, hget⟩
    refine .inr ⟨intent, entry, ?_⟩
    rcases bind_cases h with ⟨e, hcard, rfl⟩ | ⟨card, b, hcard, h⟩
    · exact ⟨m', hselects, hcard, .inl ⟨rfl, e, rfl⟩⟩
    · refine ⟨b, hselects, ?_⟩
      rw [Exec.run_bind_ok (Op.run_now w b)] at h
      cases h
      exact ⟨hcard, .inr ⟨card, rfl, rfl⟩⟩

/-- A launch returns the card that the runtime answers for the entry. -/
theorem launch_returns_iff (hgets : x.registry.Gets entries) {intentId : Uuid}
    {registryEntryId : Option Uuid} {card : Card} :
    ((x.launch intentId registryEntryId).run w m).1 = .ok card ↔
      ∃ intent entry, x.Selects entries m.store intentId registryEntryId intent entry ∧
        ((x.launchCard intent entry).run w m).1 = .ok card := by
  rcases hrun : (x.launch intentId registryEntryId).run w m with ⟨r, m'⟩
  rcases launch_cases hgets hrun with
    ⟨-, ⟨e, rfl⟩, hnone⟩ | ⟨intent, entry, b, hselects, hcard, -⟩
  · constructor
    · intro hok
      cases hok
    · rintro ⟨intent, entry, hselects, -⟩
      exact (hnone intent entry hselects).elim
  · constructor
    · intro hok
      exact ⟨intent, entry, hselects, (congrArg Prod.fst hcard).trans hok⟩
    · rintro ⟨intent', entry', hselects', hok⟩
      obtain ⟨rfl, rfl⟩ := hselects.unique hselects'
      exact (congrArg Prod.fst hcard).symm.trans hok

def proposeKey (intent : GenesisIntent) (candidate : PatchPanel) : String :=
  s!"genesis:propose:{intent.id.str}:{candidate.id}:" ++ candidate.version

def proposalPayload (intent : GenesisIntent) (proposedBy : String) (candidate : PatchPanel)
    (metadata : PatchPanelRegistryMetadata) (baseId baseVersion : Option String) : JsonObj :=
  [("kind", .str "patch_panel_proposal"), ("proposal_type", .str "create"),
    ("genesis_intent_id", .str intent.id.str), ("proposed_by", .str proposedBy),
    ("candidate_definition", candidate.toJson), ("registry_metadata", metadata.toJson),
    ("base_patch_panel_id", Json.ofOptionStr baseId), ("base_version", Json.ofOptionStr baseVersion)]

/-- The card that a proposal asks the runtime for. -/
def proposalCard (intent : GenesisIntent) (proposedBy : String) (candidate : PatchPanel)
    (metadata : PatchPanelRegistryMetadata) (baseId baseVersion : Option String) : Op σ Card :=
  x.runtime.createCard systemPpApprovalId
    (proposalPayload intent proposedBy candidate metadata baseId baseVersion)
    (some [("genesis_intent_id", .str intent.id.str), ("proposed_by", .str proposedBy),
      ("candidate_patch_panel_id", .str candidate.id)])
    (some (proposeKey intent candidate))

/-- A proposal raises before it gets to the intent, or its outcome is that of the card
creation; a card that is returned is noted. -/
theorem propose_outcome {intentId : Uuid} {proposedBy : String} {candidate : PatchPanel}
    {metadata : PatchPanelRegistryMetadata} {baseId baseVersion : Option String}
    {r : Except PyErr Card}
    (h : (x.propose intentId proposedBy candidate metadata baseId baseVersion).run w m = (r, m')) :
    (m' = m ∧ ∃ e, r = .error e) ∨ ∃ intent b,
      (x.store.get m.store).intents.get? intentId = some intent ∧
      (x.proposalCard intent proposedBy candidate metadata baseId baseVersion).run w m = (r, b) ∧
      ((m' = b ∧ ∃ e, r = .error e) ∨ ∃ card, r = .ok card ∧
        m' = ((x.putIntent { intent with
          status := .proposed, proposalCardId := some card.id, updatedAt := w.clock b.ticks }).run w
            { b with ticks := b.ticks + 1 }).2) := by
  unfold propose at h
  obtain ⟨rfl, -, e, rfl⟩ | ⟨intent, hstored, h⟩ := get_bind h
  · exact .inl ⟨rfl, e, rfl⟩
  rcases bind_cases h with ⟨e, hcard, rfl⟩ | ⟨card, b, hcard, h⟩
  · exact .inr ⟨intent, m', hstored, hcard, .inl ⟨rfl, e, rfl⟩⟩
  · rw [Exec.run_bind_ok (Op.run_now w b)] at h
    cases h
    exact .inr ⟨intent, b, hstored, hcard, .inr ⟨card, rfl, rfl⟩⟩

theorem propose_asks {intentId : Uuid} {proposedBy : String} {candidate : PatchPanel}
    {metadata : PatchPanelRegistryMetadata} {baseId baseVersion : Option String}
    {r : Except PyErr Card}
    (h : (x.propose intentId proposedBy candidate metadata baseId baseVersion).run w m = (r, m')) :
    (m' = m ∧ ∃ e, r = .error e) ∨ ∃ intent b,
      (x.store.get m.store).intents.get? intentId = some intent ∧
      (x.proposalCard intent proposedBy candidate metadata baseId baseVersion).run w m = (r, b) ∧
      (m' = b ∨ ∃ cardId updatedAt, m' = ((x.putIntent { intent with
        status := .proposed, proposalCardId := some cardId, updatedAt }).run w
          { b with ticks := b.ticks + 1 }).2) := by
  rcases propose_outcome h with hearly | ⟨intent, b, hstored, hcard, ⟨rfl, -⟩ | ⟨card, -, hnoted⟩⟩
  · exact .inl hearly
  · exact .inr ⟨intent, _, hstored, hcard, .inl rfl⟩
  · exact .inr ⟨intent, b, hstored, hcard, .inr ⟨card.id, _, hnoted⟩⟩

/-- A proposal raises before it asks for a card, or does what the card creation does
and notes the card. -/
theorem propose_cases {intentId : Uuid} {proposedBy : String} {candidate : PatchPanel}
    {metadata : PatchPanelRegistryMetadata} {baseId baseVersion : Option String}
    {r : Except PyErr Card}
    (h : (x.propose intentId proposedBy candidate metadata baseId baseVersion).run w m = (r, m')) :
    m' = m ∨ ∃ intent rc b panel payload tags key,
      (x.store.get m.store).intents.get? intentId = some intent ∧
      (x.runtime.createCard panel payload tags key).run w m = (rc, b) ∧
      (m' = b ∨ ∃ cardId updatedAt, m' = ((x.putIntent { intent with
        status := .proposed, proposalCardId := some cardId, updatedAt }).run w
          { b with ticks := b.ticks + 1 }).2) := by
  rcases propose_asks h with ⟨rfl, -⟩ | ⟨intent, b, hstored, hcard, hafter⟩
  · exact .inl rfl
  · exact .inr ⟨intent, r, b, _, _, _, _, hstored, hcard, hafter⟩

end Launch

end GenesisService

/-! ## The calls -/

inductive RegistryCall where
  | register (entry : PatchPanelRegistryEntry)
  | updateMetadata (entryId : Uuid) (metadata : PatchPanelRegistryMetadata)
  | archive (entryId : Uuid)
  | supersede (entryId supersededByEntryId : Uuid)

/-- The machine after an operation of the registry, whether it returned or raised. -/
def RegistryCall.step (w : World) (a : Machine App) : RegistryCall → Machine App
  | register entry => ((App.patchPanelRegistry.register entry).run w a).2
  | updateMetadata entryId metadata =>
    ((App.patchPanelRegistry.updateMetadata entryId metadata).run w a).2
  | archive entryId => ((App.patchPanelRegistry.archive entryId).run w a).2
  | supersede entryId supersededByEntryId =>
    ((App.patchPanelRegistry.supersede entryId supersededByEntryId).run w a).2

inductive GenesisCall where
  | receive (request : ReceiveIntent)
  | launch (intentId : Uuid) (registryEntryId : Option Uuid)
  | propose (intentId : Uuid) (proposedBy : String) (candidateDefinition : PatchPanel)
      (registryMetadata : PatchPanelRegistryMetadata) (basePatchPanelId baseVersion : Option String)

def GenesisCall.step (w : World) (a : Machine App) : GenesisCall → Machine App
  | receive request => ((App.genesisService.receiveIntent request).run w a).2
  | launch intentId registryEntryId =>
    ((App.genesisService.launch intentId registryEntryId).run w a).2
  | propose intentId proposedBy candidate metadata baseId baseVersion =>
    ((App.genesisService.propose intentId proposedBy candidate metadata baseId baseVersion).run
      w a).2

inductive PlatformCall where
  | runtime (call : RuntimeCall)
  | registry (call : RegistryCall)
  | genesis (call : GenesisCall)

def PlatformCall.step (w : World) (a : Machine App) : PlatformCall → Machine App
  | runtime call => App.withRuntime a (call.step w (App.runtimeMachine a))
  | registry call => call.step w a
  | genesis call => call.step w a

/-- The machine after a sequence of operations. -/
def runPlatform (w : World) (a : Machine App) (calls : List PlatformCall) : Machine App :=
  calls.foldl (PlatformCall.step w) a

/-- An application whose runtime and genesis service are new, with anything in its
other stores. -/
def App.newGenesis (a : App) (ticks draws : Nat) : Machine App :=
  ({ a with genesis := GenesisStore.init } : App).boot ticks draws

/-! ## What a call does -/

section Steps
variable {w : World} {a a' : Machine App}

theorem appRegistry_gets :
    App.patchPanelRegistry.Gets fun s => s.registry.entries := by
  intro w m id
  change (Op.on App.registryStore (InMemoryPatchPanelRegistry.get id)).run w m = _
  rw [Op.run_on, InMemoryPatchPanelRegistry.run_registryGet]
  rfl

/-- An operation on one entry: it raises, or goes on with the entry. -/
theorem registryGet_later {f : PatchPanelRegistryEntry →
    Op InMemoryPatchPanelRegistry PatchPanelRegistryEntry} {id : Uuid}
    (hf : ∀ e m, m.ticks ≤ ((f e).run w m).2.ticks ∧ m.draws ≤ ((f e).run w m).2.draws)
    (m : Machine InMemoryPatchPanelRegistry) :
    m.ticks ≤ ((InMemoryPatchPanelRegistry.get id >>= f).run w m).2.ticks ∧
      m.draws ≤ ((InMemoryPatchPanelRegistry.get id >>= f).run w m).2.draws := by
  rw [Exec.run_bind, InMemoryPatchPanelRegistry.run_registryGet]
  cases m.store.entries.get? id with
  | none => exact ⟨Nat.le_refl _, Nat.le_refl _⟩
  | some e => exact hf e m

theorem RegistryCall.step_via (call : RegistryCall) :
    Via App.registryStore a (call.step w a) := by
  cases call with
  | register entry =>
    exact Via.on (x := InMemoryPatchPanelRegistry.register entry)
      (fun _ => ⟨Nat.le_refl _, Nat.le_refl _⟩) a
  | updateMetadata entryId metadata =>
    refine Via.on (x := InMemoryPatchPanelRegistry.updateMetadata entryId metadata)
      (registryGet_later fun e m => ?_) a
    rw [Exec.run_bind, Op.run_ensure]
    cases decide (e.status = .draft)
    · exact ⟨Nat.le_refl _, Nat.le_refl _⟩
    · exact ⟨Nat.le_succ _, Nat.le_refl _⟩
  | archive entryId =>
    exact Via.on (x := InMemoryPatchPanelRegistry.archive entryId)
      (registryGet_later fun e m => ⟨Nat.le_add_right _ 2, Nat.le_refl _⟩) a
  | supersede entryId supersededByEntryId =>
    exact Via.on (x := InMemoryPatchPanelRegistry.supersede entryId supersededByEntryId)
      (registryGet_later fun e m => ⟨Nat.le_succ _, Nat.le_refl _⟩) a

theorem run_search (filters : PatchPanelRegistrySearch) :
    (App.patchPanelRegistry.search filters).run w a =
      (.ok (a.store.registry.entries.values.filter (entryMatches · filters)), a) := rfl

theorem run_searchEach (candidates : List PatchPanelRegistryEntry)
    (filters : List PatchPanelRegistrySearch) : ∃ found,
    (App.genesisService.searchEach candidates filters).run w a = (.ok found, a) := by
  induction filters generalizing candidates with
  | nil => exact ⟨candidates, rfl⟩
  | cons f filters ih =>
    obtain ⟨found, hfound⟩ := ih (addUnseen candidates
      (a.store.registry.entries.values.filter (entryMatches · f)))
    exact ⟨found, (Exec.run_bind_ok (run_search f)).trans hfound⟩

namespace GenesisService

/-- The intent that a request is read as. -/
def drafted (w : World) (ticks draws : Nat) (r : ReceiveIntent) : GenesisIntent :=
  { id := w.uuid4 draws, requestedBy := r.requestedBy, deduplicationKey := r.deduplicationKey,
    goal := r.goal, inputType := r.inputType, desiredOutputs := r.desiredOutputs,
    tags := r.tags, constraints := r.constraints, launchIfExisting := r.launchIfExisting,
    proposeIfMissing := r.proposeIfMissing, status := .received,
    candidateRegistryEntryIds := [], selectedRegistryEntryId := none, launchedCardId := none,
    proposalCardId := none, createdAt := w.clock ticks, updatedAt := w.clock (ticks + 1),
    metadata := r.metadata }

/-- The intent with what a search has found by the instant. -/
def searched (intent : GenesisIntent) (found : List PatchPanelRegistryEntry) (t : Instant) :
    GenesisIntent :=
  if found.isEmpty && intent.proposeIfMissing then
    { intent with
      candidateRegistryEntryIds := found.map (·.id), status := .designRequired, updatedAt := t }
  else { intent with candidateRegistryEntryIds := found.map (·.id) }

theorem newIntent_outcome {σ : Type} {m m' : Machine σ} {request : ReceiveIntent}
    {r : Except PyErr GenesisIntent}
    (h : (newIntent request : Op σ GenesisIntent).run w m = (r, m')) :
    m' = ⟨m.store, m.ticks + 2, m.draws + 1⟩ ∧ ((∃ e, r = .error e) ∨
      (request.deduplicationKey ≠ "" ∧ request.goal ≠ "") ∧
        r = .ok (drafted w m.ticks m.draws request)) := by
  unfold newIntent at h
  rw [Exec.run_bind_ok (Op.run_world w m), Exec.run_bind_ok (Op.run_uuid4 w m),
    Exec.run_bind_ok (Op.run_now w _), Exec.run_bind_ok (Op.run_now w _)] at h
  rcases Exec.ensure_bind h with ⟨-, rfl, rfl⟩ | ⟨hnamed, h⟩
  · exact ⟨rfl, .inl ⟨_, rfl⟩⟩
  · cases h
    exact ⟨rfl, .inr ⟨by simpa using hnamed, rfl⟩⟩

theorem withCandidates_run {σ : Type} {m : Machine σ} (intent : GenesisIntent)
    (found : List PatchPanelRegistryEntry) : ∃ ticks, m.ticks ≤ ticks ∧
      (withCandidates intent found).run w m =
        (.ok (searched intent found (w.clock m.ticks)), ⟨m.store, ticks, m.draws⟩) := by
  unfold withCandidates searched
  cases hdesign : found.isEmpty && intent.proposeIfMissing with
  | true =>
    refine ⟨m.ticks + 1, Nat.le_succ _, ?_⟩
    simp only [hdesign, if_true]
    rfl
  | false =>
    refine ⟨m.ticks, Nat.le_refl _, ?_⟩
    simp only [hdesign, Bool.false_eq_true, if_false]
    rfl

/-- A request under a known key answers with the stored intent, and one that is refused
only draws; any other stores the intent it is read as, with what the search finds. -/
theorem receiveIntent_outcome {request : ReceiveIntent} {r : Except PyErr GenesisIntent}
    (h : (App.genesisService.receiveIntent request).run w a = (r, a')) :
    (∃ id, a.store.genesis.deduplicationIndex.get? request.deduplicationKey = some id ∧
      (App.genesisService.get id).run w a = (r, a')) ∨
    a.store.genesis.deduplicationIndex.get? request.deduplicationKey = none ∧
      ((a' = ⟨a.store, a.ticks + 2, a.draws + 1⟩ ∧ ∃ e, r = .error e) ∨
      ∃ found ticks, a.ticks + 2 ≤ ticks ∧
        (request.deduplicationKey ≠ "" ∧ request.goal ≠ "") ∧
        (App.genesisService.searchCandidates (drafted w a.ticks a.draws request)).run w
          ⟨a.store, a.ticks + 2, a.draws + 1⟩ =
            (.ok found, ⟨a.store, a.ticks + 2, a.draws + 1⟩) ∧
        ∃ intent, r = .ok intent ∧
          intent = searched (drafted w a.ticks a.draws request) found (w.clock (a.ticks + 2)) ∧
          a' = ⟨{ a.store with genesis := ⟨a.store.genesis.intents.set intent.id intent,
            a.store.genesis.deduplicationIndex.set request.deduplicationKey intent.id⟩ },
            ticks, a.draws + 1⟩) := by
  unfold receiveIntent at h
  rw [Exec.run_bind_ok run_storeGet] at h
  cases hkey : (App.genesisService.store.get a.store).deduplicationIndex.get?
      request.deduplicationKey with
  | some intentId =>
    simp only [hkey] at h
    exact .inl ⟨intentId, hkey, h⟩
  | none =>
    simp only [hkey] at h
    refine .inr ⟨hkey, ?_⟩
    rcases bind_cases h with ⟨e, hnew, rfl⟩ | ⟨draft, b, hnew, h⟩
    · exact .inl ⟨(newIntent_outcome hnew).1, e, rfl⟩
    obtain ⟨rfl, hdrafted⟩ := newIntent_outcome hnew
    rcases hdrafted with ⟨e, he⟩ | ⟨hnamed, hdraft⟩
    · cases he
    cases hdraft
    obtain ⟨found, hfound⟩ := run_searchEach (w := w)
      (a := ⟨a.store, a.ticks + 2, a.draws + 1⟩) []
      (searchFilters (drafted w a.ticks a.draws request))
    have hsearch : (App.genesisService.searchCandidates (drafted w a.ticks a.draws request)).run w
      ⟨a.store, a.ticks + 2, a.draws + 1⟩ =
        (.ok found, ⟨a.store, a.ticks + 2, a.draws + 1⟩) := hfound
    rw [Exec.run_bind_ok hsearch] at h
    obtain ⟨ticks, hticks, hwith⟩ := withCandidates_run (w := w)
      (m := (⟨a.store, a.ticks + 2, a.draws + 1⟩ : Machine App))
      (drafted w a.ticks a.draws request) found
    rw [Exec.run_bind_ok hwith] at h
    cases h
    exact .inr ⟨found, ticks, hticks, hnamed, hsearch, _, rfl, rfl, rfl⟩

end GenesisService

theorem receiveIntent_cases {request : ReceiveIntent} {r : Except PyErr GenesisIntent}
    (h : (App.genesisService.receiveIntent request).run w a = (r, a')) :
    (a'.store = a.store ∧ a.draws ≤ a'.draws ∧ ∀ intent, r = .ok intent →
      ∃ id, a.store.genesis.intents.get? id = some intent) ∨ ∃ intent index,
      r = .ok intent ∧ intent.id = w.uuid4 a.draws ∧ a.draws < a'.draws ∧
      intent.launchIfExisting = request.launchIfExisting ∧
      a'.store = { a.store with genesis := ⟨a.store.genesis.intents.set intent.id intent, index⟩ }
      := by
  rcases GenesisService.receiveIntent_outcome h with ⟨intentId, -, h⟩ |
    ⟨-, ⟨rfl, e, rfl⟩ | ⟨found, ticks, -, -, -, intent, rfl, hintent, rfl⟩⟩
  · rw [GenesisService.run_get] at h
    cases h
    refine .inl ⟨rfl, Nat.le_refl _, fun intent hintent => ⟨intentId, ?_⟩⟩
    split at hintent
    · rename_i stored hstored
      cases hintent
      exact hstored
    · cases hintent
  · refine .inl ⟨rfl, Nat.le_succ _, fun intent hintent => ?_⟩
    cases hintent
  · refine .inr ⟨intent, _, rfl, ?_, Nat.lt_succ_self _, ?_, rfl⟩
    · rw [hintent]
      unfold GenesisService.searched
      split <;> rfl
    · rw [hintent]
      unfold GenesisService.searched
      split <;> rfl

end Steps

end GhostMesh
