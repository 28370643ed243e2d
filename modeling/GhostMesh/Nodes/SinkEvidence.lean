import GhostMesh.Auth.Provisioning
import GhostMesh.Nodes.EgressRecords
import GhostMesh.Nodes.Publication

/-!
# Effect and evidence of a sink

A sink writes to up to three stores, each in transactions of its own, and records its
evidence after them. What it leaves is all or nothing while no write after the first can be
refused: the identifiers and participants that the rows refer to are there, and the key of
the evidence is new or belongs to an execution of the card by the sink.
-/

set_option autoImplicit false

namespace GhostMesh

open Op
open Exec (bind_cases)
open NodeExecutor (isRegistryPublication parseCandidate publishedEntry)

/-! ## The authorization repository of a state -/

namespace AuthorizationBackend

variable {σ : Type}

def view : AuthorizationBackend σ → AuthorityView σ
  | .memory store => Serves.memoryView.on store
  | .postgres _ store => Serves.tablesView.on store

/-- The repository takes the participant with all roles: in Postgres the assigners are
participants, or the participant itself. -/
def Takes (w : World) (n : Nat) (s : σ) (onboarding : ParticipantOnboardingPayload) :
    AuthorizationBackend σ → Prop
  | .memory _ => True
  | .postgres _ store => Serves.TablesSound w n (store.get s) ∧
    ∀ assignment ∈ onboarding.roleAssignments, ∀ x, assignment.assignedBy = some x →
      ((store.get s).participants.set onboarding.participant.id
        onboarding.participant).contains x = true

/-- The participant is written, with nothing else. -/
theorem upsert_run (repository : AuthorizationBackend σ) (w : World) (a : Machine σ)
    (q : Participant) : ∃ b,
      ((createAuthorizationRepository repository).upsertParticipant q).run w a = (.ok (), b) ∧
      b.ticks = a.ticks ∧ b.draws = a.draws ∧
      repository.view.participants b.store = (repository.view.participants a.store).set q.id q := by
  cases repository with
  | memory store =>
    refine ⟨_, rfl, rfl, rfl, ?_⟩
    simp only [view, AuthorityView.on]
    exact congrArg InMemoryAuthorizationRepository.participants (store.get_put _ _)
  | postgres engine store =>
    refine ⟨_, Op.on_run (c := store)
      (PostgresAuthorizationRepository.run_upsertParticipant engine w q), rfl, rfl, ?_⟩
    simp only [view, AuthorityView.on, store.get_put]
    rfl

/-- All roles of an onboarding after its participant. -/
theorem provides (repository : AuthorizationBackend σ) (w : World) (a b : Machine σ)
    (onboarding : ParticipantOnboardingPayload)
    (htakes : repository.Takes w a.draws a.store onboarding)
    (hupsert : ((createAuthorizationRepository repository).upsertParticipant
      onboarding.participant).run w a = (.ok (), b)) :
    ∃ c, (Exec.forEach (fun (x : OnboardingRoleAssignmentPayload) => do
        let _ ← ensureBuiltinRoleAssignment (createAuthorizationRepository repository)
          onboarding.participant.id x.roleName x.scope x.assignedBy
        return ()) onboarding.roleAssignments).run w b = (.ok (), c) ∧
      repository.view.Grows b c ∧ ∀ x ∈ onboarding.roleAssignments,
        repository.view.Holds w b.ticks c.ticks c.store onboarding.participant.id x.roleName
          x.scope := by
  cases repository with
  | memory store =>
    exact ((Serves.memory w).on store).ensureBuiltinRoles onboarding.participant.id
      onboarding.roleAssignments trivial trivial fun _ _ _ _ => trivial
  | postgres engine store =>
    obtain ⟨hsound, hassigners⟩ := htakes
    have hrun := Op.on_run (c := store) (m := a)
      (PostgresAuthorizationRepository.run_upsertParticipant engine w onboarding.participant)
    cases hupsert.symm.trans hrun
    let known : String → Prop := fun x => ((store.get a.store).participants.set
      onboarding.participant.id onboarding.participant).contains x = true
    refine ((Serves.tables engine w known).on store).ensureBuiltinRoles onboarding.participant.id
      onboarding.roleAssignments ?_ ?_ hassigners
    · simp only [store.get_put]
      have hafter : Serves.TablesSound w a.draws (AuthorityWrite.apply (store.get a.store)
          (.participant onboarding.participant)) :=
        ⟨hsound.assignments, hsound.grants, hsound.events, hsound.builtin, hsound.roles⟩
      exact Serves.TablesSound.ready (p := ⟨_, a.ticks, a.draws⟩) hafter fun _ hx => hx
    · exact (Dict.contains_set _ _ _ _).mpr (.inl rfl)

end AuthorizationBackend

/-! ## What an effect leaves of the runtime -/

/-- The cards, their histories and the keys of the runtime are as before. -/
structure LedgerKept (settings : Settings) (w : World) (a b : Machine SystemStores) : Prop where
  cards : settings.runtime.cards b.store = settings.runtime.cards a.store
  history : ∀ cardId, settings.runtime.history b.store cardId =
    settings.runtime.history a.store cardId
  answer : ∀ key, settings.runtime.answer b.store key = settings.runtime.answer a.store key
  fresh : settings.runtime.EventsFresh w a → settings.runtime.EventsFresh w b

section Kept
variable {settings : Settings} {w : World} {a b c : Machine SystemStores}

theorem LedgerKept.refl (a : Machine SystemStores) : LedgerKept settings w a a :=
  ⟨rfl, fun _ => rfl, fun _ => rfl, id⟩

theorem LedgerKept.trans (hab : LedgerKept settings w a b) (hbc : LedgerKept settings w b c) :
    LedgerKept settings w a c where
  cards := hbc.cards.trans hab.cards
  history cardId := (hbc.history cardId).trans (hab.history cardId)
  answer key := (hbc.answer key).trans (hab.answer key)
  fresh h := hbc.fresh (hab.fresh h)

theorem RuntimeKept.ledger (h : RuntimeKept a b) (hdraws : a.draws ≤ b.draws) :
    LedgerKept settings w a b := by
  obtain ⟨hruntime, htables⟩ := h
  rcases settings.runtime_cases with hbackend | ⟨engine, hbackend⟩
  · constructor
    · rw [hbackend]
      exact congrArg InMemoryCardRuntime.cards hruntime
    · intro cardId
      rw [hbackend]
      exact congrArg (·.history cardId) hruntime
    · intro key
      rw [hbackend]
      exact congrArg (fun s => (InMemoryCardRuntime.cached s key).map Stored.event?) hruntime
    · rw [hbackend]
      exact fun _ => trivial
  · have hevents : b.store.tables.cardEvents = a.store.tables.cardEvents :=
      congrArg Tables.cardEvents htables
    constructor
    · rw [hbackend]
      exact congrArg Tables.cards htables
    · intro cardId
      rw [hbackend]
      exact congrArg (fun d : Tables => (d.cardEvents.values.filter fun e =>
        e.cardId = cardId).insertionSort PostgresCardRuntime.eventBefore) htables
    · intro key
      rw [hbackend]
      simp only [RuntimeBackend.answer]
      rw [show SystemStores.tablesStore.get b.store = SystemStores.tablesStore.get a.store from
        htables]
    · rw [hbackend]
      intro hfresh i hi
      change b.store.tables.cardEvents.contains (w.uuid4 i) = false
      rw [hevents]
      exact hfresh i (hdraws.trans hi)

/-- A registration keeps the ledger. -/
theorem registered_ledger {p : PatchPanel} {r : Except PyErr PatchPanel}
    (h : ((createRuntime settings.runtime).registerPatchPanel p).run w a = (r, b)) :
    LedgerKept settings w a b := by
  obtain ⟨hfresh, -, ⟨hstore, -⟩ | ⟨-, -, hregistered⟩⟩ := createRuntime_registers _ h
  · exact ⟨congrArg _ hstore, fun cardId => congrArg (settings.runtime.history · cardId) hstore,
      fun key => congrArg (settings.runtime.answer · key) hstore, hfresh⟩
  · exact ⟨hregistered.cards, hregistered.history, hregistered.answer, hfresh⟩

end Kept

/-! ## The claim on a sink -/

/-- The participant is in the repository as in its onboarding, with each of its roles and
their grants. -/
structure OnboardingProvided (settings : Settings) (w : World) (first last : Nat) (s : SystemStores)
    (onboarding : ParticipantOnboardingPayload) : Prop where
  participant : (settings.repository.view.participants s).get? onboarding.participant.id =
    some onboarding.participant
  roles : ∀ x ∈ onboarding.roleAssignments, settings.repository.view.Holds w first last s
    onboarding.participant.id x.roleName x.scope

/-- The effect that is configured for the sink is there in full. -/
def EffectApplied (settings : Settings) (w : World) (n : NodeDefinition) (card : Card)
    (a b : Machine SystemStores) : Prop :=
  if n.id = "authority_provisioner_sink" then
    ∃ onboarding, NodeExecutor.parseOnboarding w (w.clock a.ticks) card.payload = .ok onboarding ∧
      OnboardingProvided settings w a.ticks b.ticks b.store onboarding
  else isRegistryPublication n = true → CandidatePublished settings w b.store card

/-- The history of the card tells that the sink was executed. -/
def RuntimeBackend.Shows {σ : Type} (runtime : RuntimeBackend σ) (s : σ) (cardId : Uuid)
    (sinkId : String) : Prop := ∃ e ∈ runtime.history s cardId, SinkExecution sinkId e

/-- A request to execute a sink, by an executor with or without a registry and a repository. -/
structure SinkRequest where
  patchPanel : PatchPanel
  registryGiven : Bool
  repositoryGiven : Bool
  cardId : Uuid
  sinkId : String
  externalReference : Option String
  idempotencyKey : Option String

namespace SinkRequest

variable (settings : Settings) (request : SinkRequest)

def executor : NodeExecutor SystemStores :=
  createNodeExecutor settings request.patchPanel request.registryGiven request.repositoryGiven

def execute : Op SystemStores SinkResult :=
  (request.executor settings).executeSink request.cardId request.sinkId request.externalReference
    request.idempotencyKey

/-- The sink lets the card in. -/
abbrev Admits (s : SystemStores) (n : NodeDefinition) (card : Card) : Prop :=
  (request.executor settings).Admits (settings.runtime.cards s) request.cardId request.sinkId n card

/-- It returns with its effect and its evidence, or it raises and nothing has changed. -/
structure AllOrNothing (w : World) (a : Machine SystemStores) : Prop where
  returns : ∀ result b, (request.execute settings).run w a = (.ok result, b) →
    settings.runtime.Shows b.store request.cardId request.sinkId ∧
      ∃ n card, request.Admits settings a.store n card ∧ EffectApplied settings w n card a b
  raises : ∀ e b, (request.execute settings).run w a = (.error e, b) → b.store = a.store

end SinkRequest

/-! ## What a sink needs -/

/-- An entry can be registered whoever its owner is: in Postgres the identifiers to come are
new, and the owner is a participant. -/
def RegistryBackend.Receives {σ : Type} (w : World) (n : Nat) (s : σ) (owner : Option String) :
    RegistryBackend σ → Prop
  | .memory _ => True
  | .postgres _ store =>
    (∀ i, n ≤ i → (store.get s).patchPanelRegistryEntries.contains (w.uuid4 i) = false) ∧
      (store.get s).knows owner = true

/-- No entry can be registered for the owner. -/
def RegistryBackend.Refuses {σ : Type} (s : σ) (owner : Option String) : RegistryBackend σ → Prop
  | .memory _ => False
  | .postgres _ store => (store.get s).knows owner = false

/-- The key of the evidence is new, or it answers with an event while the history tells of
an execution. -/
def EvidenceServed (settings : Settings) (w : World) (a : Machine SystemStores)
    (request : SinkRequest) : Prop :=
  (settings.runtime.answer a.store request.idempotencyKey = none ∧
    settings.runtime.EventsFresh w a) ∨
  ((∃ e, settings.runtime.answer a.store request.idempotencyKey = some (some e)) ∧
    settings.runtime.Shows a.store request.cardId request.sinkId)

/-- The key of the evidence is refused. -/
def EvidenceRefused (settings : Settings) (s : SystemStores) (request : SinkRequest) : Prop :=
  settings.runtime.answer s request.idempotencyKey = some none

/-- The candidate is published, and neither its definition nor its entry is refused. -/
structure PublicationServed (settings : Settings) (w : World) (a : Machine SystemStores)
    (candidate : PatchPanel) (metadata : PatchPanelRegistryMetadata) : Prop where
  publishable : Publishable settings a.store candidate
  received : (settings.registry.entries a.store).values.any candidate.entered = false →
    settings.registry.Receives w a.draws a.store metadata.ownerParticipantId

/-- The candidate is registered already, and the sink raises before it writes anything. -/
structure PublicationIdle (settings : Settings) (s : SystemStores) (request : SinkRequest)
    (candidate : PatchPanel) (metadata : PatchPanelRegistryMetadata) : Prop where
  registered : settings.runtime.Has s candidate
  refused : ((settings.registry.entries s).values.any candidate.entered = false ∧
      settings.registry.Refuses s metadata.ownerParticipantId) ∨
    ((settings.registry.entries s).values.any candidate.entered = true ∧
      EvidenceRefused settings s request)

/-- The card is approved for provisioning, and its payload is an onboarding. -/
structure Provisioning (settings : Settings) (w : World) (a : Machine SystemStores) (card : Card)
    (onboarding : ParticipantOnboardingPayload) : Prop where
  approved : NodeExecutor.provisioningApproved (settings.runtime.history a.store card.id) = true
  parsed : NodeExecutor.parseOnboarding w (w.clock a.ticks) card.payload = .ok onboarding

/-- Where a sink gets to its effect, neither the effect nor its evidence is refused after the
first write. -/
def Served (settings : Settings) (w : World) (a : Machine SystemStores) (request : SinkRequest)
    (n : NodeDefinition) (card : Card) : Prop :=
  if n.id = "authority_provisioner_sink" then
    request.repositoryGiven = true → ∀ onboarding, Provisioning settings w a card onboarding →
      settings.repository.Takes w a.draws a.store onboarding ∧
        EvidenceServed settings w a request
  else if isRegistryPublication n then
    request.registryGiven = true → ∀ candidate metadata,
      Publishing settings w a.store card candidate metadata →
      PatchPanelValidator.accepts w candidate = true →
      (PublicationServed settings w a candidate metadata ∧ EvidenceServed settings w a request) ∨
        PublicationIdle settings a.store request candidate metadata
  else EvidenceServed settings w a request ∨ EvidenceRefused settings a.store request

/-! ## How an effect ends -/

section Effects
variable {settings : Settings} {request : SinkRequest} {w : World} {a b : Machine SystemStores}
  {n : NodeDefinition} {card : Card} {r : Except PyErr (Option String)}

/-- The effect raises before its first write; or it is there, and its evidence is served; or
nothing was written, and the evidence is refused. -/
def EffectEnds (settings : Settings) (w : World) (request : SinkRequest) (n : NodeDefinition)
    (card : Card) (a : Machine SystemStores) (r : Except PyErr (Option String))
    (b : Machine SystemStores) : Prop :=
  (b.store = a.store ∧ ∃ e, r = .error e) ∨
    (∃ reference, r = .ok reference) ∧ LedgerKept settings w a b ∧
      ((EffectApplied settings w n card a b ∧ EvidenceServed settings w a request) ∨
        (b.store = a.store ∧ EvidenceRefused settings a.store request))

theorem provisioning_ends (hsink : n.id = "authority_provisioner_sink")
    (hserved : Served settings w a request n card)
    (h : (NodeExecutor.executeAuthorityProvisioningSink (request.executor settings) card
      request.externalReference).run w a = (r, b)) :
    EffectEnds settings w request n card a r b := by
  have honly : ParticipantsOnly a ((NodeExecutor.executeAuthorityProvisioningSink
      (request.executor settings) card request.externalReference).run w a).2 :=
    executeAuthorityProvisioningSink_only settings _ _ _ w card _ a
  rw [h] at honly
  unfold Served at hserved
  rw [if_pos hsink] at hserved
  unfold NodeExecutor.executeAuthorityProvisioningSink SinkRequest.executor createNodeExecutor at h
  cases hgiven : request.repositoryGiven with
  | false =>
    rw [hgiven] at h
    cases h
    exact .inl ⟨rfl, _, rfl⟩
  | true =>
    rw [hgiven] at h
    simp only [if_true] at h
    unfold NodeExecutor.ensureAuthorityProvisioningHistory at h
    obtain ⟨rfl, herror⟩ | ⟨happroved, h⟩ := approval_bind settings.runtime h
    · exact .inl ⟨rfl, herror⟩
    rw [Exec.run_bind_ok (Op.run_world w a), Exec.run_bind_ok (Op.run_now w a)] at h
    obtain ⟨rfl, e, -, he⟩ | ⟨onboarding, hparsed, h⟩ :=
      Exec.bind_same (Op.run_ofExcept _ w { a with ticks := a.ticks + 1 }) h
    · exact .inl ⟨rfl, e, he⟩
    obtain ⟨htakes, hevidence⟩ := hserved hgiven onboarding ⟨happroved, hparsed⟩
    obtain ⟨a₁, hupsert, hticks, hdraws, hparticipants⟩ := settings.repository.upsert_run w
      { a with ticks := a.ticks + 1 } onboarding.participant
    obtain ⟨a₂, hroles, hgrows, hholds⟩ :=
      settings.repository.provides w { a with ticks := a.ticks + 1 } a₁ onboarding htakes hupsert
    rw [Exec.run_bind_ok hupsert, Exec.run_bind_ok hroles] at h
    cases h
    have hdrawn : a.draws ≤ b.draws := hdraws.ge.trans hgrows.draws
    refine .inr ⟨⟨_, rfl⟩, honly.kept.ledger hdrawn, .inl ⟨?_, hevidence⟩⟩
    unfold EffectApplied
    rw [if_pos hsink]
    refine ⟨onboarding, hparsed, ?_, fun x hx => ?_⟩
    · rw [hgrows.participants, hparticipants]
      exact Dict.get?_set_self _ _ _
    · exact (hholds x hx).grows (.refl b) ((Nat.le_succ _).trans hticks.ge) (Nat.le_refl _)

/-- A new entry without a predecessor is accepted if its owner is received. -/
theorem RegistryBackend.Receives.accepts {σ : Type} {registry : RegistryBackend σ} {k i : Nat}
    {s : σ} {e : PatchPanelRegistryEntry} (h : registry.Receives w k s e.ownerParticipantId)
    (hi : k ≤ i) (hid : e.id = w.uuid4 i) (hfirst : e.supersedesEntryId = none) :
    registry.Accepts s e := by
  cases registry with
  | memory store => trivial
  | postgres engine store =>
    refine ⟨?_, ?_⟩
    · rw [hid]
      exact h.1 i hi
    · unfold AuthorityTables.entryRefers
      rw [hfirst]
      exact Bool.and_eq_true_iff.mpr ⟨h.2, rfl⟩

theorem RegistryBackend.Refuses.not_accepts {σ : Type} {registry : RegistryBackend σ} {s : σ}
    {e : PatchPanelRegistryEntry} (h : registry.Refuses s e.ownerParticipantId) :
    ¬ registry.Accepts s e := by
  intro haccepts
  cases registry with
  | memory store => exact h
  | postgres engine store =>
    have hknown : (store.get s).knows e.ownerParticipantId = true :=
      (Bool.and_eq_true_iff.mp haccepts.2).1
    rw [h] at hknown
    cases hknown

theorem RuntimeOnly.receives {k : Nat} {owner : Option String} (h : RuntimeOnly a b)
    (hreceives : settings.registry.Receives w k a.store owner) :
    settings.registry.Receives w k b.store owner := by
  revert hreceives
  unfold Settings.registry
  cases settings.registryBackend with
  | none => exact fun _ => trivial
  | some engine =>
    intro hreceives
    simp only [RegistryBackend.Receives] at hreceives ⊢
    rw [show SystemStores.authorityStore.get b.store = SystemStores.authorityStore.get a.store from
      h.authorityTables]
    exact hreceives

theorem RuntimeOnly.refuses {owner : Option String} (h : RuntimeOnly a b)
    (hrefuses : settings.registry.Refuses a.store owner) :
    settings.registry.Refuses b.store owner := by
  revert hrefuses
  unfold Settings.registry
  cases settings.registryBackend with
  | none => exact id
  | some engine =>
    intro hrefuses
    simp only [RegistryBackend.Refuses] at hrefuses ⊢
    rw [show SystemStores.authorityStore.get b.store = SystemStores.authorityStore.get a.store from
      h.authorityTables]
    exact hrefuses

theorem publication_ends (hsink : ¬ n.id = "authority_provisioner_sink")
    (hcontract : isRegistryPublication n = true) (hserved : Served settings w a request n card)
    (h : (NodeExecutor.executeRegistryPublication (request.executor settings) n card
      request.externalReference).run w a = (r, b)) :
    EffectEnds settings w request n card a r b := by
  unfold Served at hserved
  rw [if_neg hsink, if_pos hcontract] at hserved
  cases hgiven : request.registryGiven with
  | false =>
    unfold NodeExecutor.executeRegistryPublication SinkRequest.executor createNodeExecutor at h
    rw [hgiven] at h
    cases h
    exact .inl ⟨rfl, _, rfl⟩
  | true =>
    obtain ⟨rfl, herror⟩ | ⟨candidate, metadata, hpublishing, hrest⟩ :=
      executeRegistryPublication_cases h
    · exact .inl ⟨rfl, herror⟩
    obtain ⟨e, hregister, rfl⟩ | ⟨q, a₁, answer, hregister, hentry, rfl⟩ := hrest
    · obtain ⟨-, -, ⟨hstore, -⟩ | ⟨hok, -⟩⟩ := createRuntime_registers settings.runtime hregister
      · exact .inl ⟨hstore, e, rfl⟩
      · cases hok
    obtain ⟨-, hdraws, ⟨-, e, he⟩ | ⟨-, haccepts, hregistered⟩⟩ :=
      createRuntime_registers settings.runtime hregister
    · cases he
    have honly : RuntimeOnly a (((createRuntime settings.runtime).registerPatchPanel candidate).run
      w a).2 := registerPatchPanel_only candidate
    rw [hregister] at honly
    have hentries : settings.registry.entries a₁.store = settings.registry.entries a.store :=
      honly.entries
    obtain ⟨hkept, hdraws', hcases⟩ := publishedEntry_cases hentry
    rw [hentries] at hcases
    have hledger : LedgerKept settings w a b := (registered_ledger hregister).trans
      (hkept.ledger hdraws')
    rcases hserved hgiven candidate metadata hpublishing haccepts with
      ⟨⟨hpublishable, hreceived⟩, hevidence⟩ | ⟨hhas, hrefused⟩
    · -- no write is refused, and the candidate is published
      obtain ⟨entry, rfl⟩ : ∃ entry, answer = .ok entry := by
        rcases hcases with ⟨-, -, hok⟩ | ⟨hnone, ⟨-, -, hnot⟩ | ⟨hok, -⟩⟩
        · exact hok
        · have hnew : settings.registry.Accepts a₁.store
              (newEntry w a₁ n card candidate metadata) :=
            (honly.receives (hreceived hnone)).accepts hdraws rfl rfl
          exact absurd hnew hnot
        · exact hok
      refine .inr ⟨⟨_, rfl⟩, hledger, .inl ⟨?_, hevidence⟩⟩
      unfold EffectApplied
      rw [if_neg hsink]
      exact fun _ => ⟨candidate, hpublishing.candidate,
        (published_after_registration hregister hentry).mpr hpublishable⟩
    · -- the candidate's registration has written nothing
      have hsame : a₁.store = a.store := hregistered.same hhas
      rcases hrefused with ⟨hnone, hrefuses⟩ | ⟨hentered, hrefused⟩
      · rcases hcases with ⟨hentered, -⟩ | ⟨-, ⟨hstore, ⟨e, rfl⟩, -⟩ | ⟨-, hnew, -⟩⟩
        · rw [hnone] at hentered
          cases hentered
        · exact .inl ⟨hstore.trans hsame, e, rfl⟩
        · exact absurd hnew (honly.refuses hrefuses).not_accepts
      · rcases hcases with ⟨-, rfl, entry, rfl⟩ | ⟨hnone, -⟩
        · exact .inr ⟨⟨_, rfl⟩, hledger, .inr ⟨hsame, hrefused⟩⟩
        · rw [hnone] at hentered
          cases hentered

/-- A sink ends as it should where it is served. -/
theorem effect_ends (hserved : Served settings w a request n card)
    (h : (NodeExecutor.executeConfiguredSink (request.executor settings) n card
      request.externalReference).run w a = (r, b)) :
    EffectEnds settings w request n card a r b := by
  unfold NodeExecutor.executeConfiguredSink at h
  by_cases hsink : n.id = "authority_provisioner_sink"
  · rw [if_pos hsink] at h
    exact provisioning_ends hsink hserved h
  rw [if_neg hsink] at h
  by_cases hcontract : isRegistryPublication n = true
  · rw [if_pos hcontract] at h
    exact publication_ends hsink hcontract hserved h
  · rw [if_neg hcontract] at h
    unfold Served at hserved
    rw [if_neg hsink, if_neg hcontract] at hserved
    cases h
    refine .inr ⟨⟨_, rfl⟩, .refl a, ?_⟩
    rcases hserved with hevidence | hrefused
    · refine .inl ⟨?_, hevidence⟩
      unfold EffectApplied
      rw [if_neg hsink]
      exact fun h => absurd h hcontract
    · exact .inr ⟨rfl, hrefused⟩

end Effects

/-! ## Effect and evidence -/

section Evidence
variable {settings : Settings} {request : SinkRequest} {w : World} {a b c : Machine SystemStores}
  {n : NodeDefinition} {card : Card}

/-- Evidence that is served is recorded after the effect, or it was there before. -/
theorem evidence_recorded (hserved : EvidenceServed settings w a request)
    (hledger : LedgerKept settings w a b)
    (hcard : (settings.runtime.cards a.store).get? request.cardId = some card)
    (hid : n.id = request.sinkId) (reference : Option String) : ∃ event c,
      ((createRuntime settings.runtime).recordEvent request.cardId "sink_executed" (some n.id)
        (some (NodeExecutor.sinkPayload w n reference)) request.idempotencyKey).run w b =
          (.ok event, c) ∧ b.ticks ≤ c.ticks ∧
      settings.runtime.Shows c.store request.cardId request.sinkId := by
  rcases hserved with ⟨hnew, hfresh⟩ | ⟨⟨event, hanswer⟩, e, hmem, hexecution⟩
  · have hcard' : (settings.runtime.cards b.store).get? request.cardId = some card := by
      rw [hledger.cards]
      exact hcard
    obtain ⟨event, c, hrun, hticks, htype, hactor, hpayload, hmem⟩ : ∃ event c,
        ((createRuntime settings.runtime).recordEvent request.cardId "sink_executed" (some n.id)
          (some (NodeExecutor.sinkPayload w n reference)) request.idempotencyKey).run w b =
            (.ok event, c) ∧ b.ticks ≤ c.ticks ∧ event.eventType = "sink_executed" ∧
          event.actorId = some n.id ∧
          event.payload = (some (NodeExecutor.sinkPayload w n reference)).getD [] ∧
          event ∈ settings.runtime.history c.store request.cardId :=
      recordEvent_new ((hledger.answer _).trans hnew) hcard' (hledger.fresh hfresh)
    refine ⟨event, c, hrun, hticks, event, hmem, htype, ?_, ?_⟩
    · rw [hactor, hid]
    · rw [hpayload, ← hid]
      rfl
  · refine ⟨event, b, recordEvent_answered ((hledger.answer _).trans hanswer), Nat.le_refl _, e, ?_,
      hexecution⟩
    rw [hledger.history]
    exact hmem

theorem RuntimeOnly.grows (h : RuntimeOnly a b) (hticks : a.ticks ≤ b.ticks) :
    settings.repository.view.Grows a ⟨b.store, b.ticks, a.draws⟩ := by
  have hsame : settings.repository.view.participants b.store =
        settings.repository.view.participants a.store ∧
      settings.repository.view.assignments b.store =
        settings.repository.view.assignments a.store ∧
      settings.repository.view.grants b.store = settings.repository.view.grants a.store := by
    unfold Settings.repository
    cases settings.authorizationRepository with
    | none =>
      exact ⟨congrArg InMemoryAuthorizationRepository.participants h.authorization,
        congrArg InMemoryAuthorizationRepository.roleAssignments h.authorization,
        congrArg InMemoryAuthorizationRepository.permissionGrants h.authorization⟩
    | some engine =>
      exact ⟨congrArg AuthorityTables.participants h.authorityTables,
        congrArg (fun d : AuthorityTables => d.participantRoles.values) h.authorityTables,
        congrArg (fun d : AuthorityTables => d.permissionGrants.values) h.authorityTables⟩
  obtain ⟨hparticipants, hassignments, hgrants⟩ := hsame
  exact ⟨hparticipants, fun x hx => hassignments.symm ▸ hx, fun x hx => hgrants.symm ▸ hx, hticks,
    Nat.le_refl _⟩

/-- The effect of a sink outlasts its evidence. -/
theorem EffectApplied.after (h : EffectApplied settings w n card a b) (honly : RuntimeOnly b c)
    (hdefinition : settings.runtime.definition c.store = settings.runtime.definition b.store)
    (hticks : b.ticks ≤ c.ticks) : EffectApplied settings w n card a c := by
  unfold EffectApplied at h ⊢
  by_cases hsink : n.id = "authority_provisioner_sink"
  · rw [if_pos hsink] at h ⊢
    obtain ⟨onboarding, hparsed, hparticipant, hroles⟩ := h
    have hgrows : settings.repository.view.Grows b ⟨c.store, c.ticks, b.draws⟩ :=
      honly.grows hticks
    refine ⟨onboarding, hparsed, ?_, fun x hx => ?_⟩
    · rw [← hparticipant]
      exact congrArg (Dict.get? · _) hgrows.participants
    · have hheld := (hroles x hx).grows hgrows (Nat.le_refl a.ticks) hticks
      exact hheld
  · rw [if_neg hsink] at h ⊢
    intro hcontract
    obtain ⟨candidate, hcandidate, hpublished⟩ := h hcontract
    exact ⟨candidate, hcandidate, (published_congr honly.entries hdefinition).mpr hpublished⟩

/-- A sink that is served with every card that it admits is all or nothing. -/
theorem SinkRequest.allOrNothing (hserved : ∀ n card, request.Admits settings a.store n card →
    Served settings w a request n card) : request.AllOrNothing settings w a := by
  have houtcome : ∀ r b, (request.execute settings).run w a = (r, b) →
      (b.store = a.store ∧ ∃ e, r = .error e) ∨
      (∃ result, r = .ok result) ∧
        settings.runtime.Shows b.store request.cardId request.sinkId ∧
        ∃ n card, request.Admits settings a.store n card ∧
          EffectApplied settings w n card a b := by
    intro r b hrun
    obtain ⟨rfl, herror⟩ | ⟨n, card, hadmits, hrun⟩ := NodeExecutor.executeSink_admitted
      (createRuntime_looksUp settings.runtime) hrun
    · exact .inl ⟨rfl, herror⟩
    have hid : n.id = request.sinkId := NodeExecutor.node_id hadmits.found
    obtain ⟨e, heffect, rfl⟩ | ⟨reference, a₁, heffect, answer, hevent, rfl⟩ :=
      NodeExecutor.effectAndEvidence_cases hrun
    · obtain ⟨hstore, -⟩ | ⟨⟨_, hok⟩, -⟩ := effect_ends (hserved n card hadmits) heffect
      · exact .inl ⟨hstore, e, rfl⟩
      · cases hok
    replace hevent : ((createRuntime settings.runtime).recordEvent request.cardId "sink_executed"
      (some n.id) (some (NodeExecutor.sinkPayload w n reference)) request.idempotencyKey).run w a₁ =
        (answer, b) := hevent
    obtain ⟨-, e, he⟩ | ⟨-, hledger, ⟨happlied, hevidence⟩ | ⟨hstore, hrefused⟩⟩ :=
      effect_ends (hserved n card hadmits) heffect
    · cases he
    · obtain ⟨event, c, hrecorded, hticks, hshows⟩ := evidence_recorded hevidence hledger
        hadmits.stored hid reference
      obtain ⟨honly, hdefinition⟩ := recordEvent_leaves settings hrecorded
      cases hrecorded.symm.trans hevent
      exact .inr ⟨⟨_, rfl⟩, hshows, n, card, hadmits, happlied.after honly hdefinition hticks⟩
    · obtain ⟨e, hrecorded⟩ : ∃ e, ((createRuntime settings.runtime).recordEvent request.cardId
          "sink_executed" (some n.id) (some (NodeExecutor.sinkPayload w n reference))
          request.idempotencyKey).run w a₁ = (.error e, a₁) :=
        recordEvent_conflict ((hledger.answer request.idempotencyKey).trans hrefused)
      cases hrecorded.symm.trans hevent
      exact .inl ⟨hstore, e, rfl⟩
  constructor
  · intro result b hrun
    obtain ⟨-, e, he⟩ | ⟨-, hshows, happlied⟩ := houtcome _ b hrun
    · cases he
    · exact ⟨hshows, happlied⟩
  · intro e b hrun
    obtain ⟨hstore, -⟩ | ⟨⟨_, hok⟩, -⟩ := houtcome _ b hrun
    · exact hstore
    · cases hok

end Evidence

/-! ## Runs -/

/-- An operation on the stores: a sink, or any other one. -/
inductive SinkCall where
  | sink (request : SinkRequest)
  | other (x : Op SystemStores Unit)

namespace SinkCall

variable (settings : Settings) (w : World) (m : Machine SystemStores)

/-- The machine after the operation, whether it returned or raised. -/
def step : SinkCall → Machine SystemStores
  | sink request => ((request.execute settings).run w m).2
  | other x => (x.run w m).2

/-- What a call meets whose sink, if it is one, is served. -/
def Served : SinkCall → Prop
  | sink request => ∀ n card, request.Admits settings m.store n card →
    GhostMesh.Served settings w m request n card
  | other _ => True

end SinkCall

/-- Over any run of operations on any stores: where every sink is served, each of them is all
or nothing. -/
theorem sinks_all_or_nothing (settings : Settings) (w : World) (m : Machine SystemStores)
    (calls : List SinkCall)
    (hserved : Permitted (SinkCall.step settings w) (SinkCall.Served settings w) m calls)
    (before : List SinkCall) (request : SinkRequest) (after : List SinkCall)
    (hcalls : calls = before ++ .sink request :: after) :
    request.AllOrNothing settings w (before.foldl (SinkCall.step settings w) m) :=
  SinkRequest.allOrNothing (Permitted.iff_steps.mp hserved before _ after hcalls)

/-- A sink that raises and has changed the stores is neither. -/
theorem SinkRequest.not_allOrNothing {settings : Settings} {request : SinkRequest} {w : World}
    {a : Machine SystemStores} (rows : SystemStores → Nat)
    (hraises : ((request.execute settings).run w a).1.toOption.isSome = false)
    (hchanged : rows a.store < rows ((request.execute settings).run w a).2.store) :
    ¬ request.AllOrNothing settings w a := by
  intro h
  rcases hrun : (request.execute settings).run w a with ⟨r, b⟩
  rw [hrun] at hraises hchanged
  cases r with
  | ok result => cases hraises
  | error e =>
    rw [h.raises e b hrun] at hchanged
    exact Nat.lt_irrefl _ hchanged

/-! The proposal again, brought to the sink with a key. -/

def publishRequest (cardId : Uuid) (key : Option String) : SinkRequest :=
  ⟨approvalPanel, true, true, cardId, "done", none, key⟩

/-- The proposal is made after an earlier operation, and brought to the sink. -/
def proposalCalls (settings : Settings) (earlier : Op SystemStores Unit) (cardId : Uuid)
    (key : Option String) : List SinkCall :=
  [.other (do
    earlier
    proposed (createRuntime settings.runtime)), .sink (publishRequest cardId key)]

/-- Another card is created under the key. -/
def createKeyed (key : String) : Op SystemStores Unit := do
  let _ ← (createRuntime memorySettings.runtime).registerPatchPanel approvalPanel
  let _ ← (createRuntime memorySettings.runtime).createCard "approvals" [] none (some key)
  return ()

/-- The key of another card's creation is refused after the publication. -/
theorem keyed_published : ¬ (publishRequest ⟨2⟩ (some "proposal-1")).AllOrNothing memorySettings
    .simple (proposedMachine memorySettings (createKeyed "proposal-1")) := by
  apply SinkRequest.not_allOrNothing fun s => (memorySettings.registry.entries s).values.length
  · decide +kernel
  · decide +kernel

/-- Without a key the sink returns, and it is all or nothing. -/
theorem proposal_all_or_nothing : (((publishRequest ⟨0⟩ none).execute memorySettings).run .simple
      (proposedMachine memorySettings (pure ()))).1.toOption.isSome = true ∧
    (publishRequest ⟨0⟩ none).AllOrNothing memorySettings .simple
      (proposedMachine memorySettings (pure ())) := by
  have hreturns : (((publishRequest ⟨0⟩ none).execute memorySettings).run .simple
      (proposedMachine memorySettings (pure ()))).1.toOption.isSome = true := by decide +kernel
  have hempty : (memorySettings.registry.entries (proposedMachine memorySettings
      (pure ())).store).values = [] := by decide +kernel
  refine ⟨hreturns, sinks_all_or_nothing memorySettings .simple ⟨.init, 0, 0⟩
    (proposalCalls memorySettings (pure ()) ⟨0⟩ none) ⟨trivial, ?_, trivial⟩ [_] _ [] rfl⟩
  intro n card hadmits
  have hnode : NodeExecutor.node approvalPanel "done" .sink = .ok n := hadmits.found
  have hid : n.id = "done" := NodeExecutor.node_id hnode
  have hcontract : isRegistryPublication n = true := by
    cases hnode
    rfl
  unfold Served
  rw [if_neg (by rw [hid]; decide), if_pos hcontract]
  intro _ candidate metadata _ _
  refine .inl ⟨⟨⟨fun hentered => ?_, trivial⟩, fun _ => trivial⟩, .inl ⟨rfl, trivial⟩⟩
  replace hentered : (memorySettings.registry.entries (proposedMachine memorySettings
    (pure ())).store).values.any candidate.entered = true := hentered
  rw [hempty] at hentered
  cases hentered

/-! An onboarding whose role is assigned by someone unknown, in front of the provisioner. -/

def enrolmentPanel : PatchPanel :=
  { PatchPanelValidator.linePanel "enrolment" "1" with
    nodes := [⟨"intake", .source, none, none, [], ["intake_out"], none, []⟩,
      ⟨"work", .worker, none, none, ["work_in"], ["work_out"], none, []⟩,
      ⟨"authority_provisioner_sink", .sink, none, none, ["done_in"], [], none, []⟩]
    edges := [⟨"intake", "work", "default", none⟩,
      ⟨"work", "authority_provisioner_sink", "default", none⟩]
    pipeBindings := ⟨[("intake_out", ⟨"inbox", some "intake", some .output⟩),
      ("work_in", ⟨"inbox", some "work", some .input⟩),
      ("work_out", ⟨"outbox", some "work", some .output⟩),
      ("done_in", ⟨"outbox", some "authority_provisioner_sink", some .input⟩)], by simp⟩
    uniqueNodes := by simp }

def assignedByStranger : JsonObj :=
  [("participant", .obj [("id", .str "newcomer"), ("type", .str "human")]),
    ("role_assignments", .list [.obj [("role_name", .str "observer"),
      ("scope", .obj [("type", .str "global")]), ("assigned_by", .str "stranger")]])]

def authoritySettings : Settings := ⟨none, none, some .simple, [], "root"⟩

/-- The onboarding's card, checked and approved. -/
def enrolled : Op SystemStores Unit := do
  let runtime := createRuntime authoritySettings.runtime
  let _ ← runtime.registerPatchPanel enrolmentPanel
  let card ← runtime.createCard "enrolment" assignedByStranger none none
  let _ ← runtime.recordEvent card.id "card_validated" (some "registration_compliance_validator")
    (some [("accepted", .bool true), ("output_pipe", .str "registration_compliant")]) none
  let _ ← runtime.recordEvent card.id "card_validated" (some "registration_admin_reviewer")
    (some [("accepted", .bool true), ("output_pipe", .str "registration_approved")]) none
  let _ ← runtime.moveCard card.id "outbox" none none none
  return ()

def enrolRequest : SinkRequest :=
  ⟨enrolmentPanel, true, true, ⟨0⟩, "authority_provisioner_sink", none, none⟩

def enrolledMachine : Machine SystemStores := (enrolled.run .simple ⟨.init, 0, 0⟩).2

/-- The sink raises, and the participant stays behind without the role. -/
theorem stranger_enrolled : ¬ enrolRequest.AllOrNothing authoritySettings .simple
    enrolledMachine := by
  apply SinkRequest.not_allOrNothing fun s => s.authorityTables.participants.values.length
  · decide +kernel
  · decide +kernel

end GhostMesh
