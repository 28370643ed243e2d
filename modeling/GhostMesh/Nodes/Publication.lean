import GhostMesh.Nodes.SinkStores

/-!
# Publication

A publication sink reuses an entry of the candidate's id and version in whatever status it
has, and Postgres keeps a definition that it has. So a sink that returns has published its
candidate exactly if no such entry was there, or a published one, and no other definition.
-/

set_option autoImplicit false

namespace GhostMesh

open Op
open Exec (bind_cases)
open NodeExecutor (isRegistryPublication parseCandidate publishedEntry)

/-! ## Published panels -/

/-- The entry is a published one of the panel's id and version. -/
def PatchPanel.publishedBy (p : PatchPanel) (e : PatchPanelRegistryEntry) : Bool :=
  p.entered e && e.status = .published

/-- A default search returns a published entry for the panel, and the runtime has the panel
as the definition of its id and version. -/
structure Published (settings : Settings) (s : SystemStores) (p : PatchPanel) : Prop where
  entry : ∃ e ∈ settings.registry.found s PatchPanelRegistrySearch.any,
    e.patchPanelId = p.id ∧ e.version = p.version ∧ e.status = .published
  definition : settings.runtime.definition s p.id p.version = some p

theorem RegistryBackend.mem_found {σ : Type} (registry : RegistryBackend σ) (s : σ)
    (filters : PatchPanelRegistrySearch) (e : PatchPanelRegistryEntry) :
    e ∈ registry.found s filters ↔
      e ∈ (registry.entries s).values ∧ entryMatches e filters = true := by
  cases registry with
  | memory store =>
    unfold found entries
    exact List.mem_filter
  | postgres engine store =>
    unfold found entries
    rw [List.mem_filter, AuthorityEngine.mem_rows]

theorem entryMatches_of_published {e : PatchPanelRegistryEntry} (h : e.status = .published) :
    entryMatches e PatchPanelRegistrySearch.any = true := by
  unfold entryMatches
  rw [h]
  rfl

theorem published_iff {settings : Settings} {s : SystemStores} {p : PatchPanel} :
    Published settings s p ↔ (settings.registry.entries s).values.any p.publishedBy = true ∧
      settings.runtime.definition s p.id p.version = some p := by
  have hentry : (∃ e ∈ settings.registry.found s PatchPanelRegistrySearch.any,
      e.patchPanelId = p.id ∧ e.version = p.version ∧ e.status = .published) ↔
        (settings.registry.entries s).values.any p.publishedBy = true := by
    rw [List.any_eq_true]
    constructor
    · rintro ⟨e, hfound, hid, hversion, hstatus⟩
      refine ⟨e, ((settings.registry.mem_found s _ e).mp hfound).1, ?_⟩
      simp [PatchPanel.publishedBy, PatchPanel.entered, hid, hversion, hstatus]
    · rintro ⟨e, hmem, hpublished⟩
      simp only [PatchPanel.publishedBy, PatchPanel.entered, Bool.and_eq_true,
        decide_eq_true_eq] at hpublished
      obtain ⟨⟨hid, hversion⟩, hstatus⟩ := hpublished
      exact ⟨e, (settings.registry.mem_found s _ e).mpr ⟨hmem, entryMatches_of_published hstatus⟩,
        hid, hversion, hstatus⟩
  exact ⟨fun h => ⟨hentry.mp h.entry, h.definition⟩, fun h => ⟨hentry.mpr h.1, h.2⟩⟩

/-! ## The entry of a publication -/

section Entry
variable {settings : Settings} {w : World} {a a' : Machine SystemStores} {n : NodeDefinition}
  {card : Card} {candidate : PatchPanel} {metadata : PatchPanelRegistryMetadata}

/-- The entry that a publication registers, if it registers one. -/
def newEntry (w : World) (a : Machine SystemStores) (n : NodeDefinition) (card : Card)
    (candidate : PatchPanel) (metadata : PatchPanelRegistryMetadata) : PatchPanelRegistryEntry :=
  { id := w.uuid4 a.draws, patchPanelId := candidate.id, version := candidate.version,
    name := metadata.name, description := metadata.description, tags := metadata.tags,
    inputTypes := metadata.inputTypes, outputTypes := metadata.outputTypes,
    requiredTools := metadata.requiredTools, requiredPermissions := metadata.requiredPermissions,
    riskLevel := metadata.riskLevel, estimatedCost := metadata.estimatedCost,
    estimatedLatency := metadata.estimatedLatency,
    ownerParticipantId := metadata.ownerParticipantId, status := .published,
    supersedesEntryId := none,
    metadata := [("proposal_card_id", .str card.id.str), ("published_by_sink", .str n.id),
      ("genesis_intent_id", JsonObj.getD card.payload "genesis_intent_id" .null)],
    createdAt := w.clock a.ticks, updatedAt := w.clock (a.ticks + 1), archivedAt := none }

/-- An entry that is there is the answer; otherwise one is registered, if it can be. -/
theorem publishedEntry_cases {r : Except PyErr PatchPanelRegistryEntry}
    (h : (publishedEntry (createRegistry settings.registry) n card candidate metadata).run w a =
      (r, a')) : RuntimeKept a a' ∧ a.draws ≤ a'.draws ∧
    (((settings.registry.entries a.store).values.any candidate.entered = true ∧ a' = a ∧
        ∃ e, r = .ok e) ∨
      (settings.registry.entries a.store).values.any candidate.entered = false ∧
        ((a'.store = a.store ∧ (∃ x, r = .error x) ∧
            ¬ settings.registry.Accepts a.store (newEntry w a n card candidate metadata)) ∨
          (∃ e, r = .ok e) ∧
            settings.registry.Accepts a.store (newEntry w a n card candidate metadata) ∧
            settings.registry.entries a'.store = (settings.registry.entries a.store).set
              (w.uuid4 a.draws) (newEntry w a n card candidate metadata))) := by
  unfold publishedEntry at h
  replace h := (Exec.run_bind_ok
    (createRegistry_finds settings.registry everyEntry a)).symm.trans h
  have hfind : ((settings.registry.found a.store everyEntry).find? candidate.entered).isSome =
      (settings.registry.entries a.store).values.any candidate.entered := by
    rw [List.isSome_find?, settings.registry.found_any]
  split at h
  · rename_i existing hsome
    replace hsome : (settings.registry.found a.store everyEntry).find? candidate.entered =
      some existing := hsome
    rw [hsome] at hfind
    cases h
    exact ⟨⟨rfl, rfl⟩, Nat.le_refl _, .inl ⟨hfind.symm, rfl, existing, rfl⟩⟩
  · rename_i hnone
    replace hnone : (settings.registry.found a.store everyEntry).find? candidate.entered =
      none := hnone
    rw [hnone] at hfind
    have hdrawn : (PatchPanelRegistryEntry.fromPatchPanel candidate
        { metadata with status := .published }
        [("proposal_card_id", .str card.id.str), ("published_by_sink", .str n.id),
          ("genesis_intent_id", JsonObj.getD card.payload "genesis_intent_id" .null)]).run w a =
        (.ok (newEntry w a n card candidate metadata),
          ⟨a.store, a.ticks + 2, a.draws + 1⟩) := rfl
    replace h := (Exec.run_bind_ok hdrawn).symm.trans h
    have hkept : RuntimeKept ⟨a.store, a.ticks + 2, a.draws + 1⟩
        (((createRegistry settings.registry).register (newEntry w a n card candidate metadata)).run
          w ⟨a.store, a.ticks + 2, a.draws + 1⟩).2 := register_kept _
    rw [h] at hkept
    obtain ⟨hdraws, hcases⟩ := createRegistry_registers settings.registry h
    refine ⟨⟨hkept.runtime, hkept.tables⟩, ?_, .inr ⟨hfind.symm, ?_⟩⟩
    · rw [hdraws]
      exact Nat.le_succ _
    · rcases hcases with hraises | ⟨hr, haccepts, hentries⟩
      · exact .inl hraises
      · exact .inr ⟨⟨_, hr⟩, haccepts, hentries⟩

/-- Entries of the candidate's id and version are published ones, if there is one at all. -/
def Unretired (settings : Settings) (s : SystemStores) (candidate : PatchPanel) : Prop :=
  (settings.registry.entries s).values.any candidate.entered = true →
    (settings.registry.entries s).values.any candidate.publishedBy = true

/-- After a publication's entry there is a published one exactly if there was none or a
published one. -/
theorem published_after_iff {e : PatchPanelRegistryEntry}
    (h : (publishedEntry (createRegistry settings.registry) n card candidate metadata).run w a =
      (.ok e, a')) : (settings.registry.entries a'.store).values.any candidate.publishedBy = true ↔
        Unretired settings a.store candidate := by
  unfold Unretired
  obtain ⟨-, -, ⟨hentered, rfl, -⟩ | ⟨hnone, hnew⟩⟩ := publishedEntry_cases h
  · exact ⟨fun hpublished _ => hpublished, fun hunretired => hunretired hentered⟩
  · rcases hnew with ⟨-, ⟨x, hx⟩, -⟩ | ⟨-, -, hentries⟩
    · cases hx
    · refine ⟨fun _ hentered => ?_, fun _ => ?_⟩
      · rw [hnone] at hentered
        cases hentered
      · rw [hentries, List.any_eq_true]
        refine ⟨newEntry w a n card candidate metadata,
          Dict.mem_values_of_get? (Dict.get?_set_self _ _ _), ?_⟩
        simp [PatchPanel.publishedBy, PatchPanel.entered, newEntry]

end Entry

/-! ## The publication of a card -/

/-- The card is approved for publication, and its payload has a candidate and metadata. -/
structure Publishing (settings : Settings) (w : World) (s : SystemStores) (card : Card)
    (candidate : PatchPanel) (metadata : PatchPanelRegistryMetadata) : Prop where
  approved : NodeExecutor.publicationApproved (settings.runtime.history s card.id) = true
  candidate : parseCandidate w card.payload = .ok candidate
  metadata : NodeExecutor.parseRegistryMetadata w card.payload = .ok metadata

section Publication
variable {settings : Settings} {p : PatchPanel} {registryGiven repositoryGiven : Bool} {w : World}
  {a a' : Machine SystemStores} {n : NodeDefinition} {card : Card}
  {externalReference : Option String}

/-- A publication raises before it writes, or registers the candidate and then an entry. -/
theorem executeRegistryPublication_cases {r : Except PyErr (Option String)}
    (h : ((createNodeExecutor settings p registryGiven repositoryGiven).executeRegistryPublication
      n card externalReference).run w a = (r, a')) :
    (a' = a ∧ ∃ e, r = .error e) ∨
    ∃ candidate metadata, Publishing settings w a.store card candidate metadata ∧
      ((∃ e, ((createRuntime settings.runtime).registerPatchPanel candidate).run w a =
          (.error e, a') ∧ r = .error e) ∨
        ∃ q b answer, ((createRuntime settings.runtime).registerPatchPanel candidate).run w a =
            (.ok q, b) ∧
          (publishedEntry (createRegistry settings.registry) n card candidate metadata).run w b =
            (answer, a') ∧
          r = answer.map fun entry => some ((truthyStr externalReference).getD entry.id.str)) := by
  unfold NodeExecutor.executeRegistryPublication createNodeExecutor at h
  cases registryGiven with
  | false =>
    cases h
    exact .inl ⟨rfl, _, rfl⟩
  | true =>
    simp only [if_true] at h
    unfold NodeExecutor.ensureRegistryPublicationHistory at h
    obtain hraises | ⟨happroved, h⟩ := approval_bind settings.runtime h
    · exact .inl hraises
    rw [Exec.run_bind_ok (Op.run_world w a)] at h
    obtain ⟨rfl, e, -, he⟩ | ⟨candidate, hcandidate, h⟩ :=
      Exec.bind_same (Op.run_ofExcept _ w a) h
    · exact .inl ⟨rfl, e, he⟩
    obtain ⟨rfl, e, -, he⟩ | ⟨metadata, hmetadata, h⟩ := Exec.bind_same (Op.run_ofExcept _ w a) h
    · exact .inl ⟨rfl, e, he⟩
    refine .inr ⟨candidate, metadata, ⟨happroved, hcandidate, hmetadata⟩, ?_⟩
    obtain ⟨e, hregister, he⟩ | ⟨q, b, hregister, h⟩ := bind_cases h
    · exact .inl ⟨e, hregister, he⟩
    refine .inr ⟨q, b, ?_⟩
    obtain ⟨e, hentry, he⟩ | ⟨entry, c, hentry, h⟩ := bind_cases h
    · exact ⟨_, hregister, hentry, he⟩
    · cases h
      exact ⟨_, hregister, hentry, rfl⟩

/-- Nothing of the candidate's id and version stands in the way: no entry that is not
published is there without a published one, and in Postgres no other definition. -/
structure Publishable (settings : Settings) (s : SystemStores) (candidate : PatchPanel) : Prop where
  unretired : Unretired settings s candidate
  takes : settings.runtime.Takes s candidate

theorem published_congr {s s' : SystemStores} {q : PatchPanel}
    (hentries : settings.registry.entries s' = settings.registry.entries s)
    (hdefinition : settings.runtime.definition s' = settings.runtime.definition s) :
    Published settings s' q ↔ Published settings s q := by
  rw [published_iff, published_iff, hentries, hdefinition]

/-- A registration that returned, and an entry after it. -/
theorem published_after_registration {b : Machine SystemStores} {candidate : PatchPanel}
    {metadata : PatchPanelRegistryMetadata} {q : PatchPanel} {entry : PatchPanelRegistryEntry}
    (hregister : ((createRuntime settings.runtime).registerPatchPanel candidate).run w a =
      (.ok q, b))
    (hentry : (publishedEntry (createRegistry settings.registry) n card candidate metadata).run w b =
      (.ok entry, a')) :
    Published settings a'.store candidate ↔ Publishable settings a.store candidate := by
  obtain ⟨-, -, ⟨-, e, he⟩ | ⟨-, -, hregistered⟩⟩ :=
    createRuntime_registers settings.runtime hregister
  · cases he
  have honly : RuntimeOnly a (((createRuntime settings.runtime).registerPatchPanel candidate).run
    w a).2 := registerPatchPanel_only candidate
  rw [hregister] at honly
  have hentries : settings.registry.entries b.store = settings.registry.entries a.store :=
    honly.entries
  have hunretired : Unretired settings b.store candidate ↔ Unretired settings a.store candidate := by
    unfold Unretired
    rw [hentries]
  have hdefinition : settings.runtime.definition a'.store = settings.runtime.definition b.store :=
    (publishedEntry_cases hentry).1.definition
  rw [published_iff, published_after_iff hentry, hunretired, hdefinition, hregistered.definition]
  exact ⟨fun h => ⟨h.1, h.2⟩, fun h => ⟨h.unretired, h.takes⟩⟩

end Publication

/-! ## The other branch -/

/-- Neither the runtime nor the entries of the registry have been written to. -/
structure ParticipantsOnly (a a' : Machine SystemStores) : Prop where
  runtime : a'.store.runtime = a.store.runtime
  tables : a'.store.tables = a.store.tables
  registry : a'.store.registry = a.store.registry
  entries : a'.store.authorityTables.patchPanelRegistryEntries =
    a.store.authorityTables.patchPanelRegistryEntries

namespace ParticipantsOnly

theorem of_same {a a' : Machine SystemStores} (h : a'.store = a.store) : ParticipantsOnly a a' := by
  constructor <;> rw [h]

theorem trans {a b c : Machine SystemStores} (hab : ParticipantsOnly a b)
    (hbc : ParticipantsOnly b c) : ParticipantsOnly a c where
  runtime := hbc.runtime.trans hab.runtime
  tables := hbc.tables.trans hab.tables
  registry := hbc.registry.trans hab.registry
  entries := hbc.entries.trans hab.entries

theorem of_roles {a a' : Machine SystemStores} (h : RolesOnly a a') : ParticipantsOnly a a' :=
  ⟨h.runtime, h.tables, h.registry, h.entries⟩

theorem kept {a a' : Machine SystemStores} (h : ParticipantsOnly a a') : RuntimeKept a a' :=
  ⟨h.runtime, h.tables⟩

theorem registryEntries {a a' : Machine SystemStores} (settings : Settings)
    (h : ParticipantsOnly a a') :
    settings.registry.entries a'.store = settings.registry.entries a.store := by
  unfold Settings.registry
  cases settings.registryBackend with
  | none => exact congrArg InMemoryPatchPanelRegistry.entries h.registry
  | some engine => exact h.entries

theorem upsert (settings : Settings) (w : World) (q : Participant) : Exec.Within ParticipantsOnly w
    ((createAuthorizationRepository settings.repository).upsertParticipant q) := by
  intro a
  unfold Settings.repository
  cases settings.authorizationRepository with
  | none => exact ⟨rfl, rfl, rfl, rfl⟩
  | some engine =>
    change ParticipantsOnly a ((Op.on SystemStores.authorityStore
      ((PostgresAuthorizationRepository.repository engine).upsertParticipant q)).run w a).2
    rw [Op.run_on, PostgresAuthorizationRepository.run_upsertParticipant]
    exact ⟨rfl, rfl, rfl, rfl⟩

end ParticipantsOnly

open ParticipantsOnly in
/-- The authority provisioner writes participants, roles and grants. -/
theorem executeAuthorityProvisioningSink_only (settings : Settings) (p : PatchPanel)
    (registryGiven repositoryGiven : Bool) (w : World) (card : Card)
    (externalReference : Option String) : Exec.Within ParticipantsOnly w
      ((createNodeExecutor settings p registryGiven repositoryGiven).executeAuthorityProvisioningSink
        card externalReference) := by
  have hpure : ∀ {α : Type} (x : Op SystemStores α), (∀ a, (x.run w a).2.store = a.store) →
      Exec.Within ParticipantsOnly w x := fun x hx a => .of_same (hx a)
  unfold NodeExecutor.executeAuthorityProvisioningSink createNodeExecutor
  cases repositoryGiven with
  | false => exact hpure _ fun a => rfl
  | true =>
    simp only [if_true]
    refine Exec.Within.bind @trans (hpure _ fun a => ?_) fun _ => ?_
    · change (((createRuntime settings.runtime).cardHistory card.id >>= fun history =>
        Op.ensure (NodeExecutor.provisioningApproved history) _).run w a).2.store = a.store
      rw [Exec.run_bind, createRuntime_history]
      cases (settings.runtime.cards a.store).get? card.id with
      | none => rfl
      | some _ => simp only [Op.run_ensure]
    refine Exec.Within.bind @trans (hpure Op.world fun a => rfl) fun v => ?_
    refine Exec.Within.bind @trans (hpure Op.now fun a => rfl) fun now => ?_
    refine Exec.Within.bind @trans (hpure (Op.ofExcept _) fun a => rfl) fun onboarding => ?_
    refine Exec.Within.bind @trans (upsert settings w _) fun _ => ?_
    refine Exec.Within.bind @trans ?_ fun _ => hpure (pure _) fun a => rfl
    refine Exec.Within.forEach (fun a => .of_same rfl) @trans (fun assignment => ?_) _
    refine Exec.Within.bind @trans (fun a => .of_roles ?_) fun _ => hpure (pure _) fun a => rfl
    exact RolesOnly.ensureBuiltinRoleAssignment settings _ _ _ _ a

/-! ## Publication sinks -/

/-- The candidate in the card's payload is published. -/
def CandidatePublished (settings : Settings) (w : World) (s : SystemStores) (card : Card) : Prop :=
  ∃ candidate, parseCandidate w card.payload = .ok candidate ∧ Published settings s candidate

/-- The sink can publish the card's candidate; a sink that is named like the authority
provisioner acts as one, so that the candidate has to be published before. -/
def ClearToPublish (settings : Settings) (w : World) (s : SystemStores) (n : NodeDefinition)
    (card : Card) : Prop :=
  if n.id = "authority_provisioner_sink" then CandidatePublished settings w s card
  else ∀ candidate, parseCandidate w card.payload = .ok candidate → Publishable settings s candidate

section Sinks
variable {settings : Settings} {w : World} {p : PatchPanel} {registryGiven repositoryGiven : Bool}
  {a a' : Machine SystemStores} {n : NodeDefinition} {card : Card}
  {externalReference : Option String}

theorem executeConfiguredSink_publishes {reference : Option String}
    (hcontract : isRegistryPublication n = true)
    (h : ((createNodeExecutor settings p registryGiven repositoryGiven).executeConfiguredSink n card
      externalReference).run w a = (.ok reference, a')) :
    CandidatePublished settings w a'.store card ↔ ClearToPublish settings w a.store n card := by
  unfold NodeExecutor.executeConfiguredSink at h
  unfold ClearToPublish
  by_cases hsink : n.id = "authority_provisioner_sink"
  · rw [if_pos hsink] at h ⊢
    have honly : ParticipantsOnly a ((NodeExecutor.executeAuthorityProvisioningSink
        (createNodeExecutor settings p registryGiven repositoryGiven) card externalReference).run
          w a).2 := executeAuthorityProvisioningSink_only settings p _ _ w card externalReference a
    rw [h] at honly
    unfold CandidatePublished
    simp only [published_congr (honly.registryEntries settings) honly.kept.definition]
  · rw [if_neg hsink, if_pos hcontract] at h
    rw [if_neg hsink]
    obtain ⟨-, e, he⟩ | ⟨candidate, metadata, hpublishing, hrest⟩ :=
      executeRegistryPublication_cases h
    · cases he
    obtain ⟨e, -, he⟩ | ⟨q, b, answer, hregister, hentry, hanswer⟩ := hrest
    · cases he
    cases answer with
    | error e => cases hanswer
    | ok entry =>
      have hiff := published_after_registration hregister hentry
      constructor
      · rintro ⟨candidate', hcandidate, hpublished⟩ candidate'' hcandidate''
        cases hpublishing.candidate.symm.trans hcandidate
        cases hpublishing.candidate.symm.trans hcandidate''
        exact hiff.mp hpublished
      · intro hclear
        exact ⟨candidate, hpublishing.candidate, hiff.mpr (hclear _ hpublishing.candidate)⟩

end Sinks

/-- A publication sink that returns has published the candidate of its card exactly if no
entry or a published one was there for it, and in Postgres no other definition. -/
theorem publication_publishes_iff (settings : Settings) (w : World) (p : PatchPanel)
    (registryGiven repositoryGiven : Bool) (a : Machine SystemStores) (cardId : Uuid)
    (sinkId : String) (externalReference key : Option String) (n : NodeDefinition) (card : Card)
    (result : SinkResult) (a' : Machine SystemStores)
    (hnode : NodeExecutor.node p sinkId .sink = .ok n) (hcontract : isRegistryPublication n = true)
    (hcard : (settings.runtime.cards a.store).get? cardId = some card)
    (hrun : ((createNodeExecutor settings p registryGiven repositoryGiven).executeSink cardId sinkId
      externalReference key).run w a = (.ok result, a')) :
    CandidatePublished settings w a'.store card ↔ ClearToPublish settings w a.store n card := by
  obtain ⟨-, e, he⟩ | ⟨n', card', hadmits, hrun⟩ :=
    NodeExecutor.executeSink_admitted (createRuntime_looksUp settings.runtime) hrun
  · cases he
  cases hnode.symm.trans hadmits.found
  cases hcard.symm.trans hadmits.stored
  obtain ⟨e, -, he⟩ | ⟨reference, b, heffect, answer, hevent, -⟩ :=
    NodeExecutor.effectAndEvidence_cases hrun
  · cases he
  obtain ⟨honly, hdefinition⟩ := recordEvent_leaves settings hevent
  rw [← executeConfiguredSink_publishes hcontract heffect]
  unfold CandidatePublished
  simp only [published_congr honly.entries hdefinition]

/-! A proposal of a line, approved and in front of the publication sink. -/

def proposedLine : PatchPanel := PatchPanelValidator.linePanel "orders" "1"

def lineMetadata : PatchPanelRegistryMetadata where
  name := "Orders"
  description := none
  tags := []
  inputTypes := []
  outputTypes := []
  requiredTools := []
  requiredPermissions := []
  riskLevel := none
  estimatedCost := none
  estimatedLatency := none
  ownerParticipantId := none
  status := .draft

def approvalPanel : PatchPanel :=
  { PatchPanelValidator.linePanel "approvals" "1" with
    nodes := [⟨"intake", .source, none, none, [], ["intake_out"], none, []⟩,
      ⟨"work", .worker, none, none, ["work_in"], ["work_out"], none, []⟩,
      ⟨"done", .sink, none, none, ["done_in"], [], none,
        [("egress_contract", .obj [("type", .str "registry_publication")])]⟩]
    uniqueNodes := by simp }

/-- The proposal's card, validated and approved, on a runtime. -/
def proposed (runtime : CardRuntime SystemStores) : Op SystemStores Unit := do
  let _ ← runtime.registerPatchPanel approvalPanel
  let card ← runtime.createCard "approvals" [("candidate_definition", proposedLine.toJson),
    ("registry_metadata", lineMetadata.toJson)] none none
  let _ ← runtime.recordEvent card.id "card_validated" (some "topological_validator")
    (some [("accepted", .bool true), ("output_pipe", .str "topology_valid")]) none
  let _ ← runtime.recordEvent card.id "card_validated" (some "governance_reviewer")
    (some [("accepted", .bool true), ("output_pipe", .str "proposal_approved")]) none
  let _ ← runtime.moveCard card.id "outbox" none none none
  return ()

/-- The stores with the proposal, after an earlier operation. -/
def proposedMachine (settings : Settings) (earlier : Op SystemStores Unit) : Machine SystemStores :=
  ((do
    earlier
    proposed (createRuntime settings.runtime) : Op SystemStores Unit).run .simple ⟨.init, 0, 0⟩).2

/-- The card of the proposal is brought to the sink. -/
def publishProposal (settings : Settings) (earlier : Op SystemStores Unit) :
    Except PyErr SinkResult × Machine SystemStores :=
  ((createNodeExecutor settings approvalPanel true true).executeSink ⟨0⟩ "done" none none).run
    .simple (proposedMachine settings earlier)

def archivedEntry : PatchPanelRegistryEntry :=
  ⟨⟨100⟩, "orders", "1", "Orders", none, [], [], [], [], [], none, none, none, none, .archived,
    none, [], 0, 0, none⟩

def registerArchived : Op SystemStores Unit := do
  let _ ← (createRegistry memorySettings.registry).register archivedEntry
  return ()

/-- With an archived entry of the candidate's id and version the sink returns, and nothing
is published. -/
theorem archived_unpublished : ∃ card result,
    (memorySettings.runtime.cards (proposedMachine memorySettings registerArchived).store).get?
        ⟨0⟩ = some card ∧
      (publishProposal memorySettings registerArchived).1 = .ok result ∧
      ¬ CandidatePublished memorySettings .simple
        (publishProposal memorySettings registerArchived).2.store card := by
  have hcard : ((memorySettings.runtime.cards (proposedMachine memorySettings
      registerArchived).store).get? ⟨0⟩).isSome = true := by decide +kernel
  have hreturns : (publishProposal memorySettings registerArchived).1.toOption.map
      (·.event.eventType) = some "sink_executed" := by decide +kernel
  have harchived : (memorySettings.registry.entries (publishProposal memorySettings
      registerArchived).2.store).values.all (fun e => e.status ≠ .published) = true := by
    decide +kernel
  obtain ⟨card, hcard⟩ := Option.isSome_iff_exists.mp hcard
  obtain ⟨result, hrun, -⟩ := Exec.run_ok_of_toOption hreturns
  refine ⟨card, result, hcard, congrArg Prod.fst hrun, ?_⟩
  rintro ⟨candidate, -, hpublished⟩
  obtain ⟨e, hmem, hentry⟩ := List.any_eq_true.mp (published_iff.mp hpublished).1
  have hstatus := List.all_eq_true.mp harchived e hmem
  simp only [PatchPanel.publishedBy, Bool.and_eq_true, decide_eq_true_eq] at hentry hstatus
  exact hstatus hentry.2

def tablesSettings : Settings := ⟨some .simple, none, none, [], "root"⟩

def registerReviewed : Op SystemStores Unit := do
  let _ ← (createRuntime tablesSettings.runtime).registerPatchPanel
    (PatchPanelValidator.reviewPanel "orders" "1")
  return ()

/-- With another definition in the tables the sink returns, and the tables keep it. -/
theorem stored_unpublished : ∃ card result,
    (tablesSettings.runtime.cards (proposedMachine tablesSettings registerReviewed).store).get?
        ⟨0⟩ = some card ∧
      (publishProposal tablesSettings registerReviewed).1 = .ok result ∧
      ¬ CandidatePublished tablesSettings .simple
        (publishProposal tablesSettings registerReviewed).2.store card := by
  have hcard : ((tablesSettings.runtime.cards (proposedMachine tablesSettings
      registerReviewed).store).get? ⟨0⟩).map (fun card => (parseCandidate .simple
        card.payload).toOption.map fun q => (q.id, q.version, q.nodes.length)) =
          some (some ("orders", "1", 3)) := by decide +kernel
  have hreturns : (publishProposal tablesSettings registerReviewed).1.toOption.map
      (·.event.eventType) = some "sink_executed" := by decide +kernel
  have hstored : (tablesSettings.runtime.definition (publishProposal tablesSettings
      registerReviewed).2.store "orders" "1").map (·.nodes.length) = some 5 := by decide +kernel
  obtain ⟨card, hcard, hparse⟩ := Option.map_eq_some_iff.mp hcard
  obtain ⟨result, hrun, -⟩ := Exec.run_ok_of_toOption hreturns
  refine ⟨card, result, hcard, congrArg Prod.fst hrun, ?_⟩
  rintro ⟨candidate, hcandidate, hpublished⟩
  rw [hcandidate] at hparse
  have hnamed : (candidate.id, candidate.version, candidate.nodes.length) = ("orders", "1", 3) :=
    Option.some.inj hparse
  obtain ⟨hid, hversion, hlength⟩ : candidate.id = "orders" ∧ candidate.version = "1" ∧
      candidate.nodes.length = 3 := by simpa using hnamed
  have hdefinition := hpublished.definition
  rw [hid, hversion] at hdefinition
  rw [hdefinition, Option.map_some, hlength] at hstored
  exact absurd hstored (by decide)

/-- With neither it is published. -/
theorem publication_publishes_first : ∃ card result,
    (memorySettings.runtime.cards (proposedMachine memorySettings (pure ())).store).get? ⟨0⟩ =
        some card ∧
      (publishProposal memorySettings (pure ())).1 = .ok result ∧
      CandidatePublished memorySettings .simple (publishProposal memorySettings (pure ())).2.store
        card := by
  have hcard : ((memorySettings.runtime.cards (proposedMachine memorySettings
      (pure ())).store).get? ⟨0⟩).isSome = true := by decide +kernel
  have hreturns : (publishProposal memorySettings (pure ())).1.toOption.map
      (·.event.eventType) = some "sink_executed" := by decide +kernel
  have hempty : (memorySettings.registry.entries (proposedMachine memorySettings
      (pure ())).store).values = [] := by decide +kernel
  obtain ⟨card, hcard⟩ := Option.isSome_iff_exists.mp hcard
  obtain ⟨result, hrun, -⟩ := Exec.run_ok_of_toOption hreturns
  refine ⟨card, result, hcard, congrArg Prod.fst hrun, ?_⟩
  refine (publication_publishes_iff memorySettings .simple approvalPanel true true
    (proposedMachine memorySettings (pure ())) ⟨0⟩ "done" none none _ card result _ rfl rfl hcard
      hrun).mpr ?_
  unfold ClearToPublish
  rw [if_neg (by decide)]
  intro candidate hcandidate
  refine ⟨fun hentered => ?_, trivial⟩
  rw [hempty] at hentered
  cases hentered

end GhostMesh
