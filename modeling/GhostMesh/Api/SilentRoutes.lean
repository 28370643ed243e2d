import GhostMesh.Api.App
import GhostMesh.Nodes.Silent

/-!
# The routes that decide nothing

Three endpoints reach the runtime's `validate_card`; a request on any other route
is, to the runtime, a sequence of effects without a validation.
-/

set_option autoImplicit false

namespace GhostMesh

open InMemoryCardRuntime Op

/-! ## The stores beside the runtime -/

section Stores
variable {w : World} {type : String}

theorem scopeBuild_via (scopeType : ScopeType) (id : Option String) :
    Exec.Within (Via App.authorizationStore) w (Scope.build scopeType id : Op App Scope) := by
  apply Via.bind Via.world
  intro _
  split
  · exact Via.pure _
  · exact Via.raise _

theorem recordDecision_via (d : AuthorizationDecision) :
    Exec.Within (Via App.authorizationStore) w (recordDecision App.authorizationRepository d) := by
  refine Via.bind ?_ fun event => Via.bind ?_ fun _ => Via.pure _
  · exact Via.bind Via.uuid4 fun _ => Via.bind Via.now fun _ => Via.pure _
  · exact Via.on (x := InMemoryAuthorizationRepository.recordAuditEvent event)
      fun _ => ⟨Nat.le_refl _, Nat.le_refl _⟩

theorem authorize_via (participantId : String) (permission : PermissionName) (scope : Scope)
    (context : JsonObj) : Exec.Within (Via App.authorizationStore) w
      (authorize App.authorizationRepository participantId permission scope context) := by
  have hdecide : ∀ allowed reason ids, Exec.Within (Via App.authorizationStore) w
      (newDecision participantId permission scope allowed reason ids context >>= fun d =>
        recordDecision App.authorizationRepository d) := by
    intro allowed reason ids
    refine Via.bind ?_ fun d => recordDecision_via d
    exact Via.bind Via.uuid4 fun _ => Via.bind Via.now fun _ => Via.pure _
  unfold authorize
  apply Via.bind (Via.on (x := InMemoryAuthorizationRepository.getParticipant participantId)
    fun _ => ⟨Nat.le_refl _, Nat.le_refl _⟩)
  intro found
  cases found with
  | none => exact hdecide _ _ _
  | some participant =>
    simp only
    split
    · exact hdecide _ _ _
    · apply Via.bind (Via.on
        (x := InMemoryAuthorizationRepository.listPermissionGrants participantId)
        fun _ => ⟨Nat.le_succ _, Nat.le_refl _⟩)
      intro grants
      split
      · exact hdecide _ _ _
      · exact hdecide _ _ _

theorem authorizeRequest_via (enabled : Bool) (request : Request) (permission : PermissionName)
    (scope : Scope) (context : JsonObj) (participantId : Option String) :
    Exec.Within (Via App.authorizationStore) w (authorizeRequest App.authorizationRepository
      enabled request permission scope context participantId) := by
  unfold authorizeRequest
  split
  · split
    · exact Via.raise _
    · apply Via.bind (authorize_via _ _ _ _)
      intro decision a
      rw [Op.run_ensure]
      exact .refl a
  · exact Via.pure _

theorem scopeBuild_silent (scopeType : ScopeType) (id : Option String) :
    Exec.Within (Silent w type) w (Scope.build scopeType id : Op App Scope) :=
  Silent.apart authorizationStore_apart (scopeBuild_via _ _)

theorem authorizeRequest_silent (enabled : Bool) (request : Request) (permission : PermissionName)
    (scope : Scope) (context : JsonObj) (participantId : Option String) :
    Exec.Within (Silent w type) w (authorizeRequest App.authorizationRepository enabled request
      permission scope context participantId) :=
  Silent.apart authorizationStore_apart (authorizeRequest_via _ _ _ _ _ _)

theorem authorizationWrite_silent {x : Op InMemoryAuthorizationRepository Unit}
    {f : InMemoryAuthorizationRepository → InMemoryAuthorizationRepository}
    (hx : x = Op.modify f) : Exec.Within (Silent w type) w (Op.on App.authorizationStore x) := by
  rw [hx]
  exact Silent.on authorizationStore_apart fun _ => ⟨Nat.le_refl _, Nat.le_refl _⟩

theorem upsertParticipant_silent (p : Participant) :
    Exec.Within (Silent w type) w (App.authorizationRepository.upsertParticipant p) :=
  authorizationWrite_silent (x := InMemoryAuthorizationRepository.upsertParticipant p) rfl

theorem addRoleAssignment_silent (a : RoleAssignment) :
    Exec.Within (Silent w type) w (App.authorizationRepository.addRoleAssignment a) :=
  authorizationWrite_silent (x := InMemoryAuthorizationRepository.addRoleAssignment a) rfl

theorem addPermissionGrant_silent (g : PermissionGrant) :
    Exec.Within (Silent w type) w (App.authorizationRepository.addPermissionGrant g) :=
  authorizationWrite_silent (x := InMemoryAuthorizationRepository.addPermissionGrant g) rfl

theorem recordAuditEvent_silent (e : AuthorizationAuditEvent) :
    Exec.Within (Silent w type) w (App.authorizationRepository.recordAuditEvent e) :=
  authorizationWrite_silent (x := InMemoryAuthorizationRepository.recordAuditEvent e) rfl

theorem recordAudit_silent (action : AuditAction) (participantId : Option String)
    (permission : Option PermissionName) (scope : Option Scope) (allowed : Option Bool)
    (reason requestRef targetRef : Option String) (metadata : JsonObj) :
    Exec.Within (Silent w type) w (recordAudit App.authorizationRepository action participantId
      permission scope allowed reason requestRef targetRef metadata) := by
  apply Silent.bind Silent.uuid4
  intro id
  apply Silent.bind Silent.now
  intro createdAt
  exact recordAuditEvent_silent _

theorem permissionGrants_silent (template : RoleTemplate) (scope : Scope)
    (grantedBy : Option String) : Exec.Within (Silent w type) w
      (template.permissionGrants scope grantedBy : Op App (List PermissionGrant)) :=
  fun _ => Silent.of_via authorizationStore_apart
    (Via.of_same (fun _ => (permissionGrants_cases rfl).1) _)

/-! The registry: every operation reads, and one that writes reads the clock before. -/

theorem registry_silent {α : Type} {x : Op InMemoryPatchPanelRegistry α}
    (hx : ∀ m, m.ticks ≤ (x.run w m).2.ticks ∧ m.draws ≤ (x.run w m).2.draws) :
    Exec.Within (Silent w type) w (Op.on App.registryStore x) := Silent.on registryStore_apart hx

theorem registryGet_silent (entryId : Uuid) :
    Exec.Within (Silent w type) w (App.patchPanelRegistry.get entryId) := by
  apply registry_silent (x := InMemoryPatchPanelRegistry.get entryId)
  intro m
  rw [InMemoryPatchPanelRegistry.run_registryGet]
  exact ⟨Nat.le_refl _, Nat.le_refl _⟩

theorem registryRegister_silent (e : PatchPanelRegistryEntry) :
    Exec.Within (Silent w type) w (App.patchPanelRegistry.register e) :=
  registry_silent (x := InMemoryPatchPanelRegistry.register e)
    fun _ => ⟨Nat.le_refl _, Nat.le_refl _⟩

theorem registrySearch_silent (filters : PatchPanelRegistrySearch) :
    Exec.Within (Silent w type) w (App.patchPanelRegistry.search filters) :=
  registry_silent (x := InMemoryPatchPanelRegistry.search filters)
    fun _ => ⟨Nat.le_refl _, Nat.le_refl _⟩

theorem registryUpdate_silent (entryId : Uuid) (d : PatchPanelRegistryMetadata) :
    Exec.Within (Silent w type) w (App.patchPanelRegistry.updateMetadata entryId d) := by
  apply registry_silent (x := InMemoryPatchPanelRegistry.updateMetadata entryId d)
  intro m
  simp only [InMemoryPatchPanelRegistry.updateMetadata, Exec.run_bind,
    InMemoryPatchPanelRegistry.run_registryGet]
  cases m.store.entries.get? entryId with
  | none => exact ⟨Nat.le_refl _, Nat.le_refl _⟩
  | some e =>
    simp only [Op.run_ensure]
    by_cases hdraft : e.status = .draft
    · simp [hdraft]
    · simp [hdraft]

theorem registryArchive_silent (entryId : Uuid) :
    Exec.Within (Silent w type) w (App.patchPanelRegistry.archive entryId) := by
  apply registry_silent (x := InMemoryPatchPanelRegistry.archive entryId)
  intro m
  simp only [InMemoryPatchPanelRegistry.archive, Exec.run_bind,
    InMemoryPatchPanelRegistry.run_registryGet]
  cases m.store.entries.get? entryId with
  | none => exact ⟨Nat.le_refl _, Nat.le_refl _⟩
  | some e => exact ⟨Nat.le_add_right _ 2, Nat.le_refl _⟩

theorem registrySupersede_silent (entryId supersededByEntryId : Uuid) :
    Exec.Within (Silent w type) w
      (App.patchPanelRegistry.supersede entryId supersededByEntryId) := by
  apply registry_silent (x := InMemoryPatchPanelRegistry.supersede entryId supersededByEntryId)
  intro m
  simp only [InMemoryPatchPanelRegistry.supersede, Exec.run_bind,
    InMemoryPatchPanelRegistry.run_registryGet]
  cases m.store.entries.get? entryId with
  | none => exact ⟨Nat.le_refl _, Nat.le_refl _⟩
  | some e => exact ⟨Nat.le_succ _, Nat.le_refl _⟩

end Stores

/-! ## Genesis -/

section Genesis
variable {w : World} {type : String}

theorem genesisGet_silent : Exec.Within (Silent w type) w (Op.on App.genesisStore Op.get) :=
  Silent.on genesisStore_apart fun _ => ⟨Nat.le_refl _, Nat.le_refl _⟩

theorem genesisModify_silent (f : GenesisStore → GenesisStore) :
    Exec.Within (Silent w type) w (Op.on App.genesisStore (Op.modify f)) :=
  Silent.on genesisStore_apart fun _ => ⟨Nat.le_refl _, Nat.le_refl _⟩

theorem genesisIntent_silent (intentId : Uuid) :
    Exec.Within (Silent w type) w (App.genesisService.get intentId) := by
  apply Silent.bind genesisGet_silent
  intro s
  split
  · exact Silent.pure _
  · exact Silent.raise _

theorem searchEach_silent (candidates : List PatchPanelRegistryEntry)
    (filters : List PatchPanelRegistrySearch) :
    Exec.Within (Silent w type) w (App.genesisService.searchEach candidates filters) := by
  induction filters generalizing candidates with
  | nil => exact Silent.pure _
  | cons f rest ih =>
    apply Silent.bind (registrySearch_silent f)
    intro entries
    exact ih _

theorem newIntent_silent (r : ReceiveIntent) :
    Exec.Within (Silent w type) w (GenesisService.newIntent r : Op App GenesisIntent) := by
  apply Silent.bind Silent.world
  intro _
  apply Silent.bind Silent.uuid4
  intro id
  apply Silent.bind Silent.now
  intro createdAt
  apply Silent.bind Silent.now
  intro updatedAt
  apply Silent.bind (Silent.ensure _ _)
  intro _
  exact Silent.pure _

theorem receiveIntent_silent (r : ReceiveIntent) :
    Exec.Within (Silent w type) w (App.genesisService.receiveIntent r) := by
  apply Silent.bind genesisGet_silent
  intro s
  split
  · exact genesisIntent_silent _
  · apply Silent.bind (newIntent_silent r)
    intro intent
    apply Silent.bind (searchEach_silent [] _)
    intro candidates
    apply Silent.bind
    · simp only [GenesisService.withCandidates]
      split
      · exact Silent.bind Silent.now fun _ => Silent.pure _
      · exact Silent.pure _
    intro intent
    apply Silent.bind (genesisModify_silent _)
    intro _
    apply Silent.bind (genesisModify_silent _)
    intro _
    exact Silent.pure _

theorem launch_silent (htype : type ∈ outcomeTypes) (intentId : Uuid) (entryId : Option Uuid) :
    Exec.Within (Silent w type) w (App.genesisService.launch intentId entryId) := by
  apply Silent.bind (genesisIntent_silent intentId)
  intro intent
  split
  · exact Silent.raise _
  · apply Silent.bind (registryGet_silent _)
    intro entry
    apply Silent.bind (createCard_silent htype _ _ _ _)
    intro card
    apply Silent.bind Silent.now
    intro updatedAt
    apply Silent.bind (genesisModify_silent _)
    intro _
    exact Silent.pure _

theorem propose_silent (htype : type ∈ outcomeTypes) (intentId : Uuid) (proposedBy : String)
    (p : PatchPanel) (d : PatchPanelRegistryMetadata) (baseId baseVersion : Option String) :
    Exec.Within (Silent w type) w
      (App.genesisService.propose intentId proposedBy p d baseId baseVersion) := by
  apply Silent.bind (genesisIntent_silent intentId)
  intro intent
  apply Silent.bind (createCard_silent htype _ _ _ _)
  intro card
  apply Silent.bind Silent.now
  intro updatedAt
  apply Silent.bind (genesisModify_silent _)
  intro _
  exact Silent.pure _

end Genesis

/-! ## The routes -/

/-- The routes that reach `validate_card`. -/
def Route.validates : Route → Bool
  | validateCard _ _ | submitValidatorDecision _ _ _ | executeValidator _ => true
  | _ => false

section Routes
variable {w : World} {type : String} {enabled : Bool} {request : Request}

theorem Silent.discarded {α : Type} {x : Op App α} (hx : Exec.Within (Silent w type) w x) :
    Exec.Within (Silent w type) w x.discard := Silent.bind hx fun _ => Silent.pure ()

theorem authorized_silent {β : Type} {permission : PermissionName} {scope : Scope}
    {context : JsonObj} {participantId : Option String} {f : Unit → Op App β}
    (hf : Exec.Within (Silent w type) w (f ())) : Exec.Within (Silent w type) w
      ((App.application enabled).authorize request permission scope context participantId >>= f) :=
  Silent.bind (authorizeRequest_silent _ _ _ _ _ _) fun _ => hf

/-- Behind a scope and a check. -/
theorem guarded_silent {β : Type} {scopeType : ScopeType} {id : Option String}
    {permission : PermissionName} {context : JsonObj} {participantId : Option String}
    {f : Scope → Op App β} (hf : ∀ scope, Exec.Within (Silent w type) w (f scope)) :
    Exec.Within (Silent w type) w (Scope.build scopeType id >>= fun scope =>
      (App.application enabled).authorize request permission scope context participantId >>=
        fun _ => f scope) :=
  Silent.bind (scopeBuild_silent _ _) fun scope => authorized_silent (hf scope)

/-- The executor of the application for a panel. -/
def App.executor (p : PatchPanel) : NodeExecutor App :=
  ⟨p, App.cardRuntime, some App.patchPanelRegistry, some App.authorizationRepository⟩

theorem run_executor (panelId : String) (a : Machine App) :
    ((App.application enabled).executor panelId).run w a =
      (match a.store.runtime.patchPanels.values.find? (fun p => p.id = panelId) with
        | some p => .ok (App.executor p)
        | none => .error (.notFound s!"Patch Panel '{panelId}' is not registered"), a) := by
  unfold Application.executor
  have hpanel := run_patchPanel (w := w) panelId a
  cases hfind : a.store.runtime.patchPanels.values.find? (fun p => p.id = panelId) with
  | none =>
    rw [hfind] at hpanel
    exact Exec.run_bind_error hpanel
  | some p =>
    rw [hfind] at hpanel
    exact Exec.run_bind_ok hpanel

theorem executor_silent {β : Type} {panelId : String} {f : NodeExecutor App → Op App β}
    (hf : ∀ p, Exec.Within (Silent w type) w (f (App.executor p))) :
    Exec.Within (Silent w type) w ((App.application enabled).executor panelId >>= f) := by
  intro a
  rw [Exec.run_bind, run_executor]
  cases a.store.runtime.patchPanels.values.find? (fun p => p.id = panelId) with
  | none => exact .refl a
  | some p => exact hf p a

theorem createParticipant_silent (body : CreateParticipantRequest) :
    Exec.Within (Silent w type) w
      (Api.createParticipant App.authorizationRepository enabled body request) := by
  apply Silent.bind (authorizeRequest_silent _ _ _ _ _ _)
  intro _
  apply Silent.bind Silent.now
  intro createdAt
  apply Silent.bind (upsertParticipant_silent _)
  intro _
  exact Silent.pure _

theorem assignParticipantRole_silent (participantId : String) (body : AssignRoleRequest) :
    Exec.Within (Silent w type) w
      (Api.assignParticipantRole App.authorizationRepository enabled participantId body
        request) := by
  apply Silent.bind (authorizeRequest_silent _ _ _ _ _ _)
  intro _
  apply Silent.bind
  · exact Silent.bind Silent.uuid4 fun _ => Silent.bind Silent.now fun _ => Silent.pure _
  intro assignment
  apply Silent.bind (addRoleAssignment_silent _)
  intro _
  apply Silent.bind (permissionGrants_silent _ _ _)
  intro grants
  apply Silent.bind (Silent.forEach (fun g => addPermissionGrant_silent g) _)
  intro _
  exact Silent.pure _

theorem grantParticipantPermission_silent (participantId : String)
    (body : GrantPermissionRequest) :
    Exec.Within (Silent w type) w
      (Api.grantParticipantPermission App.authorizationRepository enabled participantId body
        request) := by
  apply Silent.bind (authorizeRequest_silent _ _ _ _ _ _)
  intro _
  apply Silent.bind Silent.uuid4
  intro id
  apply Silent.bind Silent.now
  intro createdAt
  apply Silent.bind (addPermissionGrant_silent _)
  intro _
  exact Silent.pure _

theorem registerEntry_silent (body : RegisterPatchPanelRegistryRequest) :
    Exec.Within (Silent w type) w
      ((App.application enabled).registerPatchPanelRegistryEntry body request) := by
  apply guarded_silent
  intro scope
  apply Silent.bind (registerPatchPanel_silent _)
  intro p
  apply Silent.bind
  · exact Silent.bind Silent.uuid4 fun _ => Silent.bind Silent.now fun _ =>
      Silent.bind Silent.now fun _ => Silent.pure _
  intro entry
  exact registryRegister_silent entry

theorem receiveGenesisIntent_silent (body : ReceiveIntent) :
    Exec.Within (Silent w type) w
      ((App.application enabled).receiveGenesisIntent body request) := by
  apply authorized_silent
  apply Silent.bind (receiveIntent_silent body)
  intro intent
  apply Silent.bind (recordAudit_silent _ _ _ _ _ _ _ _ _)
  intro _
  apply Silent.bind (recordAudit_silent _ _ _ _ _ _ _ _ _)
  intro _
  split
  · exact Silent.bind (recordAudit_silent _ _ _ _ _ _ _ _ _) fun _ => Silent.pure _
  · exact Silent.pure _

theorem launchGenesisIntent_silent (htype : type ∈ outcomeTypes) (intentId : Uuid)
    (entryId : Option Uuid) :
    Exec.Within (Silent w type) w
      ((App.application enabled).launchGenesisIntent intentId entryId request) := by
  apply Silent.bind (genesisIntent_silent intentId)
  intro intent
  split
  · exact Silent.raise _
  · apply Silent.bind (registryGet_silent _)
    intro entry
    apply guarded_silent
    intro scope
    apply Silent.bind (launch_silent htype _ _)
    intro card
    apply Silent.bind (recordAudit_silent _ _ _ _ _ _ _ _ _)
    intro _
    apply Silent.bind (recordAudit_silent _ _ _ _ _ _ _ _ _)
    intro _
    exact Silent.pure _

theorem proposeGenesisIntent_silent (htype : type ∈ outcomeTypes) (intentId : Uuid)
    (body : ProposeGenesisIntentRequest) :
    Exec.Within (Silent w type) w
      ((App.application enabled).proposeGenesisIntent intentId body request) := by
  apply guarded_silent
  intro scope
  apply Silent.bind (propose_silent htype _ _ _ _ _ _)
  intro card
  apply Silent.bind (recordAudit_silent _ _ _ _ _ _ _ _ _)
  intro _
  exact Silent.pure _

theorem createShadow_silent (htype : type ∈ outcomeTypes) (body : CreateShadowRequest) :
    Exec.Within (Silent w type) w
      ((App.application enabled).createShadow body request) := by
  apply guarded_silent
  intro scope
  apply Silent.bind (getCard_silent _)
  intro card
  exact createShadowCard_silent htype _ _ _ _

/-- A request on a route without validation is a sequence of effects without one. -/
theorem handle_silent (enabled : Bool) (request : Request) {route : Route}
    (h : route.validates = false) : Exec.Within (Silent w "card_validated") w
      ((App.application enabled).handle request route) := by
  have htype : "card_validated" ∈ outcomeTypes := by decide
  cases route with
  | validateCard _ _ | submitValidatorDecision _ _ _ | executeValidator _ => cases h
  | createParticipant body => exact Silent.discarded (createParticipant_silent body)
  | assignParticipantRole participantId body =>
    exact Silent.discarded (assignParticipantRole_silent participantId body)
  | grantParticipantPermission participantId body =>
    exact Silent.discarded (grantParticipantPermission_silent participantId body)
  | registerPatchPanel p =>
    exact Silent.discarded (guarded_silent fun _ => registerPatchPanel_silent p)
  | registerPatchPanelRegistryEntry body => exact Silent.discarded (registerEntry_silent body)
  | updatePatchPanelRegistryEntry entryId body =>
    apply Silent.discarded
    apply Silent.bind (registryGet_silent entryId)
    intro entry
    exact guarded_silent fun _ => registryUpdate_silent entryId body
  | archivePatchPanelRegistryEntry entryId =>
    apply Silent.discarded
    apply Silent.bind (registryGet_silent entryId)
    intro entry
    exact guarded_silent fun _ => registryArchive_silent entryId
  | supersedePatchPanelRegistryEntry entryId by_ =>
    apply Silent.discarded
    apply Silent.bind (registryGet_silent entryId)
    intro entry
    exact guarded_silent fun _ => registrySupersede_silent entryId by_
  | receiveGenesisIntent body => exact Silent.discarded (receiveGenesisIntent_silent body)
  | launchGenesisIntent intentId entryId =>
    exact Silent.discarded (launchGenesisIntent_silent htype intentId entryId)
  | proposeGenesisIntent intentId body =>
    exact Silent.discarded (proposeGenesisIntent_silent htype intentId body)
  | createCard body =>
    exact Silent.discarded (guarded_silent fun _ => createCard_silent htype _ _ _ _)
  | claimCard body =>
    exact Silent.discarded (guarded_silent fun _ => claimCard_silent htype _ _ _ _)
  | submitArtifact body =>
    apply Silent.discarded
    apply Silent.bind (getLease_silent _)
    intro lease
    apply guarded_silent
    intro _
    exact submitArtifact_silent htype body.leaseId body.outputPipe body.artifactRefs _
  | renewLease leaseId seconds => exact Silent.discarded (renewLease_silent htype _ _ _)
  | releaseLease leaseId actorId =>
    apply Silent.discarded
    apply Silent.bind (getLease_silent _)
    intro lease
    apply guarded_silent
    intro _
    exact releaseLease_silent htype leaseId actorId _
  | expireLeases => exact Silent.discarded (expireLeases_silent htype)
  | moveCard cardId body => exact Silent.discarded (moveCard_silent htype _ _ _ _ _)
  | executeSource body =>
    exact Silent.discarded (guarded_silent fun _ =>
      executor_silent fun _ => executeSource_silent rfl htype _ _ _ _)
  | executeWorker body =>
    exact Silent.discarded (guarded_silent fun _ =>
      executor_silent fun _ => executeWorker_silent rfl htype _)
  | executeSink body =>
    exact Silent.discarded (guarded_silent fun _ => executor_silent fun _ =>
      executeSink_silent (by decide) rfl (.inr rfl) (.inr rfl) _ _ _ _)
  | executeBoundarySource body =>
    exact Silent.discarded (guarded_silent fun _ => boundarySource_silent htype body)
  | executeBoundarySink body =>
    exact Silent.discarded (guarded_silent fun _ => boundarySink_silent (by decide) (by decide) body)
  | createShadow body => exact Silent.discarded (createShadow_silent htype body)
  | completeShadow linkId metrics =>
    exact Silent.discarded (authorized_silent (completeShadow_silent htype _ _))
  | proposeMutation body =>
    exact Silent.discarded (authorized_silent (proposeMutation_silent _ _ _))
  | validateMutation mutationId body =>
    exact Silent.discarded (authorized_silent (validateMutation_silent _ _ _ _))
  | promoteMutation mutationId p =>
    apply Silent.discarded
    apply guarded_silent
    intro scope
    exact authorized_silent (promoteMutation_silent _ _)

end Routes

end GhostMesh
