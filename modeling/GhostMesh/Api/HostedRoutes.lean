import GhostMesh.Api.Hosted

/-!
# The endpoints as steps of the services

A request on any route is a sequence of steps of the services, whatever it answers.
-/

set_option autoImplicit false

namespace GhostMesh

open InMemoryCardRuntime Op

/-! ## Checks and notes -/

section Checks
variable {grants : Prop} {w : World}

theorem scopeBuild_hosted (scopeType : ScopeType) (id : Option String) :
    Exec.Within (Hosted grants w) w (Scope.build scopeType id : Op App Scope) := by
  apply Hosted.bind Hosted.world
  intro w'
  split
  · exact Hosted.pure _
  · exact Hosted.raise _

theorem decide_hosted (participantId : String) (permission : PermissionName) (scope : Scope)
    (context : JsonObj) : Exec.Within (Hosted grants w) w
      (authorize App.authorizationRepository participantId permission scope context) :=
  Hosted.authorityUse (.decide participantId permission scope context) rfl
    (fun h => by cases h) fun _ => rfl

theorem authorizeRequest_hosted (enabled : Bool) (request : Request) (permission : PermissionName)
    (scope : Scope) (context : JsonObj) (participantId : Option String) :
    Exec.Within (Hosted grants w) w (authorizeRequest App.authorizationRepository enabled request
      permission scope context participantId) := by
  unfold authorizeRequest
  split
  · split
    · exact Hosted.raise _
    · exact Hosted.bind (decide_hosted _ _ _ _) fun _ => Hosted.ensure _ _
  · exact Hosted.pure _

theorem recordAudit_hosted (action : AuditAction)
    (hplain : (action ≠ .authorizationAllowed && action ≠ .authorizationDenied) = true)
    (participantId : Option String) (permission : Option PermissionName) (scope : Option Scope)
    (allowed : Option Bool) (reason requestRef targetRef : Option String) (metadata : JsonObj) :
    Exec.Within (Hosted grants w) w (recordAudit App.authorizationRepository action participantId
      permission scope allowed reason requestRef targetRef metadata) :=
  Hosted.authorityUse (.note action participantId permission scope allowed reason requestRef
    targetRef metadata) hplain (fun h => by cases h) fun _ => rfl

end Checks

/-! ## Genesis -/

section Genesis
variable {grants : Prop} {w : World}

theorem genesisIntent_hosted (intentId : Uuid) :
    Exec.Within (Hosted grants w) w (App.genesisService.get intentId) := by
  intro a
  rw [GenesisService.run_get]
  exact .refl a

theorem receiveIntent_hosted (r : ReceiveIntent) :
    Exec.Within (Hosted grants w) w (App.genesisService.receiveIntent r) :=
  Hosted.genesisCall (.receive r) fun _ => rfl

theorem launch_hosted (intentId : Uuid) (entryId : Option Uuid) :
    Exec.Within (Hosted grants w) w (App.genesisService.launch intentId entryId) :=
  Hosted.genesisCall (.launch intentId entryId) fun _ => rfl

theorem propose_hosted (intentId : Uuid) (proposedBy : String) (p : PatchPanel)
    (d : PatchPanelRegistryMetadata) (baseId baseVersion : Option String) :
    Exec.Within (Hosted grants w) w
      (App.genesisService.propose intentId proposedBy p d baseId baseVersion) :=
  Hosted.genesisCall (.propose intentId proposedBy p d baseId baseVersion) fun _ => rfl

end Genesis

/-! ## The routes -/

/-- The routes that enter participants, roles or grants. -/
def Route.grants : Route → Bool
  | .createParticipant _ | .assignParticipantRole _ _ | .grantParticipantPermission _ _
  | .executeSink _ => true
  | _ => false

section Routes
variable {grants : Prop} {w : World} {enabled : Bool} {request : Request}

theorem authorized_hosted {β : Type} {permission : PermissionName} {scope : Scope}
    {context : JsonObj} {participantId : Option String} {f : Unit → Op App β}
    (hf : Exec.Within (Hosted grants w) w (f ())) : Exec.Within (Hosted grants w) w
      ((App.application enabled).authorize request permission scope context participantId >>= f) :=
  Hosted.bind (authorizeRequest_hosted _ _ _ _ _ _) fun _ => hf

/-- Behind a scope and a check. -/
theorem guarded_hosted {β : Type} {scopeType : ScopeType} {id : Option String}
    {permission : PermissionName} {context : JsonObj} {participantId : Option String}
    {f : Scope → Op App β} (hf : ∀ scope, Exec.Within (Hosted grants w) w (f scope)) :
    Exec.Within (Hosted grants w) w (Scope.build scopeType id >>= fun scope =>
      (App.application enabled).authorize request permission scope context participantId >>=
        fun _ => f scope) :=
  Hosted.bind (scopeBuild_hosted _ _) fun scope => authorized_hosted (hf scope)

theorem executor_hosted {β : Type} {panelId : String} {f : NodeExecutor App → Op App β}
    (hf : ∀ p, Exec.Within (Hosted grants w) w (f (App.executor p))) :
    Exec.Within (Hosted grants w) w ((App.application enabled).executor panelId >>= f) := by
  intro a
  rw [Exec.run_bind, run_executor]
  cases a.store.runtime.patchPanels.values.find? (fun p => p.id = panelId) with
  | none => exact .refl a
  | some p => exact hf p a

theorem createParticipant_hosted (hgrants : grants) (body : CreateParticipantRequest) :
    Exec.Within (Hosted grants w) w
      (Api.createParticipant App.authorizationRepository enabled body request) := by
  apply Hosted.bind (authorizeRequest_hosted _ _ _ _ _ _)
  intro _
  apply Hosted.bind Hosted.now
  intro createdAt
  apply Hosted.bind (upsertParticipant_hosted hgrants _)
  intro _
  exact Hosted.pure _

theorem assignParticipantRole_hosted (hgrants : grants) (participantId : String)
    (body : AssignRoleRequest) :
    Exec.Within (Hosted grants w) w
      (Api.assignParticipantRole App.authorizationRepository enabled participantId body
        request) := by
  apply Hosted.bind (authorizeRequest_hosted _ _ _ _ _ _)
  intro _
  apply Hosted.bind
  · exact Hosted.bind Hosted.uuid4 fun _ => Hosted.bind Hosted.now fun _ => Hosted.pure _
  intro assignment
  apply Hosted.bind (addRoleAssignment_hosted hgrants _)
  intro _
  apply Hosted.bind (permissionGrants_hosted _ _ _)
  intro grants
  apply Hosted.bind (Hosted.forEach (fun g => addPermissionGrant_hosted hgrants g) _)
  intro _
  exact Hosted.pure _

theorem grantParticipantPermission_hosted (hgrants : grants) (participantId : String)
    (body : GrantPermissionRequest) :
    Exec.Within (Hosted grants w) w
      (Api.grantParticipantPermission App.authorizationRepository enabled participantId body
        request) := by
  apply Hosted.bind (authorizeRequest_hosted _ _ _ _ _ _)
  intro _
  apply Hosted.bind Hosted.uuid4
  intro id
  apply Hosted.bind Hosted.now
  intro createdAt
  apply Hosted.bind (addPermissionGrant_hosted hgrants _)
  intro _
  exact Hosted.pure _

theorem registerEntry_hosted (body : RegisterPatchPanelRegistryRequest) :
    Exec.Within (Hosted grants w) w
      ((App.application enabled).registerPatchPanelRegistryEntry body request) := by
  apply guarded_hosted
  intro scope
  apply Hosted.bind (registerPatchPanel_hosted _)
  intro p
  apply Hosted.bind (fromPatchPanel_hosted _ _ _)
  intro entry
  exact Hosted.registryCall (.register entry) fun _ => rfl

theorem receiveGenesisIntent_hosted (body : ReceiveIntent) :
    Exec.Within (Hosted grants w) w
      ((App.application enabled).receiveGenesisIntent body request) := by
  apply authorized_hosted
  apply Hosted.bind (receiveIntent_hosted body)
  intro intent
  apply Hosted.bind (recordAudit_hosted _ (by decide) _ _ _ _ _ _ _ _)
  intro _
  apply Hosted.bind (recordAudit_hosted _ (by decide) _ _ _ _ _ _ _ _)
  intro _
  split
  · exact Hosted.bind (recordAudit_hosted _ (by decide) _ _ _ _ _ _ _ _) fun _ => Hosted.pure _
  · exact Hosted.pure _

theorem launchGenesisIntent_hosted (intentId : Uuid) (entryId : Option Uuid) :
    Exec.Within (Hosted grants w) w
      ((App.application enabled).launchGenesisIntent intentId entryId request) := by
  apply Hosted.bind (genesisIntent_hosted intentId)
  intro intent
  split
  · exact Hosted.raise _
  · apply Hosted.bind (registryGet_hosted _)
    intro entry
    apply guarded_hosted
    intro scope
    apply Hosted.bind (launch_hosted _ _)
    intro card
    apply Hosted.bind (recordAudit_hosted _ (by decide) _ _ _ _ _ _ _ _)
    intro _
    apply Hosted.bind (recordAudit_hosted _ (by decide) _ _ _ _ _ _ _ _)
    intro _
    exact Hosted.pure _

theorem proposeGenesisIntent_hosted (intentId : Uuid) (body : ProposeGenesisIntentRequest) :
    Exec.Within (Hosted grants w) w
      ((App.application enabled).proposeGenesisIntent intentId body request) := by
  apply guarded_hosted
  intro scope
  apply Hosted.bind (propose_hosted _ _ _ _ _ _)
  intro card
  apply Hosted.bind (recordAudit_hosted _ (by decide) _ _ _ _ _ _ _ _)
  intro _
  exact Hosted.pure _

theorem submission_hosted (body : SubmitArtifactRequest) :
    Exec.Within (Hosted grants w) w ((App.application enabled).submitArtifact body request) := by
  apply Hosted.bind (getLease_hosted _)
  intro lease
  apply guarded_hosted
  intro _
  exact submitArtifact_hosted _ _ _ _

theorem release_hosted (leaseId : Uuid) (actorId : Option String) :
    Exec.Within (Hosted grants w) w
      ((App.application enabled).releaseLease leaseId actorId request) := by
  apply Hosted.bind (getLease_hosted _)
  intro lease
  apply guarded_hosted
  intro _
  exact releaseLease_hosted _ _ _

theorem validation_hosted (cardId : Uuid) (body : ValidateCardRequest) :
    Exec.Within (Hosted grants w) w
      ((App.application enabled).validateCard cardId body request) := by
  apply guarded_hosted
  intro _
  exact validateCard_hosted cardId body.validatorId body.accepted _ _ _ _

theorem decision_hosted (validatorId : String) (cardId : Uuid)
    (body : HumanValidatorDecisionRequest) : Exec.Within (Hosted grants w) w
      ((App.application enabled).submitValidatorDecision validatorId cardId body request) := by
  apply guarded_hosted
  intro _
  apply executor_hosted
  intro p
  exact executeValidator_hosted rfl _

theorem source_hosted (body : SourceExecutionRequest) :
    Exec.Within (Hosted grants w) w ((App.application enabled).executeSource body request) := by
  apply guarded_hosted
  intro _
  apply executor_hosted
  intro p
  exact executeSource_hosted rfl _ _ _ _

theorem worker_hosted (body : WorkerExecutionRequest) :
    Exec.Within (Hosted grants w) w ((App.application enabled).executeWorker body request) := by
  apply guarded_hosted
  intro _
  apply executor_hosted
  intro p
  exact executeWorker_hosted rfl _

theorem validator_hosted (body : ValidatorExecutionRequest) :
    Exec.Within (Hosted grants w) w ((App.application enabled).executeValidator body request) := by
  apply guarded_hosted
  intro _
  apply executor_hosted
  intro p
  exact executeValidator_hosted rfl _

theorem sink_hosted (hgrants : grants) (body : SinkExecutionRequest) :
    Exec.Within (Hosted grants w) w ((App.application enabled).executeSink body request) := by
  apply guarded_hosted
  intro _
  apply executor_hosted
  intro p
  exact executeSink_hosted rfl (.inr rfl) (.inr ⟨hgrants, rfl⟩) _ _ _ _

theorem createShadow_hosted (body : CreateShadowRequest) :
    Exec.Within (Hosted grants w) w ((App.application enabled).createShadow body request) := by
  apply guarded_hosted
  intro scope
  apply Hosted.bind (getCard_hosted _)
  intro card
  exact createShadowCard_hosted _ _ _ _

/-- The step lemma: every request is a sequence of steps, whatever it answers. -/
theorem handle_hosted (enabled : Bool) (request : Request) (route : Route) :
    Exec.Within (Hosted (route.grants = true) w) w
      ((App.application enabled).handle request route) := by
  cases route with
  | createParticipant body => exact Hosted.discard (createParticipant_hosted rfl body)
  | assignParticipantRole participantId body =>
    exact Hosted.discard (assignParticipantRole_hosted rfl participantId body)
  | grantParticipantPermission participantId body =>
    exact Hosted.discard (grantParticipantPermission_hosted rfl participantId body)
  | registerPatchPanel p =>
    exact Hosted.discard (guarded_hosted fun _ => registerPatchPanel_hosted p)
  | registerPatchPanelRegistryEntry body => exact Hosted.discard (registerEntry_hosted body)
  | updatePatchPanelRegistryEntry entryId body =>
    apply Hosted.discard
    apply Hosted.bind (registryGet_hosted entryId)
    intro entry
    exact guarded_hosted fun _ => Hosted.registryCall (.updateMetadata entryId body) fun _ => rfl
  | archivePatchPanelRegistryEntry entryId =>
    apply Hosted.discard
    apply Hosted.bind (registryGet_hosted entryId)
    intro entry
    exact guarded_hosted fun _ => Hosted.registryCall (.archive entryId) fun _ => rfl
  | supersedePatchPanelRegistryEntry entryId by_ =>
    apply Hosted.discard
    apply Hosted.bind (registryGet_hosted entryId)
    intro entry
    exact guarded_hosted fun _ => Hosted.registryCall (.supersede entryId by_) fun _ => rfl
  | receiveGenesisIntent body => exact Hosted.discard (receiveGenesisIntent_hosted body)
  | launchGenesisIntent intentId entryId =>
    exact Hosted.discard (launchGenesisIntent_hosted intentId entryId)
  | proposeGenesisIntent intentId body =>
    exact Hosted.discard (proposeGenesisIntent_hosted intentId body)
  | createCard body =>
    exact Hosted.discard (guarded_hosted fun _ => createCard_hosted _ _ _ _)
  | claimCard body => exact Hosted.discard (guarded_hosted fun _ => claimCard_hosted _ _ _ _)
  | submitArtifact body => exact Hosted.discard (submission_hosted body)
  | renewLease leaseId seconds => exact Hosted.discard (renewLease_hosted _ _ _)
  | releaseLease leaseId actorId => exact Hosted.discard (release_hosted leaseId actorId)
  | expireLeases => exact Hosted.discard expireLeases_hosted
  | validateCard cardId body =>
    exact Hosted.discard (validation_hosted cardId body)
  | moveCard cardId body => exact Hosted.discard (moveCard_hosted _ _ _ _ _)
  | submitValidatorDecision validatorId cardId body =>
    exact Hosted.discard (decision_hosted validatorId cardId body)
  | executeSource body => exact Hosted.discard (source_hosted body)
  | executeWorker body => exact Hosted.discard (worker_hosted body)
  | executeValidator body => exact Hosted.discard (validator_hosted body)
  | executeSink body => exact Hosted.discard (sink_hosted rfl body)
  | executeBoundarySource body =>
    exact Hosted.discard (guarded_hosted fun _ => boundarySource_hosted body)
  | executeBoundarySink body =>
    exact Hosted.discard (guarded_hosted fun _ => boundarySink_hosted body)
  | createShadow body => exact Hosted.discard (createShadow_hosted body)
  | completeShadow linkId metrics =>
    exact Hosted.discard (authorized_hosted (completeShadow_hosted _ _))
  | proposeMutation body =>
    exact Hosted.discard (authorized_hosted (proposeMutation_hosted _ _ _))
  | validateMutation mutationId body =>
    exact Hosted.discard (authorized_hosted (validateMutation_hosted _ _ _ _))
  | promoteMutation mutationId p =>
    apply Hosted.discard
    apply guarded_hosted
    intro scope
    exact authorized_hosted (promoteMutation_hosted _ _)

end Routes

end GhostMesh
