import GhostMesh.Api.SilentRoutes
import GhostMesh.Genesis.Proposals
import GhostMesh.Runtime.AppendOnly
import GhostMesh.Runtime.LeaseLife

/-!
# The application as steps of its services

Whatever an application does is a sequence of calls of its services: of the runtime, none of
which records an event of a type of the runtime's own, of the registry, of genesis and of the
authorization repository, none of which forges a decision, and of writes of the shadow service.
The rules below follow the operations bind by bind.
-/

set_option autoImplicit false

namespace GhostMesh

open InMemoryCardRuntime Op
open Relation (ReflTransGen)

/-! ## To the runtime -/

/-- One step of a service to the runtime: a call that forges no event, or no more than the
readings and the identifiers that others took. -/
inductive HostedStep (w : World) (m m' : Machine InMemoryCardRuntime) : Prop where
  | call (c : RuntimeCall) (evidence : c.evidence = true) (h : m' = c.step w m)
  | same (h : SameStore m m')

section Steps
variable {w : World} {m m' : Machine InMemoryCardRuntime}

theorem HostedStep.effect (h : HostedStep w m m') : Effect w m m' := by
  cases h with
  | call c _ h =>
    rw [h]
    exact c.step_effect w m
  | same h => exact .same h

theorem HostedStep.lease (h : HostedStep w m m') (hkeyed : WellKeyed m.store) :
    LeaseStep w m m' := by
  cases h with
  | call c hcall h =>
    rw [h]
    exact c.step_lease w m hcall hkeyed
  | same h => exact .quiet (congrArg leases h.store) (congrArg events h.store)

theorem HostedStep.history_grows (h : HostedStep w m m') (x : Uuid) :
    m.store.history x <+: m'.store.history x := by
  cases h with
  | call c _ h =>
    rw [h]
    exact (c.step_cases w m).history_grows x
  | same h => rw [h.store]

end Steps

/-! ## The steps -/

/-- The calls of the authorization repository and of the service on it. -/
inductive AuthorityUse where
  | decide (participantId : String) (permission : PermissionName) (scope : Scope)
      (context : JsonObj)
  | note (action : AuditAction) (participantId : Option String)
      (permission : Option PermissionName) (scope : Option Scope) (allowed : Option Bool)
      (reason requestRef targetRef : Option String) (metadata : JsonObj)
  | upsertParticipant (p : Participant)
  | addRoleAssignment (a : RoleAssignment)
  | addPermissionGrant (g : PermissionGrant)

/-- The call notes no decision that has not been taken. -/
def AuthorityUse.plain : AuthorityUse → Bool
  | note action _ _ _ _ _ _ _ _ => action ≠ .authorizationAllowed && action ≠ .authorizationDenied
  | _ => true

/-- The call writes the records that decisions are made from. -/
def AuthorityUse.writes : AuthorityUse → Bool
  | upsertParticipant _ | addRoleAssignment _ | addPermissionGrant _ => true
  | decide _ _ _ _ | note _ _ _ _ _ _ _ _ _ => false

def AuthorityUse.step (w : World) (a : Machine App) : AuthorityUse → Machine App
  | decide participantId permission scope context =>
    ((authorize App.authorizationRepository participantId permission scope context).run w a).2
  | note action participantId permission scope allowed reason requestRef targetRef metadata =>
    ((recordAudit App.authorizationRepository action participantId permission scope allowed reason
      requestRef targetRef metadata).run w a).2
  | upsertParticipant p => ((App.authorizationRepository.upsertParticipant p).run w a).2
  | addRoleAssignment assignment =>
    ((App.authorizationRepository.addRoleAssignment assignment).run w a).2
  | addPermissionGrant g => ((App.authorizationRepository.addPermissionGrant g).run w a).2

/-- One step of an application; only one that `grants` writes the records of authority. -/
inductive AppStep (grants : Prop) (w : World) (a a' : Machine App) : Prop where
  | runtime (c : RuntimeCall) (evidence : c.evidence = true)
      (h : a' = App.withRuntime a (c.step w (App.runtimeMachine a)))
  | registry (c : RegistryCall) (h : a' = c.step w a)
  | genesis (c : GenesisCall) (h : a' = c.step w a)
  | authority (c : AuthorityUse) (plain : c.plain = true) (granted : c.writes = true → grants)
      (h : a' = c.step w a)
  | shadow (f : ShadowStore → ShadowStore)
      (h : a' = { a with store := { a.store with shadow := f a.store.shadow } })
  | idle (h : SameStore a a')

/-- A sequence of such steps. -/
def Hosted (grants : Prop) (w : World) (a a' : Machine App) : Prop :=
  ReflTransGen (AppStep grants w) a a'

section Projection
variable {grants : Prop} {w : World} {a a' : Machine App}

theorem AuthorityUse.step_via (c : AuthorityUse) :
    Via App.authorizationStore a (c.step w a) := by
  cases c with
  | decide participantId permission scope context => exact authorize_via _ _ _ _ a
  | note action participantId permission scope allowed reason requestRef targetRef metadata =>
    exact ⟨rfl, Nat.le_succ _, Nat.le_succ _⟩
  | upsertParticipant p => exact ⟨rfl, Nat.le_refl _, Nat.le_refl _⟩
  | addRoleAssignment assignment => exact ⟨rfl, Nat.le_refl _, Nat.le_refl _⟩
  | addPermissionGrant g => exact ⟨rfl, Nat.le_refl _, Nat.le_refl _⟩

/-- A card creation and what follows it on other stores. -/
theorem createCard_hostedSteps {panel : String} {payload : JsonObj} {metadata : Option JsonObj}
    {key : Option String} {r : Except PyErr Card} {b : Machine App}
    (h : (App.cardRuntime.createCard panel payload metadata key).run w a = (r, b))
    (hafter : SameStore (App.runtimeMachine b) (App.runtimeMachine a')) :
    ReflTransGen (HostedStep w) (App.runtimeMachine a) (App.runtimeMachine a') := by
  obtain ⟨m, hm, rfl⟩ := App.runtime_cases (x := InMemoryCardRuntime.createCard _ _ _ _) h
  have hcall : HostedStep w (App.runtimeMachine a) m :=
    .call (.createCard panel payload metadata key) rfl (congrArg Prod.snd hm).symm
  exact (ReflTransGen.single hcall).tail (.same hafter)

/-- What the genesis service does to the runtime. -/
theorem GenesisCall.hostedSteps (c : GenesisCall) :
    ReflTransGen (HostedStep w) (App.runtimeMachine a) (App.runtimeMachine (c.step w a)) := by
  cases c with
  | receive request =>
    rcases hrun : (App.genesisService.receiveIntent request).run w a with ⟨r, a'⟩
    have hstep : (GenesisCall.receive request).step w a = a' := congrArg Prod.snd hrun
    rw [hstep]
    rcases GenesisService.receiveIntent_outcome hrun with ⟨intentId, -, h⟩ |
      ⟨-, ⟨rfl, -⟩ | ⟨found, ticks, hticks, -, -, intent, -, -, rfl⟩⟩
    · rw [GenesisService.run_get] at h
      cases h
      exact .refl
    · exact .single (.same ⟨rfl, Nat.le_add_right _ 2, Nat.le_succ _⟩)
    · exact .single (.same ⟨rfl, Nat.le_of_add_right_le hticks, Nat.le_succ _⟩)
  | launch intentId registryEntryId =>
    rcases hrun : (App.genesisService.launch intentId registryEntryId).run w a with ⟨r, a'⟩
    have hstep : (GenesisCall.launch intentId registryEntryId).step w a = a' :=
      congrArg Prod.snd hrun
    rw [hstep]
    rcases GenesisService.launch_cases appRegistry_gets hrun with
      ⟨rfl, -⟩ | ⟨intent, entry, b, -, hcard, ⟨rfl, -⟩ | ⟨card, -, rfl⟩⟩
    · exact .refl
    · exact createCard_hostedSteps hcard (.refl _)
    · exact createCard_hostedSteps hcard ⟨rfl, Nat.le_succ _, Nat.le_refl _⟩
  | propose intentId proposedBy candidate metadata baseId baseVersion =>
    rcases hrun : (App.genesisService.propose intentId proposedBy candidate metadata baseId
      baseVersion).run w a with ⟨r, a'⟩
    have hstep : (GenesisCall.propose intentId proposedBy candidate metadata baseId
      baseVersion).step w a = a' := congrArg Prod.snd hrun
    rw [hstep]
    rcases GenesisService.propose_outcome hrun with
      ⟨rfl, -⟩ | ⟨intent, b, -, hcard, ⟨rfl, -⟩ | ⟨card, -, rfl⟩⟩
    · exact .refl
    · exact createCard_hostedSteps hcard (.refl _)
    · exact createCard_hostedSteps hcard ⟨rfl, Nat.le_succ _, Nat.le_refl _⟩

/-- To the runtime a step is a run of calls that forge no event. -/
theorem AppStep.hostedSteps (h : AppStep grants w a a') :
    ReflTransGen (HostedStep w) (App.runtimeMachine a) (App.runtimeMachine a') := by
  cases h with
  | runtime c evidence h =>
    rw [h]
    exact .single (.call c evidence rfl)
  | registry c h =>
    rw [h]
    exact .single (.same (via_registry_same c.step_via))
  | genesis c h =>
    rw [h]
    exact c.hostedSteps
  | authority c plain granted h =>
    rw [h]
    exact .single (.same (via_authorization_same c.step_via))
  | shadow f h =>
    rw [h]
    exact .refl
  | idle h => exact .single (.same ⟨congrArg App.runtime h.store, h.ticks, h.draws⟩)

theorem AppStep.mono {grants' : Prop} (hgrants : grants → grants') (h : AppStep grants w a a') :
    AppStep grants' w a a' := by
  cases h with
  | runtime c evidence h => exact .runtime c evidence h
  | registry c h => exact .registry c h
  | genesis c h => exact .genesis c h
  | authority c plain granted h => exact .authority c plain (hgrants ∘ granted) h
  | shadow f h => exact .shadow f h
  | idle h => exact .idle h

theorem Hosted.hostedSteps (h : Hosted grants w a a') :
    ReflTransGen (HostedStep w) (App.runtimeMachine a) (App.runtimeMachine a') := by
  induction h with
  | refl => exact .refl
  | tail _ hlast ih => exact ih.trans hlast.hostedSteps

end Projection

/-! ## Rules -/

namespace Hosted

variable {grants : Prop} {w : World} {α β : Type} {a a' b c : Machine App}

theorem refl (a : Machine App) : Hosted grants w a a := ReflTransGen.refl

theorem trans (h : Hosted grants w a b) (h' : Hosted grants w b c) : Hosted grants w a c :=
  ReflTransGen.trans h h'

theorem idle (h : SameStore a a') : Hosted grants w a a' := ReflTransGen.single (.idle h)

theorem mono {grants' : Prop} (hgrants : grants → grants') (h : Hosted grants w a a') :
    Hosted grants' w a a' := by
  induction h with
  | refl => exact refl a
  | tail _ hlast ih => exact ReflTransGen.tail ih (hlast.mono hgrants)

/-- What the steps keep, the application keeps. -/
theorem invariant {I : Machine App → Prop} (hstep : ∀ {a a'}, I a → AppStep grants w a a' → I a')
    (h : Hosted grants w a a') (ha : I a) : I a' := by
  induction h with
  | refl => exact ha
  | tail _ hlast ih => exact hstep ih hlast

/-- What the calls of the runtime and the passing of time keep of the runtime. -/
theorem runtime_invariant {I : Machine InMemoryCardRuntime → Prop}
    (hstep : ∀ {m m'}, I m → HostedStep w m m' → I m') (h : Hosted grants w a a')
    (ha : I (App.runtimeMachine a)) : I (App.runtimeMachine a') := by
  have hgen : ∀ {m m' : Machine InMemoryCardRuntime}, ReflTransGen (HostedStep w) m m' →
      I m → I m' := by
    intro m m' hm hI
    induction hm with
    | refl => exact hI
    | tail _ hlast ih => exact hstep ih hlast
  exact hgen h.hostedSteps ha

theorem pure (v : α) : Exec.Within (Hosted grants w) w (pure v : Op App α) :=
  Exec.Within.pure refl v

theorem raise (e : PyErr) : Exec.Within (Hosted grants w) w (Op.raise e : Op App α) :=
  Exec.Within.raise refl e

theorem ofExcept (x : Except PyErr α) :
    Exec.Within (Hosted grants w) w (Op.ofExcept x : Op App α) :=
  Exec.Within.ofExcept refl x

theorem ensure (b : Bool) (e : PyErr) :
    Exec.Within (Hosted grants w) w (Op.ensure b e : Op App Unit) := Exec.Within.ensure refl b e

theorem world : Exec.Within (Hosted grants w) w (Op.world : Op App World) := refl

theorem now : Exec.Within (Hosted grants w) w (Op.now : Op App Instant) :=
  fun _ => idle ⟨rfl, Nat.le_succ _, Nat.le_refl _⟩

theorem uuid4 : Exec.Within (Hosted grants w) w (Op.uuid4 : Op App Uuid) :=
  fun _ => idle ⟨rfl, Nat.le_refl _, Nat.le_succ _⟩

theorem bind {x : Op App α} {f : α → Op App β} (hx : Exec.Within (Hosted grants w) w x)
    (hf : ∀ v, Exec.Within (Hosted grants w) w (f v)) : Exec.Within (Hosted grants w) w (x >>= f) :=
  Exec.Within.bind (R := Hosted grants w) trans hx hf

theorem forEach {f : β → Op App Unit} (hf : ∀ b, Exec.Within (Hosted grants w) w (f b))
    (bs : List β) : Exec.Within (Hosted grants w) w (Exec.forEach f bs) :=
  Exec.Within.forEach (R := Hosted grants w) refl trans hf bs

theorem discard {x : Op App α} (hx : Exec.Within (Hosted grants w) w x) :
    Exec.Within (Hosted grants w) w x.discard := bind hx fun _ => pure ()

/-- A call of the runtime. -/
theorem call {x : Op InMemoryCardRuntime α} (c : RuntimeCall) (hcall : c.evidence = true)
    (hx : ∀ m, (x.run w m).2 = c.step w m) :
    Exec.Within (Hosted grants w) w (Op.on App.runtimeStore x) := by
  intro a
  refine ReflTransGen.single (.runtime c hcall ?_)
  rw [Op.run_on, ← hx]
  rfl

/-- An operation of a component that writes nothing. -/
theorem reads {S : Type} {c : Component App S} {x : Op S α}
    (hx : ∀ m, SameStore m (x.run w m).2) : Exec.Within (Hosted grants w) w (Op.on c x) := by
  intro a
  have hsame := hx ⟨c.get a.store, a.ticks, a.draws⟩
  rw [Op.run_on]
  refine idle ⟨?_, hsame.ticks, hsame.draws⟩
  dsimp only
  rw [hsame.store, c.put_get]

/-- An operation of the registry that changes entries. -/
theorem registryCall (c : RegistryCall) {x : Op App α} (hx : ∀ a, (x.run w a).2 = c.step w a) :
    Exec.Within (Hosted grants w) w x := fun a => ReflTransGen.single (.registry c (hx a))

theorem genesisCall (c : GenesisCall) {x : Op App α} (hx : ∀ a, (x.run w a).2 = c.step w a) :
    Exec.Within (Hosted grants w) w x := fun a => ReflTransGen.single (.genesis c (hx a))

theorem authorityUse (c : AuthorityUse) (hplain : c.plain = true)
    (hgranted : c.writes = true → grants) {x : Op App α} (hx : ∀ a, (x.run w a).2 = c.step w a) :
    Exec.Within (Hosted grants w) w x :=
  fun a => ReflTransGen.single (.authority c hplain hgranted (hx a))

end Hosted

/-! ## The stores beside the runtime -/

section Stores
variable {grants : Prop} {w : World}

theorem upsertParticipant_hosted (hgrants : grants) (p : Participant) :
    Exec.Within (Hosted grants w) w (App.authorizationRepository.upsertParticipant p) :=
  Hosted.authorityUse (.upsertParticipant p) rfl (fun _ => hgrants) fun _ => rfl

theorem addRoleAssignment_hosted (hgrants : grants) (a : RoleAssignment) :
    Exec.Within (Hosted grants w) w (App.authorizationRepository.addRoleAssignment a) :=
  Hosted.authorityUse (.addRoleAssignment a) rfl (fun _ => hgrants) fun _ => rfl

theorem addPermissionGrant_hosted (hgrants : grants) (g : PermissionGrant) :
    Exec.Within (Hosted grants w) w (App.authorizationRepository.addPermissionGrant g) :=
  Hosted.authorityUse (.addPermissionGrant g) rfl (fun _ => hgrants) fun _ => rfl

theorem permissionGrants_hosted (template : RoleTemplate) (scope : Scope)
    (grantedBy : Option String) : Exec.Within (Hosted grants w) w
      (template.permissionGrants scope grantedBy : Op App (List PermissionGrant)) :=
  fun _ => Hosted.idle (permissionGrants_cases rfl).1

theorem ensureBuiltinRoleAssignment_hosted (hgrants : grants) (participantId : String)
    (role : RoleName) (scope : Scope) (assignedBy : Option String) : Exec.Within (Hosted grants w) w
      (ensureBuiltinRoleAssignment App.authorizationRepository participantId role scope
        assignedBy) := by
  refine ensureBuiltinRoleAssignment_within (R := Hosted grants w) Hosted.idle Hosted.trans ?_
    (addRoleAssignment_hosted hgrants) ?_ (addPermissionGrant_hosted hgrants)
  · exact Hosted.reads (x := InMemoryAuthorizationRepository.listRoleAssignments participantId)
      fun _ => ⟨rfl, Nat.le_succ _, Nat.le_refl _⟩
  · exact Hosted.reads (x := InMemoryAuthorizationRepository.listPermissionGrants participantId)
      fun _ => ⟨rfl, Nat.le_succ _, Nat.le_refl _⟩

theorem registryGet_hosted (entryId : Uuid) :
    Exec.Within (Hosted grants w) w (App.patchPanelRegistry.get entryId) := by
  intro a
  rw [appRegistry_gets]
  exact .refl a

theorem registrySearch_hosted (filters : PatchPanelRegistrySearch) :
    Exec.Within (Hosted grants w) w (App.patchPanelRegistry.search filters) := by
  intro a
  rw [run_search]
  exact .refl a

theorem fromPatchPanel_hosted (p : PatchPanel) (d : PatchPanelRegistryMetadata)
    (metadata : JsonObj) : Exec.Within (Hosted grants w) w
      (PatchPanelRegistryEntry.fromPatchPanel p d metadata : Op App PatchPanelRegistryEntry) :=
  Hosted.bind Hosted.uuid4 fun _ => Hosted.bind Hosted.now fun _ =>
    Hosted.bind Hosted.now fun _ => Hosted.pure _

theorem publishedEntry_hosted (n : NodeDefinition) (card : Card) (candidate : PatchPanel)
    (metadata : PatchPanelRegistryMetadata) : Exec.Within (Hosted grants w) w
      (NodeExecutor.publishedEntry App.patchPanelRegistry n card candidate metadata) := by
  apply Hosted.bind (registrySearch_hosted _)
  intro entries
  split
  · exact Hosted.pure _
  · apply Hosted.bind (fromPatchPanel_hosted _ _ _)
    intro entry
    exact Hosted.registryCall (.register entry) fun _ => rfl

end Stores

/-! ## Operations of the runtime -/

section Runtime
variable {grants : Prop} {w : World}

theorem registerPatchPanel_hosted (p : PatchPanel) :
    Exec.Within (Hosted grants w) w (App.cardRuntime.registerPatchPanel p) :=
  Hosted.call (.registerPatchPanel p) rfl fun _ => rfl

theorem listPatchPanels_hosted : Exec.Within (Hosted grants w) w App.cardRuntime.listPatchPanels :=
  Hosted.call .listPatchPanels rfl fun _ => rfl

theorem createCard_hosted (panel : String) (payload : JsonObj) (metadata : Option JsonObj)
    (key : Option String) :
    Exec.Within (Hosted grants w) w (App.cardRuntime.createCard panel payload metadata key) :=
  Hosted.call (.createCard panel payload metadata key) rfl fun _ => rfl

theorem claimCard_hosted (pipe worker : String) (seconds : Int) (key : Option String) :
    Exec.Within (Hosted grants w) w (App.cardRuntime.claimCard pipe worker seconds key) :=
  Hosted.call (.claimCard pipe worker seconds key) rfl fun _ => rfl

theorem submitArtifact_hosted (lease : Uuid) (pipe : String) (refs : List ArtifactReference)
    (key : Option String) :
    Exec.Within (Hosted grants w) w (App.cardRuntime.submitArtifact lease pipe refs key) :=
  Hosted.call (.submitArtifact lease pipe refs key) rfl fun _ => rfl

theorem renewLease_hosted (lease : Uuid) (seconds : Int) (key : Option String) :
    Exec.Within (Hosted grants w) w (App.cardRuntime.renewLease lease seconds key) :=
  Hosted.call (.renewLease lease seconds key) rfl fun _ => rfl

theorem releaseLease_hosted (lease : Uuid) (actor key : Option String) :
    Exec.Within (Hosted grants w) w (App.cardRuntime.releaseLease lease actor key) :=
  Hosted.call (.releaseLease lease actor key) rfl fun _ => rfl

theorem expireLeases_hosted : Exec.Within (Hosted grants w) w App.cardRuntime.expireLeases :=
  Hosted.call .expireLeases rfl fun _ => rfl

theorem validateCard_hosted (card : Uuid) (validator : String) (accepted : Bool)
    (reason pipe : Option String) (payload : Option JsonObj) (key : Option String) :
    Exec.Within (Hosted grants w) w
      (App.cardRuntime.validateCard card validator accepted reason pipe payload key) :=
  Hosted.call (.validateCard card validator accepted reason pipe payload key) rfl fun _ => rfl

theorem moveCard_hosted (card : Uuid) (bucket : String) (actor reason key : Option String) :
    Exec.Within (Hosted grants w) w (App.cardRuntime.moveCard card bucket actor reason key) :=
  Hosted.call (.moveCard card bucket actor reason key) rfl fun _ => rfl

theorem recordEvent_hosted {type : String} (htype : evidenceType type = true) (card : Uuid)
    (actor : Option String) (payload : Option JsonObj) (key : Option String) :
    Exec.Within (Hosted grants w) w (App.cardRuntime.recordEvent card type actor payload key) :=
  Hosted.call (.recordEvent card type actor payload key) htype fun _ => rfl

theorem cardHistory_hosted (card : Uuid) :
    Exec.Within (Hosted grants w) w (App.cardRuntime.cardHistory card) :=
  Hosted.call (.cardHistory card) rfl fun _ => rfl

theorem getCard_hosted (card : Uuid) :
    Exec.Within (Hosted grants w) w (App.cardRuntime.getCard card) := by
  apply Hosted.reads (x := InMemoryCardRuntime.getCard card)
  intro m
  rw [run_getCard]
  exact .refl m

theorem getLease_hosted (lease : Uuid) :
    Exec.Within (Hosted grants w) w (App.cardRuntime.getLease lease) := by
  apply Hosted.reads (x := InMemoryCardRuntime.getLease lease)
  intro m
  rw [run_getLease]
  exact .refl m

end Runtime

/-! ## Nodes -/

section Nodes
variable {grants : Prop} {w : World} {x : NodeExecutor App} (hx : x.runtime = App.cardRuntime)
include hx

theorem executeSource_hosted (sourceId : String) (payload : JsonObj) (metadata : Option JsonObj)
    (key : Option String) :
    Exec.Within (Hosted grants w) w (x.executeSource sourceId payload metadata key) := by
  simp only [NodeExecutor.executeSource, hx]
  apply Hosted.bind (Hosted.ofExcept _)
  intro n
  apply Hosted.bind (createCard_hosted _ _ _ _)
  intro card
  apply Hosted.bind (recordEvent_hosted (by decide) _ _ _ _)
  intro _
  exact Hosted.pure _

theorem executeWorker_hosted (request : WorkerExecutionInput) :
    Exec.Within (Hosted grants w) w (x.executeWorker request) := by
  simp only [NodeExecutor.executeWorker, hx]
  apply Hosted.bind (Hosted.ofExcept _)
  intro n
  apply Hosted.bind (claimCard_hosted _ _ _ _)
  intro lease
  apply Hosted.bind (submitArtifact_hosted _ _ _ _)
  intro refs
  apply Hosted.bind (Hosted.ensure _ _)
  intro _
  apply Hosted.bind (cardHistory_hosted _)
  intro history
  split
  · exact Hosted.raise _
  · split
    · exact Hosted.raise _
    · apply Hosted.bind (Hosted.ensure _ _)
      intro _
      apply Hosted.bind (Hosted.ensure _ _)
      intro _
      exact Hosted.pure _

theorem topologyValidationRequest_hosted (n : NodeDefinition) (request : ValidatorExecutionInput) :
    Exec.Within (Hosted grants w) w (x.topologyValidationRequest n request) := by
  simp only [NodeExecutor.topologyValidationRequest, hx]
  split
  · exact Hosted.pure _
  · apply Hosted.bind (getCard_hosted _)
    intro card
    apply Hosted.bind (Hosted.ofExcept _)
    intro validExit
    apply Hosted.bind (Hosted.ofExcept _)
    intro invalidExit
    exact Hosted.bind Hosted.world fun _ => Hosted.ofExcept _

theorem participantOnboardingRequest_hosted (n : NodeDefinition)
    (request : ValidatorExecutionInput) :
    Exec.Within (Hosted grants w) w (x.participantOnboardingRequest n request) := by
  simp only [NodeExecutor.participantOnboardingRequest, hx]
  split
  · exact Hosted.pure _
  · apply Hosted.bind (getCard_hosted _)
    intro card
    apply Hosted.bind (Hosted.ofExcept _)
    intro validExit
    apply Hosted.bind (Hosted.ofExcept _)
    intro invalidExit
    exact Hosted.bind Hosted.world fun _ => Hosted.bind Hosted.now fun _ => Hosted.pure _

theorem handledRequest_hosted (n : NodeDefinition) (request : ValidatorExecutionInput) :
    Exec.Within (Hosted grants w) w (x.handledRequest n request) := by
  simp only [NodeExecutor.handledRequest]
  have honboarding : ∀ r, Exec.Within (Hosted grants w) w
      (if NodeExecutor.hasHandler n "participant_onboarding_compliance" then
        x.participantOnboardingRequest n r else pure r) := by
    intro r
    split
    · exact participantOnboardingRequest_hosted hx n r
    · exact Hosted.pure _
  split
  · exact Hosted.bind (topologyValidationRequest_hosted hx n request) honboarding
  · exact Hosted.bind (Hosted.pure _) honboarding

theorem executeValidator_hosted (request : ValidatorExecutionInput) :
    Exec.Within (Hosted grants w) w (x.executeValidator request) := by
  unfold NodeExecutor.executeValidator
  apply Hosted.bind (Hosted.ofExcept _)
  intro n
  apply Hosted.bind (handledRequest_hosted hx n request)
  intro r
  apply Hosted.bind (Hosted.ofExcept _)
  intro _
  apply Hosted.bind (Hosted.ofExcept _)
  intro accepted
  rw [hx]
  exact validateCard_hosted _ _ _ _ _ _ _

theorem executeAuthorityProvisioningSink_hosted
    (hauthorization : x.authorizationRepository = none ∨
      grants ∧ x.authorizationRepository = some App.authorizationRepository)
    (card : Card) (reference : Option String) :
    Exec.Within (Hosted grants w) w (x.executeAuthorityProvisioningSink card reference) := by
  unfold NodeExecutor.executeAuthorityProvisioningSink
  rcases hauthorization with hnone | ⟨hgrants, hsome⟩
  · rw [hnone]
    exact Hosted.raise _
  rw [hsome]
  simp only [NodeExecutor.ensureAuthorityProvisioningHistory, hx]
  apply Hosted.bind
  · exact Hosted.bind (cardHistory_hosted _) fun _ => Hosted.ensure _ _
  intro _
  apply Hosted.bind Hosted.world
  intro _
  apply Hosted.bind Hosted.now
  intro now
  apply Hosted.bind (Hosted.ofExcept _)
  intro onboarding
  apply Hosted.bind (upsertParticipant_hosted hgrants _)
  intro _
  refine Hosted.bind (Hosted.forEach (fun assignment => ?_) _) fun _ => Hosted.pure _
  refine Hosted.bind ?_ fun _ => Hosted.pure _
  exact ensureBuiltinRoleAssignment_hosted hgrants _ _ _ _

theorem executeRegistryPublication_hosted
    (hregistry : x.registry = none ∨ x.registry = some App.patchPanelRegistry)
    (n : NodeDefinition) (card : Card) (reference : Option String) :
    Exec.Within (Hosted grants w) w (x.executeRegistryPublication n card reference) := by
  unfold NodeExecutor.executeRegistryPublication
  rcases hregistry with hnone | hsome
  · rw [hnone]
    exact Hosted.raise _
  rw [hsome]
  simp only [NodeExecutor.ensureRegistryPublicationHistory, hx]
  apply Hosted.bind
  · exact Hosted.bind (cardHistory_hosted _) fun _ => Hosted.ensure _ _
  intro _
  apply Hosted.bind Hosted.world
  intro _
  apply Hosted.bind (Hosted.ofExcept _)
  intro candidate
  apply Hosted.bind (Hosted.ofExcept _)
  intro metadata
  apply Hosted.bind (registerPatchPanel_hosted _)
  intro _
  refine Hosted.bind ?_ fun _ => Hosted.pure _
  exact publishedEntry_hosted _ _ _ _

theorem executeSink_hosted
    (hregistry : x.registry = none ∨ x.registry = some App.patchPanelRegistry)
    (hauthorization : x.authorizationRepository = none ∨
      grants ∧ x.authorizationRepository = some App.authorizationRepository)
    (cardId : Uuid) (sinkId : String) (reference key : Option String) :
    Exec.Within (Hosted grants w) w (x.executeSink cardId sinkId reference key) := by
  unfold NodeExecutor.executeSink
  rw [hx]
  apply Hosted.bind (Hosted.ofExcept _)
  intro n
  apply Hosted.bind (getCard_hosted _)
  intro card
  apply Hosted.bind (Hosted.ofExcept _)
  intro _
  apply Hosted.bind (Hosted.ofExcept _)
  intro _
  apply Hosted.bind
  · unfold NodeExecutor.executeConfiguredSink
    split
    · exact executeAuthorityProvisioningSink_hosted hx hauthorization _ _
    · split
      · exact executeRegistryPublication_hosted hx hregistry _ _ _
      · exact Hosted.pure _
  intro reference'
  apply Hosted.bind Hosted.world
  intro _
  apply Hosted.bind (recordEvent_hosted (by decide) _ _ _ _)
  intro _
  exact Hosted.pure _

end Nodes

/-! ## Boundaries -/

section Boundaries
variable {grants : Prop} {w : World}

theorem patchPanel_hosted (panelId : String) :
    Exec.Within (Hosted grants w) w
      (BoundaryAdapterService.patchPanel App.cardRuntime panelId) := by
  apply Hosted.bind listPatchPanels_hosted
  intro panels
  split
  · exact Hosted.pure _
  · exact Hosted.raise _

theorem boundarySource_hosted (request : BoundarySourceRequest) :
    Exec.Within (Hosted grants w) w
      (BoundaryAdapterService.executeSource App.cardRuntime request) := by
  unfold BoundaryAdapterService.executeSource
  apply Hosted.bind (patchPanel_hosted _)
  intro p
  apply Hosted.bind (Hosted.ofExcept _)
  intro n
  apply Hosted.bind Hosted.world
  intro _
  apply Hosted.bind (Hosted.ofExcept _)
  intro contract
  apply Hosted.bind (Hosted.ofExcept _)
  intro _
  apply Hosted.bind (Hosted.ofExcept _)
  intro _
  apply Hosted.bind (Hosted.ofExcept _)
  intro mapped
  apply Hosted.bind (Hosted.ofExcept _)
  intro metadata
  apply Hosted.bind (Hosted.ofExcept _)
  intro deduplicationKey
  apply Hosted.bind (executeSource_hosted rfl _ _ _ _)
  intro card
  apply Hosted.bind (recordEvent_hosted (by decide) _ _ _ _)
  intro _
  exact Hosted.pure _

theorem boundarySink_hosted (request : BoundarySinkRequest) :
    Exec.Within (Hosted grants w) w
      (BoundaryAdapterService.executeSink App.cardRuntime request) := by
  unfold BoundaryAdapterService.executeSink
  apply Hosted.bind (patchPanel_hosted _)
  intro p
  apply Hosted.bind (Hosted.ofExcept _)
  intro n
  apply Hosted.bind Hosted.world
  intro _
  apply Hosted.bind (Hosted.ofExcept _)
  intro contract
  apply Hosted.bind (Hosted.ofExcept _)
  intro _
  apply Hosted.bind (getCard_hosted _)
  intro card
  apply Hosted.bind (Hosted.ofExcept _)
  intro externalPayload
  apply Hosted.bind (Hosted.ofExcept _)
  intro externalReference
  apply Hosted.bind (Hosted.ofExcept _)
  intro egressIdempotencyKey
  apply Hosted.bind (executeSink_hosted rfl (.inl rfl) (.inl rfl) _ _ _ _)
  intro result
  apply Hosted.bind (recordEvent_hosted (by decide) _ _ _ _)
  intro _
  exact Hosted.pure _

end Boundaries

/-! ## The shadow service -/

section Shadow
variable {grants : Prop} {w : World}

theorem shadowGet_hosted : Exec.Within (Hosted grants w) w (Op.on App.shadowStore Op.get) :=
  Hosted.reads fun m => .refl m

theorem shadowModify_hosted (f : ShadowStore → ShadowStore) :
    Exec.Within (Hosted grants w) w (Op.on App.shadowStore (Op.modify f)) :=
  fun _ => ReflTransGen.single (.shadow f rfl)

theorem shadowLink_hosted (linkId : Uuid) :
    Exec.Within (Hosted grants w) w (App.shadowService.link linkId) := by
  apply Hosted.bind shadowGet_hosted
  intro s
  split
  · exact Hosted.pure _
  · exact Hosted.raise _

theorem shadowMutation_hosted (mutationId : Uuid) :
    Exec.Within (Hosted grants w) w (App.shadowService.mutation mutationId) := by
  apply Hosted.bind shadowGet_hosted
  intro s
  split
  · exact Hosted.pure _
  · exact Hosted.raise _

theorem createShadowCard_hosted (card : Card) (candidateId : String) (policy : ShadowPolicy)
    (key : Option String) :
    Exec.Within (Hosted grants w) w
      (App.shadowService.createShadowCard card candidateId policy key) := by
  unfold ShadowService.createShadowCard
  apply Hosted.bind (Hosted.ensure _ _)
  intro _
  apply Hosted.bind shadowGet_hosted
  intro s
  apply Hosted.bind (Hosted.ensure _ _)
  intro _
  apply Hosted.bind (createCard_hosted _ _ _ _)
  intro shadow
  apply Hosted.bind Hosted.uuid4
  intro id
  apply Hosted.bind Hosted.now
  intro createdAt
  apply Hosted.bind (shadowModify_hosted _)
  intro _
  apply Hosted.bind (recordEvent_hosted (by decide) _ _ _ _)
  intro _
  exact Hosted.pure _

theorem completeShadow_hosted (linkId : Uuid) (metrics : JsonObj) :
    Exec.Within (Hosted grants w) w (App.shadowService.completeShadow linkId metrics) := by
  unfold ShadowService.completeShadow
  apply Hosted.bind (shadowLink_hosted _)
  intro link
  apply Hosted.bind (shadowModify_hosted _)
  intro _
  apply Hosted.bind (recordEvent_hosted (by decide) _ _ _ _)
  intro _
  exact Hosted.pure _

theorem proposeMutation_hosted (mutationType proposedBy : String) (payload : JsonObj) :
    Exec.Within (Hosted grants w) w
      (App.shadowService.proposeMutation mutationType proposedBy payload) := by
  unfold ShadowService.proposeMutation
  apply Hosted.bind Hosted.uuid4
  intro id
  apply Hosted.bind Hosted.now
  intro createdAt
  apply Hosted.bind (shadowModify_hosted _)
  intro _
  exact Hosted.pure _

theorem validateMutation_hosted (mutationId : Uuid) (accepted : Bool) (validatorId : String)
    (reason : Option String) : Exec.Within (Hosted grants w) w
      (App.shadowService.validateMutation mutationId accepted validatorId reason) := by
  unfold ShadowService.validateMutation
  apply Hosted.bind (shadowMutation_hosted _)
  intro mutation
  apply Hosted.bind Hosted.now
  intro validatedAt
  apply Hosted.bind (shadowModify_hosted _)
  intro _
  exact Hosted.pure _

theorem promoteMutation_hosted (mutationId : Uuid) (p : PatchPanel) :
    Exec.Within (Hosted grants w) w (App.shadowService.promoteMutation mutationId p) := by
  unfold ShadowService.promoteMutation
  apply Hosted.bind (shadowMutation_hosted _)
  intro mutation
  apply Hosted.bind (Hosted.ensure _ _)
  intro _
  apply Hosted.bind (registerPatchPanel_hosted _)
  intro _
  apply Hosted.bind Hosted.now
  intro promotedAt
  apply Hosted.bind (shadowModify_hosted _)
  intro _
  exact Hosted.pure _

end Shadow

end GhostMesh
