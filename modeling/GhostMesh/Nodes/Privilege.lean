import GhostMesh.Defaults.SystemPanels
import GhostMesh.Nodes.Calls

/-!
# Privileged sinks

Who can make a sink write to the authorization repository or the registry. The
branches are chosen by a node id and a config field and guarded by names found in
the history of the card, so that they are reserved to the system panels only where
no other panel's sink gets as far as the guard.
-/

set_option autoImplicit false

namespace GhostMesh

open InMemoryCardRuntime Op


/-- Executor and card belong to the system panel of that id. -/
def OfSystemPanel (id : String) (p : PatchPanel) (c : Card) : Prop :=
  p.id = id ∧ ∃ version, c.workflowVersion = id ++ ":" ++ version

/-- Participants, role assignments or grants have changed. -/
def Provisioned (a a' : App) : Prop :=
  ¬ (a'.authorization.participants = a.authorization.participants ∧
    a'.authorization.roleAssignments = a.authorization.roleAssignments ∧
    a'.authorization.permissionGrants = a.authorization.permissionGrants)

/-- The effects on the two governed stores are those of the system panels. -/
def MeshCall.Governed (w : World) (m : Machine App) : MeshCall → Prop
  | node x (.sink cardId sinkId reference key) =>
    (Provisioned m.store (NodeCall.step w x m (.sink cardId sinkId reference key)).store →
      ∃ c, m.store.runtime.cards.get? cardId = some c ∧
        OfSystemPanel systemAgentRegistrationId x.patchPanel c) ∧
    ((NodeCall.step w x m (.sink cardId sinkId reference key)).store.registry ≠
        m.store.registry →
      ∃ c, m.store.runtime.cards.get? cardId = some c ∧
        OfSystemPanel systemPpApprovalId x.patchPanel c)
  | call => (call.step w m).store.authorization = m.store.authorization ∧
    (call.step w m).store.registry = m.store.registry

/-- A sink that takes a privileged branch on a card with the approvals belongs, like
the card, to the system panel. -/
def MeshCall.PrivilegeOwned (m : Machine App) : MeshCall → Prop
  | node x (.sink cardId sinkId _ _) => ∀ n c,
    NodeExecutor.node x.patchPanel sinkId .sink = .ok n →
    m.store.runtime.cards.get? cardId = some c →
    NodeExecutor.ensureCardAtSink x.patchPanel n c = .ok () →
    (x.authorizationRepository = true → n.id = "authority_provisioner_sink" →
      NodeExecutor.provisioningApproved (m.store.runtime.history cardId) = true →
      OfSystemPanel systemAgentRegistrationId x.patchPanel c) ∧
    (x.registry = true → n.id ≠ "authority_provisioner_sink" →
      NodeExecutor.isRegistryPublication n = true →
      NodeExecutor.publicationApproved (m.store.runtime.history cardId) = true →
      OfSystemPanel systemPpApprovalId x.patchPanel c)
  | _ => True

section Steps
variable {w : World} {m m' : Machine App}

theorem ExecutorSetup.authorization_given {x : ExecutorSetup}
    (h : x.executor.authorizationRepository ≠ none) : x.authorizationRepository = true := by
  by_contra hno
  exact h (if_neg hno)

theorem ExecutorSetup.registry_given {x : ExecutorSetup} (h : x.executor.registry ≠ none) :
    x.registry = true := by
  by_contra hno
  exact h (if_neg hno)

/-- The sink event is recorded in the runtime alone. -/
theorem sinkEffect_governed {x : ExecutorSetup} {n : NodeDefinition} {card : Card}
    {r : Except PyErr (Option String)}
    (h : NodeExecutor.SinkEffect w x.executor n card m m' r) :
    (Provisioned m.store m'.store → x.authorizationRepository = true ∧
      n.id = "authority_provisioner_sink" ∧
      NodeExecutor.provisioningApproved (m.store.runtime.history card.id) = true) ∧
    (m'.store.registry ≠ m.store.registry → x.registry = true ∧
      n.id ≠ "authority_provisioner_sink" ∧ NodeExecutor.isRegistryPublication n = true ∧
      NodeExecutor.publicationApproved (m.store.runtime.history card.id) = true) := by
  cases h with
  | passes same _ =>
    rw [same]
    exact ⟨fun h => absurd ⟨rfl, rfl, rfl⟩ h, fun h => absurd rfl h⟩
  | provisions given sink approved writes =>
    refine ⟨fun _ => ⟨ExecutorSetup.authorization_given given, sink, approved⟩, fun h => ?_⟩
    exact absurd ((congrArg App.registry writes.store).trans rfl) h
  | publishes given plain sink approved panel _ writes =>
    have hsame : m'.store.authorization = m.store.authorization :=
      (congrArg App.authorization writes.store).trans rfl
    refine ⟨fun h => absurd ?_ h, fun _ =>
      ⟨ExecutorSetup.registry_given given, plain, sink, approved⟩⟩
    rw [hsame]
    exact ⟨rfl, rfl, rfl⟩

theorem sink_governed {x : ExecutorSetup} {cardId : Uuid} {sinkId : String}
    {reference key : Option String} (hkeyed : WellKeyed m.store.runtime)
    (howned : (MeshCall.node x (.sink cardId sinkId reference key)).PrivilegeOwned m) :
    (MeshCall.node x (.sink cardId sinkId reference key)).Governed w m := by
  simp only [MeshCall.Governed, NodeCall.step]
  rcases h : (x.executor.executeSink cardId sinkId reference key).run w m with ⟨r, m'⟩
  rcases NodeExecutor.executeSink_cases rfl x.registry_cases x.authorization_cases h with
    ⟨rfl, -⟩ | ⟨n, c, m1, r1, hn, hc, hat, heffect, -, hrecord⟩
  · exact ⟨fun h => absurd ⟨rfl, rfl, rfl⟩ h, fun h => absurd rfl h⟩
  obtain ⟨hprovision, hpublish⟩ := sinkEffect_governed heffect
  obtain ⟨hauth, hreg⟩ := howned n c hn hc hat
  have hid : c.id = cardId := hkeyed.cards hc
  rw [hid] at hprovision hpublish
  have hstores : m'.store.authorization = m1.store.authorization ∧
      m'.store.registry = m1.store.registry := by
    rcases hrecord with rfl | ⟨_, _, _, -, rfl⟩ <;> exact ⟨rfl, rfl⟩
  simp only [Provisioned, hstores]
  constructor
  · intro hchanged
    obtain ⟨hgiven, hsink, happroved⟩ := hprovision hchanged
    exact ⟨c, hc, hauth hgiven hsink happroved⟩
  · intro hchanged
    obtain ⟨hgiven, hplain, hsink, happroved⟩ := hpublish hchanged
    exact ⟨c, hc, hreg hgiven hplain hsink happroved⟩

theorem MeshCall.step_governed {call : MeshCall} (hkeyed : WellKeyed m.store.runtime)
    (howned : call.PrivilegeOwned m) : call.Governed w m := by
  cases call with
  | runtime call => exact ⟨rfl, rfl⟩
  | node x call =>
    cases call with
    | source sourceId payload metadata key =>
      simp only [Governed, step, NodeCall.step_source]
      exact ⟨rfl, rfl⟩
    | worker request =>
      simp only [Governed, step, NodeCall.step_worker]
      exact ⟨rfl, rfl⟩
    | validator request =>
      simp only [Governed, step, NodeCall.step_validator]
      exact ⟨rfl, rfl⟩
    | sink cardId sinkId reference key => exact sink_governed hkeyed howned

end Steps

/-- In every run in which the privileged branches are reached by the system panels
alone, the governed stores are written by the system panels alone. -/
theorem governed_effects_from_system_panels (w : World) (a : App) (ticks draws : Nat)
    (calls : List MeshCall)
    (h : Permitted (MeshCall.step w) MeshCall.PrivilegeOwned (App.boot a ticks draws) calls) :
    Permitted (MeshCall.step w) (MeshCall.Governed w) (App.boot a ticks draws) calls := by
  refine h.of_invariant (I := fun b => WellKeyed b.store.runtime) ?_ ?_ WellKeyed.init
  · intro b call hb
    exact effects_invariant (I := fun m => WellKeyed m.store) (fun _ _ hm heffect =>
      hm.effect heffect) (call.step_effects w b) hb
  · intro b call hb howned
    exact MeshCall.step_governed hb howned

/-- A participant who asks for the admin role everywhere. -/
def onboardingPayload : JsonObj :=
  [("participant", .obj [("id", .str "mallory"), ("type", .str "human")]),
    ("role_assignments", .list [.obj [("role_name", .str "admin"),
      ("scope", .obj [("type", .str "global")])]])]

def reviewOf (validatorId : String) (exit : Option String) : NodeCall :=
  .validator { cardId := ⟨0⟩, validatorId, selectedExit := exit, accepted := none, reason := none,
               payload := [], idempotencyKey := none }

def provisioning : NodeCall := .sink ⟨0⟩ "authority_provisioner_sink" none none

/-- A card goes through the registration workflow of the given id. -/
def onboardingCalls (id : String) : List MeshCall :=
  let setup : ExecutorSetup := ⟨registrationPanel id, false, true⟩
  [.runtime (.registerPatchPanel (registrationPanel id)),
    .runtime (.createCard id onboardingPayload none none),
    .node setup (reviewOf "registration_compliance_validator" none),
    .node setup (reviewOf "registration_admin_reviewer" (some "registration_approved"))]

def onboarded (id : String) : Machine App :=
  (onboardingCalls id).foldl (MeshCall.step .simple) (App.boot App.init 0 0)

theorem governed_effects_from_system_panels_onboarding :
    Permitted (MeshCall.step .simple) (MeshCall.Governed .simple) (App.boot App.init 0 0)
      (onboardingCalls systemAgentRegistrationId ++
        [.node ⟨registrationPanel systemAgentRegistrationId, false, true⟩ provisioning]) := by
  refine governed_effects_from_system_panels .simple App.init 0 0 _ (Permitted.append_iff.mpr
    ⟨⟨trivial, trivial, trivial, trivial, trivial⟩, ?_, trivial⟩)
  have hversion : ((onboarded systemAgentRegistrationId).store.runtime.cards.get? ⟨0⟩).map
      (·.workflowVersion) = some "system_agent_registration:1.0.0" := by decide +kernel
  intro n c hn hc hat
  refine ⟨fun _ _ _ => ⟨rfl, "1.0.0", ?_⟩, fun hregistry => by cases hregistry⟩
  have hstored : (onboarded systemAgentRegistrationId).store.runtime.cards.get? ⟨0⟩ = some c := hc
  rw [hstored] at hversion
  exact Option.some.inj hversion

/-- Every executor works for a panel that the run registers and the validator accepts. -/
def OnRegisteredPanels (w : World) (calls : List MeshCall) : Prop :=
  ∀ x call, MeshCall.node x call ∈ calls → PatchPanelValidator.accepts w x.patchPanel = true ∧
    MeshCall.runtime (.registerPatchPanel x.patchPanel) ∈ calls

/-- The same workflow under another id provisions its own admin. -/
theorem governed_effects_from_designer_panel :
    ¬ ∀ (w : World) (a : App) (ticks draws : Nat) (calls : List MeshCall),
      OnRegisteredPanels w calls →
      Permitted (MeshCall.step w) (MeshCall.Governed w) (App.boot a ticks draws) calls := by
  intro h
  have hpanels : OnRegisteredPanels .simple (onboardingCalls "rogue" ++
      [.node ⟨registrationPanel "rogue", false, true⟩ provisioning]) := by
    intro x call hmem
    simp only [onboardingCalls, List.cons_append, List.nil_append, List.mem_cons, reduceCtorEq,
      MeshCall.node.injEq, List.not_mem_nil, or_false, false_or] at hmem
    have hx : x = ⟨registrationPanel "rogue", false, true⟩ := by
      rcases hmem with ⟨hx, -⟩ | ⟨hx, -⟩ | ⟨hx, -⟩ <;> exact hx
    rw [hx]
    exact ⟨by decide +kernel, List.mem_cons_self⟩
  have hsink : MeshCall.Governed .simple (onboarded "rogue")
      (.node ⟨registrationPanel "rogue", false, true⟩ provisioning) :=
    (Permitted.append_iff.mp (h .simple App.init 0 0 _ hpanels)).2.1
  have hwritten : (provisioning.step .simple ⟨registrationPanel "rogue", false, true⟩
      (onboarded "rogue")).store.authorization.participants.keys ≠
      (onboarded "rogue").store.authorization.participants.keys := by decide +kernel
  obtain ⟨c, -, hid, -⟩ := hsink.1 fun hsame => hwritten (congrArg Dict.keys hsame.1)
  exact absurd hid (by decide +kernel)

end GhostMesh
