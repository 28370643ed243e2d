import GhostMesh.Mcp.AuditTrail

/-!
# Admission

With authorization on, whatever asks for permissions is refused because of a decision that
is logged, or does what it does with authorization off once the decisions that allow it are
logged. So authority is only given by those who may give it.
-/

set_option autoImplicit false

namespace GhostMesh

open InMemoryCardRuntime Op

namespace Mcp

/-! ## Decisions that allow -/

/-- A permission, and the scope that it is asked for. -/
structure Ask where
  permission : PermissionName
  type : ScopeType
  id : Option String

def Ask.Targets (k : Ask) (scope : Scope) : Prop := scope.type = k.type ∧ scope.id = k.id

/-- From `a` to `b` the service allows `who` all that is asked, and logs that; everything else
stays. -/
inductive Allows (w : World) (who : Option String) :
    List Ask → Machine App → Machine App → Prop where
  | done (a : Machine App) : Allows w who [] a a
  | next {a b c : Machine App} {k : Ask} {asks : List Ask} {p : String} {scope : Scope}
      {e : AuthorizationAuditEvent} (caller : who = some p) (target : k.Targets scope)
      (decided : DecidedIn w a e p k.permission scope true) (same : SameButAudit a.store b.store)
      (log : auditLog b = auditLog a ++ [e]) (rest : Allows w who asks b c) :
      Allows w who (k :: asks) a c

/-- Something that is asked, the first ones perhaps being allowed, is not asked by anyone or is
denied; that is logged, and everything else stays. -/
inductive Denies (w : World) (who : Option String) :
    List Ask → Machine App → Machine App → Prop where
  | nobody (a : Machine App) (k : Ask) (asks : List Ask) (caller : who = none) :
      Denies w who (k :: asks) a a
  | denied {a b : Machine App} {k : Ask} (asks : List Ask) {p : String} {scope : Scope}
      {e : AuthorizationAuditEvent} (caller : who = some p) (target : k.Targets scope)
      (decided : DecidedIn w a e p k.permission scope false) (same : SameButAudit a.store b.store)
      (log : auditLog b = auditLog a ++ [e]) : Denies w who (k :: asks) a b
  | later {a b c : Machine App} {k : Ask} {asks : List Ask} {p : String} {scope : Scope}
      {e : AuthorizationAuditEvent} (caller : who = some p) (target : k.Targets scope)
      (decided : DecidedIn w a e p k.permission scope true) (same : SameButAudit a.store b.store)
      (log : auditLog b = auditLog a ++ [e]) (rest : Denies w who asks b c) :
      Denies w who (k :: asks) a c

/-- `x` is refused with a 403, or does what `y` does once the caller has been allowed all
that is asked. -/
def Gated {α : Type} (w : World) (a : Machine App) (who : Option String)
    (asks : List Ask) (x y : Op App α) : Prop :=
  (∃ detail b, Denies w who asks a b ∧ x.run w a = (.error (.http 403 detail), b)) ∨
    ∃ b, Allows w who asks a b ∧ x.run w a = y.run w b

/-- The same, unless both fail where `x` has not asked yet. -/
def Admitted {α : Type} (w : World) (a : Machine App) (who : Option String)
    (asks : List Ask) (x y : Op App α) : Prop :=
  (∃ e, x.run w a = (.error e, a) ∧ y.run w a = (.error e, a)) ∨ Gated w a who asks x y

section Rules
variable {w : World} {a b : Machine App} {who : Option String}
  {asks : List Ask} {α β : Type}

theorem Allows.same (h : Allows w who asks a b) : SameButAudit a.store b.store := by
  induction h with
  | done a => exact .refl _
  | next _ _ _ same _ _ ih => exact SameButAudit.trans same ih

theorem Denies.same (h : Denies w who asks a b) : SameButAudit a.store b.store := by
  induction h with
  | nobody a _ _ _ => exact .refl _
  | denied _ _ _ _ same _ => exact same
  | later _ _ _ same _ _ ih => exact SameButAudit.trans same ih

namespace Gated

/-- Only how they run matters. -/
theorem congr {x x' y y' : Op App α} (hx : x.run w a = x'.run w a)
    (hy : ∀ b, y.run w b = y'.run w b) (h : Gated w a who asks x' y') :
    Gated w a who asks x y := by
  unfold Gated at *
  rw [hx]
  rcases h with hrefused | ⟨b, hallows, hrun⟩
  · exact .inl hrefused
  · exact .inr ⟨b, hallows, hrun.trans (hy b).symm⟩

end Gated

namespace Admitted

theorem run_map (f : α → β) (x : Op App α) (m : Machine App) :
    (f <$> x).run w m = ((x.run w m).1.map f, (x.run w m).2) := by
  change (x >>= fun v => pure (f v)).run w m = _
  rw [Exec.run_bind]
  rcases x.run w m with ⟨_ | _, _⟩ <;> rfl

theorem map (f : α → β) {x y : Op App α} (h : Admitted w a who asks x y) :
    Admitted w a who asks (f <$> x) (f <$> y) := by
  unfold Admitted Gated at *
  simp only [run_map]
  rcases h with ⟨e, hx, hy⟩ | ⟨detail, b, hdenies, hrun⟩ | ⟨b, hallows, hrun⟩
  · exact .inl ⟨e, by rw [hx]; rfl, by rw [hy]; rfl⟩
  · exact .inr (.inl ⟨detail, b, hdenies, by rw [hrun]; rfl⟩)
  · exact .inr (.inr ⟨b, hallows, by rw [hrun]⟩)

theorem discard {x y : Op App α} (h : Admitted w a who asks x y) :
    Admitted w a who asks x.discard y.discard := map (fun _ => ()) h

/-- A failure before the check. -/
theorem raise (e : PyErr) :
    Admitted w a who asks (Op.raise e : Op App α) (Op.raise e) := .inl ⟨e, rfl, rfl⟩

/-- A prefix that reads what the audit log has no part in. -/
theorem read {x : Op App β} {f g : β → Op App α} {v : Except PyErr β}
    (hx : ∀ b : Machine App, SameButAudit a.store b.store → x.run w b = (v, b))
    (hf : ∀ u, v = .ok u → Admitted w a who asks (f u) (g u)) :
    Admitted w a who asks (x >>= f) (x >>= g) := by
  have hrun := hx a (.refl _)
  unfold Admitted Gated at *
  cases v with
  | error e => exact .inl ⟨e, Exec.run_bind_error hrun, Exec.run_bind_error hrun⟩
  | ok u =>
    rw [Exec.run_bind_ok hrun, Exec.run_bind_ok hrun]
    rcases hf u rfl with hfails | hdenied | ⟨b, hallows, hfg⟩
    · exact .inl hfails
    · exact .inr (.inl hdenied)
    · exact .inr (.inr ⟨b, hallows, hfg.trans (Exec.run_bind_ok (hx b hallows.same)).symm⟩)

theorem scope {type : ScopeType} {id : Option String} {f g : Scope → Op App α}
    (hf : ∀ scope : Scope, scope.type = type ∧ scope.id = id →
      Admitted w a who asks (f scope) (g scope)) :
    Admitted w a who asks (Scope.build type id >>= f) (Scope.build type id >>= g) := by
  have hreads : ∃ v, (∀ b : Machine App, (Scope.build type id : Op App Scope).run w b = (v, b)) ∧
      ∀ scope, v = .ok scope → scope.type = type ∧ scope.id = id := by
    simp only [Scope.build, Exec.run_bind, Op.run_world, Scope.make?]
    by_cases hvalid : validScopeId type id = true
    · simp only [hvalid, dif_pos]
      refine ⟨_, fun _ => rfl, ?_⟩
      rintro scope ⟨⟩
      exact ⟨rfl, rfl⟩
    · simp only [hvalid]
      exact ⟨_, fun _ => rfl, fun scope hscope => by cases hscope⟩
  obtain ⟨v, hv, htarget⟩ := hreads
  exact read (fun b _ => hv b) fun scope hscope => hf scope (htarget scope hscope)

end Admitted

end Rules

end Mcp

/-! ## Requests -/

/-- What a route asks for, one after the other; the card of a lease and the panel of a registry
entry are those stored. -/
def Route.asks (a : App) : Route → List Mcp.Ask
  | .createParticipant _ => [⟨.participantManage, .global, none⟩]
  | .assignParticipantRole _ body => [⟨.permissionGrant, body.scope.type, body.scope.id⟩]
  | .grantParticipantPermission _ body => [⟨.permissionGrant, body.scope.type, body.scope.id⟩]
  | .registerPatchPanel p => [⟨.patchPanelCreate, .patchPanel, some p.id⟩]
  | .registerPatchPanelRegistryEntry body =>
    [⟨.patchPanelCreate, .patchPanel, some body.patchPanel.id⟩]
  | .updatePatchPanelRegistryEntry entryId _ =>
    [⟨.patchPanelEditDraft, .patchPanel, (a.registry.entries.get? entryId).map (·.patchPanelId)⟩]
  | .archivePatchPanelRegistryEntry entryId | .supersedePatchPanelRegistryEntry entryId _ =>
    [⟨.patchPanelArchive, .patchPanel, (a.registry.entries.get? entryId).map (·.patchPanelId)⟩]
  | .receiveGenesisIntent _ => [⟨.patchPanelDiscover, .global, none⟩]
  | .launchGenesisIntent intentId entryId =>
    -- the panel of the entry that the intent selects
    [⟨.cardCreate, .patchPanel, do
      let intent ← a.genesis.intents.get? intentId
      let selected ← GenesisService.selectedId intent entryId
      let entry ← a.registry.entries.get? selected
      return entry.patchPanelId⟩]
  | .proposeGenesisIntent _ body =>
    [⟨.mutationPropose, .patchPanel, some body.candidateDefinition.id⟩]
  | .createCard body => [⟨.cardCreate, .patchPanel, some body.patchPanelId⟩]
  | .claimCard body => [⟨.cardClaim, .bucket, some body.inputPipe⟩]
  | .submitArtifact body =>
    [⟨.cardSubmitArtifact, .card, (a.runtime.leases.get? body.leaseId).map (·.cardId.str)⟩]
  | .releaseLease leaseId _ =>
    [⟨.cardRelease, .card, (a.runtime.leases.get? leaseId).map (·.cardId.str)⟩]
  | .renewLease _ _ | .expireLeases | .moveCard _ _ => []
  | .validateCard cardId _ | .submitValidatorDecision _ cardId _ =>
    [⟨.validationSubmit, .card, some cardId.str⟩]
  | .executeSource body => [⟨.boundarySourceIngress, .patchPanel, some body.patchPanelId⟩]
  | .executeWorker body => [⟨.cardSubmitArtifact, .patchPanel, some body.patchPanelId⟩]
  | .executeValidator body => [⟨.validationSubmit, .card, some body.cardId.str⟩]
  | .executeSink body => [⟨.sinkExecute, .patchPanel, some body.patchPanelId⟩]
  | .executeBoundarySource body =>
    [⟨.boundarySourceIngress, .patchPanel, some body.patchPanelId⟩]
  | .executeBoundarySink body => [⟨.boundarySinkEgress, .patchPanel, some body.patchPanelId⟩]
  | .createShadow body => [⟨.shadowCreate, .card, some body.productionCardId.str⟩]
  | .completeShadow _ _ => [⟨.shadowComplete, .global, none⟩]
  | .proposeMutation _ => [⟨.mutationPropose, .global, none⟩]
  | .validateMutation _ _ => [⟨.mutationValidate, .global, none⟩]
  | .promoteMutation _ p =>
    [⟨.mutationPromote, .patchPanel, some p.id⟩,
      ⟨.patchPanelPublishVersion, .patchPanel, some p.id⟩]

namespace Mcp

section Routes
variable {w : World} {a : Machine App} {α : Type}

end Routes

/-! ## Tools -/

/-- What a tool asks for; it reads the ids of leases and cards before. -/
def ToolCall.asks (read : Readers) (a : App) : ToolCall → List Ask
  | claimCard _ inputPipe _ _ _ => [⟨.cardClaim, .bucket, some inputPipe⟩]
  | submitArtifact leaseId _ _ _ _ =>
    [⟨.cardSubmitArtifact, .card, do
      let leaseUuid ← (read.uuid leaseId).toOption
      let lease ← a.runtime.leases.get? leaseUuid
      return lease.cardId.str⟩]
  | submitValidatorDecision _ cardId _ _ _ _ _ _ _ =>
    [⟨.validationSubmit, .card, (read.uuid cardId).toOption.map Uuid.str⟩]
  | boundarySource panelId _ _ _ _ _ => [⟨.boundarySourceIngress, .patchPanel, some panelId⟩]
  | boundarySink panelId _ _ _ _ _ => [⟨.boundarySinkEgress, .patchPanel, some panelId⟩]

section Tools
variable {w : World} {a : Machine App} {read : Readers} {ctx : Option Context}

end Tools

/-! ## Doors -/

namespace Door

/-- The participant that something is asked for. -/
def who (w : World) (a : App) : Door → Option String
  | request r route => r.resolve (route.fallback a)
  | tool read ctx call => call.caller w read ctx a

def asks (a : App) : Door → List Ask
  | request _ route => route.asks a
  | tool read _ call => call.asks read a

/-- What the process does at a door; only tools reply with something. -/
def op (enabled : Bool) : Door → Op App (Option Reply)
  | request r route => (fun _ => none) <$> (App.application enabled).handle r route
  | tool read ctx call => some <$> (call.run (bindApp (App.application enabled)) read ctx).rest

end Door

section Provenance
variable {w : World} {m : Machine App} {P : App → Prop}

end Provenance

end Mcp

end GhostMesh
