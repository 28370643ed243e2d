import GhostMesh.Api.App

/-!
# Mediation of the state-changing endpoints

A request of a participant without authority changes nothing but the audit log,
except on the three routes that do not ask.
-/

set_option autoImplicit false

namespace GhostMesh

open InMemoryCardRuntime

/-! ## Participants without authority -/

/-- Missing, unregistered, not active, or without an active grant and an active role. -/
def InMemoryAuthorizationRepository.Powerless (s : InMemoryAuthorizationRepository)
    (t : Instant) : Option String → Prop
  | none => True
  | some p => s.participants.get? p = none ∨
      (∃ q, s.participants.get? p = some q ∧ q.status ≠ .active) ∨
      ((∀ g ∈ s.permissionGrants, g.participantId = some p → g.isActive t = false) ∧
        s.heldAt p t = [])

theorem Powerless.decides {s : InMemoryAuthorizationRepository} {t : Instant} {p : String}
    (h : s.Powerless t (some p)) (permission : PermissionName) (scope : Scope)
    (context : JsonObj) : s.decides t p permission scope context = false := by
  by_contra hd
  obtain ⟨⟨q, hq, hactive⟩, g, hg, -⟩ :=
    InMemoryAuthorizationRepository.decides_iff.mp (eq_true_of_ne_false hd)
  rcases h with h | ⟨q', hq', hne⟩ | ⟨hdirect, hheld⟩
  · rw [hq] at h
    cases h
  · rw [hq] at hq'
    cases hq'
    exact hne hactive
  · simp only [InMemoryAuthorizationRepository.grantsAt, hheld, List.map_nil,
      List.mem_filter, Bool.and_eq_true, Bool.or_eq_true, decide_eq_true_eq] at hg
    obtain ⟨hmem, hgactive, hdir | hrole⟩ := hg
    · rw [hdirect g hmem hdir] at hgactive
      cases hgactive
    · split at hrole <;> simp at hrole

theorem Powerless.admits {s : InMemoryAuthorizationRepository} {t : Instant} {request : Request}
    {fallback : Option String} (h : s.Powerless t (request.resolve fallback))
    (permission : PermissionName) (scope : Scope) (context : JsonObj) :
    s.admits t request permission scope context fallback = false := by
  unfold InMemoryAuthorizationRepository.admits
  cases hp : request.resolve fallback with
  | none => rfl
  | some p =>
    rw [hp] at h
    exact Powerless.decides h permission scope context

/-! ## What a refused request leaves -/

/-- Everything but the audit log is as before. -/
structure SameButAudit (a a' : App) : Prop where
  runtime : a'.runtime = a.runtime
  registry : a'.registry = a.registry
  shadow : a'.shadow = a.shadow
  genesis : a'.genesis = a.genesis
  participants : a'.authorization.participants = a.authorization.participants
  roleAssignments : a'.authorization.roleAssignments = a.authorization.roleAssignments
  permissionGrants : a'.authorization.permissionGrants = a.authorization.permissionGrants

theorem SameButAudit.refl (a : App) : SameButAudit a a := ⟨rfl, rfl, rfl, rfl, rfl, rfl, rfl⟩

/-- The check of a request writes to nothing but the audit log, and a refusal is a 403. -/
theorem App.run_authorizeRequest (w : World) (m : Machine App) (request : Request)
    (permission : PermissionName) (scope : Scope) (context : JsonObj) (fallback : Option String) :
    ∃ m', SameButAudit m.store m'.store ∧
      ((m.store.authorization.admits (w.clock m.ticks) request permission scope context fallback =
          true ∧ (authorizeRequest App.authorizationRepository true request permission scope context
            fallback).run w m = (.ok (), m')) ∨
        (m.store.authorization.admits (w.clock m.ticks) request permission scope context fallback =
          false ∧ ∃ detail, (authorizeRequest App.authorizationRepository true request permission
            scope context fallback).run w m = (.error (.http 403 detail), m'))) := by
  unfold App.authorizationRepository
  rw [on_authorizeRequest]
  rcases hr : (authorizeRequest InMemoryAuthorizationRepository.repository true request permission
    scope context fallback).run w ⟨m.store.authorization, m.ticks, m.draws⟩ with ⟨r, m1⟩
  obtain ⟨hsame, hiff⟩ := authorizeRequest_cases hr
  have hrun : (Op.on App.authorizationStore (authorizeRequest
      InMemoryAuthorizationRepository.repository true request permission scope context
      fallback)).run w m = (r, ⟨{ m.store with authorization := m1.store }, m1.ticks, m1.draws⟩) := by
    rw [Op.run_on]
    simp only [App.authorizationStore, hr]
  refine ⟨⟨{ m.store with authorization := m1.store }, m1.ticks, m1.draws⟩, ⟨rfl, rfl, rfl, rfl,
    hsame.participants, hsame.roleAssignments, hsame.permissionGrants⟩, ?_⟩
  cases r with
  | ok u => exact .inl ⟨hiff.mp rfl rfl, hrun⟩
  | error e =>
    obtain ⟨detail, rfl⟩ := authorizeRequest_raises true request permission scope context fallback
      _ e m1 hr
    refine .inr ⟨Bool.eq_false_iff.mpr fun hadmits => ?_, detail, hrun⟩
    cases hiff.mpr fun _ => hadmits

/-- The computation leaves everything but the audit log. -/
def Keeps {α : Type} (w : World) (m : Machine App) (x : Op App α) : Prop :=
  SameButAudit m.store (x.run w m).2.store

namespace Keeps

variable {w : World} {m : Machine App} {α β : Type}

theorem discard {x : Op App α} (h : Keeps w m x) : Keeps w m x.discard := by
  unfold Keeps Op.discard at *
  rw [Exec.run_bind]
  split <;> rename_i hx <;> rw [hx] at h <;> exact h

theorem raise (e : PyErr) : Keeps w m (Op.raise e : Op App α) := SameButAudit.refl _

/-- A prefix that only reads may be followed by anything that keeps. -/
theorem after {x : Op App α} {f : α → Op App β} {v : Except PyErr α} (hx : x.run w m = (v, m))
    (hf : ∀ a, v = .ok a → Keeps w m (f a)) : Keeps w m (x >>= f) := by
  unfold Keeps at *
  rw [Exec.run_bind, hx]
  cases v with
  | ok a => exact hf a rfl
  | error e => exact SameButAudit.refl _

theorem afterScope {type : ScopeType} {id : Option String} {f : Scope → Op App β}
    (hf : ∀ scope, Keeps w m (f scope)) : Keeps w m (Scope.build type id >>= f) := by
  have hx : ∃ v, (Scope.build type id : Op App Scope).run w m = (v, m) := by
    simp only [Scope.build, Exec.run_bind, Op.run_world]
    cases Scope.make? type id <;> exact ⟨_, rfl⟩
  obtain ⟨v, hv⟩ := hx
  exact after hv fun scope _ => hf scope

/-- The check refuses, so what follows it never runs. -/
theorem authorized {request : Request} {permission : PermissionName} {scope : Scope}
    {context : JsonObj} {fallback : Option String} {f : Unit → Op App β}
    (h : m.store.authorization.Powerless (w.clock m.ticks) (request.resolve fallback)) :
    Keeps w m (authorizeRequest App.authorizationRepository true request permission scope context
      fallback >>= f) := by
  obtain ⟨m', hsame, ⟨hadmits, -⟩ | ⟨-, detail, hrun⟩⟩ :=
    App.run_authorizeRequest w m request permission scope context fallback
  · rw [Powerless.admits h] at hadmits
    cases hadmits
  · unfold Keeps
    rw [Exec.run_bind_error hrun]
    exact hsame

end Keeps

/-! ## The routes that do not ask -/

section Unasked

/-- A renewal that finds its key, no active lease, or no representable expiry. -/
def RenewsNothing (w : World) (m : Machine InMemoryCardRuntime) (leaseId : Uuid) (seconds : Int)
    (key : Option String) : Prop :=
  (m.store.cached key).isSome = true ∨
    (∀ l, m.store.leases.get? leaseId = some l → l.activeAt (w.clock m.ticks) = false) ∨
    (w.clock (m.ticks + 1)).addSeconds seconds = none

/-- No stored lease is due. -/
def ExpiresNothing (w : World) (m : Machine InMemoryCardRuntime) : Prop :=
  ∀ l ∈ m.store.leases.values, lapsedAt l (w.clock m.ticks) = false

/-- A move that finds its key, no card, no panel, or no such bucket. -/
def MovesNothing (m : Machine InMemoryCardRuntime) (cardId : Uuid) (toBucket : String)
    (key : Option String) : Prop :=
  (m.store.cached key).isSome = true ∨
    ∀ c p, m.store.cards.get? cardId = some c →
      m.store.patchPanels.get? (beforeLastColon c.workflowVersion) = some p →
      toBucket ∉ p.buckets.map (·.id)

/-- An event shows in the history of its card. -/
theorem putEvent_putKey_ne (s s' : InMemoryCardRuntime) (e : CardEvent) (key : Option String)
    (v : Stored) (h : s.history e.cardId = s'.history e.cardId) :
    (s.putEvent e).putKey key v ≠ s' := by
  intro heq
  have hlen := congrArg (fun x => (x.history e.cardId).length) heq
  simp only [putKey_history, putEvent_history, if_pos, h, List.length_append,
    List.length_singleton] at hlen
  omega

variable {w : World} {m : Machine InMemoryCardRuntime}

theorem renewLease_same_iff (leaseId : Uuid) (seconds : Int) (key : Option String) :
    ((InMemoryCardRuntime.renewLease leaseId seconds key).run w m).2.store = m.store ↔
      RenewsNothing w m leaseId seconds key := by
  unfold InMemoryCardRuntime.renewLease RenewsNothing
  rw [run_idempotent]
  cases hkey : m.store.cached key with
  | some c => simp
  | none =>
    simp only [Exec.run_bind, run_getLease]
    cases hl : m.store.leases.get? leaseId with
    | none => simp
    | some l =>
      by_cases hactive : l.activeAt (w.clock m.ticks) = true
      · have hopen : l.releasedAt.isNone = true ∧ w.clock m.ticks < l.expiresAt := by
          simpa [Lease.activeAt] using hactive
        simp only [run_ensureActiveLease, hopen, if_true, run_expiryAfter]
        cases hexpiry : (w.clock (m.ticks + 1)).addSeconds seconds with
        | none => simp
        | some t =>
          have hne := putEvent_putKey_ne (m.store.putLease { l with expiresAt := t }) m.store
            ⟨w.uuid4 m.draws, l.cardId, "lease_renewed", some l.workerId,
              [("lease_id", .str l.id.str), ("expires_at", .str t.isoformat)],
              w.clock (m.ticks + 2)⟩ key (.lease { l with expiresAt := t }) rfl
          refine iff_of_false hne ?_
          simp [hactive]
      · have hclosed : l.activeAt (w.clock m.ticks) = false := by simpa using hactive
        refine iff_of_true ?_ (.inr (.inl fun l' h => Option.some.inj h ▸ hclosed))
        simp only [run_ensureActiveLease]
        cases hreleased : l.releasedAt with
        | some t => simp
        | none => 
          have hlt : ¬ w.clock m.ticks < l.expiresAt := by
            simpa [Lease.activeAt, hreleased] using hclosed
          simp [hlt]

/-- Histories only grow under `expire_leases`. -/
theorem Expires.history_length {t : Instant} {ls : List Lease} {s s' : InMemoryCardRuntime}
    (h : Expires t ls s s') (x : Uuid) : (s.history x).length ≤ (s'.history x).length := by
  refine h.within (R := fun s s' => (s.history x).length ≤ (s'.history x).length)
    (Nat.le_refl _) Nat.le_trans fun s l e _ => ?_
  rw [InMemoryCardRuntime.released, putEvent_history]
  split <;> simp

theorem expires_same_iff {t : Instant} {ls : List Lease} {s s' : InMemoryCardRuntime}
    (h : Expires t ls s s') : s' = s ↔ ∀ l ∈ ls, lapsedAt l t = false := by
  induction h with
  | done s => simp
  | keep hl _ ih => simp [hl, ih]
  | @lapse l ls s s' e hl _ _ _ _ hrest _ =>
    refine iff_of_false ?_ ?_
    · intro heq
      have hlen := Expires.history_length hrest e.cardId
      rw [heq, InMemoryCardRuntime.released, putEvent_history, if_pos rfl, putLease_history,
        List.length_append, List.length_singleton] at hlen
      omega
    · intro hall
      rw [hall l List.mem_cons_self] at hl
      cases hl

theorem expireLeases_same_iff :
    (InMemoryCardRuntime.expireLeases.run w m).2.store = m.store ↔ ExpiresNothing w m :=
  expires_same_iff (expireLeases_cases rfl).1

theorem moveCard_same_iff (cardId : Uuid) (toBucket : String) (actorId reason key : Option String) :
    ((InMemoryCardRuntime.moveCard cardId toBucket actorId reason key).run w m).2.store = m.store ↔
      MovesNothing m cardId toBucket key := by
  unfold InMemoryCardRuntime.moveCard MovesNothing
  rw [run_idempotent]
  cases hkey : m.store.cached key with
  | some c => simp
  | none =>
    simp only [Exec.run_bind, run_getCard]
    cases hc : m.store.cards.get? cardId with
    | none => simp
    | some c =>
      simp only [getPatchPanelForCard, run_getPatchPanel]
      cases hp : m.store.patchPanels.get? (beforeLastColon c.workflowVersion) with
      | none =>
        refine iff_of_true rfl (.inr ?_)
        rintro c' p' ⟨⟩ hp'
        rw [hp] at hp'
        cases hp'
      | some p =>
        simp only [ensureBucketExists, Op.run_ofExcept]
        by_cases hb : toBucket ∈ p.buckets.map (·.id)
        · simp only [hb, if_true]
          have hne := putEvent_putKey_ne (m.store.putCard { c with currentBucket := toBucket })
            m.store ⟨w.uuid4 m.draws, c.id, "card_moved", actorId,
              [("from_bucket", .str c.currentBucket), ("to_bucket", .str toBucket),
                ("reason", Json.ofOptionStr reason)], w.clock m.ticks⟩ key
              (.card { c with currentBucket := toBucket }) rfl
          refine iff_of_false hne ?_
          simp only [Option.isSome_none, Bool.false_eq_true, false_or]
          exact fun h => h c p rfl hp hb
        · simp only [hb, if_false]
          refine iff_of_true trivial (.inr ?_)
          rintro c' p' ⟨⟩ hp'
          rw [hp] at hp'
          cases hp'
          exact hb

end Unasked

/-! ## Every route -/

/-- The participant that the endpoint falls back on when the header is absent. -/
def Route.fallback (a : App) : Route → Option String
  | .assignParticipantRole _ body => body.assignedBy
  | .grantParticipantPermission _ body => body.grantedBy
  | .receiveGenesisIntent body => some body.requestedBy
  | .launchGenesisIntent intentId _ => (a.genesis.intents.get? intentId).map (·.requestedBy)
  | .proposeGenesisIntent _ body => some body.proposedBy
  | .releaseLease _ actorId => actorId
  | .validateCard _ body => some body.validatorId
  | .submitValidatorDecision validatorId _ _ => some validatorId
  | .executeWorker body => some body.workerId
  | .executeValidator body => some body.validatorId
  | .proposeMutation body => some body.proposedBy
  | .validateMutation _ body => some body.validatorId
  | _ => none

/-- The request is checked, or has nothing to do. -/
def Route.Harmless (w : World) (m : Machine App) (request : Request) : Route → Prop
  | .renewLease leaseId seconds =>
    RenewsNothing w ⟨m.store.runtime, m.ticks, m.draws⟩ leaseId seconds request.idempotencyKey
  | .expireLeases => ExpiresNothing w ⟨m.store.runtime, m.ticks, m.draws⟩
  | .moveCard cardId body =>
    MovesNothing ⟨m.store.runtime, m.ticks, m.draws⟩ cardId body.toBucket request.idempotencyKey
  | _ => True

section Routes
variable {w : World} {m : Machine App}

theorem registryGet_reads (entryId : Uuid) :
    ∃ v, (App.patchPanelRegistry.get entryId).run w m = (v, m) :=
  ⟨_, Op.on_read (InMemoryPatchPanelRegistry.run_registryGet entryId w
    ⟨m.store.registry, m.ticks, m.draws⟩)⟩

theorem getLease_reads (leaseId : Uuid) :
    ∃ v, (App.cardRuntime.getLease leaseId).run w m = (v, m) :=
  ⟨_, Op.on_read (run_getLease w ⟨m.store.runtime, m.ticks, m.draws⟩ leaseId)⟩

theorem getIntent_reads (intentId : Uuid) :
    ∃ v, ((App.application true).genesisService.get intentId).run w m = (v, m) ∧
      ∀ intent, v = .ok intent → m.store.genesis.intents.get? intentId = some intent := by
  have hread : (Op.on App.genesisStore Op.get).run w m = (.ok m.store.genesis, m) := Op.on_read rfl
  simp only [App.application, GenesisService.get]
  rw [Exec.run_bind_ok hread]
  cases m.store.genesis.intents.get? intentId with
  | none => exact ⟨_, rfl, by simp⟩
  | some intent => exact ⟨_, rfl, by simp⟩

/-- An operation of the runtime keeps everything else. -/
theorem keeps_runtime_iff {α : Type} (x : Op InMemoryCardRuntime α) :
    Keeps w m (Op.on App.runtimeStore x).discard ↔
      (x.run w ⟨m.store.runtime, m.ticks, m.draws⟩).2.store = m.store.runtime := by
  rcases hx : x.run w ⟨m.store.runtime, m.ticks, m.draws⟩ with ⟨r, m1⟩
  have hrun : ((Op.on App.runtimeStore x).discard.run w m).2.store =
      { m.store with runtime := m1.store } := by
    simp only [Op.discard, Exec.run_bind, Op.run_on, App.runtimeStore, hx]
    cases r <;> rfl
  unfold Keeps
  rw [hrun]
  exact ⟨SameButAudit.runtime, fun h => ⟨h, rfl, rfl, rfl, rfl, rfl, rfl⟩⟩

/-- Launching reads the intent and the entry before it asks; the participant that it
falls back on is the one stored in the intent. -/
theorem launch_keeps (request : Request) (intentId : Uuid) (entryId : Option Uuid)
    (h : m.store.authorization.Powerless (w.clock m.ticks)
      (request.resolve ((Route.launchGenesisIntent intentId entryId).fallback m.store))) :
    Keeps w m ((App.application true).launchGenesisIntent intentId entryId request) := by
  obtain ⟨v, hv, hintent⟩ := getIntent_reads (w := w) (m := m) intentId
  refine Keeps.after hv fun intent hok => ?_
  simp only [Route.fallback, hintent intent hok, Option.map_some] at h
  cases GenesisService.selectedId intent entryId with
  | none => exact Keeps.raise _
  | some selected =>
    obtain ⟨_, hget⟩ := registryGet_reads (w := w) (m := m) selected
    exact Keeps.after hget fun _ _ => Keeps.afterScope fun _ => Keeps.authorized h

/-- On a request of a participant without authority, the state other than the audit
log stays as it is exactly when the route checks or has nothing to do. -/
theorem respond_sameButAudit_iff (w : World) (m : Machine App) (request : Request) (route : Route)
    (h : m.store.authorization.Powerless (w.clock m.ticks)
      (request.resolve (route.fallback m.store))) :
    SameButAudit m.store (App.respond w true m (request, route)).store ↔
      route.Harmless w m request := by
  change Keeps w m ((App.application true).handle request route) ↔ _
  cases route with
  | renewLease leaseId seconds => exact (keeps_runtime_iff _).trans (renewLease_same_iff _ _ _)
  | expireLeases => exact (keeps_runtime_iff _).trans expireLeases_same_iff
  | moveCard cardId body => exact (keeps_runtime_iff _).trans (moveCard_same_iff _ _ _ _ _)
  | launchGenesisIntent intentId entryId =>
    exact iff_of_true (launch_keeps request intentId entryId h).discard trivial
  | submitArtifact body =>
    obtain ⟨_, hv⟩ := getLease_reads (w := w) (m := m) body.leaseId
    refine iff_of_true (Keeps.discard ?_) trivial
    refine Keeps.after hv fun _ _ => ?_
    refine Keeps.afterScope fun _ => ?_
    exact Keeps.authorized h
  | releaseLease leaseId actorId =>
    obtain ⟨_, hv⟩ := getLease_reads (w := w) (m := m) leaseId
    refine iff_of_true (Keeps.discard ?_) trivial
    refine Keeps.after hv fun _ _ => ?_
    refine Keeps.afterScope fun _ => ?_
    exact Keeps.authorized h
  | updatePatchPanelRegistryEntry entryId _ | archivePatchPanelRegistryEntry entryId
  | supersedePatchPanelRegistryEntry entryId _ =>
    obtain ⟨_, hv⟩ := registryGet_reads (w := w) (m := m) entryId
    refine iff_of_true (Keeps.discard ?_) trivial
    refine Keeps.after hv fun _ _ => ?_
    refine Keeps.afterScope fun _ => ?_
    exact Keeps.authorized h
  | createParticipant _ | assignParticipantRole _ _ | grantParticipantPermission _ _
  | receiveGenesisIntent _ | completeShadow _ _ | proposeMutation _ | validateMutation _ _ =>
    refine iff_of_true (Keeps.discard ?_) trivial
    exact Keeps.authorized h
  | _ =>
    refine iff_of_true (Keeps.discard ?_) trivial
    refine Keeps.afterScope fun _ => ?_
    exact Keeps.authorized h

end Routes

/-- Two requests of the root operator: a panel and one card of it. -/
def rootRequests : List (Request × Route) :=
  [(⟨some "root", none⟩, .registerPatchPanel (PatchPanelValidator.linePanel "orders" "1")),
    (⟨some "root", none⟩, .createCard ⟨"orders", [], []⟩)]

/-- The machine that answered these requests. -/
def servedMachine : Machine App :=
  rootRequests.foldl (App.respond World.simple true) (App.start World.simple "root")

/-- Without a participant nothing is created, and with no lease due nothing expires. -/
theorem respond_sameButAudit_iff_anonymous :
    SameButAudit servedMachine.store
        (App.respond World.simple true servedMachine
          (⟨none, none⟩, .createCard ⟨"orders", [], []⟩)).store ∧
      SameButAudit servedMachine.store
        (App.respond World.simple true servedMachine (⟨none, none⟩, .expireLeases)).store := by
  have hleases : servedMachine.store.runtime.leases.values.isEmpty = true := by decide +kernel
  constructor
  · exact (respond_sameButAudit_iff World.simple servedMachine ⟨none, none⟩
      (.createCard ⟨"orders", [], []⟩) trivial).mpr trivial
  · refine (respond_sameButAudit_iff World.simple servedMachine ⟨none, none⟩ .expireLeases
      trivial).mpr ?_
    intro l hl
    rw [List.isEmpty_iff.mp hleases] at hl
    cases hl

/-- A request without participant moves a card of a run that started from a fresh
process. -/
theorem respond_changes_unasked :
    ¬ ∀ (calls : List (Request × Route)) (request : Request) (route : Route),
      let m := calls.foldl (App.respond World.simple true) (App.start World.simple "root")
      m.store.authorization.Powerless (World.simple.clock m.ticks)
        (request.resolve (route.fallback m.store)) →
      SameButAudit m.store (App.respond World.simple true m (request, route)).store := by
  intro h
  have hsame := (h rootRequests ⟨none, none⟩ (.moveCard ⟨31⟩ ⟨"outbox", none, none⟩)
    trivial).runtime
  have hbuckets := congrArg (fun s => s.cards.values.map (·.currentBucket)) hsame
  have hdiffer : (App.respond World.simple true servedMachine (⟨none, none⟩,
      .moveCard ⟨31⟩ ⟨"outbox", none, none⟩)).store.runtime.cards.values.map (·.currentBucket) ≠
      servedMachine.store.runtime.cards.values.map (·.currentBucket) := by decide +kernel
  exact hdiffer hbuckets

end GhostMesh
