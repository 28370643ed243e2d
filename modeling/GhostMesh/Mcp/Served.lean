import GhostMesh.Api.HostedRoutes
import GhostMesh.Mcp.Mediation
import GhostMesh.Runtime.Accounting

/-!
# The application as it is served

Requests and tool calls come in any order, from anyone. Each of them is a sequence of steps of
the services, so what holds of the leases of a run of the runtime holds of the process.
-/

set_option autoImplicit false

namespace GhostMesh

open InMemoryCardRuntime Op

/-! ## The books of a hosted runtime -/

/-- The books that the calls of a run keep. -/
structure Books (w : World) (m : Machine InMemoryCardRuntime) : Prop where
  account : AccountBook w m
  once : ClosedOnce m.store
  claims : ClaimBook w m
  exclusive : LeaseExclusive w m

section Books
variable {w : World} {m m' : Machine InMemoryCardRuntime}

theorem AccountBook.later (hm : AccountBook w m) (h : SameStore m m') : AccountBook w m' where
  keyed := hm.keyed.effect (Effect.same (w := w) h)
  drawn := hm.drawn.effect hm.keyed (.same h)
  issued := hm.issued.effect hm.keyed (.same h)
  ledger := h.store ▸ hm.ledger
  balanced hweighs := h.store ▸ hm.balanced hweighs

theorem Books.step (hclock : Monotone w.clock) (hm : Books w m) (h : HostedStep w m m') :
    Books w m' where
  account := by
    cases h with
    | call c hcall h =>
      rw [h]
      exact hm.account.step hcall
    | same h => exact AccountBook.later hm.account h
  once := (h.lease hm.account.keyed).closedOnce hm.account.keyed hm.account.drawn hm.once
  claims := hm.claims.step hclock (h.lease hm.account.keyed) h.effect.later hm.account.keyed
  exclusive := hm.exclusive.effect hclock hm.account.keyed h.effect

/-- What stays of a store: its evidence, its closed leases, and its cards but for their
buckets. -/
structure Kept (s s' : InMemoryCardRuntime) : Prop where
  history : ∀ x, s.history x <+: s'.history x
  closed : KeepsClosed s s'
  cards : CardsKept s s'

theorem Kept.refl (s : InMemoryCardRuntime) : Kept s s :=
  ⟨fun _ => List.prefix_refl _, fun _ _ hl _ => hl, .of_same rfl⟩

theorem Kept.trans {s s' s'' : InMemoryCardRuntime} (h : Kept s s') (h' : Kept s' s'') :
    Kept s s'' :=
  ⟨fun x => (h.history x).trans (h'.history x), h.closed.trans h'.closed, h.cards.trans h'.cards⟩

theorem Books.kept (hm : Books w m) (h : HostedStep w m m') : Kept m.store m'.store where
  history := h.history_grows
  closed := (h.lease hm.account.keyed).keepsClosed hm.account.keyed hm.account.drawn
  cards := h.effect.cardsKept hm.account.keyed hm.account.issued

/-- From any point of a run on, by induction over the steps. -/
theorem Books.hosted (hclock : Monotone w.clock) {a a' : Machine App}
    {grants : Prop} (ha : Books w (App.runtimeMachine a)) (h : Hosted grants w a a') :
    Books w (App.runtimeMachine a') ∧ Kept a.store.runtime a'.store.runtime := by
  refine h.runtime_invariant (I := fun m => Books w m ∧ Kept a.store.runtime m.store) ?_
    ⟨ha, Kept.refl _⟩
  intro m m' hm hstep
  exact ⟨hm.1.step hclock hstep, hm.2.trans (hm.1.kept hstep)⟩

theorem Books.boot (w : World) (a : App) (ticks draws : Nat) :
    Books w (App.runtimeMachine (a.boot ticks draws)) where
  account :=
    { keyed := .init
      drawn := fun _ _ h => by cases h
      issued := (boot_sound a ticks draws).issued
      ledger := ⟨rfl, rfl⟩
      balanced := fun _ => rfl }
  once _ := rfl
  claims := ⟨fun _ _ _ _ h => (by cases h), fun _ => .nil⟩
  exclusive _ _ _ _ _ _ h := by cases h

end Books

/-- What can be relied on of the runtime of a process. -/
structure Accountable (w : World) (m : Machine InMemoryCardRuntime) : Prop where
  /-- From now on at most one lease of a card is active. -/
  exclusive : ∀ t, FromNowOn w m t → Exclusive m.store t
  /-- A released lease is closed by one event, an unreleased one by none. -/
  closed : ∀ id l, m.store.leases.get? id = some l →
    m.store.closings l.id = if l.releasedAt.isSome then 1 else 0
  /-- Submissions follow the claims they belong to. -/
  order : ∀ cardId, InClaimOrder (m.store.history cardId)
  /-- The report of the metrics is that of the tables. -/
  report : ∃ r m', (ObservabilityService.metrics InMemoryCardRuntime.runtime).run w m =
    (.ok r, m') ∧ m'.store = m.store ∧ r.Accounts m.store

theorem Books.accountable {w : World} {m : Machine InMemoryCardRuntime} (hm : Books w m) :
    Accountable w m where
  exclusive := hm.exclusive
  closed id l hl := by
    rw [hm.once, hm.account.keyed.leases hl]
    simp only [InMemoryCardRuntime.closed, hl, Option.bind_some]
  order cardId := (hm.claims.landed cardId).inClaimOrder
  report := ObservabilityService.reports hm.account

namespace Mcp

/-! ## Tools -/

section Tools
variable {grants : Prop} {w : World} {enabled : Bool} {read : Readers} {ctx : Option Context}

theorem authorize_hosted (permission : PermissionName) (scope : Scope)
    (participantId : Option String) (context : JsonObj) : Exec.Within (Hosted grants w) w
      (authorize (bindApp (App.application enabled)) ctx permission scope participantId
        context).rest := by
  unfold authorize
  split
  · simp only [Tool.rest_bind, Tool.rest_op]
    apply Hosted.bind Hosted.world
    intro w'
    split
    · exact Hosted.raise _
    · simp only [Tool.rest_bind, Tool.rest_op]
      apply Hosted.bind (decide_hosted _ _ _ _)
      intro decision
      split
      · exact Hosted.pure _
      · exact Hosted.raise _
  · exact Hosted.pure _

theorem toolPatchPanel_hosted (patchPanelId : String) : Exec.Within (Hosted grants w) w
    (patchPanel (bindApp (App.application enabled)) patchPanelId).rest := by
  rw [patchPanel_rest]
  exact patchPanel_hosted _

theorem map_hosted {α β : Type} (f : α → β) {x : Op App α}
    (hx : Exec.Within (Hosted grants w) w x) :
    Exec.Within (Hosted grants w) w (f <$> x) := Hosted.bind hx fun _ => Hosted.pure _

theorem claimCard_tool_hosted (workerId inputPipe : String) (leaseSeconds : Int)
    (key participantId : Option String) : Exec.Within (Hosted grants w) w
      (claimCard (bindApp (App.application enabled)) ctx workerId inputPipe leaseSeconds key
        participantId).rest := by
  unfold claimCard
  simp only [Tool.rest_bind, Tool.rest_op]
  apply Hosted.bind (scopeBuild_hosted _ _)
  intro scope
  apply Hosted.bind (authorize_hosted _ _ _ _)
  intro _
  exact claimCard_hosted _ _ _ _

theorem submitArtifact_tool_hosted (leaseId outputPipe : String) (artifactRefs : List Json)
    (key participantId : Option String) : Exec.Within (Hosted grants w) w
      (submitArtifact (bindApp (App.application enabled)) read ctx leaseId outputPipe
        artifactRefs key participantId).rest := by
  unfold submitArtifact
  simp only [Tool.rest_bind, Tool.rest_op, Tool.rest_ofExcept]
  apply Hosted.bind (Hosted.ofExcept _)
  intro leaseUuid
  apply Hosted.bind (getLease_hosted _)
  intro lease
  apply Hosted.bind (scopeBuild_hosted _ _)
  intro scope
  apply Hosted.bind (authorize_hosted _ _ _ _)
  intro _
  apply Hosted.bind (Hosted.ofExcept _)
  intro refs
  exact submitArtifact_hosted _ _ _ _

theorem submitValidatorDecision_hosted (validatorId cardId patchPanelId : String)
    (accepted : Option Bool) (selectedExit : Option String) (score : Option Int)
    (reason key participantId : Option String) : Exec.Within (Hosted grants w) w
      (submitValidatorDecision (bindApp (App.application enabled)) read ctx validatorId cardId
        patchPanelId accepted selectedExit score reason key participantId).rest := by
  unfold submitValidatorDecision
  simp only [Tool.rest_bind, Tool.rest_op, Tool.rest_ofExcept]
  apply Hosted.bind (Hosted.ofExcept _)
  intro cardUuid
  apply Hosted.bind (scopeBuild_hosted _ _)
  intro scope
  apply Hosted.bind (authorize_hosted _ _ _ _)
  intro _
  apply Hosted.bind (toolPatchPanel_hosted _)
  intro p
  apply Hosted.bind Hosted.world
  intro w'
  split
  · rw [Tool.rest_op]
    apply executeValidator_hosted
    rfl
  · exact Hosted.raise _

theorem boundarySource_tool_hosted (patchPanelId sourceId : String) (externalPayload : JsonObj)
    (headers : Option JsonObj) (actorToken participantId : Option String) :
    Exec.Within (Hosted grants w) w (boundarySource (bindApp (App.application enabled)) ctx patchPanelId
      sourceId externalPayload headers actorToken participantId).rest := by
  unfold boundarySource
  simp only [Tool.rest_bind, Tool.rest_op]
  apply Hosted.bind (scopeBuild_hosted _ _)
  intro scope
  apply Hosted.bind (authorize_hosted _ _ _ _)
  intro _
  exact boundarySource_hosted _

theorem boundarySink_tool_hosted (patchPanelId sinkId cardId : String)
    (externalResponse : Option JsonObj) (actorToken participantId : Option String) :
    Exec.Within (Hosted grants w) w (boundarySink (bindApp (App.application enabled)) read ctx
      patchPanelId sinkId cardId externalResponse actorToken participantId).rest := by
  unfold boundarySink
  simp only [Tool.rest_bind, Tool.rest_op]
  apply Hosted.bind (scopeBuild_hosted _ _)
  intro scope
  apply Hosted.bind (authorize_hosted _ _ _ _)
  intro _
  apply Hosted.bind Hosted.world
  intro w'
  split
  · exact Hosted.raise _
  · rw [Tool.rest_op]
    exact boundarySink_hosted _

theorem toolCall_hosted (enabled : Bool) (read : Readers) (ctx : Option Context)
    (call : ToolCall) : Exec.Within (Hosted grants w) w
      (call.run (bindApp (App.application enabled)) read ctx).rest := by
  cases call with
  | claimCard workerId inputPipe leaseSeconds key participantId =>
    simp only [ToolCall.run, Tool.rest_map]
    exact map_hosted _ (claimCard_tool_hosted _ _ _ _ _)
  | submitArtifact leaseId outputPipe artifactRefs key participantId =>
    simp only [ToolCall.run, Tool.rest_map]
    exact map_hosted _ (submitArtifact_tool_hosted _ _ _ _ _)
  | submitValidatorDecision validatorId cardId panelId accepted exit score reason key participantId =>
    simp only [ToolCall.run, Tool.rest_map]
    exact map_hosted _ (submitValidatorDecision_hosted _ _ _ _ _ _ _ _ _)
  | boundarySource panelId sourceId payload headers actorToken participantId =>
    simp only [ToolCall.run, Tool.rest_map]
    exact map_hosted _ (boundarySource_tool_hosted _ _ _ _ _ _)
  | boundarySink panelId sinkId cardId response actorToken participantId =>
    simp only [ToolCall.run, Tool.rest_map]
    exact map_hosted _ (boundarySink_tool_hosted _ _ _ _ _ _)

end Tools

/-! ## The process -/

/-- What the process is asked for: a request, or a tool. -/
inductive Door where
  | request (request : Request) (route : Route)
  | tool (read : Readers) (ctx : Option Context) (call : ToolCall)

/-- The machine after it, whether it was answered or refused. -/
def Door.enter (w : World) (enabled : Bool) (m : Machine App) : Door → Machine App
  | request r route => App.respond w enabled m (r, route)
  | tool read ctx call => ((call.run (bindApp (App.application enabled)) read ctx).run w m).2

def serve (w : World) (enabled : Bool) (m : Machine App) (doors : List Door) : Machine App :=
  doors.foldl (Door.enter w enabled) m

/-- The door may enter participants, roles or grants. -/
def Door.grants : Door → Bool
  | request _ route => route.grants
  | tool _ _ _ => false

theorem Door.enter_hosted (w : World) (enabled : Bool) (m : Machine App) (door : Door) :
    Hosted (door.grants = true) w m (door.enter w enabled m) := by
  cases door with
  | request r route => exact handle_hosted enabled r route m
  | tool read ctx call => exact toolCall_hosted enabled read ctx call m

/-- The run lemma, by induction over what is asked. -/
theorem serve_hosted (w : World) (enabled : Bool) (doors : List Door) (m : Machine App) :
    Hosted True w m (serve w enabled m doors) := by
  unfold serve
  induction doors generalizing m with
  | nil => exact .refl m
  | cons door doors ih => exact ((door.enter_hosted w enabled m).mono fun _ => trivial).trans (ih _)

/-- Whatever a process is asked for, in any order and by anyone, its runtime is accountable
at every point, and what it has recorded stays. -/
theorem served_accountably (w : World) (hclock : Monotone w.clock) (enabled : Bool) (a : App)
    (ticks draws : Nat) (before after : List Door) :
    Accountable w (App.runtimeMachine (serve w enabled (a.boot ticks draws) before)) ∧
    Kept (serve w enabled (a.boot ticks draws) before).store.runtime
      (serve w enabled (a.boot ticks draws) (before ++ after)).store.runtime := by
  have hbefore : Books w (App.runtimeMachine (serve w enabled (a.boot ticks draws) before)) :=
    (Books.hosted hclock (Books.boot w a ticks draws) (serve_hosted w enabled before _)).1
  refine ⟨hbefore.accountable, ?_⟩
  have hafter := serve_hosted w enabled after (serve w enabled (a.boot ticks draws) before)
  have happend : serve w enabled (a.boot ticks draws) (before ++ after) =
      serve w enabled (serve w enabled (a.boot ticks draws) before) after :=
    List.foldl_append
  rw [happend]
  exact (Books.hosted hclock hbefore hafter).2

/-- The root operator registers a panel and creates a card; an agent claims it over MCP. -/
def workDoors : List Door :=
  (rootRequests.map fun call => .request call.1 call.2) ++
    [.tool noReaders (some ⟨some "root", .null, .null, .null⟩)
      (.claimCard "agent" "work_in" 300 none none)]

theorem served_accountably_work :
    (serve .simple true ((App.start .simple "root").store.boot 40 40)
      workDoors).store.runtime.leases.values.length = 1 ∧
    Accountable .simple (App.runtimeMachine
      (serve .simple true ((App.start .simple "root").store.boot 40 40) workDoors)) ∧
    Kept (serve .simple true ((App.start .simple "root").store.boot 40 40)
        workDoors).store.runtime
      (serve .simple true ((App.start .simple "root").store.boot 40 40)
        (workDoors ++ [.request ⟨none, none⟩ .expireLeases])).store.runtime :=
  ⟨by decide +kernel, served_accountably .simple (fun _ _ h => Int.ofNat_le.mpr h) true
    (App.start .simple "root").store 40 40 workDoors [.request ⟨none, none⟩ .expireLeases]⟩

end Mcp

end GhostMesh
