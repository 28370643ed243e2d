import GhostMesh.Bootstrap.Again
import GhostMesh.Nodes.ValidationEvidence
import GhostMesh.Runtime.Promotion
import GhostMesh.Runtime.VersionDefinition

/-!
# Sinks on any stores

What the runtime operations of a sink do on either backend: the card and its history are
read, a registration and an event are the only writes, and neither reaches the registry or
the authorization repository.
-/

set_option autoImplicit false

namespace GhostMesh

open Op
open Exec (bind_cases)
open NodeExecutor (LooksUp)
open ReadCommitted (Txn)

/-! ## The runtime of a state -/

section Runtime
variable {σ : Type}

namespace RuntimeBackend

def cards : RuntimeBackend σ → σ → Dict Uuid Card
  | .memory store, s => (store.get s).cards
  | .postgres _ store, s => (store.get s).cards

def history : RuntimeBackend σ → σ → Uuid → List CardEvent
  | .memory store, s, cardId => (store.get s).history cardId
  | .postgres _ store, s, cardId =>
    ((store.get s).cardEvents.values.filter fun e => e.cardId = cardId).insertionSort
      PostgresCardRuntime.eventBefore

/-- The definition stored for an id and a version. -/
def definition : RuntimeBackend σ → σ → String → String → Option PatchPanel
  | .memory store, s => InMemoryCardRuntime.storedFor (store.get s)
  | .postgres _ store, s => PostgresCardRuntime.storedFor (store.get s)

/-- What an event's key answers, if it is recorded: the event, or an exception. -/
def answer : RuntimeBackend σ → σ → Option String → Option (Option CardEvent)
  | .memory store, s, key => ((store.get s).cached key).map Stored.event?
  | .postgres _ store, s, key => (PostgresCardRuntime.recorded (store.get s) key).map fun ref =>
    match ref with
    | .event id => (store.get s).cardEvents.get? id
    | _ => none

/-- A registration would store this definition: in Postgres the pair has no other one. -/
def Takes (s : σ) (p : PatchPanel) : RuntimeBackend σ → Prop
  | .memory _ => True
  | .postgres _ store =>
    ∀ q, PostgresCardRuntime.storedFor (store.get s) p.id p.version = some q → q = p

/-- A registration would write nothing. -/
def Has (s : σ) (p : PatchPanel) : RuntimeBackend σ → Prop
  | .memory store => (store.get s).patchPanels.get? p.id = some p
  | .postgres _ store => (store.get s).patchPanels.contains (p.id, p.version) = true ∧
    (store.get s).workflowVersions.contains p.workflowVersion = true

/-- The identifiers to come are those of no event row. -/
def EventsFresh (w : World) (m : Machine σ) : RuntimeBackend σ → Prop
  | .memory _ => True
  | .postgres _ store =>
    ∀ i, m.draws ≤ i → (store.get m.store).cardEvents.contains (w.uuid4 i) = false

end RuntimeBackend

theorem LooksUp.on {τ : Type} {R : CardRuntime σ} {cards : σ → Dict Uuid Card}
    (h : LooksUp R cards) (c : Component τ σ) : LooksUp (R.on c) fun s => cards (c.get s) := by
  intro id w m
  exact Op.on_read (c := c) (h id w ⟨c.get m.store, m.ticks, m.draws⟩)

theorem createRuntime_looksUp (runtime : RuntimeBackend σ) :
    LooksUp (createRuntime runtime) runtime.cards := by
  cases runtime with
  | memory store => exact LooksUp.on NodeExecutor.memory_looksUp store
  | postgres engine store => exact LooksUp.on (PostgresCardRuntime.tables_looksUp engine) store

theorem createRuntime_history (runtime : RuntimeBackend σ) (cardId : Uuid) (w : World)
    (m : Machine σ) : ((createRuntime runtime).cardHistory cardId).run w m =
      (match (runtime.cards m.store).get? cardId with
        | some _ => .ok (runtime.history m.store cardId)
        | none => .error (.notFound s!"card '{cardId.str}' does not exist"), m) := by
  cases runtime with
  | memory store =>
    refine Op.on_read (c := store) (x := InMemoryCardRuntime.cardHistory cardId) ?_
    unfold InMemoryCardRuntime.cardHistory RuntimeBackend.cards
    rw [Exec.run_bind, InMemoryCardRuntime.run_getCard]
    dsimp only
    cases (store.get m.store).cards.get? cardId <;> rfl
  | postgres engine store =>
    refine Op.on_read (c := store) (x := Op.atomically (PostgresCardRuntime.cardHistory cardId)) ?_
    unfold PostgresCardRuntime.cardHistory RuntimeBackend.cards
    rw [Op.atomically_run, Op.run_inside_bind, PostgresCardRuntime.run_getCard]
    dsimp only
    cases (store.get m.store).cards.get? cardId <;> rfl

/-- A check of a card's history in front of the rest. -/
theorem approval_bind {α : Type} (runtime : RuntimeBackend σ) {cardId : Uuid}
    {approved : List CardEvent → Bool} {e : PyErr} {f : Unit → Op σ α} {r : Except PyErr α}
    {w : World} {m m' : Machine σ} (h : (((createRuntime runtime).cardHistory cardId >>=
      fun history => Op.ensure (approved history) e) >>= f).run w m = (r, m')) :
    (m' = m ∧ ∃ x, r = .error x) ∨
      approved (runtime.history m.store cardId) = true ∧ (f ()).run w m = (r, m') := by
  have hguard : ((createRuntime runtime).cardHistory cardId >>= fun history =>
      Op.ensure (approved history) e).run w m =
        (match (runtime.cards m.store).get? cardId with
          | some _ => if approved (runtime.history m.store cardId) then .ok () else .error e
          | none => .error (.notFound s!"card '{cardId.str}' does not exist"), m) := by
    rw [Exec.run_bind, createRuntime_history]
    cases (runtime.cards m.store).get? cardId with
    | none => rfl
    | some card => exact Op.run_ensure _ _ w m
  obtain ⟨rfl, x, -, hx⟩ | ⟨_, happroved, h⟩ := Exec.bind_same hguard h
  · exact .inl ⟨rfl, x, hx⟩
  · refine .inr ⟨?_, h⟩
    cases hcard : (runtime.cards m.store).get? cardId with
    | none =>
      rw [hcard] at happroved
      cases happroved
    | some card =>
      rw [hcard] at happroved
      by_contra hnot
      simp only [if_neg hnot] at happroved
      cases happroved

/-! ## A registration -/

/-- What a registration that returns has done to a runtime. -/
structure RuntimeBackend.Registered (runtime : RuntimeBackend σ) (s s' : σ) (p : PatchPanel) :
    Prop where
  definition : runtime.definition s' p.id p.version = some p ↔ runtime.Takes s p
  cards : runtime.cards s' = runtime.cards s
  history : ∀ cardId, runtime.history s' cardId = runtime.history s cardId
  answer : ∀ key, runtime.answer s' key = runtime.answer s key
  same : runtime.Has s p → s' = s

theorem PostgresCardRuntime.Registers.definition_iff {d d' : Tables} {p : PatchPanel}
    {now : Instant} (h : Registers d d' p now) :
    storedFor d' p.id p.version = some p ↔ ∀ q, storedFor d p.id p.version = some q → q = p := by
  unfold storedFor
  rw [h.patchPanels]
  cases hrow : d.patchPanels.get? (p.id, p.version) with
  | some row =>
    rw [if_pos (Dict.contains_of_get? hrow), hrow]
    simp only [Option.map_some, Option.some.injEq, forall_eq']
  | none =>
    rw [if_neg (by simp [Dict.contains, hrow]), Dict.get?_set_self]
    simp

theorem createRuntime_registers (runtime : RuntimeBackend σ) {p : PatchPanel} {w : World}
    {m m' : Machine σ} {r : Except PyErr PatchPanel}
    (h : ((createRuntime runtime).registerPatchPanel p).run w m = (r, m')) :
    (runtime.EventsFresh w m → runtime.EventsFresh w m') ∧ m.draws ≤ m'.draws ∧
      ((m'.store = m.store ∧ ∃ e, r = .error e) ∨
        r = .ok p ∧ PatchPanelValidator.accepts w p = true ∧
          runtime.Registered m.store m'.store p) := by
  cases runtime with
  | memory store =>
    change (Op.on store (InMemoryCardRuntime.registerPatchPanel p)).run w m = (r, m') at h
    obtain ⟨n, hrun, rfl⟩ := Op.on_cases h
    rw [InMemoryCardRuntime.run_registerPatchPanel] at hrun
    cases hvalid : PatchPanelValidator.validate w p with
    | error e =>
      rw [hvalid] at hrun
      cases hrun
      exact ⟨id, Nat.le_refl _, .inl ⟨store.put_get _, e, rfl⟩⟩
    | ok report =>
      rw [hvalid] at hrun
      cases hrun
      refine ⟨id, Nat.le_refl _, .inr ⟨rfl, PatchPanelValidator.accepts_iff.mpr ⟨report, hvalid⟩, ?_⟩⟩
      constructor
      · simp only [RuntimeBackend.definition, RuntimeBackend.Takes, store.get_put, iff_true]
        simp [InMemoryCardRuntime.storedFor]
      · simp only [RuntimeBackend.cards, store.get_put, InMemoryCardRuntime.putPanel_cards]
      · intro cardId
        simp only [RuntimeBackend.history, store.get_put, InMemoryCardRuntime.putPanel_history]
      · intro key
        simp only [RuntimeBackend.answer, store.get_put]
        rfl
      · intro hhas
        have hsame : (store.get m.store).putPanel p = store.get m.store := by
          unfold InMemoryCardRuntime.putPanel
          rw [Dict.set_of_get? hhas]
        rw [hsame, store.put_get]
  | postgres engine store =>
    change (Op.on store ((PostgresCardRuntime.runtime engine).registerPatchPanel p)).run w m =
      (r, m') at h
    obtain ⟨n, hrun, rfl⟩ := Op.on_cases h
    have hdraws : m.draws ≤ n.draws := by
      rw [← congrArg (fun x => x.2.draws) hrun]
      simp only [PostgresCardRuntime.runtime, Exec.run_bind, Op.run_world, Op.run_ofExcept]
      cases PatchPanelValidator.validate w p with
      | error e => exact Nat.le_refl _
      | ok report =>
        exact (Op.atomically_later (PostgresCardRuntime.registerPatchPanel engine p
          (w.clock m.ticks)) w ⟨store.get m.store, m.ticks + 1, m.draws⟩).2
    have hevents : n.store.cardEvents = (store.get m.store).cardEvents →
        (RuntimeBackend.postgres engine store).EventsFresh w m →
          (RuntimeBackend.postgres engine store).EventsFresh w
            ⟨store.put n.store m.store, n.ticks, n.draws⟩ := by
      intro hsame hfresh i hi
      rw [store.get_put, hsame]
      exact hfresh i (Nat.le_trans hdraws hi)
    rcases PostgresCardRuntime.runtime_registerPatchPanel_cases engine hrun with
      ⟨he, hstore⟩ | ⟨rfl, haccepts, hregisters⟩
    · refine ⟨hevents (congrArg Tables.cardEvents hstore), hdraws, .inl ⟨?_, he⟩⟩
      change store.put n.store m.store = m.store
      rw [hstore, store.put_get]
    · have hrest := hregisters.rest
      refine ⟨hevents (by rw [hrest]), hdraws, .inr ⟨rfl, haccepts, ?_⟩⟩
      constructor
      · simp only [RuntimeBackend.definition, store.get_put]
        exact hregisters.definition_iff
      · simp only [RuntimeBackend.cards, store.get_put]
        rw [hrest]
      · intro cardId
        simp only [RuntimeBackend.history, store.get_put]
        rw [hrest]
      · intro key
        simp only [RuntimeBackend.answer, store.get_put]
        rw [hrest]
        rfl
      · intro hhas
        have hstored := PostgresCardRuntime.run_registerPatchPanel_stored (w := w)
          (m := ⟨store.get m.store, m.ticks, m.draws⟩) engine hhas.1 hhas.2
        have hsame : n.store = store.get m.store := by
          rw [hstored] at hrun
          cases hvalid : PatchPanelValidator.validate w p with
          | error e =>
            rw [hvalid] at hrun
            cases hrun
          | ok report =>
            rw [hvalid] at hrun
            cases hrun
            rfl
        change store.put n.store m.store = m.store
        rw [hsame, store.put_get]

/-! ## An event -/

section Events
variable {runtime : RuntimeBackend σ} {w : World} {m : Machine σ} {cardId : Uuid} {type : String}
  {actor : Option String} {payload : Option JsonObj} {key : Option String}

theorem PostgresCardRuntime.recordEvent_writes (engine : Engine) (cardId : Uuid) (type : String)
    (actor : Option String) (payload : Option JsonObj) (key : Option String) :
    (recordEvent engine cardId type actor payload key).Writes OffPanels := by
  refine .bind (getIdempotency_writes key) fun found => ?_
  cases found with
  | some ref => exact cachedEvent_writes ref
  | none =>
    refine .bind (getCard_writes cardId) fun card => ?_
    refine .bind (newEvent_writes _ _ _ _) fun event => ?_
    refine .bind (insertEvent_writes engine trivial) fun _ => ?_
    exact .bind (storeIdempotency_writes key _ _ fun _ _ => trivial) fun _ => .ret _

/-- An event leaves the definitions, whether it is recorded or not. -/
theorem recordEvent_definition (runtime : RuntimeBackend σ) (w : World) (m : Machine σ)
    (cardId : Uuid) (type : String) (actor : Option String) (payload : Option JsonObj)
    (key : Option String) : runtime.definition
      (((createRuntime runtime).recordEvent cardId type actor payload key).run w m).2.store =
        runtime.definition m.store := by
  cases runtime with
  | memory store =>
    change InMemoryCardRuntime.storedFor (store.get ((Op.on store
      (InMemoryCardRuntime.recordEvent cardId type actor payload key)).run w m).2.store) = _
    rw [Op.run_on]
    simp only [store.get_put]
    rcases hrun : (InMemoryCardRuntime.recordEvent cardId type actor payload key).run w
      ⟨store.get m.store, m.ticks, m.draws⟩ with ⟨r, n⟩
    rcases InMemoryCardRuntime.recordEvent_cases hrun with rfl | ⟨e, -, hrecords⟩
    · rfl
    · dsimp only
      rw [hrecords.store]
      unfold RuntimeBackend.definition InMemoryCardRuntime.storedFor
      simp only [InMemoryCardRuntime.putKey_patchPanels, InMemoryCardRuntime.putEvent_patchPanels]
  | postgres engine store =>
    change PostgresCardRuntime.storedFor (store.get ((Op.on store (Op.atomically
      (PostgresCardRuntime.recordEvent engine cardId type actor payload key))).run w m).2.store) = _
    rw [Op.run_on]
    simp only [store.get_put]
    have hkept : PanelsKept (store.get m.store) ((Op.atomically (PostgresCardRuntime.recordEvent
        engine cardId type actor payload key)).run w ⟨store.get m.store, m.ticks, m.draws⟩).2.store :=
      Op.atomically_keeps (PostgresCardRuntime.recordEvent_writes engine cardId type actor payload
        key) (fun x d hx hd => ⟨(x.panelsKept hx d).patchPanels.trans hd.patchPanels,
          (x.panelsKept hx d).workflowVersions.trans hd.workflowVersions⟩) ⟨rfl, rfl⟩
    unfold RuntimeBackend.definition PostgresCardRuntime.storedFor
    rw [hkept.patchPanels]

/-- An event under the key is the answer. -/
theorem recordEvent_answered {e : CardEvent} (h : runtime.answer m.store key = some (some e)) :
    ((createRuntime runtime).recordEvent cardId type actor payload key).run w m = (.ok e, m) := by
  cases runtime with
  | memory store =>
    refine Op.on_read (c := store)
      (x := InMemoryCardRuntime.recordEvent cardId type actor payload key) ?_
    obtain ⟨v, hcached, hv⟩ := Option.map_eq_some_iff.mp h
    rw [InMemoryCardRuntime.recordEvent, InMemoryCardRuntime.run_idempotent, hcached]
    simp only [hv]
  | postgres engine store =>
    refine Op.on_read (c := store) (x := Op.atomically
      (PostgresCardRuntime.recordEvent engine cardId type actor payload key)) ?_
    obtain ⟨ref, hrecorded, href⟩ := Option.map_eq_some_iff.mp h
    rw [Op.atomically_run, PostgresCardRuntime.recordEvent, PostgresCardRuntime.run_idempotent,
      hrecorded]
    cases ref with
    | event id =>
      simp only [PostgresCardRuntime.cachedEvent, PostgresCardRuntime.run_getEvent]
      dsimp only at href
      simp only [href]
    | _ => cases href

/-- Anything else under the key is refused. -/
theorem recordEvent_conflict (h : runtime.answer m.store key = some none) :
    ∃ e, ((createRuntime runtime).recordEvent cardId type actor payload key).run w m =
      (.error e, m) := by
  cases runtime with
  | memory store =>
    obtain ⟨v, hcached, hv⟩ := Option.map_eq_some_iff.mp h
    have hrun : (InMemoryCardRuntime.recordEvent cardId type actor payload key).run w
        ⟨store.get m.store, m.ticks, m.draws⟩ = (.error (.conflict
          "idempotency key was already used for a different operation"),
            ⟨store.get m.store, m.ticks, m.draws⟩) := by
      rw [InMemoryCardRuntime.recordEvent, InMemoryCardRuntime.run_idempotent, hcached]
      simp only [hv]
    exact ⟨_, Op.on_read (c := store)
      (x := InMemoryCardRuntime.recordEvent cardId type actor payload key) hrun⟩
  | postgres engine store =>
    obtain ⟨ref, hrecorded, href⟩ := Option.map_eq_some_iff.mp h
    have hrun : ∃ e, (Op.atomically (PostgresCardRuntime.recordEvent engine cardId type actor
        payload key)).run w ⟨store.get m.store, m.ticks, m.draws⟩ =
          (.error e, ⟨store.get m.store, m.ticks, m.draws⟩) := by
      rw [Op.atomically_run, PostgresCardRuntime.recordEvent, PostgresCardRuntime.run_idempotent,
        hrecorded]
      cases ref with
      | event id =>
        simp only [PostgresCardRuntime.cachedEvent, PostgresCardRuntime.run_getEvent]
        dsimp only at href
        simp only [href]
        exact ⟨_, rfl⟩
      | _ => exact ⟨_, rfl⟩
    obtain ⟨e, hrun⟩ := hrun
    exact ⟨e, Op.on_read (c := store) (x := Op.atomically
      (PostgresCardRuntime.recordEvent engine cardId type actor payload key)) hrun⟩

/-- A new event of a card goes into its history. -/
theorem recordEvent_new {card : Card} (hkey : runtime.answer m.store key = none)
    (hcard : (runtime.cards m.store).get? cardId = some card)
    (hfresh : runtime.EventsFresh w m) : ∃ e m',
      ((createRuntime runtime).recordEvent cardId type actor payload key).run w m = (.ok e, m') ∧
      m.ticks ≤ m'.ticks ∧ e.eventType = type ∧ e.actorId = actor ∧ e.payload = payload.getD [] ∧
      e ∈ runtime.history m'.store cardId := by
  let e : CardEvent :=
    ⟨w.uuid4 m.draws, cardId, type, actor, payload.getD [], w.clock m.ticks⟩
  cases runtime with
  | memory store =>
    rw [RuntimeBackend.answer, Option.map_eq_none_iff] at hkey
    have hrun : (InMemoryCardRuntime.recordEvent cardId type actor payload key).run w
        ⟨store.get m.store, m.ticks, m.draws⟩ = (.ok e,
          ⟨((store.get m.store).putEvent e).putKey key (.event e), m.ticks + 1, m.draws + 1⟩) := by
      rw [InMemoryCardRuntime.recordEvent, InMemoryCardRuntime.run_idempotent, hkey]
      dsimp only
      rw [Exec.run_bind, InMemoryCardRuntime.run_getCard]
      dsimp only
      rw [show (store.get m.store).cards.get? cardId = some card from hcard]
      rfl
    refine ⟨e, _, Op.on_run (c := store) hrun, Nat.le_succ _, rfl, rfl, rfl, ?_⟩
    simp only [RuntimeBackend.history, store.get_put, InMemoryCardRuntime.putKey_history,
      InMemoryCardRuntime.putEvent_history]
    rw [if_pos rfl]
    exact List.mem_append_right _ List.mem_cons_self
  | postgres engine store =>
    rw [RuntimeBackend.answer, Option.map_eq_none_iff] at hkey
    let d : Tables := RowWrite.apply (store.get m.store) (.cardEvent e)
    have hinsert : (inside (PostgresCardRuntime.insertEvent engine e)).run w
        ⟨store.get m.store, m.ticks + 1, m.draws + 1⟩ = (.ok (), ⟨d, m.ticks + 1, m.draws + 1⟩) :=
      PostgresCardRuntime.insertEvent_ok engine (hfresh m.draws (Nat.le_refl _))
    let n : Machine Tables :=
      ⟨PostgresCardRuntime.keyed d key "event.record" (.event e.id) (w.clock (m.ticks + 1)),
        m.ticks + 1 + (if (truthyStr key).isSome then 1 else 0), m.draws + 1⟩
    have hrun : (inside (PostgresCardRuntime.recordEvent engine cardId type actor payload key)).run w
        ⟨store.get m.store, m.ticks, m.draws⟩ = (.ok e, n) := by
      rw [PostgresCardRuntime.recordEvent, PostgresCardRuntime.run_idempotent, hkey]
      dsimp only
      rw [Op.run_inside_bind, PostgresCardRuntime.run_getCard]
      dsimp only
      rw [show (store.get m.store).cards.get? cardId = some card from hcard]
      dsimp only
      rw [Op.run_bind_ok (PostgresCardRuntime.run_newEvent w _ cardId type actor _),
        Op.run_bind_ok hinsert, Op.run_bind_ok (PostgresCardRuntime.run_storeIdempotency w _ _ _ hkey)]
      rfl
    have hcommit : (Op.atomically (PostgresCardRuntime.recordEvent engine cardId type actor payload
        key)).run w ⟨store.get m.store, m.ticks, m.draws⟩ = (.ok e, n) := by
      rw [Op.atomically_run, hrun]
    have hevents : n.store.cardEvents = (store.get m.store).cardEvents.set e.id e := by
      simp only [n, PostgresCardRuntime.keyed]
      cases truthyStr key <;> rfl
    refine ⟨e, _, Op.on_run (c := store) hcommit, (Nat.le_succ _).trans (Nat.le_add_right _ _), rfl,
      rfl, rfl, ?_⟩
    simp only [RuntimeBackend.history, store.get_put, hevents]
    rw [(List.perm_insertionSort _ _).mem_iff, List.mem_filter]
    exact ⟨Dict.mem_values_of_get? (Dict.get?_set_self _ _ _), decide_eq_true rfl⟩

end Events

end Runtime

/-! ## A registry entry -/

section Registry
variable {σ : Type} {w : World} {m m' : Machine σ} {e : PatchPanelRegistryEntry}

/-- The entry can be registered: in Postgres its id is new and its owner is a participant. -/
def RegistryBackend.Accepts (s : σ) (e : PatchPanelRegistryEntry) : RegistryBackend σ → Prop
  | .memory _ => True
  | .postgres _ store => (store.get s).patchPanelRegistryEntries.contains e.id = false ∧
    (AuthorityWrite.apply (store.get s) (.registryEntry e)).entryRefers e = true

theorem PostgresPatchPanelRegistry.run_register (engine : AuthorityEngine) (w : World)
    (m : Machine AuthorityTables) (e : PatchPanelRegistryEntry) :
    ((registry engine).register e).run w m =
      if m.store.patchPanelRegistryEntries.contains e.id then
        (.error (.integrity (engine.duplicateKey entriesTable)), m)
      else if (AuthorityWrite.apply m.store (.registryEntry e)).entryRefers e then
        (.ok e, { m with store := AuthorityWrite.apply m.store (.registryEntry e) })
      else (.error (.integrity (engine.missingReference entriesTable)), m) := by
  have halone : (registerTx engine e).aloneOn w.authoritySupply m.store m.ticks m.draws = _ :=
    Txn.aloneOn_bind _ _ _ _ _ _
  rw [insertReferring_aloneOn] at halone
  cases htaken : m.store.patchPanelRegistryEntries.contains e.id with
  | true =>
    rw [htaken] at halone
    rw [if_pos rfl]
    exact Op.run_committed_error halone
  | false =>
    rw [htaken] at halone
    rw [if_neg Bool.false_ne_true]
    cases hrefers : (AuthorityWrite.apply m.store (.registryEntry e)).entryRefers e with
    | true =>
      simp only [hrefers] at halone
      rw [if_pos rfl]
      exact Op.run_committed_ok halone
    | false =>
      simp only [hrefers] at halone
      rw [if_neg Bool.false_ne_true]
      exact Op.run_committed_error halone

/-- A registration either raises and writes nothing, or has written the entry. -/
theorem createRegistry_registers (registry : RegistryBackend σ)
    {r : Except PyErr PatchPanelRegistryEntry}
    (h : ((createRegistry registry).register e).run w m = (r, m')) :
    m'.draws = m.draws ∧ ((m'.store = m.store ∧ (∃ x, r = .error x) ∧ ¬ registry.Accepts m.store e) ∨
      r = .ok e ∧ registry.Accepts m.store e ∧
        registry.entries m'.store = (registry.entries m.store).set e.id e) := by
  cases registry with
  | memory store =>
    change (Op.on store (InMemoryPatchPanelRegistry.register e)).run w m = (r, m') at h
    cases h
    refine ⟨rfl, .inr ⟨rfl, trivial, ?_⟩⟩
    simp only [RegistryBackend.entries]
    exact congrArg InMemoryPatchPanelRegistry.entries (store.get_put _ _)
  | postgres engine store =>
    change (Op.on store ((PostgresPatchPanelRegistry.registry engine).register e)).run w m =
      (r, m') at h
    rw [Op.run_on, PostgresPatchPanelRegistry.run_register] at h
    dsimp only at h
    split at h
    · rename_i htaken
      cases h
      refine ⟨rfl, .inl ⟨store.put_get _, ⟨_, rfl⟩, fun haccepts => ?_⟩⟩
      rw [haccepts.1] at htaken
      cases htaken
    · rename_i htaken
      split at h
      · rename_i hrefers
        cases h
        refine ⟨rfl, .inr ⟨rfl, ⟨Bool.eq_false_iff.mpr htaken, hrefers⟩, ?_⟩⟩
        simp only [RegistryBackend.entries, store.get_put]
        rfl
      · rename_i hrefers
        cases h
        exact ⟨rfl, .inl ⟨store.put_get _, ⟨_, rfl⟩, fun haccepts => hrefers haccepts.2⟩⟩

end Registry

/-! ## The checks before the effect -/

namespace NodeExecutor

section Sinks
variable {σ : Type} (x : NodeExecutor σ)

/-- The node is a sink that lets the card in. -/
structure Admits (cards : Dict Uuid Card) (cardId : Uuid) (sinkId : String) (n : NodeDefinition)
    (card : Card) : Prop where
  found : node x.patchPanel sinkId .sink = .ok n
  stored : cards.get? cardId = some card
  shadow : ensureShadowEgress n card = .ok ()
  located : ensureCardAtSink x.patchPanel n card = .ok ()

/-- The effect of the sink, and the event that is its evidence. -/
def effectAndEvidence (cardId : Uuid) (n : NodeDefinition) (card : Card)
    (externalReference idempotencyKey : Option String) : Op σ SinkResult := do
  let externalReference ← x.executeConfiguredSink n card externalReference
  let w ← Op.world
  let event ← x.runtime.recordEvent cardId "sink_executed" (some n.id)
    (some (sinkPayload w n externalReference)) idempotencyKey
  return { event, externalReference }

variable {x} {cards : σ → Dict Uuid Card} {w : World} {a a' : Machine σ} {cardId : Uuid}
  {sinkId : String} {externalReference key : Option String}

theorem executeSink_admitted (hx : LooksUp x.runtime cards) {r : Except PyErr SinkResult}
    (h : (x.executeSink cardId sinkId externalReference key).run w a = (r, a')) :
    (a' = a ∧ ∃ e, r = .error e) ∨
    ∃ n card, x.Admits (cards a.store) cardId sinkId n card ∧
      (x.effectAndEvidence cardId n card externalReference key).run w a = (r, a') := by
  unfold executeSink at h
  obtain ⟨rfl, e, -, rfl⟩ | ⟨n, hnode, h⟩ := Exec.bind_same (Op.run_ofExcept _ w a) h
  · exact .inl ⟨rfl, e, rfl⟩
  obtain ⟨rfl, e, -, rfl⟩ | ⟨card, hcard, h⟩ := Exec.bind_same (hx cardId w a) h
  · exact .inl ⟨rfl, e, rfl⟩
  obtain ⟨rfl, e, -, rfl⟩ | ⟨_, hshadow, h⟩ := Exec.bind_same (Op.run_ofExcept _ w a) h
  · exact .inl ⟨rfl, e, rfl⟩
  obtain ⟨rfl, e, -, rfl⟩ | ⟨_, hlocated, h⟩ := Exec.bind_same (Op.run_ofExcept _ w a) h
  · exact .inl ⟨rfl, e, rfl⟩
  have hstored : (cards a.store).get? cardId = some card := by
    cases hget : (cards a.store).get? cardId with
    | some c =>
      rw [hget] at hcard
      cases hcard
      rfl
    | none =>
      rw [hget] at hcard
      cases hcard
  exact .inr ⟨n, card, ⟨hnode, hstored, hshadow, hlocated⟩, h⟩

/-- The evidence is recorded after an effect that has returned. -/
theorem effectAndEvidence_cases {n : NodeDefinition} {card : Card} {r : Except PyErr SinkResult}
    (h : (x.effectAndEvidence cardId n card externalReference key).run w a = (r, a')) :
    (∃ e, (x.executeConfiguredSink n card externalReference).run w a = (.error e, a') ∧
      r = .error e) ∨
    ∃ reference b, (x.executeConfiguredSink n card externalReference).run w a =
        (.ok reference, b) ∧
      (∃ answer, (x.runtime.recordEvent cardId "sink_executed" (some n.id)
          (some (sinkPayload w n reference)) key).run w b = (answer, a') ∧
        r = answer.map fun event => ⟨event, reference⟩) := by
  unfold effectAndEvidence at h
  obtain ⟨e, hrun, rfl⟩ | ⟨reference, b, hrun, h⟩ := bind_cases h
  · exact .inl ⟨e, hrun, rfl⟩
  refine .inr ⟨reference, b, hrun, ?_⟩
  rw [Exec.run_bind_ok (Op.run_world w b)] at h
  obtain ⟨e, hevent, rfl⟩ | ⟨event, c, hevent, h⟩ := bind_cases h
  · exact ⟨_, hevent, rfl⟩
  · cases h
    exact ⟨_, hevent, rfl⟩

end Sinks

end NodeExecutor

/-! ## The executor on the chosen stores -/

/-- The executor of a panel, with a registry and an authorization repository if it is given
them. -/
def createNodeExecutor (settings : Settings) (p : PatchPanel) (registryGiven repositoryGiven : Bool) :
    NodeExecutor SystemStores where
  patchPanel := p
  runtime := createRuntime settings.runtime
  registry := if registryGiven then some (createRegistry settings.registry) else none
  authorizationRepository :=
    if repositoryGiven then some (createAuthorizationRepository settings.repository) else none

theorem Settings.runtime_cases (settings : Settings) :
    settings.runtime = .memory SystemStores.runtimeStore ∨
      ∃ engine, settings.runtime = .postgres engine SystemStores.tablesStore := by
  unfold Settings.runtime
  cases settings.runtimeBackend with
  | none => exact .inl rfl
  | some engine => exact .inr ⟨engine, rfl⟩

/-- Only the runtime has been written to. -/
structure RuntimeOnly (a a' : Machine SystemStores) : Prop where
  registry : a'.store.registry = a.store.registry
  authorization : a'.store.authorization = a.store.authorization
  authorityTables : a'.store.authorityTables = a.store.authorityTables

/-- The runtime has not been written to. -/
structure RuntimeKept (a a' : Machine SystemStores) : Prop where
  runtime : a'.store.runtime = a.store.runtime
  tables : a'.store.tables = a.store.tables

section Frames
variable {settings : Settings} {w : World} {a a' : Machine SystemStores}

theorem registerPatchPanel_only (p : PatchPanel) :
    RuntimeOnly a (((createRuntime settings.runtime).registerPatchPanel p).run w a).2 := by
  unfold Settings.runtime
  cases settings.runtimeBackend <;> exact ⟨rfl, rfl, rfl⟩

theorem recordEvent_only (cardId : Uuid) (type : String) (actor : Option String)
    (payload : Option JsonObj) (key : Option String) : RuntimeOnly a
      (((createRuntime settings.runtime).recordEvent cardId type actor payload key).run w a).2 := by
  unfold Settings.runtime
  cases settings.runtimeBackend <;> exact ⟨rfl, rfl, rfl⟩

/-- What an event leaves alone, whether it is recorded or not. -/
theorem recordEvent_leaves (settings : Settings) {cardId : Uuid} {type : String}
    {actor : Option String} {payload : Option JsonObj} {key : Option String}
    {answer : Except PyErr CardEvent}
    (hrun : ((createRuntime settings.runtime).recordEvent cardId type actor payload key).run w a =
      (answer, a')) : RuntimeOnly a a' ∧
      settings.runtime.definition a'.store = settings.runtime.definition a.store := by
  have honly : RuntimeOnly a (((createRuntime settings.runtime).recordEvent cardId type actor
    payload key).run w a).2 := recordEvent_only cardId type actor payload key
  have hdefinition := recordEvent_definition settings.runtime w a cardId type actor payload key
  rw [hrun] at honly hdefinition
  exact ⟨honly, hdefinition⟩

theorem register_kept (e : PatchPanelRegistryEntry) :
    RuntimeKept a (((createRegistry settings.registry).register e).run w a).2 := by
  unfold Settings.registry
  cases settings.registryBackend <;> exact ⟨rfl, rfl⟩

theorem RuntimeOnly.entries (h : RuntimeOnly a a') :
    settings.registry.entries a'.store = settings.registry.entries a.store := by
  unfold Settings.registry
  cases settings.registryBackend with
  | none => exact congrArg InMemoryPatchPanelRegistry.entries h.registry
  | some engine => exact congrArg AuthorityTables.patchPanelRegistryEntries h.authorityTables

theorem RuntimeKept.definition (h : RuntimeKept a a') :
    settings.runtime.definition a'.store = settings.runtime.definition a.store := by
  unfold Settings.runtime
  cases settings.runtimeBackend with
  | none => exact congrArg InMemoryCardRuntime.storedFor h.runtime
  | some engine => exact congrArg PostgresCardRuntime.storedFor h.tables

end Frames

end GhostMesh
