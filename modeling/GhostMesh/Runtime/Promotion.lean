import GhostMesh.Runtime.MemorySteps
import GhostMesh.Runtime.PostgresSteps
import GhostMesh.Runtime.Shadow
import GhostMesh.Runtime.Transactions

/-!
# Promotion

Panels are registered on Postgres directly or by promoting a mutation. Registration
adds rows and never takes the active flag from one; card creation takes any active
definition of the id.
-/

set_option autoImplicit false

namespace GhostMesh

/-! ## Registrations and promotions -/

/-- The tables beside the records of the shadow service. -/
structure ShadowedTables where
  tables : Tables
  shadow : ShadowStore

namespace ShadowedTables

def tablesStore : Component ShadowedTables Tables where
  get := ShadowedTables.tables
  put d s := { s with tables := d }
  get_put _ _ := rfl
  put_get _ := rfl
  put_put _ _ _ := rfl

def shadowStore : Component ShadowedTables ShadowStore where
  get := ShadowedTables.shadow
  put x s := { s with shadow := x }
  get_put _ _ := rfl
  put_get _ := rfl
  put_put _ _ _ := rfl

end ShadowedTables

/-- The shadow service on the Postgres runtime. -/
def shadowedPostgres (engine : Engine) : ShadowService ShadowedTables where
  runtime := (PostgresCardRuntime.runtime engine).on ShadowedTables.tablesStore
  store := ShadowedTables.shadowStore

inductive PublishCall where
  | registerPatchPanel (p : PatchPanel)
  | promoteMutation (mutationId : Uuid) (p : PatchPanel)
  | proposeMutation (mutationType proposedBy : String) (payload : JsonObj)
  | validateMutation (mutationId : Uuid) (accepted : Bool) (validatorId : String)
      (reason : Option String)
  | createCard (patchPanelId : String) (payload : JsonObj) (metadata : Option JsonObj)
      (idempotencyKey : Option String)

/-- The panel that the call registers if it returns. -/
def PublishCall.panel? : PublishCall → Option PatchPanel
  | .registerPatchPanel p => some p
  | .promoteMutation _ p => some p
  | _ => none

def PublishCall.run (engine : Engine) : PublishCall → Op ShadowedTables Unit
  | .registerPatchPanel p => do
    let _ ← (shadowedPostgres engine).runtime.registerPatchPanel p
    return ()
  | .promoteMutation mutation p => do
    let _ ← (shadowedPostgres engine).promoteMutation mutation p
    return ()
  | .proposeMutation type proposer payload => do
    let _ ← (shadowedPostgres engine).proposeMutation type proposer payload
    return ()
  | .validateMutation mutation accepted validator reason => do
    let _ ← (shadowedPostgres engine).validateMutation mutation accepted validator reason
    return ()
  | .createCard panel payload metadata key => do
    let _ ← (shadowedPostgres engine).runtime.createCard panel payload metadata key
    return ()

structure PublishState where
  machine : Machine ShadowedTables
  /-- The panels of the registrations and promotions that returned, the latest first. -/
  registered : List PatchPanel

namespace PublishState

def tables (σ : PublishState) : Tables := σ.machine.store.tables

/-- Empty tables beside any mutations. -/
def start (shadow : ShadowStore) : PublishState := ⟨⟨⟨Tables.init, shadow⟩, 0, 0⟩, []⟩

def step (engine : Engine) (w : World) (σ : PublishState) (a : PublishCall) : PublishState :=
  match (a.run engine).run w σ.machine with
  | (.ok _, m) => ⟨m, a.panel?.toList ++ σ.registered⟩
  | (.error _, m) => ⟨m, σ.registered⟩

/-- The latest registration of its id. -/
def current (σ : PublishState) (p : PatchPanel) : Prop :=
  σ.registered.find? (fun q => q.id = p.id) = some p

end PublishState

/-- The result is a card of the panel in its initial bucket; a panel without one raises. -/
def CreatedFrom (p : PatchPanel) (r : Except PyErr Card) : Prop :=
  match resolveInitialBucket p with
  | .ok bucket => ∃ c, r = .ok c ∧ c.workflowVersion = p.workflowVersion ∧ c.currentBucket = bucket
  | .error e => r = .error e

/-- At most one active version of each id, and cards are created from the panel that was
registered last, as they are in memory. -/
structure TakesEffect (engine : Engine) (w : World) (σ : PublishState) : Prop where
  single : ∀ k v k' v', σ.tables.workflowVersions.get? k = some v →
    σ.tables.workflowVersions.get? k' = some v' → v.active = true → v'.active = true →
    v.patchPanelId = v'.patchPanelId → k = k'
  postgres : ∀ p, σ.current p → ∀ payload metadata key ticks draws,
    PostgresCardRuntime.recorded σ.tables key = none →
    PostgresCardRuntime.Unused w draws σ.tables →
    CreatedFrom p (((PostgresCardRuntime.runtime engine).createCard p.id payload metadata key).run w
      ⟨σ.tables, ticks, draws⟩).1
  memory : ∀ p, σ.current p → ∀ payload metadata key (m : Machine InMemoryCardRuntime),
    m.store.patchPanels.get? p.id = some p → m.store.cached key = none →
    CreatedFrom p ((InMemoryCardRuntime.runtime.createCard p.id payload metadata key).run w m).1

/-! ## What a call does to the panels -/

section Steps
variable {engine : Engine} {w : World} {m m' : Machine ShadowedTables}

/-- The tables of panels are as before. -/
structure PanelsKept (d d' : Tables) : Prop where
  patchPanels : d'.patchPanels = d.patchPanels
  workflowVersions : d'.workflowVersions = d.workflowVersions

theorem registers_cases {p : PatchPanel} {r : Except PyErr PatchPanel}
    (h : ((shadowedPostgres engine).runtime.registerPatchPanel p).run w m = (r, m')) :
    (PanelsKept m.store.tables m'.store.tables ∧ ∃ e, r = .error e) ∨
      (∃ q, r = .ok q) ∧
        ∃ t, PostgresCardRuntime.Registers m.store.tables m'.store.tables p t := by
  change (Op.on ShadowedTables.tablesStore
    ((PostgresCardRuntime.runtime engine).registerPatchPanel p)).run w m = (r, m') at h
  obtain ⟨n, hrun, rfl⟩ := Op.on_cases h
  rcases PostgresCardRuntime.runtime_registerPatchPanel_cases engine hrun with
    ⟨he, hstore⟩ | ⟨hr, -, hregisters⟩
  · exact .inl ⟨⟨congrArg Tables.patchPanels hstore, congrArg Tables.workflowVersions hstore⟩, he⟩
  · exact .inr ⟨⟨p, hr⟩, _, hregisters⟩

theorem run_mutation (engine : Engine) (mutationId : Uuid) (w : World)
    (m : Machine ShadowedTables) : ((shadowedPostgres engine).mutation mutationId).run w m =
      (match m.store.shadow.mutations.get? mutationId with
        | some mutation => .ok mutation
        | none => .error (.notFound s!"mutation '{mutationId.str}' does not exist"), m) := by
  change (Op.on ShadowedTables.shadowStore Op.get >>= _).run w m = _
  rw [Exec.run_bind, Op.run_on]
  cases hget : m.store.shadow.mutations.get? mutationId with
  | none =>
    simp only [Op.run_get, ShadowedTables.shadowStore, hget]
    rfl
  | some mutation =>
    simp only [Op.run_get, ShadowedTables.shadowStore, hget]
    rfl

theorem promotes_cases {mutationId : Uuid} {p : PatchPanel} {r : Except PyErr ProposedMutation}
    (h : ((shadowedPostgres engine).promoteMutation mutationId p).run w m = (r, m')) :
    (PanelsKept m.store.tables m'.store.tables ∧ ∃ e, r = .error e) ∨
      (∃ mutation, r = .ok mutation) ∧
        ∃ t, PostgresCardRuntime.Registers m.store.tables m'.store.tables p t := by
  rcases Exec.bind_same (run_mutation engine mutationId w m) h with
    ⟨rfl, e, -, he⟩ | ⟨mutation, -, h⟩
  · exact .inl ⟨⟨rfl, rfl⟩, e, he⟩
  rcases Exec.bind_same (Op.run_ensure _ _ w m) h with ⟨rfl, e, -, he⟩ | ⟨_, -, h⟩
  · exact .inl ⟨⟨rfl, rfl⟩, e, he⟩
  rcases Exec.bind_cases h with ⟨e, h1, he⟩ | ⟨q, m1, h1, h⟩
  · rcases registers_cases h1 with ⟨hkept, -⟩ | ⟨⟨q, hq⟩, -⟩
    · exact .inl ⟨hkept, e, he⟩
    · cases hq
  · cases h
    rcases registers_cases h1 with ⟨-, e, he⟩ | ⟨-, hregisters⟩
    · cases he
    · exact .inr ⟨⟨_, rfl⟩, hregisters⟩

/-- The rows that no panel is made of. -/
def OffPanels : RowWrite → Prop
  | .patchPanel _ | .workflowVersion _ _ => False
  | _ => True

theorem RowWrite.panelsKept {x : RowWrite} (hx : OffPanels x) (d : Tables) :
    PanelsKept d (x.apply d) := by
  cases x
  case patchPanel => exact hx.elim
  case workflowVersion => exact hx.elim
  all_goals exact ⟨rfl, rfl⟩

theorem createCard_writes (panel : String) (payload : JsonObj) (metadata : Option JsonObj)
    (key : Option String) :
    (PostgresCardRuntime.createCard engine panel payload metadata key).Writes OffPanels := by
  refine .bind (PostgresCardRuntime.getIdempotency_writes key) fun found => ?_
  cases found with
  | some ref => exact PostgresCardRuntime.cachedCard_writes ref
  | none =>
    refine .bind (PostgresCardRuntime.getActivePatchPanel_writes engine panel) fun p => ?_
    refine .bind (.ofExcept _) fun bucket => .bind .fresh fun id => .bind .now fun createdAt => ?_
    refine .bind (PostgresCardRuntime.insertCard_writes engine trivial) fun _ => ?_
    refine .bind .fresh fun locationId => ?_
    refine .bind (PostgresCardRuntime.insertLocation_writes engine trivial) fun _ => ?_
    refine .bind (PostgresCardRuntime.newEvent_writes _ _ _ _) fun event => ?_
    refine .bind (PostgresCardRuntime.insertEvent_writes engine trivial) fun _ => ?_
    exact .bind (PostgresCardRuntime.storeIdempotency_writes key _ _ fun _ _ => trivial)
      fun _ => .ret _

theorem createCard_panelsKept {panel : String} {payload : JsonObj} {metadata : Option JsonObj}
    {key : Option String} {r : Except PyErr Card}
    (h : ((shadowedPostgres engine).runtime.createCard panel payload metadata key).run w m =
      (r, m')) : PanelsKept m.store.tables m'.store.tables := by
  change (Op.on ShadowedTables.tablesStore
    (Op.atomically (PostgresCardRuntime.createCard engine panel payload metadata key))).run w m =
      (r, m') at h
  rw [Op.run_on] at h
  cases h
  refine Op.atomically_keeps (I := PanelsKept m.store.tables)
    (createCard_writes panel payload metadata key) ?_ ⟨rfl, rfl⟩
  intro x d hx hd
  have hkept := x.panelsKept hx d
  exact ⟨hkept.patchPanels.trans hd.patchPanels, hkept.workflowVersions.trans hd.workflowVersions⟩

/-- A call registers its panel, or leaves the tables of panels. -/
theorem PublishCall.run_cases {a : PublishCall} {r : Except PyErr Unit}
    (h : (a.run engine).run w m = (r, m')) :
    (PanelsKept m.store.tables m'.store.tables ∧ (a.panel? = none ∨ ∃ e, r = .error e)) ∨
      r = .ok () ∧ ∃ p t, a.panel? = some p ∧
        PostgresCardRuntime.Registers m.store.tables m'.store.tables p t := by
  cases a with
  | registerPatchPanel p =>
    rcases Exec.bind_cases h with ⟨e, h1, he⟩ | ⟨q, m1, h1, h⟩
    · rcases registers_cases h1 with ⟨hkept, -⟩ | ⟨⟨q, hq⟩, -⟩
      · exact .inl ⟨hkept, .inr ⟨e, he⟩⟩
      · cases hq
    · cases h
      rcases registers_cases h1 with ⟨-, e, he⟩ | ⟨-, t, hregisters⟩
      · cases he
      · exact .inr ⟨rfl, p, t, rfl, hregisters⟩
  | promoteMutation mutationId p =>
    rcases Exec.bind_cases h with ⟨e, h1, he⟩ | ⟨q, m1, h1, h⟩
    · rcases promotes_cases h1 with ⟨hkept, -⟩ | ⟨⟨q, hq⟩, -⟩
      · exact .inl ⟨hkept, .inr ⟨e, he⟩⟩
      · cases hq
    · cases h
      rcases promotes_cases h1 with ⟨-, e, he⟩ | ⟨-, t, hregisters⟩
      · cases he
      · exact .inr ⟨rfl, p, t, rfl, hregisters⟩
  | proposeMutation type proposer payload =>
    cases h
    exact .inl ⟨⟨rfl, rfl⟩, .inl rfl⟩
  | validateMutation mutationId accepted validator reason =>
    rcases Exec.bind_cases h with ⟨e, h1, he⟩ | ⟨q, m1, h1, h⟩
    · rcases Exec.bind_same (run_mutation engine mutationId w m) h1 with ⟨rfl, -⟩ | ⟨x, -, h1⟩
      · exact .inl ⟨⟨rfl, rfl⟩, .inl rfl⟩
      · cases h1
    · rcases Exec.bind_same (run_mutation engine mutationId w m) h1 with ⟨rfl, e, -, he⟩ | ⟨x, -, h1⟩
      · cases he
      · cases h1
        cases h
        exact .inl ⟨⟨rfl, rfl⟩, .inl rfl⟩
  | createCard panel payload metadata key =>
    rcases Exec.bind_cases h with ⟨e, h1, he⟩ | ⟨q, m1, h1, h⟩
    · exact .inl ⟨createCard_panelsKept h1, .inl rfl⟩
    · cases h
      exact .inl ⟨createCard_panelsKept h1, .inl rfl⟩

end Steps

/-! ## Rows of versions -/

/-- Registering the panel makes no second version of its id: no other version has a row,
a stored definition has the same initial bucket, and the version string is not that of
another panel. -/
structure SoleVersion (d : Tables) (p : PatchPanel) : Prop where
  versions : ∀ k v, d.workflowVersions.get? k = some v → v.patchPanelId = p.id →
    v.version = p.version
  definition : ∀ row, d.patchPanels.get? (p.id, p.version) = some row →
    resolveInitialBucket row.definition = resolveInitialBucket p
  name : ∀ v, d.workflowVersions.get? p.workflowVersion = some v →
    v.patchPanelId = p.id ∧ v.version = p.version

/-- The call registers no second version. -/
def PublishState.keepsVersions (σ : PublishState) (a : PublishCall) : Prop :=
  ∀ p, a.panel? = some p → SoleVersion σ.tables p

/-- The rows that make the panel the one that its id stands for. -/
structure Registered (d : Tables) (p : PatchPanel) : Prop where
  definition : ∃ row, d.patchPanels.get? (p.id, p.version) = some row ∧
    resolveInitialBucket row.definition = resolveInitialBucket p
  version : ∃ v, d.workflowVersions.get? p.workflowVersion = some v ∧ v.patchPanelId = p.id ∧
    v.version = p.version

/-- The invariant: the rows of versions are named after their panels and all active, an
id has one of them, and the rows of the current panels are theirs. -/
structure PublishedState (σ : PublishState) : Prop where
  versions : ∀ k v, σ.tables.workflowVersions.get? k = some v →
    v.active = true ∧ k = v.patchPanelId ++ ":" ++ v.version
  rows : ∀ k row, σ.tables.patchPanels.get? k = some row →
    (row.definition.id, row.definition.version) = k
  single : ∀ k v k' v', σ.tables.workflowVersions.get? k = some v →
    σ.tables.workflowVersions.get? k' = some v' → v.patchPanelId = v'.patchPanelId → k = k'
  current : ∀ p, σ.current p → Registered σ.tables p

section Invariant
variable {engine : Engine} {w : World} {σ : PublishState}

theorem PublishedState.start (shadow : ShadowStore) : PublishedState (.start shadow) where
  versions k v h := by cases h
  rows k row h := by cases h
  single k v k' v' h := by cases h
  current p h := by cases h

/-- Another table state with the same panels. -/
theorem Registered.of_kept {d d' : Tables} {p : PatchPanel} (h : Registered d p)
    (hkept : PanelsKept d d') : Registered d' p := by
  refine ⟨?_, ?_⟩
  · rw [hkept.patchPanels]
    exact h.definition
  · rw [hkept.workflowVersions]
    exact h.version

/-- A registration keeps the rows of versions that were there. -/
theorem Registers.version_kept {d d' : Tables} {q : PatchPanel} {t : Instant}
    (h : PostgresCardRuntime.Registers d d' q t) {k : String} {v : WorkflowVersion}
    (hv : d.workflowVersions.get? k = some v) : d'.workflowVersions.get? k = some v := by
  rw [h.workflowVersions]
  split
  · exact hv
  · rename_i hnew
    rw [Dict.get?_set_ne]
    · exact hv
    · rintro rfl
      exact hnew (Dict.contains_of_get? hv)

theorem Registers.row_kept {d d' : Tables} {q : PatchPanel} {t : Instant}
    (h : PostgresCardRuntime.Registers d d' q t) {k : String × String} {row : Stamped PatchPanel}
    (hrow : d.patchPanels.get? k = some row) : d'.patchPanels.get? k = some row := by
  rw [h.patchPanels]
  split
  · exact hrow
  · rename_i hnew
    rw [Dict.get?_set_ne]
    · exact hrow
    · rintro rfl
      exact hnew (Dict.contains_of_get? hrow)

/-- The rows of versions after a registration: those before, and perhaps that of the panel. -/
theorem Registers.version_cases {d d' : Tables} {q : PatchPanel} {t : Instant}
    (h : PostgresCardRuntime.Registers d d' q t) {k : String} {v : WorkflowVersion}
    (hv : d'.workflowVersions.get? k = some v) :
    d.workflowVersions.get? k = some v ∨ k = q.workflowVersion ∧ v = ⟨q.id, q.version, true, t⟩ := by
  rw [h.workflowVersions] at hv
  split at hv
  · exact .inl hv
  · rw [Dict.get?_set] at hv
    split at hv
    · rename_i hk
      exact .inr ⟨hk, (Option.some.inj hv).symm⟩
    · exact .inl hv

theorem Registers.row_cases {d d' : Tables} {q : PatchPanel} {t : Instant}
    (h : PostgresCardRuntime.Registers d d' q t) {k : String × String} {row : Stamped PatchPanel}
    (hrow : d'.patchPanels.get? k = some row) :
    d.patchPanels.get? k = some row ∨ k = (q.id, q.version) ∧ row = ⟨q, t⟩ := by
  rw [h.patchPanels] at hrow
  split at hrow
  · exact .inl hrow
  · rw [Dict.get?_set] at hrow
    split at hrow
    · rename_i hk
      exact .inr ⟨hk, (Option.some.inj hrow).symm⟩
    · exact .inl hrow

/-- A panel without a rival becomes the one that its id stands for. -/
theorem Registers.registered {d d' : Tables} {q : PatchPanel} {t : Instant}
    (h : PostgresCardRuntime.Registers d d' q t) (hsole : SoleVersion d q) : Registered d' q where
  definition := by
    cases hrow : d.patchPanels.get? (q.id, q.version) with
    | some row => exact ⟨row, Registers.row_kept h hrow, hsole.definition row hrow⟩
    | none =>
      refine ⟨⟨q, t⟩, ?_, rfl⟩
      rw [h.patchPanels, if_neg (by simp [Dict.contains, hrow]), Dict.get?_set_self]
  version := by
    cases hv : d.workflowVersions.get? q.workflowVersion with
    | some v => exact ⟨v, Registers.version_kept h hv, hsole.name v hv⟩
    | none =>
      refine ⟨⟨q.id, q.version, true, t⟩, ?_, rfl, rfl⟩
      rw [h.workflowVersions, if_neg (by simp [Dict.contains, hv]), Dict.get?_set_self]

/-- The step lemma for a registration. -/
theorem PublishedState.registers {m : Machine ShadowedTables} {q : PatchPanel} {t : Instant}
    (hσ : PublishedState σ) (hsole : SoleVersion σ.tables q)
    (h : PostgresCardRuntime.Registers σ.tables m.store.tables q t) :
    PublishedState ⟨m, q :: σ.registered⟩ where
  versions k v hv := by
    rcases Registers.version_cases h hv with hv | ⟨rfl, rfl⟩
    · exact hσ.versions k v hv
    · exact ⟨rfl, rfl⟩
  rows k row hrow := by
    rcases Registers.row_cases h hrow with hrow | ⟨rfl, rfl⟩
    · exact hσ.rows k row hrow
    · rfl
  single k v k' v' hv hv' hid := by
    -- A row of the same id has the version of the panel, so also its name.
    have hname : ∀ {x y}, σ.tables.workflowVersions.get? x = some y → y.patchPanelId = q.id →
        x = q.workflowVersion := by
      intro x y hy hyid
      rw [(hσ.versions x y hy).2, hyid, hsole.versions x y hy hyid]
      rfl
    rcases Registers.version_cases h hv with hv | ⟨rfl, rfl⟩
    · rcases Registers.version_cases h hv' with hv' | ⟨rfl, rfl⟩
      · exact hσ.single k v k' v' hv hv' hid
      · exact hname hv hid
    · rcases Registers.version_cases h hv' with hv' | ⟨rfl, rfl⟩
      · exact (hname hv' hid.symm).symm
      · rfl
  current p hp := by
    change (q :: σ.registered).find? (fun x => x.id = p.id) = some p at hp
    rw [List.find?_cons] at hp
    split at hp
    · cases hp
      exact Registers.registered h hsole
    · obtain ⟨⟨row, hrow, hbucket⟩, v, hv, hid, hversion⟩ := hσ.current p hp
      exact ⟨⟨row, Registers.row_kept h hrow, hbucket⟩, v, Registers.version_kept h hv, hid, hversion⟩

/-- The step lemma for the other calls. -/
theorem PublishedState.keeps {m : Machine ShadowedTables} (hσ : PublishedState σ)
    (hkept : PanelsKept σ.tables m.store.tables) : PublishedState ⟨m, σ.registered⟩ where
  versions := by
    change ∀ k v, m.store.tables.workflowVersions.get? k = some v → _
    rw [hkept.workflowVersions]
    exact hσ.versions
  rows := by
    change ∀ k row, m.store.tables.patchPanels.get? k = some row → _
    rw [hkept.patchPanels]
    exact hσ.rows
  single := by
    change ∀ k v k' v', m.store.tables.workflowVersions.get? k = some v →
      m.store.tables.workflowVersions.get? k' = some v' → _
    rw [hkept.workflowVersions]
    exact hσ.single
  current p hp := (hσ.current p hp).of_kept hkept

theorem PublishedState.step {a : PublishCall} (hσ : PublishedState σ) (ha : σ.keepsVersions a) :
    PublishedState (σ.step engine w a) := by
  unfold PublishState.step
  rcases hrun : (a.run engine).run w σ.machine with ⟨r, m⟩
  rcases PublishCall.run_cases hrun with ⟨hkept, hnone⟩ | ⟨rfl, p, t, hp, hregisters⟩
  · cases r with
    | error e => exact hσ.keeps hkept
    | ok u =>
      rcases hnone with hnone | ⟨e, he⟩
      · simp only [hnone]
        exact hσ.keeps hkept
      · cases he
  · simp only [hp]
    exact hσ.registers (ha p hp) hregisters

/-- The active definitions of a current panel are its own. -/
theorem PublishedState.activeDefinitions (hσ : PublishedState σ) {p : PatchPanel}
    (hp : σ.current p) :
    (∀ q ∈ PostgresCardRuntime.activeDefinitions σ.tables p.id,
      q.workflowVersion = p.workflowVersion ∧ resolveInitialBucket q = resolveInitialBucket p) ∧
    PostgresCardRuntime.activeDefinitions σ.tables p.id ≠ [] := by
  obtain ⟨⟨row, hrow, hbucket⟩, v, hv, hid, hversion⟩ := hσ.current p hp
  have hkey := hσ.rows _ _ hrow
  rw [Prod.mk.injEq] at hkey
  constructor
  · intro q hq
    obtain ⟨row', hrow', rfl⟩ := List.mem_map.mp hq
    rw [List.mem_filter, Bool.and_eq_true, decide_eq_true_eq, List.any_eq_true] at hrow'
    obtain ⟨hmem, hname, v', hv', hactive⟩ := hrow'
    simp only [Bool.and_eq_true, decide_eq_true_eq] at hactive
    obtain ⟨k, hk⟩ := (Dict.mem_values_iff _ _).mp hv'
    obtain ⟨k', hk'⟩ := (Dict.mem_values_iff _ _).mp hmem
    have hsame : k = p.workflowVersion :=
      hσ.single k v' _ v hk hv ((hactive.1.2.trans hname).trans hid.symm)
    rw [hsame, hv] at hk
    cases hk
    have hrowkey := hσ.rows _ _ hk'
    have hsamekey : k' = (p.id, p.version) := by
      rw [← hrowkey, hname, ← hactive.2, hversion]
    rw [hsamekey, hrow] at hk'
    cases hk'
    refine ⟨?_, hbucket⟩
    rw [PatchPanel.workflowVersion, PatchPanel.workflowVersion, hkey.1, hkey.2]
  · apply List.ne_nil_of_mem
    refine List.mem_map.mpr ⟨row, List.mem_filter.mpr ⟨Dict.mem_values_of_get? hrow, ?_⟩, rfl⟩
    rw [Bool.and_eq_true, decide_eq_true_eq, List.any_eq_true]
    refine ⟨hkey.1, v, Dict.mem_values_of_get? hv, ?_⟩
    simp only [Bool.and_eq_true, decide_eq_true_eq]
    exact ⟨⟨(hσ.versions _ _ hv).1, hid.trans hkey.1.symm⟩, hversion.trans hkey.2.symm⟩

theorem memory_createdFrom {p : PatchPanel} {payload : JsonObj} {metadata : Option JsonObj}
    {key : Option String} {m : Machine InMemoryCardRuntime}
    (hpanel : m.store.patchPanels.get? p.id = some p) (hkey : m.store.cached key = none) :
    CreatedFrom p ((InMemoryCardRuntime.runtime.createCard p.id payload metadata key).run w m).1 := by
  change CreatedFrom p ((InMemoryCardRuntime.createCard p.id payload metadata key).run w m).1
  rw [InMemoryCardRuntime.createCard, InMemoryCardRuntime.run_idempotent, hkey]
  simp only
  rw [Exec.run_bind, InMemoryCardRuntime.run_getPatchPanel, hpanel]
  simp only
  rw [Exec.run_bind, Op.run_ofExcept]
  unfold CreatedFrom
  cases resolveInitialBucket p with
  | error e => rfl
  | ok bucket => exact ⟨_, rfl, rfl, rfl⟩

theorem PublishedState.takesEffect (hσ : PublishedState σ) : TakesEffect engine w σ where
  single k v k' v' hv hv' _ _ hid := hσ.single k v k' v' hv hv' hid
  postgres p hp payload metadata key ticks draws hkey hunused := by
    obtain ⟨hall, hne⟩ := hσ.activeDefinitions hp
    cases hrows : engine.rows σ.tables
        (PostgresCardRuntime.activeDefinitions σ.tables p.id) with
    | nil =>
      have hperm := engine.rows_perm σ.tables
        (PostgresCardRuntime.activeDefinitions σ.tables p.id)
      rw [hrows] at hperm
      exact absurd hperm.nil_eq.symm hne
    | cons q qs =>
      have hq : q ∈ PostgresCardRuntime.activeDefinitions σ.tables p.id := by
        rw [← Engine.mem_rows engine σ.tables, hrows]
        exact List.mem_cons_self
      obtain ⟨hversion, hbucket⟩ := hall q hq
      unfold CreatedFrom
      cases hres : resolveInitialBucket p with
      | error e =>
        rw [hres] at hbucket
        exact PostgresCardRuntime.createCard_raises engine hkey hrows hbucket
      | ok bucket =>
        rw [hres] at hbucket
        exact ⟨_, PostgresCardRuntime.createCard_returns engine hkey hunused hrows hbucket,
          hversion, rfl⟩
  memory p hp payload metadata key m hpanel hkey := memory_createdFrom hpanel hkey

/-- Whenever no call of the run registers a second version, promotion takes effect in
every state that the run reaches. -/
theorem promotion_takes_effect (engine : Engine) (w : World) (shadow : ShadowStore)
    (calls : List PublishCall)
    (hcalls : Permitted (PublishState.step engine w) PublishState.keepsVersions
      (.start shadow) calls) :
    TakesEffect engine w (calls.foldl (PublishState.step engine w) (.start shadow)) := by
  have hstate : PublishedState (calls.foldl (PublishState.step engine w) (.start shadow)) :=
    hcalls.reaches.invariant (.start shadow) fun _ _ hσ ha => hσ.step ha
  exact hstate.takesEffect

end Invariant

theorem promotion_takes_effect_first :
    TakesEffect .simple .simple
      ([.registerPatchPanel (PatchPanelValidator.linePanel "orders" "1"),
        .createCard "orders" [] none none].foldl
        (PublishState.step .simple .simple) (.start .init)) := by
  have hfirst : (PublishState.start .init).keepsVersions
      (.registerPatchPanel (PatchPanelValidator.linePanel "orders" "1")) := by
    rintro p ⟨⟩
    constructor
    · intro k v hv
      cases hv
    · intro row hrow
      cases hrow
    · intro v hv
      cases hv
  refine promotion_takes_effect .simple .simple .init _ ⟨hfirst, ?_, trivial⟩
  intro p hp
  cases hp

/-- The first version is registered, then a second one promoted. -/
def promotedCalls : List PublishCall :=
  [.registerPatchPanel (PatchPanelValidator.linePanel "orders" "1"),
    .proposeMutation "workflow" "designer" [],
    .validateMutation ⟨0⟩ true "reviewer" none,
    .promoteMutation ⟨0⟩ (PatchPanelValidator.linePanel "orders" "2")]

/-- Both versions stay active after the promotion. -/
theorem promotion_leaves_both_active :
    ¬ ∀ (engine : Engine) (w : World) (shadow : ShadowStore) (calls : List PublishCall),
      TakesEffect engine w (calls.foldl (PublishState.step engine w) (.start shadow)) := by
  intro h
  have hsingle := (h .simple .simple .init promotedCalls).single
  have hrow : ∀ k ∈ ["orders:1", "orders:2"], ((promotedCalls.foldl
      (PublishState.step .simple .simple) (.start .init)).tables.workflowVersions.get? k).map
        (fun v => (v.patchPanelId, v.active)) = some ("orders", true) := by decide +kernel
  obtain ⟨v, hv, hfirst⟩ := Option.map_eq_some_iff.mp (hrow "orders:1" (by simp))
  obtain ⟨v', hv', hsecond⟩ := Option.map_eq_some_iff.mp (hrow "orders:2" (by simp))
  rw [Prod.mk.injEq] at hfirst hsecond
  have hkeys := hsingle _ _ _ _ hv hv' hfirst.2 hsecond.2 (hfirst.1.trans hsecond.1.symm)
  exact absurd hkeys (by decide)

end GhostMesh
