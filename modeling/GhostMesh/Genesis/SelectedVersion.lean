import GhostMesh.Bootstrap.Backends
import GhostMesh.Genesis.Runs

/-!
# The version that a launch takes

A registry entry names a panel and a version, a card creation only the panel. The card of
a launch has the entry's version exactly if that is the version of the definition that the
runtime takes for the panel, or of the card that is recorded under the launch's key.
-/

set_option autoImplicit false

namespace GhostMesh

open Op
open Exec (bind_ok)
open ReadCommitted (Txn)

/-- The version string of the panel that the entry is about. -/
def PatchPanelRegistryEntry.workflowVersion (e : PatchPanelRegistryEntry) : String :=
  s!"{e.patchPanelId}:{e.version}"

section Registries
variable {σ : Type} {w : World}

theorem PostgresPatchPanelRegistry.run_getTx (id : Uuid) (m : Machine AuthorityTables) :
    (Op.committed (getTx id)).run w m =
      (match m.store.patchPanelRegistryEntries.get? id with
        | some e => .ok e
        | none => .error (.notFound s!"Patch Panel registry entry '{id.str}' does not exist"),
        m) := by
  have halone : (getTx id).aloneOn w.authoritySupply m.store m.ticks m.draws =
      (match m.store.patchPanelRegistryEntries.get? id with
        | some e => .ok e
        | none => .error (.notFound s!"Patch Panel registry entry '{id.str}' does not exist"),
        m.store, m.ticks, m.draws) := by
    change (match m.store.patchPanelRegistryEntries.get? id with
      | some e => Txn.ret e
      | none => Txn.raise (.notFound s!"Patch Panel registry entry '{id.str}' does not exist") :
        AuthorityTx _).aloneOn _ _ _ _ = _
    cases m.store.patchPanelRegistryEntries.get? id <;> rfl
  simp only [Op.committed, Txn.alone, halone]
  cases m.store.patchPanelRegistryEntries.get? id <;> rfl

/-- Both registries look entries up alike. -/
theorem createRegistry_gets (registry : RegistryBackend σ) :
    (createRegistry registry).Gets registry.entries := by
  intro w m id
  cases registry with
  | memory store =>
    change (Op.on store (InMemoryPatchPanelRegistry.get id)).run w m = _
    rw [Op.run_on, InMemoryPatchPanelRegistry.run_registryGet]
    simp only [store.put_get]
    rfl
  | postgres engine store =>
    change (Op.on store (Op.committed (PostgresPatchPanelRegistry.getTx id))).run w m = _
    rw [Op.run_on, PostgresPatchPanelRegistry.run_getTx]
    simp only [store.put_get]
    rfl

end Registries

/-! ## The version that a creation takes -/

section Versions
variable {σ : Type} {w : World}

/-- A creation can place a card on the definition. -/
def PatchPanel.Places (p : PatchPanel) : Prop := ∃ bucket, resolveInitialBucket p = .ok bucket

/-- Under the key and on the panel, the runtime has the version to offer: it is that of the
card recorded under the key or, where nothing is recorded, of the definition that stands
for the panel. -/
def RuntimeBackend.Offers (s : σ) (panel key version : String) : RuntimeBackend σ → Prop
  | memory store =>
    match (store.get s).cached (some key) with
    | some v => ∀ c, v = .card c → c.workflowVersion = version
    | none => ∀ p, (store.get s).patchPanels.get? panel = some p → p.Places →
        p.workflowVersion = version
  | postgres engine store =>
    match PostgresCardRuntime.recorded (store.get s) (some key) with
    | some ref => ∀ id c, ref = .card id → (store.get s).cards.get? id = some c →
        c.workflowVersion = version
    | none => ∀ p ps, engine.rows (store.get s)
        (PostgresCardRuntime.activeDefinitions (store.get s) panel) = p :: ps → p.Places →
          p.workflowVersion = version

/-- Under a new key the runtime offers its definition of the panel. -/
theorem RuntimeBackend.offers_of_new {store : Component σ InMemoryCardRuntime} {s : σ}
    {panel key version : String} (hkey : (store.get s).cached (some key) = none)
    (hpanel : ∀ p, (store.get s).patchPanels.get? panel = some p → p.workflowVersion = version) :
    (RuntimeBackend.memory store).Offers s panel key version := by
  unfold Offers
  simp only [hkey]
  exact fun p hp _ => hpanel p hp

/-- The next identifiers are in none of the tables, so that nothing keeps a creation from
its insertions. -/
def RuntimeBackend.Fresh (w : World) (m : Machine σ) : RuntimeBackend σ → Prop
  | memory _ => True
  | postgres _ store => PostgresCardRuntime.Unused w m.draws (store.get m.store)

/-- A creation in memory answers with the version on offer. -/
theorem memory_version_iff {store : Component σ InMemoryCardRuntime} {m : Machine σ}
    {panel key version : String} {payload : JsonObj} {metadata : Option JsonObj} :
    (∀ c, (((createRuntime (.memory store)).createCard panel payload metadata (some key)).run
        w m).1 = .ok c → c.workflowVersion = version) ↔
      (RuntimeBackend.memory store).Offers m.store panel key version := by
  have hreturns : ∀ c, (((createRuntime (.memory store)).createCard panel payload metadata
      (some key)).run w m).1 = .ok c ↔ _ := fun c => InMemoryCardRuntime.createCard_returns_iff
    (w := w) (m := ⟨store.get m.store, m.ticks, m.draws⟩) payload metadata
  simp only [hreturns]
  unfold RuntimeBackend.Offers
  dsimp only
  cases hkey : (store.get m.store).cached (some key) with
  | some v => simp
  | none =>
    dsimp only
    constructor
    · rintro h p hp ⟨bucket, hbucket⟩
      exact h _ (.inr ⟨rfl, p, bucket, hp, hbucket, rfl⟩)
    · rintro h c (hcached | ⟨-, p, bucket, hp, hbucket, rfl⟩)
      · cases hcached
      · exact h p hp ⟨bucket, hbucket⟩

/-- A transaction returns what its statements return. -/
theorem atomically_ok {α : Type} {x : Tx α} {m : Machine Tables} {a : α}
    (h : ((atomically x).run w m).1 = .ok a) : ∃ m', (inside x).run w m = (.ok a, m') := by
  rw [Op.atomically_run] at h
  rcases hrun : (inside x).run w m with ⟨r, m'⟩
  rw [hrun] at h
  cases r with
  | error e => cases h
  | ok b =>
    cases h
    exact ⟨m', rfl⟩

/-- The rest of a transaction after a statement that has returned. -/
theorem inside_bind_ok {α β : Type} {x : Tx α} {f : α → Tx β} {m m' : Machine Tables} {b : β}
    (h : (inside (x >>= f)).run w m = (.ok b, m')) :
    ∃ a m₁, (inside x).run w m = (.ok a, m₁) ∧ (inside (f a)).run w m₁ = (.ok b, m') := by
  rw [Op.inside_bind] at h
  obtain ⟨a, m₁, hx, hf⟩ := bind_ok h
  · exact ⟨a, m₁, hx, hf⟩

/-- A creation in Postgres that returns has found its key, or has taken the first of the
panel's active definitions. -/
theorem PostgresCardRuntime.createCard_ok {engine : Engine} {m : Machine Tables} {panel : String}
    {payload : JsonObj} {metadata : Option JsonObj} {key : Option String} {c : Card}
    (h : (((runtime engine).createCard panel payload metadata key).run w m).1 = .ok c) :
    (∃ id, recorded m.store key = some (.card id) ∧ m.store.cards.get? id = some c) ∨
    recorded m.store key = none ∧ ∃ p ps,
      engine.rows m.store (activeDefinitions m.store panel) = p :: ps ∧ p.Places ∧
      c.workflowVersion = p.workflowVersion := by
  obtain ⟨m', hrun⟩ := atomically_ok (x := createCard engine panel payload metadata key) h
  rw [createCard, run_idempotent] at hrun
  cases hkey : recorded m.store key with
  | some ref =>
    simp only [hkey] at hrun
    cases ref with
    | card id =>
      simp only [cachedCard, run_getCard] at hrun
      cases hget : m.store.cards.get? id with
      | some c' =>
        rw [hget] at hrun
        cases hrun
        exact .inl ⟨id, rfl, hget⟩
      | none =>
        rw [hget] at hrun
        cases hrun
    | _ => cases hrun
  | none =>
    refine .inr ⟨rfl, ?_⟩
    simp only [hkey] at hrun
    obtain ⟨p, m₁, hpanel, hrun⟩ := inside_bind_ok hrun
    rw [run_getActivePatchPanel] at hpanel
    cases hrows : engine.rows m.store (activeDefinitions m.store panel) with
    | nil =>
      rw [hrows] at hpanel
      cases hpanel
    | cons q ps =>
      rw [hrows] at hpanel
      cases hpanel
      obtain ⟨bucket, m₂, hbucket, hrun⟩ := inside_bind_ok hrun
      rw [Op.inside_ofExcept, Op.run_ofExcept] at hbucket
      obtain ⟨hplaces, rfl⟩ := Prod.mk.inj hbucket
      refine ⟨p, ps, rfl, ⟨bucket, hplaces⟩, ?_⟩
      rw [Op.run_ident, Op.run_clock] at hrun
      obtain ⟨_, m₃, -, hrun⟩ := inside_bind_ok hrun
      rw [Op.run_ident] at hrun
      obtain ⟨_, m₄, -, hrun⟩ := inside_bind_ok hrun
      obtain ⟨e, m₅, -, hrun⟩ := inside_bind_ok hrun
      obtain ⟨_, m₆, -, hrun⟩ := inside_bind_ok hrun
      obtain ⟨_, m₇, -, hrun⟩ := inside_bind_ok hrun
      cases hrun
      rfl

/-- A creation in Postgres answers with the version on offer, and on fresh identifiers with
no other. -/
theorem postgres_version {engine : Engine} {store : Component σ Tables} {m : Machine σ}
    {panel key version : String} {payload : JsonObj} {metadata : Option JsonObj} :
    ((RuntimeBackend.postgres engine store).Offers m.store panel key version → ∀ c,
      (((createRuntime (.postgres engine store)).createCard panel payload metadata (some key)).run
        w m).1 = .ok c → c.workflowVersion = version) ∧
    ((RuntimeBackend.postgres engine store).Fresh w m → (∀ c,
      (((createRuntime (.postgres engine store)).createCard panel payload metadata (some key)).run
        w m).1 = .ok c → c.workflowVersion = version) →
      (RuntimeBackend.postgres engine store).Offers m.store panel key version) := by
  unfold RuntimeBackend.Offers
  constructor
  · intro hoffers c hc
    rcases PostgresCardRuntime.createCard_ok (m := ⟨store.get m.store, m.ticks, m.draws⟩) hc with
      ⟨id, hkey, hget⟩ | ⟨hkey, p, ps, hrows, hplaces, hversion⟩
    · simp only [hkey] at hoffers
      exact hoffers id c rfl hget
    · simp only [hkey] at hoffers
      rw [hversion]
      exact hoffers p ps hrows hplaces
  · intro hfresh hversion
    cases hkey : PostgresCardRuntime.recorded (store.get m.store) (some key) with
    | some ref =>
      simp only [hkey]
      rintro id c rfl hget
      apply hversion c
      change ((atomically (PostgresCardRuntime.createCard engine panel payload metadata
        (some key))).run w ⟨store.get m.store, m.ticks, m.draws⟩).1 = .ok c
      rw [Op.atomically_run, PostgresCardRuntime.createCard, PostgresCardRuntime.run_idempotent,
        hkey]
      simp only [PostgresCardRuntime.cachedCard, PostgresCardRuntime.run_getCard, hget]
    | none =>
      simp only [hkey]
      rintro p ps hrows ⟨bucket, hbucket⟩
      exact hversion _ (PostgresCardRuntime.createCard_returns engine
        (m := ⟨store.get m.store, m.ticks, m.draws⟩) hkey hfresh hrows hbucket)

end Versions

/-! ## Launches -/

section Launches
variable {σ : Type} (runtime : RuntimeBackend σ) (registry : RegistryBackend σ)
  (store : Component σ GenesisStore) (w : World)

def createGenesisService : GenesisService σ :=
  ⟨createRuntime runtime, createRegistry registry, store⟩

/-- A card that the launch returns has the version of the entry that it is for. -/
def LaunchesSelected (m : Machine σ) (intentId : Uuid) (registryEntryId : Option Uuid) : Prop :=
  ∀ card, (((createGenesisService runtime registry store).launch intentId registryEntryId).run
      w m).1 = .ok card →
    ∃ intent entry, (createGenesisService runtime registry store).Selects registry.entries m.store
      intentId registryEntryId intent entry ∧ card.workflowVersion = entry.workflowVersion

/-- The runtime has the version of the entry to offer under the key of the launch. -/
def OffersSelected (s : σ) (intentId : Uuid) (registryEntryId : Option Uuid) : Prop :=
  ∀ intent entry, (createGenesisService runtime registry store).Selects registry.entries s intentId
      registryEntryId intent entry →
    runtime.Offers s entry.patchPanelId (GenesisService.launchKey intent entry)
      entry.workflowVersion

/-- An operation on the stores: a launch, or any other one. -/
inductive StoreCall (σ : Type) where
  | launch (intentId : Uuid) (registryEntryId : Option Uuid)
  | other (x : Op σ Unit)

/-- The machine after the operation, whether it returned or raised. -/
def StoreCall.step (m : Machine σ) : StoreCall σ → Machine σ
  | launch intentId registryEntryId =>
    (((createGenesisService runtime registry store).launch intentId registryEntryId).run w m).2
  | other x => (x.run w m).2

/-- What a call meets whose launch, if it is one, is offered the version it selects. -/
def StoreCall.Offered (m : Machine σ) : StoreCall σ → Prop
  | launch intentId registryEntryId =>
    OffersSelected runtime registry store m.store intentId registryEntryId
  | other _ => True

variable {runtime registry store w}

theorem launchesSelected_of_offers {m : Machine σ} {intentId : Uuid}
    {registryEntryId : Option Uuid}
    (h : OffersSelected runtime registry store m.store intentId registryEntryId) :
    LaunchesSelected runtime registry store w m intentId registryEntryId := by
  intro card hcard
  obtain ⟨intent, entry, hselects, hcard⟩ :=
    (GenesisService.launch_returns_iff (createRegistry_gets registry)).mp hcard
  refine ⟨intent, entry, hselects, ?_⟩
  have hoffers := h intent entry hselects
  cases runtime with
  | memory c => exact memory_version_iff.mpr hoffers card hcard
  | postgres engine c => exact postgres_version.1 hoffers card hcard

theorem LaunchesSelected.offers {m : Machine σ} {intentId : Uuid} {registryEntryId : Option Uuid}
    (h : LaunchesSelected runtime registry store w m intentId registryEntryId)
    (hfresh : runtime.Fresh w m) :
    OffersSelected runtime registry store m.store intentId registryEntryId := by
  intro intent entry hselects
  have hversion : ∀ card, (((createGenesisService runtime registry store).launchCard intent
      entry).run w m).1 = .ok card → card.workflowVersion = entry.workflowVersion := by
    intro card hcard
    obtain ⟨intent', entry', hselects', hsame⟩ := h card
      ((GenesisService.launch_returns_iff (createRegistry_gets registry)).mpr
        ⟨intent, entry, hselects, hcard⟩)
    obtain ⟨rfl, rfl⟩ := hselects.unique hselects'
    exact hsame
  cases runtime with
  | memory c => exact memory_version_iff.mp hversion
  | postgres engine c => exact postgres_version.2 hfresh hversion

end Launches

/-- Over any run on any stores: where every launch is offered the version it selects, each
launch takes it; and on fresh identifiers no other launches do. -/
theorem launches_selected_iff {σ : Type} (runtime : RuntimeBackend σ)
    (registry : RegistryBackend σ) (store : Component σ GenesisStore) (w : World) (m : Machine σ)
    (calls : List (StoreCall σ)) :
    (Permitted (StoreCall.step runtime registry store w) (StoreCall.Offered runtime registry store)
        m calls →
      ∀ before intentId registryEntryId after,
        calls = before ++ .launch intentId registryEntryId :: after →
        LaunchesSelected runtime registry store w
          (before.foldl (StoreCall.step runtime registry store w) m) intentId registryEntryId) ∧
    (Permitted (StoreCall.step runtime registry store w) (fun m _ => runtime.Fresh w m) m calls →
      (∀ before intentId registryEntryId after,
        calls = before ++ .launch intentId registryEntryId :: after →
        LaunchesSelected runtime registry store w
          (before.foldl (StoreCall.step runtime registry store w) m) intentId registryEntryId) →
      Permitted (StoreCall.step runtime registry store w)
        (StoreCall.Offered runtime registry store) m calls) := by
  constructor
  · intro h before intentId registryEntryId after hcalls
    exact launchesSelected_of_offers (Permitted.iff_steps.mp h before _ after hcalls)
  · intro hfresh h
    rw [Permitted.iff_steps] at hfresh ⊢
    intro before call after hcalls
    cases call with
    | launch intentId registryEntryId =>
      exact (h before intentId registryEntryId after hcalls).offers (hfresh before _ after hcalls)
    | other x => trivial

/-! An entry for the first version of a panel, of which a second one is registered. -/

def firstVersionEntry : PatchPanelRegistryEntry :=
  ⟨⟨100⟩, "orders", "1", "Orders", none, [], [], [], [], [], none, none, none, none, .published,
    none, [], 0, 0, none⟩

def ordersRequest : ReceiveIntent :=
  ⟨"agent", "intent-1", "process orders", "order", [], [], ⟨none, none, false, []⟩, true, false, []⟩

/-- The panel in each of the versions, the entry, an intent, and a launch. -/
def versionCalls (versions : List String) : List (StoreCall App) :=
  versions.map (fun version => .other do
    let _ ← App.cardRuntime.registerPatchPanel (PatchPanelValidator.linePanel "orders" version)
    return ()) ++
  [.other do
      let _ ← App.patchPanelRegistry.register firstVersionEntry
      return (),
    .other do
      let _ ← App.genesisService.receiveIntent ordersRequest
      return (),
    .launch ⟨0⟩ (some ⟨100⟩)]

def runVersions (calls : List (StoreCall App)) : Machine App :=
  calls.foldl (StoreCall.step (.memory App.runtimeStore) (.memory App.registryStore)
    App.genesisStore .simple) ⟨App.init, 0, 0⟩

/-- A launch for the entry can only have the version that the entry names. -/
theorem firstVersion_selected {s : App} (hentry : (s.registry.entries.get? ⟨100⟩).map
    (·.workflowVersion) = some "orders:1") {intent : GenesisIntent}
    {entry : PatchPanelRegistryEntry} (h : (createGenesisService (.memory App.runtimeStore)
      (.memory App.registryStore) App.genesisStore).Selects
        (RegistryBackend.memory App.registryStore).entries s ⟨0⟩ (some ⟨100⟩) intent entry) :
    entry.workflowVersion = "orders:1" := by
  obtain ⟨selected, hselected, hget⟩ := h.chosen
  cases hselected
  rw [show s.registry.entries.get? ⟨100⟩ = some entry from hget] at hentry
  exact Option.some.inj hentry

theorem second_version_launched : ¬ ∀ before intentId registryEntryId after,
    versionCalls ["1", "2"] = before ++ .launch intentId registryEntryId :: after →
    LaunchesSelected (.memory App.runtimeStore) (.memory App.registryStore) App.genesisStore .simple
      (runVersions before) intentId registryEntryId := by
  intro h
  have hlaunch := h ((versionCalls ["1", "2"]).take 4) ⟨0⟩ (some ⟨100⟩) [] rfl
  have hcard : ((((createGenesisService (.memory App.runtimeStore) (.memory App.registryStore)
      App.genesisStore).launch ⟨0⟩ (some ⟨100⟩)).run .simple
        (runVersions ((versionCalls ["1", "2"]).take 4))).1.toOption.map
          (·.workflowVersion)) = some "orders:2" := by decide +kernel
  have hentry : ((runVersions ((versionCalls ["1", "2"]).take 4)).store.registry.entries.get?
      ⟨100⟩).map (·.workflowVersion) = some "orders:1" := by decide +kernel
  obtain ⟨card, hok, hversion⟩ := Exec.run_ok_of_toOption hcard
  obtain ⟨intent, entry, hselects, hsame⟩ := hlaunch card (congrArg Prod.fst hok)
  rw [hversion, firstVersion_selected hentry hselects] at hsame
  exact absurd hsame (by decide)

/-- With the first version alone, the launch is offered what it selects. -/
theorem firstVersion_offered : OffersSelected (.memory App.runtimeStore)
    (.memory App.registryStore) App.genesisStore
      (runVersions ((versionCalls ["1"]).take 3)).store ⟨0⟩ (some ⟨100⟩) := by
  intro intent entry hselects
  have hentry : ((runVersions ((versionCalls ["1"]).take 3)).store.registry.entries.get?
      ⟨100⟩).map (·.workflowVersion) = some "orders:1" := by decide +kernel
  have hpanels : (runVersions ((versionCalls ["1"]).take 3)).store.runtime.patchPanels.values.all
      (·.workflowVersion = "orders:1") = true := by decide +kernel
  have hkeys : (runVersions ((versionCalls ["1"]).take 3)).store.runtime.idempotency.keys = [] := by
    decide +kernel
  rw [firstVersion_selected hentry hselects]
  refine RuntimeBackend.offers_of_new ?_ fun p hp =>
    of_decide_eq_true (List.all_eq_true.mp hpanels p (Dict.mem_values_of_get? hp))
  have hget : ∀ k, (runVersions ((versionCalls ["1"]).take 3)).store.runtime.idempotency.get? k =
      none := by
    intro k
    rw [Dict.get?_eq_none_iff, hkeys]
    exact List.not_mem_nil
  change (Option.bind _ (runVersions _).store.runtime.idempotency.get?).filter _ = none
  cases truthyStr (some (GenesisService.launchKey intent entry)) with
  | none => rfl
  | some k => rw [Option.bind_some, hget, Option.filter_none]

theorem launches_selected_single : LaunchesSelected (.memory App.runtimeStore)
    (.memory App.registryStore) App.genesisStore .simple
      (runVersions ((versionCalls ["1"]).take 3)) ⟨0⟩ (some ⟨100⟩) :=
  (launches_selected_iff (.memory App.runtimeStore) (.memory App.registryStore)
    App.genesisStore .simple ⟨App.init, 0, 0⟩ (versionCalls ["1"])).1
      ⟨trivial, trivial, trivial, firstVersion_offered, trivial⟩
      ((versionCalls ["1"]).take 3) ⟨0⟩ (some ⟨100⟩) [] rfl

end GhostMesh
