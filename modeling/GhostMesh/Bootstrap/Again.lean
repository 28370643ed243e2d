import GhostMesh.Bootstrap.Initialize

/-!
# Initializing again

A second initialization registers what the stores do not list, and writes the root
operator's row. It leaves everything alone exactly if they list every configured panel in
its version, and the root operator, if there is one, is active.
-/

set_option autoImplicit false

namespace GhostMesh

open Op
open Exec (bind_ok)
open ReadCommitted (Txn)

/-! ## What the stores list -/

section Lists
variable {σ : Type} {w : World}

def RuntimeBackend.panels : RuntimeBackend σ → σ → List PatchPanel
  | .memory store, s => (store.get s).patchPanels.values
  | .postgres engine store, s =>
    (engine.rows (store.get s) (store.get s).patchPanels.values).map (·.definition)

def RegistryBackend.found : RegistryBackend σ → σ → PatchPanelRegistrySearch →
    List PatchPanelRegistryEntry
  | .memory store, s, filters => (store.get s).entries.values.filter (entryMatches · filters)
  | .postgres engine store, s, filters =>
    (engine.rows (store.get s) (store.get s).patchPanelRegistryEntries.values).filter
      (entryMatches · filters)

def everyEntry : PatchPanelRegistrySearch :=
  { PatchPanelRegistrySearch.any with includeArchived := true, includeSuperseded := true }

theorem createRuntime_lists (runtime : RuntimeBackend σ) (a : Machine σ) :
    (createRuntime runtime).listPatchPanels.run w a = (.ok (runtime.panels a.store), a) := by
  cases runtime with
  | memory store => exact Op.on_read (c := store) (x := InMemoryCardRuntime.listPatchPanels) rfl
  | postgres engine store =>
    exact Op.on_read (c := store)
      (x := Op.atomically (PostgresCardRuntime.listPatchPanels engine)) rfl

theorem createRegistry_finds (registry : RegistryBackend σ) (filters : PatchPanelRegistrySearch)
    (a : Machine σ) : ((createRegistry registry).search filters).run w a =
      (.ok (registry.found a.store filters), a) := by
  rw [run_registrySearch]
  cases registry with
  | memory store => rfl
  | postgres engine store => rfl

/-- A search for everything finds every entry. -/
theorem RegistryBackend.found_any (registry : RegistryBackend σ) (s : σ)
    (p : PatchPanelRegistryEntry → Bool) :
    (registry.found s everyEntry).any p = (registry.entries s).values.any p := by
  have hevery : ∀ e, entryMatches e everyEntry = true := fun _ => rfl
  cases registry with
  | memory store =>
    unfold found entries
    dsimp only
    rw [List.filter_eq_self.mpr fun e _ => hevery e]
  | postgres engine store =>
    unfold found entries
    dsimp only
    rw [List.filter_eq_self.mpr fun e _ => hevery e]
    exact (engine.rows_perm _ _).any_eq

/-! ## The bootstrapper -/

/-- Each configured file loads, and the stores list its panel in its version. -/
def PanelsListed (runtime : RuntimeBackend σ) (registry : RegistryBackend σ) (files : PanelFiles)
    (paths : List String) (s : σ) : Prop :=
  ∀ path ∈ paths, ∃ p, files.loadPatchPanel (files.resolvePath path) = .ok p ∧
    (runtime.panels s).any p.names = true ∧ (registry.entries s).values.any p.entered = true

/-- Nothing is registered for the file. -/
def BootstrapResult.Quiet (result : BootstrapResult) : Prop :=
  result.registeredRuntime = false ∧ result.registeredRegistry = false

section Bootstrap
open SystemWorkflowBootstrapper
variable {runtime : RuntimeBackend σ} {registry : RegistryBackend σ} {files : PanelFiles}
  {path : String} {p : PatchPanel} {a a' : Machine σ}

theorem registerRuntime_listed (h : (runtime.panels a.store).any p.names = true) :
    (registerRuntime (createRuntime runtime) p).run w a = (.ok false, a) := by
  unfold registerRuntime
  rw [Exec.run_bind_ok (createRuntime_lists runtime a), if_pos h]
  rfl

theorem registerRuntime_quiet
    (h : (registerRuntime (createRuntime runtime) p).run w a = (.ok false, a')) :
    (runtime.panels a.store).any p.names = true ∧ a' = a := by
  unfold registerRuntime at h
  rw [Exec.run_bind_ok (createRuntime_lists runtime a)] at h
  split at h
  · rename_i hlisted
    cases h
    exact ⟨hlisted, rfl⟩
  · obtain ⟨q, b, -, h⟩ := bind_ok h
    · cases h

theorem registerRegistry_listed (h : (registry.entries a.store).values.any p.entered = true) :
    (registerRegistry (createRegistry registry) path p).run w a = (.ok false, a) := by
  unfold registerRegistry
  refine (Exec.run_bind_ok (createRegistry_finds registry everyEntry a)).trans ?_
  rw [if_pos]
  · rfl
  · rw [registry.found_any]
    exact h

theorem registerRegistry_quiet
    (h : (registerRegistry (createRegistry registry) path p).run w a = (.ok false, a')) :
    (registry.entries a.store).values.any p.entered = true ∧ a' = a := by
  unfold registerRegistry at h
  replace h := (Exec.run_bind_ok (createRegistry_finds registry everyEntry a)).symm.trans h
  split at h
  · rename_i hlisted
    cases h
    rw [registry.found_any] at hlisted
    exact ⟨hlisted, rfl⟩
  · rw [Exec.run_bind_ok (Op.run_world w a)] at h
    obtain ⟨metadata, b, -, h⟩ := bind_ok h
    obtain ⟨entry, c, -, h⟩ := bind_ok h
    obtain ⟨registered, d, -, h⟩ := bind_ok h
    · cases h

/-- A file whose panel is listed is loaded, and that is all. -/
theorem bootstrapPath_listed (h : PanelsListed runtime registry files [path] a.store) :
    ∃ result : BootstrapResult, result.Quiet ∧ (bootstrapPath (createRuntime runtime)
      (createRegistry registry) files path).run w a = (.ok result, a) := by
  obtain ⟨p, hp, hruntime, hregistry⟩ := h path List.mem_cons_self
  refine ⟨⟨p.id, p.version, false, false⟩, ⟨rfl, rfl⟩, ?_⟩
  have hload : (Op.ofExcept (files.loadPatchPanel (files.resolvePath path)) : Op σ _).run w a =
      (.ok p, a) := by
    rw [Op.run_ofExcept, hp]
  unfold bootstrapPath
  exact (Exec.run_bind_ok hload).trans ((Exec.run_bind_ok (registerRuntime_listed hruntime)).trans
    (Exec.run_bind_ok (registerRegistry_listed hregistry)))

/-- A file for which nothing is registered has a listed panel. -/
theorem listed_of_path {result : BootstrapResult} (hquiet : result.Quiet)
    (h : (bootstrapPath (createRuntime runtime) (createRegistry registry) files path).run w a =
      (.ok result, a')) : PanelsListed runtime registry files [path] a.store := by
  obtain ⟨hruntime, hregistry⟩ := hquiet
  unfold bootstrapPath at h
  obtain ⟨-, e, -, he⟩ | ⟨p, hp, h⟩ := Exec.bind_same (Op.run_ofExcept _ w a) h
  · cases he
  obtain ⟨r, b, hr, h⟩ := bind_ok h
  obtain ⟨g, c, hg, h⟩ := bind_ok h
  cases h
  cases hruntime
  cases hregistry
  obtain ⟨hlisted, rfl⟩ := registerRuntime_quiet hr
  intro path' hpath
  rw [List.mem_singleton.mp hpath]
  exact ⟨p, hp, hlisted, (registerRegistry_quiet hg).1⟩

theorem PanelsListed.cons_iff {paths : List String} {s : σ} :
    PanelsListed runtime registry files (path :: paths) s ↔
      PanelsListed runtime registry files [path] s ∧ PanelsListed runtime registry files paths s := by
  simp [PanelsListed]

/-- The loop over the files, by induction: each file leaves the stores as they were. -/
theorem bootstrap_listed {paths : List String}
    (h : PanelsListed runtime registry files paths a.store) :
    ∃ results : List BootstrapResult, (∀ result ∈ results, result.Quiet) ∧
      (bootstrap (createRuntime runtime) (createRegistry registry) files paths).run w a =
        (.ok results, a) := by
  induction paths with
  | nil => exact ⟨[], by simp, rfl⟩
  | cons path paths ih =>
    obtain ⟨hpath, hpaths⟩ := PanelsListed.cons_iff.mp h
    obtain ⟨result, hquiet, hresult⟩ := bootstrapPath_listed (w := w) hpath
    obtain ⟨results, hquiets, hresults⟩ := ih hpaths
    refine ⟨result :: results, List.forall_mem_cons.mpr ⟨hquiet, hquiets⟩, ?_⟩
    unfold bootstrap
    exact (Exec.run_bind_ok hresult).trans (Exec.run_bind_ok hresults)

/-- The bootstrapper registers nothing exactly if every panel is listed. -/
theorem bootstrap_quiet_iff (paths : List String) :
    (∃ results a', (bootstrap (createRuntime runtime) (createRegistry registry) files paths).run
        w a = (.ok results, a') ∧ ∀ result ∈ results, result.Quiet) ↔
    PanelsListed runtime registry files paths a.store := by
  constructor
  · rintro ⟨results, a', h, hquiet⟩
    induction paths generalizing results a' with
    | nil =>
      intro path hpath
      cases hpath
    | cons path paths ih =>
      unfold bootstrap at h
      obtain ⟨result, b, hpath, h⟩ := bind_ok h
      obtain ⟨more, c, hpaths, h⟩ := bind_ok h
      cases h
      obtain ⟨hresult, hmore⟩ := List.forall_mem_cons.mp hquiet
      have hlisted := listed_of_path hresult hpath
      obtain ⟨result', -, hrun⟩ := bootstrapPath_listed (w := w) hlisted
      cases hpath.symm.trans hrun
      exact PanelsListed.cons_iff.mpr ⟨hlisted, ih more _ hpaths hmore⟩
  · intro h
    obtain ⟨results, hquiet, hrun⟩ := bootstrap_listed (w := w) h
    exact ⟨results, a, hrun, hquiet⟩

end Bootstrap

end Lists

/-! ## The root operator -/

/-- Everything but the roles and grants is as it was. -/
structure RolesOnly (m m' : Machine SystemStores) : Prop where
  runtime : m'.store.runtime = m.store.runtime
  tables : m'.store.tables = m.store.tables
  registry : m'.store.registry = m.store.registry
  participants : m'.store.authorization.participants = m.store.authorization.participants
  rows : m'.store.authorityTables.participants = m.store.authorityTables.participants
  entries : m'.store.authorityTables.patchPanelRegistryEntries =
    m.store.authorityTables.patchPanelRegistryEntries

namespace RolesOnly

theorem of_same {m m' : Machine SystemStores} (h : m'.store = m.store) : RolesOnly m m' := by
  constructor <;> rw [h]

theorem trans {a b c : Machine SystemStores} (hab : RolesOnly a b) (hbc : RolesOnly b c) :
    RolesOnly a c where
  runtime := hbc.runtime.trans hab.runtime
  tables := hbc.tables.trans hab.tables
  registry := hbc.registry.trans hab.registry
  participants := hbc.participants.trans hab.participants
  rows := hbc.rows.trans hab.rows
  entries := hbc.entries.trans hab.entries

/-- A transaction that writes roles and grants only. -/
theorem committed {α : Type} {w : World} {x : AuthorityTx α}
    (hx : x.Writes PostgresAuthorizationRepository.RoleWrite) :
    Exec.Within RolesOnly w (Op.on SystemStores.authorityStore (Op.committed x)) := by
  intro m
  have hkept : ∀ y d, PostgresAuthorizationRepository.RoleWrite y →
      (d.participants = m.store.authorityTables.participants ∧
        d.patchPanelRegistryEntries = m.store.authorityTables.patchPanelRegistryEntries) →
      ((AuthorityWrite.apply d y).participants = m.store.authorityTables.participants ∧
        (AuthorityWrite.apply d y).patchPanelRegistryEntries =
          m.store.authorityTables.patchPanelRegistryEntries) := by
    intro y d hy hd
    cases y with
    | role row => exact hd
    | participantRole row => exact hd
    | permissionGrant row => exact hd
    | _ => cases hy
  obtain ⟨hrows, hentries⟩ := Op.committed_keeps (w := w)
    (m := ⟨m.store.authorityTables, m.ticks, m.draws⟩) hx hkept ⟨rfl, rfl⟩
  rw [Op.run_on]
  exact ⟨rfl, rfl, rfl, rfl, hrows, hentries⟩

/-- A role assignment on either repository. -/
theorem ensureBuiltinRoleAssignment {w : World} (settings : Settings) (participantId : String)
    (role : RoleName) (scope : Scope) (assignedBy : Option String) :
    Exec.Within RolesOnly w (GhostMesh.ensureBuiltinRoleAssignment
      (createAuthorizationRepository settings.repository) participantId role scope assignedBy) := by
  have hsame : ∀ {m m' : Machine SystemStores}, Op.SameStore m m' → RolesOnly m m' :=
    fun h => of_same h.store
  unfold Settings.repository
  cases settings.authorizationRepository with
  | none =>
    refine ensureBuiltinRoleAssignment_within hsame trans ?_ ?_ ?_ ?_
    · exact fun m => of_same rfl
    · exact fun a m => ⟨rfl, rfl, rfl, rfl, rfl, rfl⟩
    · exact fun m => of_same rfl
    · exact fun g m => ⟨rfl, rfl, rfl, rfl, rfl, rfl⟩
  | some engine =>
    refine ensureBuiltinRoleAssignment_within hsame trans ?_ ?_ ?_ ?_
    · exact fun m => of_same rfl
    · exact fun a => committed (PostgresAuthorizationRepository.addRoleAssignment_writes engine a)
    · exact fun m => of_same rfl
    · exact fun g => committed (PostgresAuthorizationRepository.addPermissionGrant_writes engine g)

end RolesOnly

/-- The participants of the repository that the settings choose. -/
def Settings.participants (settings : Settings) (s : SystemStores) : Dict String Participant :=
  match settings.authorizationRepository with
  | none => s.authorization.participants
  | some _ => s.authorityTables.participants

/-- What the seeding of the root operator does to everything but the roles and grants. -/
structure Seeded (w : World) (settings : Settings) (a a' : Machine SystemStores) : Prop where
  runtime : a'.store.runtime = a.store.runtime
  tables : a'.store.tables = a.store.tables
  registry : a'.store.registry = a.store.registry
  entries : a'.store.authorityTables.patchPanelRegistryEntries =
    a.store.authorityTables.patchPanelRegistryEntries
  participants : settings.participants a'.store = (settings.participants a.store).set
    settings.rootParticipantId (rootOperator settings.rootParticipantId (w.clock a.ticks))

/-- Whether the rest of it returns or raises, the root operator is written first. -/
theorem seedRootOperator_seeded (w : World) (settings : Settings) (a : Machine SystemStores) :
    Seeded w settings a ((seedRootOperator (createAuthorizationRepository settings.repository)
      settings.rootParticipantId).run w a).2 := by
  have hrole := RolesOnly.ensureBuiltinRoleAssignment (w := w) settings settings.rootParticipantId
    .admin .globalScope (some settings.rootParticipantId)
  have hrest : Exec.Within RolesOnly w (do
      let _ ← ensureBuiltinRoleAssignment (createAuthorizationRepository settings.repository)
        settings.rootParticipantId .admin .globalScope (some settings.rootParticipantId)
      return () : Op SystemStores Unit) :=
    Exec.Within.bind @RolesOnly.trans hrole fun _ => fun m => RolesOnly.of_same rfl
  unfold seedRootOperator
  rw [Exec.run_bind_ok (Op.run_now w a)]
  generalize hroot : rootOperator settings.rootParticipantId (w.clock a.ticks) = root
  have hid : root.id = settings.rootParticipantId := by
    rw [← hroot]
    rfl
  cases hchoice : settings.authorizationRepository with
  | none =>
    have hbackend : settings.repository = .memory SystemStores.authorizationStore := by
      unfold Settings.repository
      rw [hchoice]
    rw [hbackend] at hrest ⊢
    obtain ⟨hruntime, htables, hregistry, hparticipants, -, hentries⟩ := hrest
      ⟨SystemStores.authorizationStore.put { a.store.authorization with
        participants := a.store.authorization.participants.set root.id root } a.store,
        a.ticks + 1, a.draws⟩
    have hset : a.store.authorization.participants.set root.id root =
        a.store.authorization.participants.set settings.rootParticipantId root := by rw [hid]
    refine ⟨hruntime, htables, hregistry, hentries, ?_⟩
    unfold Settings.participants
    rw [hchoice, hroot]
    exact hparticipants.trans hset
  | some engine =>
    have hbackend : settings.repository = .postgres engine SystemStores.authorityStore := by
      unfold Settings.repository
      rw [hchoice]
    rw [hbackend] at hrest ⊢
    have hupsert : ((createAuthorizationRepository (.postgres engine
        SystemStores.authorityStore)).upsertParticipant root).run w
          ⟨a.store, a.ticks + 1, a.draws⟩ = (.ok (), ⟨SystemStores.authorityStore.put
            (AuthorityWrite.apply a.store.authorityTables (.participant root)) a.store,
              a.ticks + 1, a.draws⟩) := by
      change (Op.on SystemStores.authorityStore
        ((PostgresAuthorizationRepository.repository engine).upsertParticipant root)).run w _ = _
      rw [Op.run_on, PostgresAuthorizationRepository.run_upsertParticipant]
      rfl
    rw [Exec.run_bind_ok hupsert]
    obtain ⟨hruntime, htables, hregistry, -, hrows, hentries⟩ := hrest
      ⟨SystemStores.authorityStore.put
        (AuthorityWrite.apply a.store.authorityTables (.participant root)) a.store,
        a.ticks + 1, a.draws⟩
    have hset : a.store.authorityTables.participants.set root.id root =
        a.store.authorityTables.participants.set settings.rootParticipantId root := by rw [hid]
    refine ⟨hruntime, htables, hregistry, hentries, ?_⟩
    unfold Settings.participants
    rw [hchoice, hroot]
    exact hrows.trans hset

/-! ## Initializing again -/

/-- Every participant is still there, in its status. -/
def StatusesKept (settings : Settings) (s s' : SystemStores) : Prop :=
  ∀ id p, (settings.participants s).get? id = some p →
    ∃ p', (settings.participants s').get? id = some p' ∧ p'.status = p.status

/-- The root operator is active, if there is one. -/
def RootActive (settings : Settings) (s : SystemStores) : Prop :=
  ∀ p, (settings.participants s).get? settings.rootParticipantId = some p → p.status = .active

theorem Seeded.statusesKept_iff {w : World} {settings : Settings} {a a' : Machine SystemStores}
    (h : Seeded w settings a a') :
    StatusesKept settings a.store a'.store ↔ RootActive settings a.store := by
  unfold StatusesKept RootActive
  rw [h.participants]
  constructor
  · intro hkept p hp
    obtain ⟨p', hp', hstatus⟩ := hkept _ p hp
    rw [Dict.get?_set_self] at hp'
    cases hp'
    exact hstatus.symm
  · intro hactive id p hp
    rw [Dict.get?_set]
    split
    · rename_i hid
      rw [hid] at hp
      exact ⟨_, rfl, (hactive p hp).symm⟩
    · exact ⟨p, hp, rfl⟩

/-- An initialization that registers nothing, leaves the runtime and the registry as they
are, and every participant in its status. -/
structure LeftAsIs (w : World) (settings : Settings) (files : PanelFiles)
    (a : Machine SystemStores) : Prop where
  quiet : ∃ results a', (bootstrapPanels settings files).run w a = (.ok results, a') ∧
    ∀ result ∈ results, result.Quiet
  runtime : ((initializeSystem settings files).run w a).2.store.runtime = a.store.runtime
  tables : ((initializeSystem settings files).run w a).2.store.tables = a.store.tables
  registry : ((initializeSystem settings files).run w a).2.store.registry = a.store.registry
  entries : ((initializeSystem settings files).run w
    a).2.store.authorityTables.patchPanelRegistryEntries =
      a.store.authorityTables.patchPanelRegistryEntries
  statuses : StatusesKept settings a.store ((initializeSystem settings files).run w a).2.store

theorem leftAsIs_iff {w : World} {settings : Settings} {files : PanelFiles}
    {a : Machine SystemStores} : LeftAsIs w settings files a ↔
      PanelsListed settings.runtime settings.registry files settings.systemPatchPanelPaths a.store ∧
        RootActive settings a.store := by
  have hseeds : PanelsListed settings.runtime settings.registry files settings.systemPatchPanelPaths
      a.store → Seeded w settings a ((initializeSystem settings files).run w a).2 := by
    intro hlisted
    obtain ⟨results, -, hrun⟩ := bootstrap_listed (w := w) hlisted
    have hseeded := seedRootOperator_seeded w settings a
    have hafter : ((initializeSystem settings files).run w a).2 =
        ((seedRootOperator (createAuthorizationRepository settings.repository)
          settings.rootParticipantId).run w a).2 := by
      unfold initializeSystem
      rw [Exec.run_bind_ok (show (bootstrapPanels settings files).run w a = _ from hrun),
        Exec.run_bind]
      rcases (seedRootOperator (createAuthorizationRepository settings.repository)
        settings.rootParticipantId).run w a with ⟨r, a'⟩
      cases r <;> rfl
    rw [hafter]
    exact hseeded
  constructor
  · intro h
    have hlisted := (bootstrap_quiet_iff settings.systemPatchPanelPaths).mp h.quiet
    exact ⟨hlisted, (hseeds hlisted).statusesKept_iff.mp h.statuses⟩
  · rintro ⟨hlisted, hactive⟩
    have hseeded := hseeds hlisted
    exact ⟨(bootstrap_quiet_iff settings.systemPatchPanelPaths).mpr hlisted, hseeded.runtime,
      hseeded.tables, hseeded.registry, hseeded.entries, hseeded.statusesKept_iff.mpr hactive⟩

/-- The stores after one initialization and any operations on them. -/
def initialized (w : World) (settings : Settings) (files : PanelFiles) (a : Machine SystemStores)
    (operations : List (Op SystemStores Unit)) : Machine SystemStores :=
  operations.foldl (fun m x => (x.run w m).2) ((initializeSystem settings files).run w a).2

/-- Over whole runs: a second initialization leaves everything alone exactly if what it
finds lists every configured panel in its version, and has an active root operator or
none. -/
theorem initialize_again_iff (w : World) (settings : Settings) (files : PanelFiles)
    (s : SystemStores) (ticks draws : Nat) (operations : List (Op SystemStores Unit)) :
    LeftAsIs w settings files (initialized w settings files ⟨s, ticks, draws⟩ operations) ↔
      PanelsListed settings.runtime settings.registry files settings.systemPatchPanelPaths
          (initialized w settings files ⟨s, ticks, draws⟩ operations).store ∧
        RootActive settings (initialized w settings files ⟨s, ticks, draws⟩ operations).store :=
  leftAsIs_iff

/-- One system panel, in version 1. -/
def orderFiles : PanelFiles := ⟨id, fun _ => .ok (PatchPanelValidator.linePanel "orders" "1")⟩

def memorySettings : Settings := ⟨none, none, none, ["orders.yaml"], "root"⟩

/-- An operator brings the system panel to version 2. -/
def upgrade : Op SystemStores Unit := do
  let _ ← (createRuntime memorySettings.runtime).registerPatchPanel
    (PatchPanelValidator.linePanel "orders" "2")
  return ()

/-- After an upgrade the second initialization registers version 1 again. -/
theorem upgraded_disturbed : ¬ LeftAsIs .simple memorySettings orderFiles
    (initialized .simple memorySettings orderFiles ⟨.init, 0, 0⟩ [upgrade]) := by
  intro h
  obtain ⟨p, hp, hruntime, -⟩ := (leftAsIs_iff.mp h).1 "orders.yaml" List.mem_cons_self
  cases hp
  have hmissing : (memorySettings.runtime.panels (initialized .simple memorySettings orderFiles
      ⟨.init, 0, 0⟩ [upgrade]).store).any (PatchPanelValidator.linePanel "orders" "1").names =
        false := by
    decide +kernel
  rw [hruntime] at hmissing
  cases hmissing

/-- A suspended root operator is made active again. -/
theorem suspended_disturbed : ¬ LeftAsIs .simple memorySettings orderFiles
    (initialized .simple memorySettings orderFiles ⟨.init, 0, 0⟩
      [(createAuthorizationRepository memorySettings.repository).upsertParticipant
        { rootOperator "root" 0 with status := .suspended }]) := by
  intro h
  have hactive := (leftAsIs_iff.mp h).2 { rootOperator "root" 0 with status := .suspended } rfl
  cases hactive

end GhostMesh
