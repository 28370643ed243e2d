import GhostMesh.Bootstrap.Backends
import GhostMesh.Genesis.Runs
import GhostMesh.Lib.Scans

/-!
# What a search for candidates finds

The registry is searched once for each criterion of the intent. A search leaves out every
filter whose value is empty, so an empty input type, output or tag finds every live entry.
-/

set_option autoImplicit false

namespace GhostMesh

/-! ## Criteria -/

/-- One thing that an intent and an entry may share. -/
inductive Criterion where
  | inputType (value : String)
  | outputType (value : String)
  | tag (value : String)
  | riskLevel (value : String)

namespace Criterion

def value : Criterion → String
  | inputType value | outputType value | tag value | riskLevel value => value

/-- The entry shares it. -/
def shared (e : PatchPanelRegistryEntry) : Criterion → Bool
  | inputType value => e.inputTypes.contains value
  | outputType value => e.outputTypes.contains value
  | tag value => e.tags.contains value
  | riskLevel value => e.riskLevel = some value

/-- The search for it. -/
def search : Criterion → PatchPanelRegistrySearch
  | inputType value => { PatchPanelRegistrySearch.any with inputType := some value }
  | outputType value => { PatchPanelRegistrySearch.any with outputType := some value }
  | tag value => { PatchPanelRegistrySearch.any with tag := some value }
  | riskLevel value => { PatchPanelRegistrySearch.any with riskLevel := some value }

def isEmpty (c : Criterion) : Bool := c.value = ""

end Criterion

/-- Neither archived nor superseded. -/
def PatchPanelRegistryEntry.isLive (e : PatchPanelRegistryEntry) : Bool :=
  e.status ≠ .archived && e.status ≠ .superseded

/-- The criteria of an intent but for its risk level. -/
def GenesisIntent.plainCriteria (intent : GenesisIntent) : List Criterion :=
  .inputType intent.inputType :: intent.desiredOutputs.map .outputType ++ intent.tags.map .tag

/-- The risk level of an intent; whether an empty one counts as given is `emptyGiven`. -/
def GenesisIntent.riskCriteria (emptyGiven : Bool) (intent : GenesisIntent) : List Criterion :=
  match intent.constraints.riskLevel with
  | none => []
  | some level => if level = "" && !emptyGiven then [] else [.riskLevel level]

/-- What an intent and an entry may share, in the order of the search. -/
def GenesisIntent.criteria (emptyGiven : Bool) (intent : GenesisIntent) : List Criterion :=
  intent.plainCriteria ++ intent.riskCriteria emptyGiven

/-- The number of the first criterion that the entry shares. -/
def Criterion.firstShared (cs : List Criterion) (e : PatchPanelRegistryEntry) : Nat :=
  cs.findIdx fun c => c.shared e

def GenesisIntent.tests (emptyGiven : Bool) (intent : GenesisIntent) :
    List (PatchPanelRegistryEntry → Bool) :=
  (intent.criteria emptyGiven).map fun c e => c.shared e

/-! ## The registry -/

/-- Every entry lies under its identifier. -/
def RegistryBackend.Keyed {σ : Type} (registry : RegistryBackend σ) (s : σ) : Prop :=
  ∀ id e, (registry.entries s).get? id = some e → e.id = id

section Registry
variable {σ : Type} {registry : RegistryBackend σ} {w : World} {m : Machine σ}

theorem RegistryBackend.Keyed.listed_nodup (h : registry.Keyed m.store) :
    ((registry.listed m.store).map (·.id)).Nodup := by
  have hkeys : ((registry.entries m.store).values.map (·.id)).Nodup := by
    rw [Dict.map_values_of_keyed h]
    exact (registry.entries m.store).nodup
  cases registry with
  | memory store => exact hkeys
  | postgres engine store =>
    exact ((engine.rows_perm (store.get m.store) _).map _).nodup_iff.mpr hkeys

end Registry

/-! ## The search -/

/-- The search for a criterion finds the live entries that share it, and all of them if its
value is empty. -/
theorem entryMatches_search (e : PatchPanelRegistryEntry) (c : Criterion) :
    entryMatches e c.search = (e.isLive && (c.isEmpty || c.shared e)) := by
  have hmeets : ∀ (value : String) (test : String → Bool),
      meets (some value) test = (decide (value = "") || test value) := by
    intro value test
    by_cases hempty : value = ""
    · rw [hempty]
      rfl
    · simp [meets, truthyStr, hempty]
  have hnone : ∀ test, meets none test = true := fun _ => rfl
  cases c <;>
  · simp only [Criterion.search, entryMatches, PatchPanelRegistrySearch.any, hmeets, hnone,
      Criterion.isEmpty, Criterion.value, Criterion.shared, PatchPanelRegistryEntry.isLive,
      Bool.false_or, Bool.and_true]
    rfl

theorem searchFilters_eq (intent : GenesisIntent) :
    GenesisService.searchFilters intent = (intent.criteria false).map Criterion.search := by
  unfold GenesisService.searchFilters GenesisIntent.criteria GenesisIntent.plainCriteria
    GenesisIntent.riskCriteria
  cases intent.constraints.riskLevel with
  | none => simp [truthyStr, Criterion.search, Function.comp_def]
  | some level =>
    by_cases hempty : level = ""
    · simp [truthyStr, hempty, Criterion.search, Function.comp_def]
    · simp [truthyStr, hempty, Criterion.search, Function.comp_def]

section Search
variable {σ : Type} {registry : RegistryBackend σ} {runtime : CardRuntime σ}
  {store : Component σ GenesisStore} {w : World} {m : Machine σ}

/-- The live entries in the order of the registry. -/
def RegistryBackend.live (registry : RegistryBackend σ) (s : σ) : List PatchPanelRegistryEntry :=
  (registry.listed s).filter PatchPanelRegistryEntry.isLive

/-- The scans that the search makes. -/
def Criterion.scans (cs : List Criterion) : List (PatchPanelRegistryEntry → Bool) :=
  cs.map fun c e => c.isEmpty || c.shared e

theorem run_searchEach_scans (cs : List Criterion) (found : List PatchPanelRegistryEntry) :
    ((GenesisService.mk runtime (createRegistry registry) store).searchEach found
      (cs.map Criterion.search)).run w m =
      (.ok (Scans.scans (·.id) (registry.live m.store) (Criterion.scans cs) found), m) := by
  induction cs generalizing found with
  | nil => rfl
  | cons c cs ih =>
    have hfilter : (registry.listed m.store).filter (entryMatches · c.search) =
        (registry.live m.store).filter fun e => c.isEmpty || c.shared e := by
      unfold RegistryBackend.live
      rw [List.filter_filter]
      apply List.filter_congr
      intro e _
      rw [entryMatches_search, Bool.and_comm]
    refine (Exec.run_bind_ok (run_registrySearch c.search)).trans ?_
    rw [hfilter]
    exact ih _

/-- A search returns, and has made one scan for each criterion. -/
theorem run_searchCandidates (intent : GenesisIntent) :
    ((GenesisService.mk runtime (createRegistry registry) store).searchCandidates intent).run w m =
      (.ok (Scans.scans (·.id) (registry.live m.store)
        (Criterion.scans (intent.criteria false)) []), m) := by
  unfold GenesisService.searchCandidates
  rw [searchFilters_eq]
  exact run_searchEach_scans _ []

/-! ## When it is exact -/

/-- What is found is the live entries that share a criterion, each once, by the first
criterion that they share and then by the order of the registry. -/
def GenesisIntent.Exact (emptyGiven : Bool) (intent : GenesisIntent)
    (live found : List PatchPanelRegistryEntry) : Prop :=
  Scans.Ranked live (intent.tests emptyGiven) found

/-- With an empty input type, output or tag: every live entry shares a criterion, and those
that share none in front of the empty one are listed by the first that they share. Without:
an empty risk level, if it counts as given, brings no entry that shares nothing else. -/
def GenesisIntent.Fits (emptyGiven : Bool) (intent : GenesisIntent)
    (live : List PatchPanelRegistryEntry) : Prop :=
  if intent.plainCriteria.findIdx Criterion.isEmpty < intent.plainCriteria.length then
    (∀ e ∈ live, ∃ c ∈ intent.criteria emptyGiven, c.shared e = true) ∧
    (live.filter fun e => intent.plainCriteria.findIdx Criterion.isEmpty ≤
        Criterion.firstShared (intent.criteria emptyGiven) e).Pairwise fun e e' =>
      Criterion.firstShared (intent.criteria emptyGiven) e ≤
        Criterion.firstShared (intent.criteria emptyGiven) e'
  else emptyGiven = true → intent.constraints.riskLevel = some "" →
    ∀ e ∈ live, e.riskLevel = some "" → ∃ c ∈ intent.plainCriteria, c.shared e = true

section Fits
variable {emptyGiven : Bool} {intent : GenesisIntent} {live found : List PatchPanelRegistryEntry}

theorem rank_tests (e : PatchPanelRegistryEntry) : Scans.rank (intent.tests emptyGiven) e =
    Criterion.firstShared (intent.criteria emptyGiven) e := List.findIdx_map _ _ _

theorem shares_tests_iff {cs : List Criterion} (e : PatchPanelRegistryEntry) :
    (∃ t ∈ cs.map (fun c e => Criterion.shared e c), t e = true) ↔
      ∃ c ∈ cs, c.shared e = true := by
  simp only [List.mem_map, exists_exists_and_eq_and]

/-- Up to an index inside the first list, the second does not matter. -/
theorem min_findIdx_append {β : Type} (p : β → Bool) (bs ds : List β) {i : Nat}
    (hi : i ≤ bs.length) : min ((bs ++ ds).findIdx p) i = min (bs.findIdx p) i := by
  rw [List.findIdx_append]
  split
  · rfl
  · rename_i hnot
    have hle : bs.length ≤ bs.findIdx p := Nat.le_of_not_lt hnot
    omega

/-- The scans with an empty plain criterion see only what comes before it. -/
theorem rank_scans (e : PatchPanelRegistryEntry)
    (hempty : intent.plainCriteria.findIdx Criterion.isEmpty < intent.plainCriteria.length) :
    Scans.rank (Criterion.scans (intent.criteria false)) e =
      min (Scans.rank (intent.tests emptyGiven) e)
        (intent.plainCriteria.findIdx Criterion.isEmpty) := by
  have hscans : Scans.rank (Criterion.scans (intent.criteria false)) e =
      (intent.criteria false).findIdx fun c => c.isEmpty || c.shared e := List.findIdx_map _ _ _
  have hfirst : (intent.criteria false).findIdx Criterion.isEmpty =
      intent.plainCriteria.findIdx Criterion.isEmpty := by
    unfold GenesisIntent.criteria
    rw [List.findIdx_append, if_pos hempty]
  rw [hscans, Scans.findIdx_or, hfirst, Nat.min_comm, rank_tests, Criterion.firstShared]
  unfold GenesisIntent.criteria
  rw [min_findIdx_append _ _ _ hempty.le, min_findIdx_append _ _ _ hempty.le]

/-- Without an empty criterion the scans are the tests. -/
theorem scans_eq_tests (hplain : ∀ c ∈ intent.plainCriteria, c.isEmpty = false) :
    Criterion.scans (intent.criteria false) = intent.tests false := by
  apply List.map_congr_left
  intro c hc
  have hempty : c.isEmpty = false := by
    rcases List.mem_append.mp hc with hc | hc
    · exact hplain c hc
    · unfold GenesisIntent.riskCriteria at hc
      split at hc
      · cases hc
      · rename_i level _
        by_cases hlevel : level = ""
        · simp [hlevel] at hc
        · rw [if_neg (by simp [hlevel]), List.mem_singleton] at hc
          rw [hc]
          exact decide_eq_false hlevel
  rw [hempty]
  rfl

/-- Only an empty risk level leaves open whether it is given. -/
theorem riskCriteria_eq (h : ¬ (emptyGiven = true ∧ intent.constraints.riskLevel = some "")) :
    intent.riskCriteria emptyGiven = intent.riskCriteria false := by
  unfold GenesisIntent.riskCriteria
  cases hlevel : intent.constraints.riskLevel with
  | none => rfl
  | some level =>
    by_cases hempty : level = ""
    · have hgiven : emptyGiven = false := by
        rw [hlevel, hempty] at h
        simpa using h
      rw [hgiven]
    · simp [hempty]

theorem exact_iff_fits (hnodup : (live.map (·.id)).Nodup)
    (hfound : found = Scans.scans (·.id) live (Criterion.scans (intent.criteria false)) []) :
    intent.Exact emptyGiven live found ↔ intent.Fits emptyGiven live := by
  have hranked : Scans.Ranked live (Criterion.scans (intent.criteria false)) found :=
    hfound ▸ Scans.scans_ranked hnodup _
  unfold GenesisIntent.Exact GenesisIntent.Fits
  split
  · rename_i hempty
    have hlength : intent.plainCriteria.findIdx Criterion.isEmpty <
        (Criterion.scans (intent.criteria false)).length := by
      rw [Criterion.scans, List.length_map, GenesisIntent.criteria, List.length_append]
      omega
    rw [hranked.let_through_iff (hnodup.of_map _) hlength fun e _ => rank_scans e hempty]
    simp only [rank_tests]
    unfold GenesisIntent.tests
    simp only [shares_tests_iff]
  · rename_i hempty
    have hplain : ∀ c ∈ intent.plainCriteria, c.isEmpty = false := by
      intro c hc
      by_contra hnot
      apply hempty
      rw [List.findIdx_lt_length]
      exact ⟨c, hc, by simpa using hnot⟩
    rw [scans_eq_tests hplain] at hranked
    by_cases hrisk : emptyGiven = true ∧ intent.constraints.riskLevel = some ""
    · obtain ⟨hgiven, hlevel⟩ := hrisk
      have hless : intent.tests false = intent.plainCriteria.map fun c e => c.shared e := by
        simp [GenesisIntent.tests, GenesisIntent.criteria, GenesisIntent.riskCriteria, hlevel]
      have hmore : intent.tests emptyGiven = (intent.plainCriteria.map fun c e => c.shared e) ++
          [fun e => (Criterion.riskLevel "").shared e] := by
        simp [GenesisIntent.tests, GenesisIntent.criteria, GenesisIntent.riskCriteria, hlevel,
          hgiven]
      have hlast : ∀ e, (Criterion.riskLevel "").shared e = true ↔ e.riskLevel = some "" :=
        fun e => decide_eq_true_iff
      rw [hless] at hranked
      rw [hmore, hranked.left_out_iff]
      simp only [hgiven, hlevel, shares_tests_iff, hlast, forall_const]
    · have hsame : intent.tests emptyGiven = intent.tests false := by
        unfold GenesisIntent.tests GenesisIntent.criteria
        rw [riskCriteria_eq hrisk]
      rw [hsame]
      constructor
      · intro _ hgiven hlevel
        exact absurd ⟨hgiven, hlevel⟩ hrisk
      · intro _
        exact hranked

end Fits

/-- A search returns, and what it finds is exact if and only if the intent fits the live
entries. -/
theorem searchCandidates_exact_iff (registry : RegistryBackend σ) (runtime : CardRuntime σ)
    (store : Component σ GenesisStore) (w : World) (m : Machine σ) (hkeyed : registry.Keyed m.store)
    (emptyGiven : Bool) (intent : GenesisIntent) :
    ∃ found, ((GenesisService.mk runtime (createRegistry registry) store).searchCandidates
        intent).run w m = (.ok found, m) ∧
      (intent.Exact emptyGiven (registry.live m.store) found ↔
        intent.Fits emptyGiven (registry.live m.store)) := by
  refine ⟨_, run_searchCandidates intent, exact_iff_fits ?_ rfl⟩
  exact hkeyed.listed_nodup.sublist (List.filter_sublist.map _)

end Search

/-! The calls of a registry in memory keep every entry under its identifier. -/

section Keyed
open Exec (Within)

def EntriesKept (m m' : Machine InMemoryPatchPanelRegistry) : Prop :=
  (∀ id e, m.store.entries.get? id = some e → e.id = id) →
    ∀ id e, m'.store.entries.get? id = some e → e.id = id

variable {w : World}

theorem EntriesKept.refl (m : Machine InMemoryPatchPanelRegistry) : EntriesKept m m := id

theorem EntriesKept.bind {α β : Type} {x : Op InMemoryPatchPanelRegistry α}
    {f : α → Op InMemoryPatchPanelRegistry β} (hx : Within EntriesKept w x)
    (hf : ∀ a, Within EntriesKept w (f a)) : Within EntriesKept w (x >>= f) :=
  Within.bind (fun h h' hm => h' (h hm)) hx hf

/-- An entry is written under its identifier. -/
theorem EntriesKept.put (e : PatchPanelRegistryEntry) :
    Within EntriesKept w (do
      Op.modify (·.put e)
      return e : Op InMemoryPatchPanelRegistry PatchPanelRegistryEntry) := by
  intro m hm
  exact Dict.forall_values_set (P := fun id e => PatchPanelRegistryEntry.id e = id) hm rfl

theorem EntriesKept.get (entryId : Uuid) :
    Within EntriesKept w (InMemoryPatchPanelRegistry.get entryId) := by
  intro m
  rw [InMemoryPatchPanelRegistry.run_registryGet]
  exact EntriesKept.refl m

theorem RegistryCall.step_keyed (a : Machine App) (call : RegistryCall)
    (h : (RegistryBackend.memory App.registryStore).Keyed a.store) :
    (RegistryBackend.memory App.registryStore).Keyed (call.step w a).store := by
  have hnow : Within EntriesKept w Op.now := fun m => EntriesKept.refl m
  have hkept : ∀ {x : Op InMemoryPatchPanelRegistry PatchPanelRegistryEntry},
      Within EntriesKept w x → (RegistryBackend.memory App.registryStore).Keyed
        ((Op.on App.registryStore x).run w a).2.store :=
    fun hx => hx ⟨a.store.registry, a.ticks, a.draws⟩ h
  cases call with
  | register entry => exact hkept (EntriesKept.put entry)
  | updateMetadata entryId metadata =>
    refine hkept (EntriesKept.bind (EntriesKept.get entryId) fun e => ?_)
    refine EntriesKept.bind (Within.ensure EntriesKept.refl _ _) fun _ => ?_
    exact EntriesKept.bind hnow fun updatedAt => EntriesKept.put _
  | archive entryId =>
    refine hkept (EntriesKept.bind (EntriesKept.get entryId) fun e => ?_)
    refine EntriesKept.bind hnow fun archivedAt => ?_
    exact EntriesKept.bind hnow fun updatedAt => EntriesKept.put _
  | supersede entryId supersededByEntryId =>
    refine hkept (EntriesKept.bind (EntriesKept.get entryId) fun e => ?_)
    exact EntriesKept.bind hnow fun updatedAt => EntriesKept.put _

end Keyed

/-- An entry for orders, and an intent with an empty input type. -/
def ordersEntry : PatchPanelRegistryEntry :=
  ⟨⟨100⟩, "orders", "1", "Orders", none, [], ["order"], [], [], [], none, none, none, none,
    .published, none, [], 0, 0, none⟩

def App.oneEntry : Machine App :=
  ⟨{ App.init with registry := ⟨Dict.empty.set ordersEntry.id ordersEntry⟩ }, 0, 0⟩

theorem App.oneEntry_keyed :
    (RegistryBackend.memory App.registryStore).Keyed App.oneEntry.store := by
  intro id e he
  change (Dict.empty.set ordersEntry.id ordersEntry).get? id = some e at he
  rw [Dict.get?_set] at he
  split at he
  · rename_i hid
    cases he
    exact hid.symm
  · cases he

def untypedIntent : GenesisIntent :=
  ⟨⟨0⟩, "agent", "intent-1", "process orders", "", [], [], ⟨none, none, false, []⟩, true, true,
    .received, [], none, none, none, 0, 0, []⟩

theorem searchCandidates_exact_iff_untyped :
    ∃ found, (App.genesisService.searchCandidates untypedIntent).run .simple App.oneEntry =
        (.ok found, App.oneEntry) ∧
      (untypedIntent.Exact true [ordersEntry] found ↔ untypedIntent.Fits true [ordersEntry]) :=
  searchCandidates_exact_iff (.memory App.registryStore) App.cardRuntime App.genesisStore .simple
    App.oneEntry App.oneEntry_keyed true untypedIntent

/-- The search finds the entry, which shares nothing with the intent. -/
theorem untyped_finds_orders :
    ∃ found, (App.genesisService.searchCandidates untypedIntent).run .simple App.oneEntry =
        (.ok found, App.oneEntry) ∧
      ∀ emptyGiven, ¬ untypedIntent.Exact emptyGiven [ordersEntry] found := by
  refine ⟨[ordersEntry], rfl, ?_⟩
  intro emptyGiven hexact
  obtain ⟨-, t, ht, hshared⟩ := (hexact.mem_iff ordersEntry).mp (List.mem_singleton.mpr rfl)
  have htests : untypedIntent.tests emptyGiven = [fun e => (Criterion.inputType "").shared e] := rfl
  rw [htests, List.mem_singleton] at ht
  rw [ht] at hshared
  cases hshared

end GhostMesh
