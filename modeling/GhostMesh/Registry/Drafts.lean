import GhostMesh.Registry.Postgres
import Mathlib.Data.List.Induction

/-!
# Edits of registry entries that race

`update_metadata` checks the status in one transaction and writes its whole copy of the row
in another. What is proved is when this edits drafts only: exactly if no transaction that
takes the entry out of DRAFT commits between the two.
-/

set_option autoImplicit false

namespace GhostMesh

open ReadCommitted PostgresPatchPanelRegistry

/-- A call that writes one entry. -/
inductive EntryCall where
  | updateMetadata (entryId : Uuid) (metadata : PatchPanelRegistryMetadata)
  | archive (entryId : Uuid)
  | supersede (entryId supersededByEntryId : Uuid)

namespace EntryCall

/-- The transactions of the call, up to the one that reads the reply. -/
def program (engine : AuthorityEngine) : EntryCall → AuthorityTx Unit
  | updateMetadata entryId metadata => do
    let _ ← updateMetadataTx engine entryId metadata
    return ()
  | archive entryId => archiveTx engine entryId
  | supersede entryId supersededByEntryId => supersedeTx engine entryId supersededByEntryId

def entryId : EntryCall → Uuid
  | updateMetadata entryId _ => entryId
  | archive entryId => entryId
  | supersede entryId _ => entryId

/-- It takes the entry out of DRAFT. -/
def leavesDraft : EntryCall → Bool
  | updateMetadata _ metadata => metadata.status ≠ .draft
  | archive _ => true
  | supersede _ _ => true

end EntryCall

abbrev RegistrySystem := System authority EntryCall Unit

namespace RegistrySystem

def init (d : AuthorityTables) : RegistrySystem := ⟨d, 0, 0, []⟩

def step (engine : AuthorityEngine) (env : Supply authority) (σ : RegistrySystem)
    (a : Action EntryCall) : RegistrySystem :=
  System.step env (EntryCall.program engine) σ a

def run (engine : AuthorityEngine) (env : Supply authority) (d : AuthorityTables)
    (actions : List (Action EntryCall)) : RegistrySystem :=
  actions.foldl (step engine env) (init d)

/-- The committed row of an entry. -/
def entryAt (σ : RegistrySystem) (id : Uuid) : Option PatchPanelRegistryEntry :=
  σ.data.patchPanelRegistryEntries.get? id

/-- With its next step session `i` commits what it has written. -/
def Publishes (σ : RegistrySystem) (i : Nat) (call : EntryCall) : Prop :=
  ∃ s, σ.sessions[i]? = some s ∧ s.status = .opened ∧ s.rest.returns = true ∧ s.call = call ∧
    s.log.writes ≠ []

/-- Session `i` has read rows. -/
def HasRead (σ : RegistrySystem) (i : Nat) : Prop :=
  ∃ s, σ.sessions[i]? = some s ∧ ∃ q d, .saw q d ∈ s.log

end RegistrySystem

/-! ## The properties -/

/-- Archived or superseded. -/
def PatchPanelRegistryEntry.isRetired (e : PatchPanelRegistryEntry) : Bool :=
  e.status = .archived || e.status = .superseded

/-- Still retired, with `archived_at` not cleared and its metadata not overwritten. -/
structure PatchPanelRegistryEntry.StaysRetired (e e' : PatchPanelRegistryEntry) : Prop where
  retired : e'.isRetired = true
  archivedAt : e.archivedAt.isSome → e'.archivedAt.isSome
  same : e' = { e with
    status := e'.status, supersedesEntryId := e'.supersedesEntryId,
    archivedAt := e'.archivedAt, updatedAt := e'.updatedAt }

section Properties
variable (engine : AuthorityEngine) (env : Supply authority) (d : AuthorityTables)
  (actions : List (Action EntryCall))

/-- Each `update_metadata` that writes finds the entry in DRAFT. -/
def OnlyDraftsEdited : Prop :=
  ∀ before i after id metadata, actions = before ++ .advance i :: after →
    (RegistrySystem.run engine env d before).Publishes i (.updateMetadata id metadata) →
    ∃ e, (RegistrySystem.run engine env d before).entryAt id = some e ∧ e.status = .draft

/-- Once an entry is archived or superseded, nothing brings it back. -/
def RetiredKept : Prop :=
  ∀ before between after, actions = before ++ (between ++ after) → ∀ id e,
    (RegistrySystem.run engine env d before).entryAt id = some e → e.isRetired = true →
    ∃ e', (RegistrySystem.run engine env d (before ++ between)).entryAt id = some e' ∧
      e.StaysRetired e'

/-- After session `i` has read, a transaction commits that takes the entry out of DRAFT. -/
def Outdated (i : Nat) (id : Uuid) : Prop :=
  ∃ before k after call, actions = before ++ .advance k :: after ∧
    (RegistrySystem.run engine env d before).HasRead i ∧
    (RegistrySystem.run engine env d before).Publishes k call ∧
    call.entryId = id ∧ call.leavesDraft = true

end Properties

/-! ## What a transaction has read and written -/

/-- The entry as a statement has found it. -/
def SawEntry (id : Uuid) (e : PatchPanelRegistryEntry) (log : Log authority) : Prop :=
  ∃ seen : AuthorityTables, .saw (.registryEntry id) seen ∈ log ∧
    seen.patchPanelRegistryEntries.get? id = some e

def SawDraft (id : Uuid) (log : Log authority) : Prop :=
  ∃ e, SawEntry id e log ∧ e.status = .draft

theorem SawEntry.keep {id : Uuid} {e : PatchPanelRegistryEntry} {log log' : Log authority}
    (h : SawEntry id e log) (hlog : log <:+ log') : SawEntry id e log' := by
  obtain ⟨seen, hsaw, he⟩ := h
  exact ⟨seen, hlog.subset hsaw, he⟩

theorem SawDraft.keep {id : Uuid} {log log' : Log authority} (h : SawDraft id log)
    (hlog : log <:+ log') : SawDraft id log' := by
  obtain ⟨e, he, hdraft⟩ := h
  exact ⟨e, he.keep hlog, hdraft⟩

/-- The writes of each call. -/
inductive EntryCall.Done (log : Log authority) : EntryCall → Prop where
  | untouched {call : EntryCall} (h : log.writes = []) : Done log call
  | edited {id : Uuid} {metadata : PatchPanelRegistryMetadata} (e : PatchPanelRegistryEntry)
      (t : Instant) (hid : e.id = id) (hread : SawDraft id log) (h : log.writes =
        [.registryEntry (InMemoryPatchPanelRegistry.entryWithMetadata e metadata t)]) :
      Done log (.updateMetadata id metadata)
  | archived {id : Uuid} (t : Instant) (h : log.writes = [.entryArchived id t]) :
      Done log (.archive id)
  | superseded {id by_ : Uuid} (t : Instant) (h : log.writes = [.entrySuperseded id by_ t]) :
      Done log (.supersede id by_)

theorem EntryCall.Done.keep {call : EntryCall} {log log' : Log authority}
    (h : call.Done log) (hlog : log <:+ log') (hsame : log'.writes = log.writes) :
    call.Done log' := by
  cases h with
  | untouched h => exact .untouched (hsame.trans h)
  | edited e t hid hread h => exact .edited e t hid (hread.keep hlog) (hsame.trans h)
  | archived t h => exact .archived t (hsame.trans h)
  | superseded t h => exact .superseded t (hsame.trans h)

/-- If the newest observation is an entry, it is the entry as committed. -/
def ReadsCommitted : Log authority → Prop
  | .saw (.registryEntry _) _ :: log => Log.writes log = []
  | _ => True

/-- What every log of the call keeps. -/
structure EntryCall.Path (call : EntryCall) (log : Log authority) : Prop where
  done : call.Done log
  reads : ReadsCommitted log

/-- Each entry lies under its id. -/
def AuthorityTables.EntriesKeyed (d : AuthorityTables) : Prop :=
  ∀ id e, d.patchPanelRegistryEntries.get? id = some e → e.id = id

theorem AuthorityTables.entries_growth :
    Growth authority AuthorityTables.EntriesKeyed fun _ _ => True where
  refl _ := trivial
  trans _ _ := trivial
  apply _ _ _ := trivial
  mono _ _ _ _ := trivial
  keeps x d hd := by
    cases x with
    | registryEntry row =>
      intro id e he
      change (d.patchPanelRegistryEntries.set row.id row).get? id = some e at he
      rw [Dict.get?_set] at he
      split at he
      · rename_i hid
        cases he
        exact hid.symm
      · exact hd id e he
    | entryArchived id' t =>
      intro id e he
      change (d.patchPanelRegistryEntries.modify id' _).get? id = some e at he
      rw [Dict.get?_modify] at he
      split at he
      · rename_i hid
        obtain ⟨e₀, he₀, rfl⟩ := Option.map_eq_some_iff.mp he
        exact (hd id' e₀ he₀).trans hid.symm
      · exact hd id e he
    | entrySuperseded id' by_ t =>
      intro id e he
      change (d.patchPanelRegistryEntries.modify id' _).get? id = some e at he
      rw [Dict.get?_modify] at he
      split at he
      · rename_i hid
        obtain ⟨e₀, he₀, rfl⟩ := Option.map_eq_some_iff.mp he
        exact (hd id' e₀ he₀).trans hid.symm
      · exact hd id e he
    | _ => exact hd

/-- A statement sees entries under their ids. -/
abbrev SeesKeyed : Log authority → Obs authority → Prop :=
  Obs.Follows AuthorityTables.EntriesKeyed fun _ _ => True

section Paths
variable {engine : AuthorityEngine} {call : EntryCall} {log : Log authority}

theorem EntryCall.Path.untouched (h : log.writes = []) (hreads : ReadsCommitted log) :
    call.Path log := ⟨.untouched h, hreads⟩

/-- One row is written, unless it is not there. -/
theorem updateEntry_path {id : Uuid} {x : AuthorityWrite} (hlog : call.Path log)
    (hnone : log.writes = [])
    (hdone : ∀ log' : Log authority, log <:+ log' → log'.writes = [x] → call.Done log') :
    (updateEntry engine id x).Spec SeesKeyed call.Path (fun _ _ => True) log := by
  unfold updateEntry
  refine (Txn.Spec.query (q := .registryEntry id) (Q := fun (seen : AuthorityTables) log' =>
    log' = .saw (.registryEntry id) seen :: log) hlog
    fun seen _ => ⟨.untouched hnone hnone, rfl⟩).bind ?_
  rintro seen log₁ hlog₁ rfl
  split
  swap
  · exact ⟨hlog₁, trivial⟩
  unfold writeEntry
  refine (Txn.Spec.lockRow (Q := fun (latest : AuthorityTables) log' =>
    log' = .locked (.registryEntry id) latest :: .saw (.registryEntry id) seen :: log) hlog₁
    fun latest _ => ⟨.untouched hnone trivial, rfl⟩).bind ?_
  rintro latest log₂ hlog₂ rfl
  split
  swap
  · exact ⟨hlog₂, trivial⟩
  have hwrote : call.Done (.wrote x :: .locked (.registryEntry id) latest ::
      .saw (.registryEntry id) seen :: log) := by
    refine hdone _ (List.suffix_append [_, _, _] log) ?_
    exact congrArg (x :: ·) hnone
  refine (Txn.Spec.put (Q := fun _ log' => call.Done log') hlog₂ ⟨hwrote, trivial⟩ hwrote).bind ?_
  intro _ log₃ hlog₃ hdone₃
  refine (Txn.Spec.query (S := authority) (q := .references entriesTable) (Q := fun _ _ => True) hlog₃
    fun checked _ => ⟨⟨hdone₃.keep (List.suffix_cons _ _) rfl, trivial⟩, trivial⟩).bind ?_
  intro checked log₄ hlog₄ _
  unfold Txn.ensure
  split
  · exact ⟨hlog₄, trivial⟩
  · exact hlog₄

/-- What is read is the committed row. -/
theorem getTx_path {id : Uuid} (hlog : call.Path log) (hnone : log.writes = []) :
    (getTx id).Spec SeesKeyed call.Path
      (fun e log' => log'.writes = [] ∧ e.id = id ∧ SawEntry id e log') log := by
  unfold getTx
  refine (Txn.Spec.query (q := .registryEntry id) (Q := fun (seen : AuthorityTables) log' =>
    log' = .saw (.registryEntry id) seen :: log ∧ seen.EntriesKeyed) hlog
    fun seen hseen => ⟨.untouched hnone hnone, rfl, (hseen seen rfl).1⟩).bind ?_
  rintro seen log₁ hlog₁ ⟨rfl, hkeyed⟩
  split
  · rename_i e he
    exact ⟨hlog₁, hnone, hkeyed id e he, seen, List.mem_cons_self, he⟩
  · exact hlog₁

/-- Reading the clock writes nothing. -/
theorem now_path (hlog : call.Path log) (hnone : log.writes = []) :
    (Txn.now (S := authority)).Spec SeesKeyed call.Path
      (fun _ log' => log'.writes = [] ∧ log <:+ log') log :=
  Txn.Spec.now hlog fun _ _ => ⟨.untouched hnone trivial, hnone, List.suffix_cons _ _⟩

theorem ensureFound_path {id : Uuid} {found : Bool} (hlog : call.Path log) :
    (ensureFound id found).Spec SeesKeyed call.Path (fun _ _ => True) log := by
  unfold ensureFound Txn.ensure
  split
  · exact ⟨hlog, trivial⟩
  · exact hlog

end Paths

/-- On every path a call keeps to what `Done` says of it. -/
theorem EntryCall.program_path (engine : AuthorityEngine) (call : EntryCall) :
    (call.program engine).Spec SeesKeyed call.Path (fun _ _ => True) [] := by
  have hstart : call.Path [] := .untouched rfl trivial
  cases call with
  | updateMetadata id metadata =>
    unfold program updateMetadataTx
    refine Txn.Spec.bind (Q := fun _ _ => True) ?_ fun _ log hlog _ => ⟨hlog, trivial⟩
    refine (getTx_path hstart rfl).bind ?_
    rintro e log₁ hlog₁ ⟨hnone, hid, hsaw⟩
    unfold Txn.ensure
    split
    swap
    · exact hlog₁
    rename_i hdraft
    refine (now_path hlog₁ hnone).bind ?_
    rintro t log₂ hlog₂ ⟨hnone₂, hsuffix⟩
    have hread : SawDraft id log₂ := ⟨e, hsaw.keep hsuffix, of_decide_eq_true hdraft⟩
    refine (updateEntry_path hlog₂ hnone₂ fun log' hlog' hwrites => ?_).bind
      fun _ log hlog _ => ⟨hlog, trivial⟩
    exact .edited e t hid (hread.keep hlog') hwrites
  | archive id =>
    unfold program archiveTx
    refine (now_path hstart rfl).bind ?_
    rintro t log₁ hlog₁ ⟨hnone, -⟩
    refine (updateEntry_path hlog₁ hnone fun log' _ hwrites => .archived t hwrites).bind ?_
    exact fun found log hlog _ => ensureFound_path hlog
  | supersede id by_ =>
    unfold program supersedeTx
    refine (now_path hstart rfl).bind ?_
    rintro t log₁ hlog₁ ⟨hnone, -⟩
    refine (updateEntry_path hlog₁ hnone fun log' _ hwrites => .superseded t hwrites).bind ?_
    exact fun found log hlog _ => ensureFound_path hlog

/-! ## What a commit does to an entry -/

/-- What the call makes of the row of its entry. -/
inductive EntryCall.Leaves (row : Option PatchPanelRegistryEntry) :
    EntryCall → Option PatchPanelRegistryEntry → Prop where
  | edited {id : Uuid} {metadata : PatchPanelRegistryMetadata} (e : PatchPanelRegistryEntry)
      (t : Instant) : Leaves row (.updateMetadata id metadata)
        (some (InMemoryPatchPanelRegistry.entryWithMetadata e metadata t))
  | archived {id : Uuid} (t : Instant) : Leaves row (.archive id) (row.map fun e =>
      { e with status := .archived, archivedAt := some t, updatedAt := t })
  | superseded {id by_ : Uuid} (t : Instant) : Leaves row (.supersede id by_) (row.map fun e =>
      { e with status := .superseded, supersedesEntryId := some by_, updatedAt := t })

namespace EntryCall

variable {call : EntryCall}

section Rows
variable {row row' : Option PatchPanelRegistryEntry}

theorem Leaves.not_draft (h : call.Leaves row row') (hleaves : call.leavesDraft = true)
    {e : PatchPanelRegistryEntry} (he : row' = some e) : e.status ≠ .draft := by
  cases h with
  | edited e₀ t =>
    cases he
    exact of_decide_eq_true hleaves
  | archived t =>
    obtain ⟨e₀, -, rfl⟩ := Option.map_eq_some_iff.mp he
    exact PatchPanelRegistryStatus.noConfusion
  | superseded t =>
    obtain ⟨e₀, -, rfl⟩ := Option.map_eq_some_iff.mp he
    exact PatchPanelRegistryStatus.noConfusion

theorem Leaves.draft (h : call.Leaves row row') (hstays : call.leavesDraft = false) :
    ∃ e, row' = some e ∧ e.status = .draft := by
  cases h with
  | edited e₀ t => exact ⟨_, rfl, of_not_not (of_decide_eq_false hstays)⟩
  | archived t => cases hstays
  | superseded t => cases hstays

/-- An archived or superseded row changes into another one unless it is edited. -/
theorem Leaves.retired (h : call.Leaves row row')
    (hcall : ∀ id metadata, call ≠ .updateMetadata id metadata) {e : PatchPanelRegistryEntry}
    (he : row = some e) : ∃ e', row' = some e' ∧ e.StaysRetired e' := by
  cases h with
  | edited e₀ t => exact (hcall _ _ rfl).elim
  | archived t => exact ⟨_, congrArg _ he, rfl, fun _ => rfl, rfl⟩
  | superseded t => exact ⟨_, congrArg _ he, rfl, id, rfl⟩

end Rows

section Logs
variable {log : Log authority}

/-- The newest row of the call's entry. -/
theorem Done.leaves (h : call.Done log) (hwrites : log.writes ≠ []) (d : AuthorityTables) :
    call.Leaves (d.patchPanelRegistryEntries.get? call.entryId)
      ((log.view d).patchPanelRegistryEntries.get? call.entryId) := by
  rw [Log.view_writes]
  cases h with
  | untouched h => exact (hwrites h).elim
  | @edited id metadata e t hid hread h =>
    rw [h]
    have hrow : (d.patchPanelRegistryEntries.set e.id
        (InMemoryPatchPanelRegistry.entryWithMetadata e metadata t)).get? id =
        some (InMemoryPatchPanelRegistry.entryWithMetadata e metadata t) := by
      rw [hid]
      exact Dict.get?_set_self _ _ _
    exact hrow.symm ▸ .edited e t
  | @archived id t h =>
    rw [h]
    have hrow := (Dict.get?_modify d.patchPanelRegistryEntries id id fun e =>
      { e with status := .archived, archivedAt := some t, updatedAt := t }).trans (if_pos rfl)
    exact hrow.symm ▸ .archived t
  | @superseded id by_ t h =>
    rw [h]
    have hrow := (Dict.get?_modify d.patchPanelRegistryEntries id id fun e =>
      { e with status := .superseded, supersedesEntryId := some by_, updatedAt := t }).trans
        (if_pos rfl)
    exact hrow.symm ▸ .superseded t

/-- The other entries are left alone. -/
theorem Done.others (h : call.Done log) (d : AuthorityTables) {id : Uuid}
    (hid : id ≠ call.entryId) : (log.view d).patchPanelRegistryEntries.get? id =
      d.patchPanelRegistryEntries.get? id := by
  rw [Log.view_writes]
  cases h with
  | untouched h => rw [h]; rfl
  | edited e t he hread h =>
    rw [h]
    exact Dict.get?_set_ne _ _ (he.symm ▸ hid)
  | archived t h =>
    rw [h]
    exact (Dict.get?_modify _ _ _ _).trans (if_neg hid)
  | superseded t h =>
    rw [h]
    exact (Dict.get?_modify _ _ _ _).trans (if_neg hid)

end Logs

end EntryCall

/-! ## Runs -/

namespace RegistrySystem

/-- What every reached state keeps. -/
structure Sound (σ : RegistrySystem) : Prop where
  grown : σ.Grown AuthorityTables.EntriesKeyed fun _ _ => True
  orderly : σ.Orderly SeesKeyed EntryCall.Path fun _ _ => True

section Steps
variable {engine : AuthorityEngine} {env : Supply authority} {d : AuthorityTables}
  {σ : RegistrySystem}

theorem step_move (engine : AuthorityEngine) (env : Supply authority) (σ : RegistrySystem)
    (a : Action EntryCall) :
    Move env (EntryCall.program engine) σ (step engine env σ a) :=
  System.step_move env (EntryCall.program engine) σ a

theorem Sound.step (h : σ.Sound) (a : Action EntryCall) : (step engine env σ a).Sound := by
  refine ⟨h.grown.moves AuthorityTables.entries_growth (step_move engine env σ a), ?_⟩
  refine h.orderly.moves (fun i n s o rest hs hopen ho => ?_) (fun s _ => ?_) (step_move engine env σ a)
  · exact h.grown.follows AuthorityTables.entries_growth hs hopen ho
  · exact s.call.program_path engine

theorem sound_run (hkeyed : d.EntriesKeyed) (actions : List (Action EntryCall)) :
    (run engine env d actions).Sound := by
  induction actions using List.reverseRecOn with
  | nil => exact ⟨.start hkeyed rfl, .start rfl⟩
  | append_singleton actions a ih =>
    rw [run, List.foldl_append]
    exact ih.step a

theorem run_append (before after : List (Action EntryCall)) :
    run engine env d (before ++ after) = after.foldl (step engine env) (run engine env d before) :=
  List.foldl_append

theorem run_concat (before : List (Action EntryCall)) (a : Action EntryCall) :
    run engine env d (before ++ [a]) = step engine env (run engine env d before) a :=
  run_append before [a]

/-- A step that publishes leaves its entry as the call does. -/
theorem Publishes.leaves {i : Nat} {call : EntryCall} (hp : σ.Publishes i call)
    (engine : AuthorityEngine) (env : Supply authority) (h : σ.Sound) : call.Leaves (σ.entryAt call.entryId)
      ((step engine env σ (.advance i)).entryAt call.entryId) := by
  obtain ⟨s, hs, hopen, hrest, rfl, hwrites⟩ := hp
  have hdata : (step engine env σ (.advance i)).data = s.log.view σ.data := by
    obtain ⟨a, ha⟩ : ∃ a, s.rest = .ret a := by
      cases hr : s.rest <;> rw [hr] at hrest <;> first | exact ⟨_, rfl⟩ | cases hrest
    simp only [step, System.step, hs, hopen, if_true, System.advance, ha]
  unfold entryAt
  rw [hdata]
  exact (h.orderly.log hs).done.leaves hwrites σ.data

/-- An entry changes only by a step that publishes. -/
theorem step_entry (engine : AuthorityEngine) (env : Supply authority) (h : σ.Sound)
    (a : Action EntryCall) (id : Uuid) :
    (step engine env σ a).entryAt id = σ.entryAt id ∨
    ∃ i call, a = .advance i ∧ σ.Publishes i call ∧ call.entryId = id := by
  rcases (step_move engine env σ a).data with hsame | ⟨i, s, hcommits⟩
  · exact .inl (congrArg (·.patchPanelRegistryEntries.get? id) hsame)
  · have hdone := (h.orderly.log hcommits.session).done
    have hview : (step engine env σ a).entryAt id =
        (s.log.view σ.data).patchPanelRegistryEntries.get? id :=
      congrArg (·.patchPanelRegistryEntries.get? id) hcommits.data
    by_cases hid : id = s.call.entryId
    · by_cases hwrites : s.log.writes = []
      · rw [hview, Log.view_writes, hwrites]
        exact .inl rfl
      · exact .inr ⟨i, s.call, hcommits.action, ⟨s, hcommits.session, hcommits.opened,
          hcommits.returns, rfl, hwrites⟩, hid.symm⟩
    · exact .inl (hview.trans (hdone.others σ.data hid))

end Steps

end RegistrySystem

open RegistrySystem

section Runs
variable {engine : AuthorityEngine} {env : Supply authority} {d : AuthorityTables}

theorem Outdated.keep {actions : List (Action EntryCall)} {i : Nat} {id : Uuid}
    (h : Outdated engine env d actions i id) (a : Action EntryCall) :
    Outdated engine env d (actions ++ [a]) i id := by
  obtain ⟨before, k, after, call, rfl, hread, hp, hid, hleaves⟩ := h
  exact ⟨before, k, after ++ [a], call, by simp, hread, hp, hid, hleaves⟩

/-- A step on a draft leaves a draft, or it outdates what the session has read. -/
theorem draft_step (engine : AuthorityEngine) (env : Supply authority) (hkeyed : d.EntriesKeyed)
    {actions : List (Action EntryCall)} {i : Nat} {id : Uuid}
    (hread : (run engine env d actions).HasRead i)
    (hdraft : ∃ e, (run engine env d actions).entryAt id = some e ∧ e.status = .draft)
    (a : Action EntryCall) :
    (∃ e, (run engine env d (actions ++ [a])).entryAt id = some e ∧ e.status = .draft) ∨
      Outdated engine env d (actions ++ [a]) i id := by
  have hsound : (run engine env d actions).Sound := sound_run hkeyed actions
  rw [run_concat]
  rcases step_entry engine env hsound a id with hsame | ⟨k, call, rfl, hp, rfl⟩
  · rw [hsame]
    exact .inl hdraft
  · have hrow := hp.leaves engine env hsound
    cases hleaves : call.leavesDraft with
    | true => exact .inr ⟨actions, k, [], call, rfl, hread, hp, rfl, hleaves⟩
    | false => exact .inl (hrow.draft hleaves)

/-- An entry that an open session has read in DRAFT is still in DRAFT, or what the session
has read is outdated. -/
theorem draft_or_outdated (hkeyed : d.EntriesKeyed) (actions : List (Action EntryCall))
    {i : Nat} {s : Session authority EntryCall Unit} {id : Uuid}
    (hs : (run engine env d actions).sessions[i]? = some s) (hopen : s.status = .opened)
    (hread : SawDraft id s.log) :
    (∃ e, (run engine env d actions).entryAt id = some e ∧ e.status = .draft) ∨
      Outdated engine env d actions i id := by
  induction actions using List.reverseRecOn generalizing s with
  | nil => cases hs
  | append_singleton actions a ih =>
    have hsound : (run engine env d (actions ++ [a])).Sound := sound_run hkeyed _
    rw [run_concat] at hs hsound ⊢
    have hmove := step_move engine env (run engine env d actions) a
    rcases hmove.opened hs hopen with
      hold | ⟨-, call, rfl⟩ | ⟨hdata, s₀, o, rest, hs₀, hopen₀, ho, rfl⟩
    · rcases ih hold hopen hread with hdraft | houtdated
      · obtain ⟨e, ⟨seen, hsaw, -⟩, -⟩ := hread
        have hstep := draft_step engine env hkeyed ⟨s, hold, _, seen, hsaw⟩ hdraft a
        rwa [run_concat] at hstep
      · exact .inr (houtdated.keep a)
    · obtain ⟨e, ⟨seen, hsaw, -⟩, -⟩ := hread
      cases hsaw
    · have hsame : (step engine env (run engine env d actions) a).entryAt id =
          (run engine env d actions).entryAt id :=
        congrArg (·.patchPanelRegistryEntries.get? id) hdata
      obtain ⟨e, ⟨seen, hsaw, he⟩, hdraft⟩ := hread
      rcases List.mem_cons.mp hsaw with rfl | hsaw
      · -- The session has just read what is committed.
        have hnone : s₀.log.writes = [] := (hsound.orderly.log hs).reads
        have hseen : seen = (run engine env d actions).data := by
          rw [ho.data_eq rfl, Log.view_writes, hnone]
          rfl
        rw [hseen] at he
        exact .inl ⟨e, hsame.trans he, hdraft⟩
      · rw [hsame]
        exact (ih hs₀ hopen₀ ⟨e, ⟨seen, hsaw, he⟩, hdraft⟩).imp_right (·.keep a)

/-- What is edited was read in DRAFT. -/
theorem RegistrySystem.Publishes.sawDraft {σ : RegistrySystem} (h : σ.Sound) {i : Nat} {id : Uuid}
    {metadata : PatchPanelRegistryMetadata} (hp : σ.Publishes i (.updateMetadata id metadata)) :
    ∃ s, σ.sessions[i]? = some s ∧ s.status = .opened ∧ SawDraft id s.log := by
  obtain ⟨s, hs, hopen, -, hcall, hwrites⟩ := hp
  have hdone := (h.orderly.log hs).done
  rw [hcall] at hdone
  cases hdone with
  | untouched hnone => exact (hwrites hnone).elim
  | edited e t hid hread hw => exact ⟨s, hs, hopen, hread⟩

/-- Where every edit finds a draft, a row out of DRAFT changes by the other calls only. -/
theorem OnlyDraftsEdited.step (hkeyed : d.EntriesKeyed) {actions : List (Action EntryCall)}
    (h : OnlyDraftsEdited engine env d actions) (before : List (Action EntryCall))
    (a : Action EntryCall) (after : List (Action EntryCall)) (hactions : actions = before ++ a :: after) {id : Uuid}
    (hout : ∀ e, (run engine env d before).entryAt id = some e → e.status ≠ .draft) :
    (run engine env d (before ++ [a])).entryAt id = (run engine env d before).entryAt id ∨
    ∃ call : EntryCall, (∀ id metadata, call ≠ .updateMetadata id metadata) ∧
      call.Leaves ((run engine env d before).entryAt id)
        ((run engine env d (before ++ [a])).entryAt id) := by
  have hsound : (run engine env d before).Sound := sound_run hkeyed before
  rw [run_concat]
  rcases step_entry engine env hsound a id with hsame | ⟨k, call, rfl, hp, rfl⟩
  · exact .inl hsame
  · refine .inr ⟨call, fun id' metadata hcall => ?_, hp.leaves engine env hsound⟩
    rw [hcall] at hp hout
    obtain ⟨e, he, hdraft⟩ := h before k after id' metadata hactions hp
    exact hout e he hdraft

theorem PatchPanelRegistryEntry.StaysRetired.trans {e e₁ e₂ : PatchPanelRegistryEntry}
    (h : e.StaysRetired e₁) (h' : e₁.StaysRetired e₂) : e.StaysRetired e₂ := by
  refine ⟨h'.retired, fun ha => h'.archivedAt (h.archivedAt ha), ?_⟩
  rw [h'.same, h.same]

theorem PatchPanelRegistryEntry.isRetired_not_draft {e : PatchPanelRegistryEntry}
    (h : e.isRetired = true) : e.status ≠ .draft := by
  intro hdraft
  rw [isRetired, hdraft] at h
  cases h

/-- Where every edit finds a draft, a retired entry stays retired. -/
theorem OnlyDraftsEdited.retiredKept (hkeyed : d.EntriesKeyed)
    {actions : List (Action EntryCall)} (h : OnlyDraftsEdited engine env d actions) :
    RetiredKept engine env d actions := by
  intro before between after hactions id e he hretired
  induction between using List.reverseRecOn generalizing after with
  | nil =>
    rw [List.append_nil]
    exact ⟨e, he, hretired, fun h => h, rfl⟩
  | append_singleton between a ih =>
    obtain ⟨e₁, he₁, hstays⟩ := ih (a :: after) (by simp [hactions])
    have hout : ∀ e', (run engine env d (before ++ between)).entryAt id = some e' →
        e'.status ≠ .draft := by
      intro e' he'
      rw [he₁] at he'
      cases he'
      exact PatchPanelRegistryEntry.isRetired_not_draft hstays.retired
    rw [← List.append_assoc]
    rcases h.step hkeyed _ a after (by simp [hactions]) hout with
      hsame | ⟨call, hcall, hleaves⟩
    · exact ⟨e₁, hsame.trans he₁, hstays⟩
    · obtain ⟨e₂, he₂, hstays₂⟩ := hleaves.retired hcall he₁
      exact ⟨e₂, he₂, hstays.trans hstays₂⟩

/-- Once out of DRAFT, an entry stays out of it as long as every edit finds a draft. -/
theorem OnlyDraftsEdited.stays_out (hkeyed : d.EntriesKeyed)
    {actions : List (Action EntryCall)} (h : OnlyDraftsEdited engine env d actions)
    (before between after : List (Action EntryCall))
    (hactions : actions = before ++ (between ++ after)) {id : Uuid}
    (hout : ∀ e, (run engine env d before).entryAt id = some e → e.status ≠ .draft) :
    ∀ e, (run engine env d (before ++ between)).entryAt id = some e → e.status ≠ .draft := by
  induction between using List.reverseRecOn generalizing after with
  | nil =>
    rw [List.append_nil]
    exact hout
  | append_singleton between a ih =>
    have hbetween := @ih (a :: after) (by simp [hactions])
    rw [← List.append_assoc]
    rcases h.step hkeyed _ a after (by simp [hactions]) hbetween with
      hsame | ⟨call, hcall, hleaves⟩
    · rw [hsame]
      exact hbetween
    · refine fun e he => hleaves.not_draft ?_ he
      cases call with
      | updateMetadata id' metadata => exact (hcall id' metadata rfl).elim
      | archive id' => rfl
      | supersede id' by_ => rfl

/-- Edits that leave the entry in DRAFT outdate nothing. -/
theorem not_outdated {actions : List (Action EntryCall)}
    (hcalls : ∀ call, .begin call ∈ actions → call.leavesDraft = false) (i : Nat) (id : Uuid) :
    ¬ Outdated engine env d actions i id := by
  rintro ⟨before, k, after, call, rfl, -, ⟨s, hs, -, -, rfl, -⟩, -, hleaves⟩
  have hbegun : ∀ call, .begin call ∈ before → call.leavesDraft = false :=
    fun call hmem => hcalls call (List.mem_append_left _ hmem)
  have hall : ∀ s ∈ (run engine env d before).sessions, s.call.leavesDraft = false := by
    clear hcalls hs
    induction before using List.reverseRecOn with
    | nil => exact fun s hmem => (List.not_mem_nil hmem).elim
    | append_singleton before a ih =>
      rw [run_concat]
      refine System.step_calls (K := fun call : EntryCall => call.leavesDraft = false)
        (ih fun call hmem => hbegun call (List.mem_append_left _ hmem)) ?_
      rintro call rfl
      exact hbegun call (by simp)
  rw [hall s (List.mem_of_getElem? hs)] at hleaves
  cases hleaves

/-- In any interleaving `update_metadata` edits drafts only and brings no archived or
superseded entry back, exactly if no edit is written after what it has read is outdated. -/
theorem drafts_edited_iff (engine : AuthorityEngine) (env : Supply authority)
    (d : AuthorityTables) (hkeyed : d.EntriesKeyed) (actions : List (Action EntryCall)) :
    (OnlyDraftsEdited engine env d actions ∧ RetiredKept engine env d actions) ↔
    ∀ before i after id metadata, actions = before ++ .advance i :: after →
      (run engine env d before).Publishes i (.updateMetadata id metadata) →
      ¬ Outdated engine env d before i id := by
  constructor
  · rintro ⟨hdrafts, -⟩ before i after id metadata rfl hp
      ⟨start, k, rest, call, rfl, -, hk, hid, hleaves⟩
    have hsound : (run engine env d start).Sound := sound_run hkeyed start
    have hout : ∀ e, (run engine env d (start ++ [.advance k])).entryAt id = some e →
        e.status ≠ .draft := by
      intro e he
      rw [run_concat, ← hid] at he
      exact (hk.leaves engine env hsound).not_draft hleaves he
    have hstill := hdrafts.stays_out hkeyed (start ++ [.advance k]) rest
      (.advance i :: after) (by simp) hout
    obtain ⟨e, he, hdraft⟩ := hdrafts _ i after id metadata rfl hp
    exact hstill e (by simpa using he) hdraft
  · intro hok
    have hdrafts : OnlyDraftsEdited engine env d actions := by
      intro before i after id metadata hactions hp
      obtain ⟨s, hs, hopen, hread⟩ := hp.sawDraft (sound_run hkeyed before)
      exact (draft_or_outdated hkeyed before hs hopen hread).resolve_right
        (hok before i after id metadata hactions hp)
    exact ⟨hdrafts, hdrafts.retiredKept hkeyed⟩

end Runs

/-! An archive commits while an edit holds its copy of the row. -/

def openEntry : PatchPanelRegistryEntry :=
  ⟨⟨100⟩, "orders", "1", "Orders", none, [], [], [], [], [], none, none, none, none, .draft,
    none, [], 0, 0, none⟩

/-- The metadata of an edit that renames the entry. -/
def renamed : PatchPanelRegistryMetadata :=
  ⟨"Orders and returns", none, [], [], [], [], [], none, none, none, none, .draft⟩

def AuthorityTables.oneDraft : AuthorityTables :=
  { AuthorityTables.init with patchPanelRegistryEntries := Dict.empty.set openEntry.id openEntry }

theorem AuthorityTables.oneDraft_keyed : AuthorityTables.oneDraft.EntriesKeyed := by
  intro id e he
  change (Dict.empty.set openEntry.id openEntry).get? id = some e at he
  rw [Dict.get?_set] at he
  split at he
  · rename_i hid
    cases he
    exact hid.symm
  · cases he

/-- The edit has read the entry before it is archived, and writes it afterwards. -/
def lostArchive : List (Action EntryCall) :=
  [.begin (.updateMetadata openEntry.id renamed), .begin (.archive openEntry.id), .advance 0] ++
    List.replicate 6 (.advance 1) ++ List.replicate 6 (.advance 0)

theorem archive_lost : ¬ (OnlyDraftsEdited .simple World.simple.authoritySupply .oneDraft
    lostArchive ∧ RetiredKept .simple World.simple.authoritySupply .oneDraft lostArchive) := by
  rintro ⟨-, hkept⟩
  have harchived : ((run .simple World.simple.authoritySupply .oneDraft
      (lostArchive.take 9)).entryAt openEntry.id).any (·.isRetired) = true := by decide +kernel
  have hback : ((run .simple World.simple.authoritySupply .oneDraft lostArchive).entryAt
      openEntry.id).any (·.isRetired) = false := by decide +kernel
  obtain ⟨e, he, hretired⟩ := (Option.any_eq_true _ _).mp harchived
  obtain ⟨e', he', hstays⟩ := hkept (lostArchive.take 9) (lostArchive.drop 9) [] (by simp)
    openEntry.id e he hretired
  rw [List.take_append_drop] at he'
  rw [he', Option.any_some, hstays.retired] at hback
  cases hback

/-- Two edits, the second begun before the first is written. -/
def racingEdits : List (Action EntryCall) :=
  [.begin (.updateMetadata openEntry.id renamed), .begin (.updateMetadata openEntry.id renamed),
    .advance 0, .advance 1] ++ List.replicate 6 (.advance 0) ++ List.replicate 6 (.advance 1)

theorem drafts_edited_racingEdits :
    ((run .simple World.simple.authoritySupply .oneDraft racingEdits).entryAt openEntry.id).any
      (·.name = renamed.name) = true ∧
    OnlyDraftsEdited .simple World.simple.authoritySupply .oneDraft racingEdits ∧
    RetiredKept .simple World.simple.authoritySupply .oneDraft racingEdits := by
  refine ⟨by decide +kernel, (drafts_edited_iff .simple World.simple.authoritySupply .oneDraft
    AuthorityTables.oneDraft_keyed racingEdits).mpr ?_⟩
  intro before i after id metadata hactions _
  have hcalls : ∀ call, .begin call ∈ racingEdits → call.leavesDraft = false :=
    Action.forall_begin (by decide +kernel)
  exact not_outdated (fun call hcall => hcalls call (hactions ▸ List.mem_append_left _ hcall)) i id

end GhostMesh
