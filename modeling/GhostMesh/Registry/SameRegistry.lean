import GhostMesh.Genesis.SelectedVersion
import GhostMesh.Lib.Lockstep
import GhostMesh.Registry.Drafts

/-!
# The Postgres registry refines the in-memory one

The tables refuse what would break a key or a reference, and memory refuses neither. All
other calls, one at a time, are answered alike, up to the times at which entries were
updated: in memory an archived entry is stamped twice.
-/

set_option autoImplicit false

namespace GhostMesh

open ReadCommitted (Txn)

/-! ## Calls -/

/-- An operation of the registry. -/
inductive RegistryOperation where
  | register (entry : PatchPanelRegistryEntry)
  | get (entryId : Uuid)
  | search (filters : PatchPanelRegistrySearch)
  | updateMetadata (entryId : Uuid) (metadata : PatchPanelRegistryMetadata)
  | archive (entryId : Uuid)
  | supersede (entryId supersededByEntryId : Uuid)

namespace RegistryOperation

def single {σ : Type} (x : Op σ PatchPanelRegistryEntry) : Op σ (List PatchPanelRegistryEntry) := do
  let e ← x
  return [e]

/-- The call, with the entries that it returns. -/
def on {σ : Type} (R : PatchPanelRegistry σ) :
    RegistryOperation → Op σ (List PatchPanelRegistryEntry)
  | register entry => single (R.register entry)
  | get entryId => single (R.get entryId)
  | search filters => R.search filters
  | updateMetadata entryId metadata => single (R.updateMetadata entryId metadata)
  | archive entryId => single (R.archive entryId)
  | supersede entryId supersededByEntryId => single (R.supersede entryId supersededByEntryId)

/-- The call would enter an id twice, or refer to an owner or an entry that is not there. -/
def Refused (d : AuthorityTables) : RegistryOperation → Prop
  | register entry => d.patchPanelRegistryEntries.contains entry.id = true ∨
    d.knows entry.ownerParticipantId = false ∨
    ∃ old, entry.supersedesEntryId = some old ∧ old ≠ entry.id ∧
      d.patchPanelRegistryEntries.contains old = false
  | updateMetadata entryId metadata =>
    (∃ e, d.patchPanelRegistryEntries.get? entryId = some e ∧ e.status = .draft) ∧
      d.knows metadata.ownerParticipantId = false
  | supersede entryId supersededByEntryId =>
    d.patchPanelRegistryEntries.contains entryId = true ∧
      d.patchPanelRegistryEntries.contains supersededByEntryId = false
  | _ => False

abbrev Answer := Except PyErr (List PatchPanelRegistryEntry)

def onTables (engine : AuthorityEngine) (w : World) (c : RegistryOperation) (d : AuthorityTables) :
    Answer × AuthorityTables :=
  let r := (c.on (PostgresPatchPanelRegistry.registry engine)).run w ⟨d, 0, 0⟩
  (r.1, r.2.store)

def inMemory (w : World) (c : RegistryOperation) (s : InMemoryPatchPanelRegistry) :
    Answer × InMemoryPatchPanelRegistry :=
  let r := (c.on InMemoryPatchPanelRegistry.registry).run w ⟨s, 0, 0⟩
  (r.1, r.2.store)

end RegistryOperation

/-- A call of the registry, or a participant that another service has entered. -/
inductive RegistryStep where
  | call (w : World) (c : RegistryOperation)
  | participant (row : Participant)

/-! ## Agreement -/

/-- The entry without the time of its last update. -/
def PatchPanelRegistryEntry.undated (e : PatchPanelRegistryEntry) : PatchPanelRegistryEntry :=
  { e with updatedAt := 0 }

def PatchPanelRegistryEntry.asArchived (e : PatchPanelRegistryEntry)
    (archivedAt updatedAt : Instant) : PatchPanelRegistryEntry :=
  { e with status := .archived, archivedAt := some archivedAt, updatedAt }

def PatchPanelRegistryEntry.asSuperseded (e : PatchPanelRegistryEntry)
    (supersededByEntryId : Uuid) (updatedAt : Instant) : PatchPanelRegistryEntry :=
  { e with status := .superseded, supersedesEntryId := some supersededByEntryId, updatedAt }

/-- The same error, or the same entries in any order. -/
def SameAnswer : RegistryOperation.Answer → RegistryOperation.Answer → Prop
  | .ok found, .ok found' => (found.map (·.undated)).Perm (found'.map (·.undated))
  | .error e, .error e' => e = e'
  | _, _ => False

/-- The same entries, each under its id and with its references met. -/
structure SameEntries (d : AuthorityTables) (s : InMemoryPatchPanelRegistry) : Prop where
  same : d.patchPanelRegistryEntries.mapValues (·.undated) = s.entries.mapValues (·.undated)
  keyed : d.EntriesKeyed
  refers : ∀ id e, d.patchPanelRegistryEntries.get? id = some e → d.entryRefers e = true

/-- Each call is refused by the tables and changes nothing there, or is answered alike on
both sides; and then both hold the same entries. -/
def Agree (engine : AuthorityEngine) :
    AuthorityTables → InMemoryPatchPanelRegistry → List RegistryStep → Prop
  | _, _, [] => True
  | d, s, .participant row :: steps =>
    Agree engine { d with participants := d.participants.set row.id row } s steps
  | d, s, .call w c :: steps =>
    (c.Refused d ∧ (∃ text, (c.onTables engine w d).1 = .error (.integrity text)) ∧
      (c.onTables engine w d).2 = d ∧ Agree engine d s steps) ∨
    (¬ c.Refused d ∧ SameAnswer (c.onTables engine w d).1 (c.inMemory w s).1 ∧
      SameEntries (c.onTables engine w d).2 (c.inMemory w s).2 ∧
      Agree engine (c.onTables engine w d).2 (c.inMemory w s).2 steps)

/-! ## The transactions alone -/

section Alone
open PostgresPatchPanelRegistry
variable (engine : AuthorityEngine) {env : ReadCommitted.Supply authority} {d : AuthorityTables}
  (n m : Nat)

/-- The tables with this row. -/
def AuthorityTables.putEntry (d : AuthorityTables) (e : PatchPanelRegistryEntry) :
    AuthorityTables :=
  { d with patchPanelRegistryEntries := d.patchPanelRegistryEntries.set e.id e }

/-- The refusal of a row whose reference is not met. -/
def AuthorityEngine.missingEntry : PyErr := .integrity (engine.missingReference entriesTable)

theorem registerTx_aloneOn (e : PatchPanelRegistryEntry) :
    (registerTx engine e).aloneOn env d n m =
      if d.patchPanelRegistryEntries.contains e.id then
        (.error (.integrity (engine.duplicateKey entriesTable)), d, n, m)
      else (if (d.putEntry e).entryRefers e then .ok e else .error engine.missingEntry,
        d.putEntry e, n, m) := by
  refine (Txn.aloneOn_bind _ _ _ _ _ _).trans ?_
  rw [insertReferring_aloneOn]
  cases d.patchPanelRegistryEntries.contains e.id with
  | true => rfl
  | false =>
    have happly : AuthorityWrite.apply d (.registryEntry e) = d.putEntry e := rfl
    rw [if_neg Bool.false_ne_true, if_neg Bool.false_ne_true, happly]
    cases (d.putEntry e).entryRefers e <;> rfl

theorem getTx_aloneOn (entryId : Uuid) :
    (getTx entryId).aloneOn env d n m =
      (match d.patchPanelRegistryEntries.get? entryId with
        | some e => .ok e
        | none => .error
            (.notFound s!"Patch Panel registry entry '{entryId.str}' does not exist"),
        d, n, m) := by
  change (match d.patchPanelRegistryEntries.get? entryId with
    | some e => Txn.ret e
    | none => Txn.raise
        (.notFound s!"Patch Panel registry entry '{entryId.str}' does not exist") :
      AuthorityTx _).aloneOn _ _ _ _ = _
  cases d.patchPanelRegistryEntries.get? entryId <;> rfl

/-- An update without a row writes nothing. -/
theorem updateEntry_missing {entryId : Uuid} (x : AuthorityWrite)
    (h : d.patchPanelRegistryEntries.get? entryId = none) :
    (updateEntry engine entryId x).aloneOn env d n m = (.ok false, d, n, m) := by
  have hmissing : d.patchPanelRegistryEntries.contains entryId = false := by
    rw [Dict.contains, h]
    rfl
  change (if d.patchPanelRegistryEntries.contains entryId then _ else
    (Txn.ret false : AuthorityTx Bool)).aloneOn env d n m = _
  rw [hmissing]
  rfl

/-- An update of a row fails if the new row has a reference that is not met. -/
theorem updateEntry_found {x : AuthorityWrite} {e e' : PatchPanelRegistryEntry}
    (h : d.patchPanelRegistryEntries.get? e'.id = some e) (hx : x.apply d = d.putEntry e') :
    (updateEntry engine e'.id x).aloneOn env d n m =
      (if (d.putEntry e').entryRefers e' then .ok true else .error engine.missingEntry,
        d.putEntry e', n, m) := by
  have hfound : d.patchPanelRegistryEntries.contains e'.id = true := Dict.contains_of_get? h
  change (if d.patchPanelRegistryEntries.contains e'.id then writeEntry engine e'.id x else
    (Txn.ret false : AuthorityTx Bool)).aloneOn env d n m = _
  rw [hfound, if_pos rfl]
  change (if d.patchPanelRegistryEntries.contains e'.id then _ else
    (Txn.ret false : AuthorityTx Bool)).aloneOn env d n m = _
  rw [hfound, if_pos rfl]
  refine (Txn.aloneOn_bind _ _ _ _ _ _).trans ?_
  change ((Txn.ensure _ _).bind _).aloneOn env (x.apply d) n m = _
  have happly : authority.apply x d = d.putEntry e' := hx
  rw [happly, Txn.aloneOn_bind, Txn.aloneOn_ensure]
  have hrow : (d.putEntry e').patchPanelRegistryEntries.get? e'.id = some e' :=
    Dict.get?_set_self _ _ _
  rw [hrow, Option.all_some]
  cases (d.putEntry e').entryRefers e' with
  | true =>
    rw [hx]
    rfl
  | false =>
    rw [hx]
    rfl

end Alone

/-! ## One call -/

section Entries
variable {d : AuthorityTables} {s : InMemoryPatchPanelRegistry}

theorem AuthorityTables.contains_putEntry (e : PatchPanelRegistryEntry) (id : Uuid) :
    (d.putEntry e).patchPanelRegistryEntries.contains id = true ↔
      id = e.id ∨ d.patchPanelRegistryEntries.contains id = true :=
  Dict.contains_set _ _ _ _

theorem AuthorityTables.entryRefers_iff {e : PatchPanelRegistryEntry} :
    d.entryRefers e = true ↔ d.knows e.ownerParticipantId = true ∧
      ∀ old, e.supersedesEntryId = some old → d.patchPanelRegistryEntries.contains old = true := by
  unfold AuthorityTables.entryRefers
  rw [Bool.and_eq_true, Option.all_eq_true]

/-- References that are met stay met when an entry is written. -/
theorem AuthorityTables.entryRefers_putEntry {e f : PatchPanelRegistryEntry}
    (h : d.entryRefers f = true) : (d.putEntry e).entryRefers f = true := by
  obtain ⟨howner, hold⟩ := AuthorityTables.entryRefers_iff.mp h
  refine AuthorityTables.entryRefers_iff.mpr ⟨howner, fun old hf => ?_⟩
  exact (AuthorityTables.contains_putEntry e old).mpr (.inr (hold old hf))

theorem SameEntries.lookup (h : SameEntries d s) (id : Uuid) :
    (d.patchPanelRegistryEntries.get? id = none ∧ s.entries.get? id = none) ∨
    ∃ e e', d.patchPanelRegistryEntries.get? id = some e ∧ s.entries.get? id = some e' ∧
      e.undated = e'.undated := by
  have hget := congrArg (Dict.get? · id) h.same
  simp only [Dict.get?_mapValues] at hget
  cases hd : d.patchPanelRegistryEntries.get? id with
  | none =>
    rw [hd, Option.map_none] at hget
    exact .inl ⟨rfl, Option.map_eq_none_iff.mp hget.symm⟩
  | some e =>
    rw [hd, Option.map_some] at hget
    obtain ⟨e', he', hundated⟩ := Option.map_eq_some_iff.mp hget.symm
    exact .inr ⟨e, e', rfl, he', hundated.symm⟩

/-- The same entry is written on both sides. -/
theorem SameEntries.put {e e' : PatchPanelRegistryEntry} (h : SameEntries d s)
    (hundated : e.undated = e'.undated) (hrefers : (d.putEntry e).entryRefers e = true) :
    SameEntries (d.putEntry e) (s.put e') where
  same := by
    have hid : e.undated.id = e'.undated.id := congrArg PatchPanelRegistryEntry.id hundated
    change e.id = e'.id at hid
    change (d.patchPanelRegistryEntries.set e.id e).mapValues _ =
      (s.entries.set e'.id e').mapValues _
    rw [Dict.mapValues_set, Dict.mapValues_set, h.same, hundated, hid]
  keyed id f hf := by
    change (d.patchPanelRegistryEntries.set e.id e).get? id = some f at hf
    rw [Dict.get?_set] at hf
    split at hf
    · rename_i hid
      cases hf
      exact hid.symm
    · exact h.keyed id f hf
  refers id f hf := by
    change (d.patchPanelRegistryEntries.set e.id e).get? id = some f at hf
    rw [Dict.get?_set] at hf
    split at hf
    · cases hf
      exact hrefers
    · exact AuthorityTables.entryRefers_putEntry (h.refers id f hf)

/-- Participants only make more references met. -/
theorem SameEntries.participant (h : SameEntries d s) (row : Participant) :
    SameEntries { d with participants := d.participants.set row.id row } s where
  same := h.same
  keyed := h.keyed
  refers id e he := by
    obtain ⟨howner, hold⟩ := AuthorityTables.entryRefers_iff.mp (h.refers id e he)
    refine AuthorityTables.entryRefers_iff.mpr ⟨?_, hold⟩
    rw [AuthorityTables.knows, Option.all_eq_true] at howner ⊢
    exact fun owner ho => (Dict.contains_set _ _ _ _).mpr (.inr (howner owner ho))

end Entries

namespace RegistryOperation

section Calls
open PostgresPatchPanelRegistry
variable {engine : AuthorityEngine} {w : World} {d : AuthorityTables}
  {s : InMemoryPatchPanelRegistry}

/-- The call is refused by the tables, or answered alike. -/
inductive Answered (engine : AuthorityEngine) (w : World) (c : RegistryOperation)
    (d : AuthorityTables) (s : InMemoryPatchPanelRegistry) : Prop where
  | refused (h : c.Refused d) (text : String)
      (hraise : (c.onTables engine w d).1 = .error (.integrity text))
      (hsame : (c.onTables engine w d).2 = d)
  | alike (h : ¬ c.Refused d)
      (hanswer : SameAnswer (c.onTables engine w d).1 (c.inMemory w s).1)
      (hentries : SameEntries (c.onTables engine w d).2 (c.inMemory w s).2)

theorem run_single_ok {σ : Type} {x : Op σ PatchPanelRegistryEntry} {m m' : Machine σ}
    {e : PatchPanelRegistryEntry} (h : x.run w m = (.ok e, m')) :
    (single x).run w m = (.ok [e], m') := by
  unfold single
  rw [Exec.run_bind_ok h]
  rfl

theorem run_single_error {σ : Type} {x : Op σ PatchPanelRegistryEntry} {m m' : Machine σ}
    {e : PyErr} (h : x.run w m = (.error e, m')) : (single x).run w m = (.error e, m') :=
  Exec.run_bind_error h

/-- The tables refuse the call. -/
theorem Answered.of_refused {c : RegistryOperation} {m : Machine AuthorityTables} {text : String}
    (h : c.Refused d)
    (hrun : (c.on (registry engine)).run w ⟨d, 0, 0⟩ = (.error (.integrity text), m))
    (hsame : m.store = d) : c.Answered engine w d s := by
  refine .refused h text ?_ ?_
  · rw [onTables, hrun]
  · rw [onTables, hrun]
    exact hsame

/-- Both sides have run the call. -/
theorem Answered.of_runs {c : RegistryOperation} {m : Machine AuthorityTables}
    {m' : Machine InMemoryPatchPanelRegistry} {r r' : Answer} (h : ¬ c.Refused d)
    (hrun : (c.on (registry engine)).run w ⟨d, 0, 0⟩ = (r, m))
    (hrun' : (c.on InMemoryPatchPanelRegistry.registry).run w ⟨s, 0, 0⟩ = (r', m'))
    (hanswer : SameAnswer r r') (hentries : SameEntries m.store m'.store) :
    c.Answered engine w d s := by
  refine .alike h ?_ ?_
  · rw [onTables, inMemory, hrun, hrun']
    exact hanswer
  · rw [onTables, inMemory, hrun, hrun']
    exact hentries

theorem refused_register_iff {e : PatchPanelRegistryEntry} :
    (register e).Refused d ↔ d.patchPanelRegistryEntries.contains e.id = true ∨
      (d.putEntry e).entryRefers e = false := by
  refine or_congr_right ?_
  rw [← Bool.not_eq_true (d.knows _), ← Bool.not_eq_true ((d.putEntry e).entryRefers e),
    AuthorityTables.entryRefers_iff]
  change _ ↔ ¬ (d.knows e.ownerParticipantId = true ∧ _)
  simp only [AuthorityTables.contains_putEntry]
  constructor
  · rintro (howner | ⟨old, hold, hne, hmissing⟩) ⟨hknown, hall⟩
    · exact howner hknown
    · rcases hall old hold with heq | hfound
      · exact hne heq
      · rw [hmissing] at hfound
        cases hfound
  · intro hnot
    by_contra hmet
    rw [not_or] at hmet
    obtain ⟨howner, hold⟩ := hmet
    refine hnot ⟨not_not.mp howner, fun old hsome => ?_⟩
    by_contra hmissing
    rw [not_or] at hmissing
    exact hold ⟨old, hsome, hmissing.1, Bool.eq_false_iff.mpr hmissing.2⟩

theorem register_answered (h : SameEntries d s) (e : PatchPanelRegistryEntry) :
    (register e).Answered engine w d s := by
  have halone : (registerTx engine e).aloneOn w.authoritySupply d 0 0 = _ :=
    registerTx_aloneOn engine 0 0 e
  cases htaken : d.patchPanelRegistryEntries.contains e.id with
  | true =>
    rw [htaken, if_pos rfl] at halone
    exact .of_refused (refused_register_iff.mpr (.inl htaken))
      (run_single_error (Op.run_committed_error (m := ⟨d, 0, 0⟩) halone)) rfl
  | false =>
    rw [htaken, if_neg Bool.false_ne_true] at halone
    cases hrefers : (d.putEntry e).entryRefers e with
    | false =>
      rw [hrefers, if_neg Bool.false_ne_true] at halone
      exact .of_refused (refused_register_iff.mpr (.inr hrefers))
        (run_single_error (Op.run_committed_error (m := ⟨d, 0, 0⟩) halone)) rfl
    | true =>
      rw [hrefers, if_pos rfl] at halone
      have hnot : ¬ (register e).Refused d := by
        rw [refused_register_iff, htaken, hrefers]
        simp
      have hmemory : ((register e).on InMemoryPatchPanelRegistry.registry).run w ⟨s, 0, 0⟩ =
          (.ok [e], ⟨s.put e, 0, 0⟩) := run_single_ok rfl
      exact .of_runs hnot (run_single_ok (Op.run_committed_ok (m := ⟨d, 0, 0⟩) halone)) hmemory
        (.refl _) (h.put rfl hrefers)

theorem get_answered (h : SameEntries d s) (entryId : Uuid) :
    (get entryId).Answered engine w d s := by
  have htables := run_getTx (w := w) entryId (⟨d, 0, 0⟩ : Machine AuthorityTables)
  have hmemory := InMemoryPatchPanelRegistry.run_registryGet entryId w ⟨s, 0, 0⟩
  rcases h.lookup entryId with ⟨hd, hs⟩ | ⟨e, e', hd, hs, hundated⟩
  · simp only [hd, hs] at htables hmemory
    exact .of_runs id (run_single_error htables) (run_single_error hmemory) rfl h
  · simp only [hd, hs] at htables hmemory
    exact .of_runs id (run_single_ok htables) (run_single_ok hmemory)
      (List.Perm.of_eq (congrArg (fun e => [e]) hundated)) h

theorem search_answered (h : SameEntries d s) (filters : PatchPanelRegistrySearch) :
    (search filters).Answered engine w d s := by
  have htables : ((search filters).on (registry engine)).run w ⟨d, 0, 0⟩ =
      (.ok ((engine.rows d d.patchPanelRegistryEntries.values).filter
        (entryMatches · filters)), ⟨d, 0, 0⟩) := rfl
  have hmemory : ((search filters).on InMemoryPatchPanelRegistry.registry).run w ⟨s, 0, 0⟩ =
      (.ok (s.entries.values.filter (entryMatches · filters)), ⟨s, 0, 0⟩) := rfl
  refine .of_runs id htables hmemory ?_ h
  have hvalues : d.patchPanelRegistryEntries.values.map (·.undated) =
      s.entries.values.map (·.undated) := by
    rw [← Dict.values_mapValues, ← Dict.values_mapValues, h.same]
  have hfilter : ∀ es : List PatchPanelRegistryEntry,
      (es.filter (entryMatches · filters)).map (·.undated) =
        (es.map (·.undated)).filter (entryMatches · filters) := by
    intro es
    rw [List.filter_map]
    rfl
  change List.Perm _ _
  rw [hfilter, hfilter, ← hvalues]
  exact ((engine.rows_perm d _).map _).filter _

/-- An edit without an entry. -/
theorem updateMetadata_missing {entryId : Uuid} (metadata : PatchPanelRegistryMetadata)
    (hd : d.patchPanelRegistryEntries.get? entryId = none)
    (hs : s.entries.get? entryId = none) (h : SameEntries d s) :
    (updateMetadata entryId metadata).Answered engine w d s := by
  have hget : (getTx entryId).aloneOn w.authoritySupply d 0 0 = _ := getTx_aloneOn 0 0 entryId
  have hread := InMemoryPatchPanelRegistry.run_registryGet entryId w ⟨s, 0, 0⟩
  rw [hd] at hget
  rw [hs] at hread
  have htables : (updateMetadataTx engine entryId metadata).aloneOn w.authoritySupply d 0 0 =
      (.error (.notFound s!"Patch Panel registry entry '{entryId.str}' does not exist"), d, 0,
        0) := by
    refine (Txn.aloneOn_bind _ _ _ _ _ _).trans ?_
    rw [hget]
  have hmemory : (InMemoryPatchPanelRegistry.updateMetadata entryId metadata).run w ⟨s, 0, 0⟩ =
      (.error (.notFound s!"Patch Panel registry entry '{entryId.str}' does not exist"),
        ⟨s, 0, 0⟩) := by
    unfold InMemoryPatchPanelRegistry.updateMetadata
    exact Exec.run_bind_error hread
  have hnot : ¬ (updateMetadata entryId metadata).Refused d := by
    rintro ⟨⟨e, he, -⟩, -⟩
    rw [hd] at he
    cases he
  exact .of_runs hnot (run_single_error (Op.run_committed_error (m := ⟨d, 0, 0⟩) htables))
    (run_single_error hmemory) rfl h

/-- What an edit of an entry does in the tables. -/
theorem updateMetadataTx_found (engine : AuthorityEngine) {entryId : Uuid}
    (metadata : PatchPanelRegistryMetadata) {e updated : PatchPanelRegistryEntry}
    (hd : d.patchPanelRegistryEntries.get? entryId = some e) (hid : e.id = entryId)
    (hupdated : InMemoryPatchPanelRegistry.entryWithMetadata e metadata (w.clock 0) = updated) :
    (updateMetadataTx engine entryId metadata).aloneOn w.authoritySupply d 0 0 =
      if e.status = .draft then
        (if (d.putEntry updated).entryRefers updated then .ok updated
          else .error engine.missingEntry, d.putEntry updated, 1, 0)
      else (.error (.conflict "only draft registry entries can be edited"), d, 0, 0) := by
  have hget : (getTx entryId).aloneOn w.authoritySupply d 0 0 = _ := getTx_aloneOn 0 0 entryId
  rw [hd] at hget
  refine (Txn.aloneOn_bind _ _ _ _ _ _).trans ?_
  rw [hget]
  change ((Txn.ensure (S := authority) (e.status = .draft) _).bind _).aloneOn _ d 0 0 = _
  rw [Txn.aloneOn_bind, Txn.aloneOn_ensure]
  by_cases hdraft : e.status = .draft
  · rw [if_pos hdraft, if_pos (decide_eq_true hdraft)]
    have hid' : updated.id = entryId := by
      rw [← hupdated]
      exact hid
    have hwrite : (updateEntry engine updated.id (.registryEntry updated)).aloneOn
        w.authoritySupply d 1 0 = _ := updateEntry_found engine 1 0 (hid' ▸ hd) rfl
    rw [hid'] at hwrite
    change ((updateEntry engine entryId (.registryEntry (InMemoryPatchPanelRegistry.entryWithMetadata
      e metadata (w.clock 0)))).bind fun _ => Txn.ret _).aloneOn _ d 1 0 = _
    rw [hupdated, Txn.aloneOn_bind, hwrite]
    subst hupdated
    cases (d.putEntry _).entryRefers _ <;> rfl
  · rw [if_neg hdraft, if_neg (by simpa using hdraft)]

theorem entryWithMetadata_undated (e : PatchPanelRegistryEntry)
    (metadata : PatchPanelRegistryMetadata) (t : Instant) :
    (InMemoryPatchPanelRegistry.entryWithMetadata e metadata t).undated =
      InMemoryPatchPanelRegistry.entryWithMetadata e.undated metadata 0 := rfl

/-- The reference to the owner is the only one that an edit can break. -/
theorem refused_updateMetadata_iff {entryId : Uuid} {metadata : PatchPanelRegistryMetadata}
    {e : PatchPanelRegistryEntry} {t : Instant}
    (hd : d.patchPanelRegistryEntries.get? entryId = some e) (hdraft : e.status = .draft)
    (hrefers : d.entryRefers e = true) :
    (updateMetadata entryId metadata).Refused d ↔
      (d.putEntry (InMemoryPatchPanelRegistry.entryWithMetadata e metadata t)).entryRefers
        (InMemoryPatchPanelRegistry.entryWithMetadata e metadata t) = false := by
  obtain ⟨-, hold⟩ := AuthorityTables.entryRefers_iff.mp hrefers
  have hkept : ∀ old, e.supersedesEntryId = some old →
      (d.putEntry (InMemoryPatchPanelRegistry.entryWithMetadata e metadata t)
        ).patchPanelRegistryEntries.contains old = true :=
    fun old hsome => (AuthorityTables.contains_putEntry _ old).mpr (.inr (hold old hsome))
  rw [← Bool.not_eq_true, AuthorityTables.entryRefers_iff]
  change _ ∧ d.knows metadata.ownerParticipantId = false ↔
    ¬ (d.knows metadata.ownerParticipantId = true ∧ _)
  constructor
  · rintro ⟨-, hunknown⟩ ⟨hknown, -⟩
    rw [hunknown] at hknown
    cases hknown
  · intro hnot
    refine ⟨⟨e, hd, hdraft⟩, Bool.eq_false_iff.mpr fun hknown => hnot ⟨hknown, hkept⟩⟩

theorem updateMetadata_answered (h : SameEntries d s) (entryId : Uuid)
    (metadata : PatchPanelRegistryMetadata) :
    (updateMetadata entryId metadata).Answered engine w d s := by
  rcases h.lookup entryId with ⟨hd, hs⟩ | ⟨e, e', hd, hs, hundated⟩
  · exact updateMetadata_missing metadata hd hs h
  have hread := InMemoryPatchPanelRegistry.run_registryGet entryId w ⟨s, 0, 0⟩
  rw [hs] at hread
  obtain ⟨updated, hupdated⟩ : ∃ updated, InMemoryPatchPanelRegistry.entryWithMetadata e metadata
    (w.clock 0) = updated := ⟨_, rfl⟩
  have htables := updateMetadataTx_found engine metadata hd (h.keyed entryId e hd) hupdated
  have hstatus : e.undated.status = e'.undated.status :=
    congrArg PatchPanelRegistryEntry.status hundated
  change e.status = e'.status at hstatus
  by_cases hdraft : e.status = .draft
  · rw [if_pos hdraft] at htables
    have hrefused : (updateMetadata entryId metadata).Refused d ↔ _ :=
      refused_updateMetadata_iff (t := w.clock 0) hd hdraft (h.refers entryId e hd)
    rw [hupdated] at hrefused
    cases hrefers : (d.putEntry updated).entryRefers updated with
    | false =>
      rw [hrefers, if_neg Bool.false_ne_true] at htables
      exact .of_refused (hrefused.mpr hrefers)
        (run_single_error (Op.run_committed_error (m := ⟨d, 0, 0⟩) htables)) rfl
    | true =>
      rw [hrefers, if_pos rfl] at htables
      have hmemory : (InMemoryPatchPanelRegistry.updateMetadata entryId metadata).run w ⟨s, 0, 0⟩ =
          (.ok (InMemoryPatchPanelRegistry.entryWithMetadata e' metadata (w.clock 0)),
            ⟨s.put (InMemoryPatchPanelRegistry.entryWithMetadata e' metadata (w.clock 0)), 1, 0⟩) := by
        unfold InMemoryPatchPanelRegistry.updateMetadata
        rw [Exec.run_bind_ok hread]
        have hdraft' : (decide (e'.status = .draft)) = true := decide_eq_true (hstatus ▸ hdraft)
        rw [hdraft']
        rfl
      have hundated' : updated.undated =
          (InMemoryPatchPanelRegistry.entryWithMetadata e' metadata (w.clock 0)).undated := by
        rw [← hupdated, entryWithMetadata_undated, entryWithMetadata_undated, hundated]
      have hnot : ¬ (updateMetadata entryId metadata).Refused d := by
        rw [hrefused, hrefers]
        simp
      exact .of_runs hnot (run_single_ok (Op.run_committed_ok (m := ⟨d, 0, 0⟩) htables))
        (run_single_ok hmemory) (List.Perm.of_eq (congrArg (fun e => [e]) hundated'))
        (h.put hundated' hrefers)
  · rw [if_neg hdraft] at htables
    have hmemory : (InMemoryPatchPanelRegistry.updateMetadata entryId metadata).run w ⟨s, 0, 0⟩ =
        (.error (.conflict "only draft registry entries can be edited"), ⟨s, 0, 0⟩) := by
      unfold InMemoryPatchPanelRegistry.updateMetadata
      rw [Exec.run_bind_ok hread]
      refine Exec.run_bind_error ?_
      rw [Op.run_ensure, if_neg (by simpa [← hstatus] using hdraft)]
    have hnot : ¬ (updateMetadata entryId metadata).Refused d := by
      rintro ⟨⟨f, hf, hfdraft⟩, -⟩
      cases hd.symm.trans hf
      exact hdraft hfdraft
    exact .of_runs hnot (run_single_error (Op.run_committed_error (m := ⟨d, 0, 0⟩) htables))
      (run_single_error hmemory) rfl h

/-- `archive` and `supersede`: a stamped update of one row, which is then read. -/
def stamp (engine : AuthorityEngine) (entryId : Uuid) (x : Instant → AuthorityWrite) :
    Op AuthorityTables PatchPanelRegistryEntry := do
  Op.committed do
    let t ← Txn.now (S := authority)
    let found ← updateEntry engine entryId (x t)
    ensureFound entryId found
  Op.committed (getTx entryId)

theorem stamp_missing (engine : AuthorityEngine) {entryId : Uuid} (x : Instant → AuthorityWrite)
    (hd : d.patchPanelRegistryEntries.get? entryId = none) :
    (stamp engine entryId x).run w ⟨d, 0, 0⟩ =
      (.error (.notFound s!"Patch Panel registry entry '{entryId.str}' does not exist"),
        ⟨d, 1, 0⟩) := by
  refine Exec.run_bind_error (Op.run_committed_error (d := d) ?_)
  change ((updateEntry engine entryId (x (w.clock 0))).bind _).aloneOn _ d 1 0 = _
  rw [Txn.aloneOn_bind, updateEntry_missing engine 1 0 _ hd]
  rfl

section Found
variable (engine : AuthorityEngine) {entryId : Uuid} {x : Instant → AuthorityWrite}
  {e e' : PatchPanelRegistryEntry}
  (hd : d.patchPanelRegistryEntries.get? entryId = some e) (hid : e'.id = entryId)
  (hx : (x (w.clock 0)).apply d = d.putEntry e')
include hd hid hx

theorem stamp_refused (hrefers : (d.putEntry e').entryRefers e' = false) :
    (stamp engine entryId x).run w ⟨d, 0, 0⟩ = (.error engine.missingEntry, ⟨d, 1, 0⟩) := by
  refine Exec.run_bind_error (Op.run_committed_error (d := d.putEntry e') ?_)
  change ((updateEntry engine entryId (x (w.clock 0))).bind _).aloneOn _ d 1 0 = _
  subst hid
  rw [Txn.aloneOn_bind, updateEntry_found engine 1 0 hd hx, hrefers]
  rfl

theorem stamp_found (hrefers : (d.putEntry e').entryRefers e' = true) :
    (stamp engine entryId x).run w ⟨d, 0, 0⟩ = (.ok e', ⟨d.putEntry e', 1, 0⟩) := by
  have hwritten : (Op.committed (do
      let t ← Txn.now (S := authority)
      let found ← updateEntry engine entryId (x t)
      ensureFound entryId found) : Op AuthorityTables Unit).run w ⟨d, 0, 0⟩ =
        (.ok (), ⟨d.putEntry e', 1, 0⟩) := by
    refine Op.run_committed_ok ?_
    change ((updateEntry engine entryId (x (w.clock 0))).bind _).aloneOn _ d 1 0 = _
    subst hid
    rw [Txn.aloneOn_bind, updateEntry_found engine 1 0 hd hx, hrefers]
    rfl
  unfold stamp
  rw [Exec.run_bind_ok hwritten, run_getTx]
  have hrow : (d.putEntry e').patchPanelRegistryEntries.get? entryId = some e' := by
    rw [← hid]
    exact Dict.get?_set_self _ _ _
  simp only [hrow]

end Found

theorem archive_answered (h : SameEntries d s) (entryId : Uuid) :
    (archive entryId).Answered engine w d s := by
  have hread := InMemoryPatchPanelRegistry.run_registryGet entryId w ⟨s, 0, 0⟩
  rcases h.lookup entryId with ⟨hd, hs⟩ | ⟨e, e', hd, hs, hundated⟩
  · rw [hs] at hread
    have hmemory : (InMemoryPatchPanelRegistry.archive entryId).run w ⟨s, 0, 0⟩ =
        (.error (.notFound s!"Patch Panel registry entry '{entryId.str}' does not exist"),
          ⟨s, 0, 0⟩) := Exec.run_bind_error hread
    exact .of_runs id (run_single_error (stamp_missing engine (.entryArchived entryId) hd))
      (run_single_error hmemory) rfl h
  · rw [hs] at hread
    have hid : (e.asArchived (w.clock 0) (w.clock 0)).id = entryId := h.keyed entryId e hd
    have hx : AuthorityWrite.apply d (.entryArchived entryId (w.clock 0)) =
        d.putEntry (e.asArchived (w.clock 0) (w.clock 0)) := by
      subst hid
      exact congrArg (fun es => { d with patchPanelRegistryEntries := es })
        (Dict.modify_of_get? _ hd)
    have hrefers : (d.putEntry (e.asArchived (w.clock 0) (w.clock 0))).entryRefers
        (e.asArchived (w.clock 0) (w.clock 0)) = true :=
      AuthorityTables.entryRefers_putEntry (h.refers entryId e hd)
    have htables := stamp_found engine hd hid hx hrefers
    have hmemory : (InMemoryPatchPanelRegistry.archive entryId).run w ⟨s, 0, 0⟩ =
        (.ok (e'.asArchived (w.clock 0) (w.clock 1)),
          ⟨s.put (e'.asArchived (w.clock 0) (w.clock 1)), 2, 0⟩) := by
      unfold InMemoryPatchPanelRegistry.archive
      rw [Exec.run_bind_ok hread]
      rfl
    have hundated' : (e.asArchived (w.clock 0) (w.clock 0)).undated =
        (e'.asArchived (w.clock 0) (w.clock 1)).undated :=
      congrArg (·.asArchived (w.clock 0) 0) hundated
    exact .of_runs id (run_single_ok htables) (run_single_ok hmemory)
      (List.Perm.of_eq (congrArg (fun e => [e]) hundated')) (h.put hundated' hrefers)

theorem supersede_answered (h : SameEntries d s) (entryId supersededByEntryId : Uuid) :
    (supersede entryId supersededByEntryId).Answered engine w d s := by
  have hread := InMemoryPatchPanelRegistry.run_registryGet entryId w ⟨s, 0, 0⟩
  rcases h.lookup entryId with ⟨hd, hs⟩ | ⟨e, e', hd, hs, hundated⟩
  · rw [hs] at hread
    have hmemory : (InMemoryPatchPanelRegistry.supersede entryId supersededByEntryId).run w
        ⟨s, 0, 0⟩ =
          (.error (.notFound s!"Patch Panel registry entry '{entryId.str}' does not exist"),
            ⟨s, 0, 0⟩) := Exec.run_bind_error hread
    have hnot : ¬ (supersede entryId supersededByEntryId).Refused d := by
      rintro ⟨hfound, -⟩
      rw [Dict.contains, hd] at hfound
      cases hfound
    exact .of_runs hnot (run_single_error
      (stamp_missing engine (.entrySuperseded entryId supersededByEntryId) hd))
        (run_single_error hmemory) rfl h
  · rw [hs] at hread
    have hid : (e.asSuperseded supersededByEntryId (w.clock 0)).id = entryId :=
      h.keyed entryId e hd
    have hfound := Dict.contains_of_get? hd
    have hx : AuthorityWrite.apply d (.entrySuperseded entryId supersededByEntryId (w.clock 0)) =
        d.putEntry (e.asSuperseded supersededByEntryId (w.clock 0)) := by
      subst hid
      exact congrArg (fun es => { d with patchPanelRegistryEntries := es })
        (Dict.modify_of_get? _ hd)
    have hrefers : (d.putEntry (e.asSuperseded supersededByEntryId (w.clock 0))).entryRefers
        (e.asSuperseded supersededByEntryId (w.clock 0)) = true ↔
          d.patchPanelRegistryEntries.contains supersededByEntryId = true := by
      obtain ⟨howner, -⟩ := AuthorityTables.entryRefers_iff.mp (h.refers entryId e hd)
      rw [AuthorityTables.entryRefers_iff]
      constructor
      · rintro ⟨-, hold⟩
        rcases (AuthorityTables.contains_putEntry _ _).mp (hold _ rfl) with hself | hother
        · rw [hself]
          exact hid.symm ▸ hfound
        · exact hother
      · intro hother
        refine ⟨howner, fun old hold => ?_⟩
        cases hold
        exact (AuthorityTables.contains_putEntry _ _).mpr (.inr hother)
    cases hother : d.patchPanelRegistryEntries.contains supersededByEntryId with
    | false =>
      rw [hother] at hrefers
      exact .of_refused ⟨hfound, hother⟩
        (run_single_error (stamp_refused engine hd hid hx (by simpa using hrefers))) rfl
    | true =>
      have hmet := hrefers.mpr hother
      have hmemory : (InMemoryPatchPanelRegistry.supersede entryId supersededByEntryId).run w
          ⟨s, 0, 0⟩ = (.ok (e'.asSuperseded supersededByEntryId (w.clock 0)),
            ⟨s.put (e'.asSuperseded supersededByEntryId (w.clock 0)), 1, 0⟩) := by
        unfold InMemoryPatchPanelRegistry.supersede
        rw [Exec.run_bind_ok hread]
        rfl
      have hundated' : (e.asSuperseded supersededByEntryId (w.clock 0)).undated =
          (e'.asSuperseded supersededByEntryId (w.clock 0)).undated :=
        congrArg (·.asSuperseded supersededByEntryId 0) hundated
      have hnot : ¬ (supersede entryId supersededByEntryId).Refused d := by
        rintro ⟨-, hmissing⟩
        rw [hother] at hmissing
        cases hmissing
      exact .of_runs hnot (run_single_ok (stamp_found engine hd hid hx hmet))
        (run_single_ok hmemory) (List.Perm.of_eq (congrArg (fun e => [e]) hundated'))
          (h.put hundated' hmet)

theorem answered (c : RegistryOperation) (h : SameEntries d s) : c.Answered engine w d s := by
  cases c with
  | register e => exact register_answered h e
  | get entryId => exact get_answered h entryId
  | search filters => exact search_answered h filters
  | updateMetadata entryId metadata => exact updateMetadata_answered h entryId metadata
  | archive entryId => exact archive_answered h entryId
  | supersede entryId by_ => exact supersede_answered h entryId by_

end Calls

end RegistryOperation

/-! ## Runs -/

/-- The run lemma, by induction over the steps. -/
theorem agree_of_sameEntries (engine : AuthorityEngine) (steps : List RegistryStep)
    {d : AuthorityTables} {s : InMemoryPatchPanelRegistry} (h : SameEntries d s) :
    Agree engine d s steps := by
  induction steps generalizing d s with
  | nil => trivial
  | cons step steps ih =>
    cases step with
    | participant row => exact ih (h.participant row)
    | call w c =>
      have hanswered : c.Answered engine w d s := c.answered h
      cases hanswered with
      | refused hrefused text hraise hsame => exact .inl ⟨hrefused, ⟨text, hraise⟩, hsame, ih h⟩
      | alike hnot hanswer hentries => exact .inr ⟨hnot, hanswer, hentries, ih hentries⟩

/-- Tables without entries, and an empty registry in memory. -/
theorem sameEntries_init (participants : Dict String Participant) :
    SameEntries { AuthorityTables.init with participants } InMemoryPatchPanelRegistry.init where
  same := rfl
  keyed id e he := by cases he
  refers id e he := by cases he

/-- Every serial run on tables without entries is answered as in memory, but for the calls
that would break a key or a reference: those raise an `IntegrityError` and write nothing. -/
theorem registry_refines (engine : AuthorityEngine) (participants : Dict String Participant)
    (steps : List RegistryStep) :
    Agree engine { AuthorityTables.init with participants } InMemoryPatchPanelRegistry.init steps :=
  agree_of_sameEntries engine steps (sameEntries_init participants)

end GhostMesh
