import GhostMesh.Persistence.AuthorityTables
import GhostMesh.Registry.Service

/-!
# The Postgres registry

`PostgresPatchPanelRegistry` method by method. `update_metadata` reads the entry in a
transaction of its own before it writes all columns of its copy in a second one; the first
holds no lock and sees what is committed, so that both are one program here.
-/

set_option autoImplicit false

namespace GhostMesh

open ReadCommitted (Txn)

namespace PostgresPatchPanelRegistry

variable (engine : AuthorityEngine)

def entriesTable : String := "patch_panel_registry_entries"

def registerTx (e : PatchPanelRegistryEntry) : AuthorityTx PatchPanelRegistryEntry := do
  insertReferring engine entriesTable (.registryEntry e.id)
    (fun d => d.patchPanelRegistryEntries.contains e.id)
    (fun d => d.entryRefers e) (.registryEntry e)
  return e

def getTx (entryId : Uuid) : AuthorityTx PatchPanelRegistryEntry := do
  let d ← Txn.query (S := authority) (.registryEntry entryId)
  match d.patchPanelRegistryEntries.get? entryId with
  | some e => return e
  | none => Txn.raise (.notFound s!"Patch Panel registry entry '{entryId.str}' does not exist")

def searchTx (filters : PatchPanelRegistrySearch) :
    AuthorityTx (List PatchPanelRegistryEntry) := do
  let d ← Txn.query (S := authority) .registryEntries
  return (engine.rows d d.patchPanelRegistryEntries.values).filter (entryMatches · filters)

/-- The row that passed the `WHERE` clause is locked, checked again, written, and its
references are checked. -/
def writeEntry (entryId : Uuid) (x : AuthorityWrite) : AuthorityTx Bool := do
  let latest ← Txn.lockRow (S := authority) (.registryEntry entryId)
  if latest.patchPanelRegistryEntries.contains entryId then do
    Txn.put (S := authority) x
    let d ← Txn.query (S := authority) (.references entriesTable)
    Txn.ensure (S := authority) ((d.patchPanelRegistryEntries.get? entryId).all d.entryRefers)
      (.integrity (engine.missingReference entriesTable))
    return true
  else return false

/-- `UPDATE ... WHERE id = ...`, and whether it met a row. -/
def updateEntry (entryId : Uuid) (x : AuthorityWrite) : AuthorityTx Bool := do
  let snapshot ← Txn.query (S := authority) (.registryEntry entryId)
  if snapshot.patchPanelRegistryEntries.contains entryId then writeEntry engine entryId x
  else return false

def updateMetadataTx (entryId : Uuid) (metadata : PatchPanelRegistryMetadata) :
    AuthorityTx PatchPanelRegistryEntry := do
  let e ← getTx entryId
  Txn.ensure (S := authority) (e.status = .draft)
    (.conflict "only draft registry entries can be edited")
  let updatedAt ← Txn.now (S := authority)
  let updated := InMemoryPatchPanelRegistry.entryWithMetadata e metadata updatedAt
  let _ ← updateEntry engine entryId (.registryEntry updated)
  return updated

def ensureFound (entryId : Uuid) (found : Bool) : AuthorityTx Unit :=
  Txn.ensure (S := authority) found
    (.notFound s!"Patch Panel registry entry '{entryId.str}' does not exist")

def archiveTx (entryId : Uuid) : AuthorityTx Unit := do
  let archivedAt ← Txn.now (S := authority)
  let found ← updateEntry engine entryId (.entryArchived entryId archivedAt)
  ensureFound entryId found

def supersedeTx (entryId supersededByEntryId : Uuid) : AuthorityTx Unit := do
  let updatedAt ← Txn.now (S := authority)
  let found ← updateEntry engine entryId
    (.entrySuperseded entryId supersededByEntryId updatedAt)
  ensureFound entryId found

def registry : PatchPanelRegistry AuthorityTables where
  register e := Op.committed (registerTx engine e)
  get entryId := Op.committed (getTx entryId)
  search filters := Op.committed (searchTx engine filters)
  updateMetadata entryId metadata := Op.committed (updateMetadataTx engine entryId metadata)
  archive entryId := do
    Op.committed (archiveTx engine entryId)
    Op.committed (getTx entryId)
  supersede entryId supersededByEntryId := do
    Op.committed (supersedeTx engine entryId supersededByEntryId)
    Op.committed (getTx entryId)

end PostgresPatchPanelRegistry

end GhostMesh
