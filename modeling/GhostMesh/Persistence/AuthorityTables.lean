import GhostMesh.Auth.Repository
import GhostMesh.Domain.Models
import GhostMesh.Lib.ReadCommitted
import Mathlib.Data.List.FinRange

/-!
# The authority tables

The tables of participants, roles, grants and registry entries. Their foreign keys are
checked at the end of every statement that writes a referring row.
-/

set_option autoImplicit false

namespace GhostMesh

open ReadCommitted (Signature Txn Supply)

/-- A row of `roles`; nothing reads its description and metadata back. -/
structure RoleRow where
  id : String
  name : String
  createdAt : Instant

structure AuthorityTables where
  participants : Dict String Participant
  roles : Dict String RoleRow
  participantRoles : Dict Uuid RoleAssignment
  permissionGrants : Dict Uuid PermissionGrant
  authorizationAuditEvents : Dict Uuid AuthorizationAuditEvent
  patchPanelRegistryEntries : Dict Uuid PatchPanelRegistryEntry

def AuthorityTables.init : AuthorityTables :=
  ⟨Dict.empty, Dict.empty, Dict.empty, Dict.empty, Dict.empty, Dict.empty⟩

/-- One row inserted, or some columns of one row updated. -/
inductive AuthorityWrite where
  | participant (row : Participant)
  | role (row : RoleRow)
  | participantRole (row : RoleAssignment)
  | permissionGrant (row : PermissionGrant)
  | authorizationAuditEvent (row : AuthorizationAuditEvent)
  | registryEntry (row : PatchPanelRegistryEntry)
  | entryArchived (id : Uuid) (archivedAt : Instant)
  | entrySuperseded (id supersededByEntryId : Uuid) (updatedAt : Instant)

def AuthorityWrite.apply (d : AuthorityTables) : AuthorityWrite → AuthorityTables
  | participant row => { d with participants := d.participants.set row.id row }
  | role row => { d with roles := d.roles.set row.id row }
  | participantRole row => { d with participantRoles := d.participantRoles.set row.id row }
  | permissionGrant row => { d with permissionGrants := d.permissionGrants.set row.id row }
  | authorizationAuditEvent row =>
    { d with authorizationAuditEvents := d.authorizationAuditEvents.set row.id row }
  | registryEntry row =>
    { d with patchPanelRegistryEntries := d.patchPanelRegistryEntries.set row.id row }
  | entryArchived id archivedAt =>
    { d with patchPanelRegistryEntries := d.patchPanelRegistryEntries.modify id fun e =>
        { e with status := .archived, archivedAt := some archivedAt, updatedAt := archivedAt } }
  | entrySuperseded id supersededByEntryId updatedAt =>
    { d with patchPanelRegistryEntries := d.patchPanelRegistryEntries.modify id fun e =>
        { e with
          status := .superseded, supersedesEntryId := some supersededByEntryId, updatedAt } }

/-- A row by its table and primary key. -/
inductive AuthorityLock where
  | participant (id : String)
  | role (id : String)
  | participantRole (id : Uuid)
  | permissionGrant (id : Uuid)
  | authorizationAuditEvent (id : Uuid)
  | registryEntry (id : Uuid)
deriving DecidableEq

/-- The statements that read, and the checks of foreign keys. -/
inductive AuthorityQuery where
  | participant (id : String)
  | participants
  | role (id : String)
  | participantRoles (participantId : String)
  | permissionGrants
  | registryEntry (id : Uuid)
  | registryEntries
  | references (table : String)

/-- The signature of the authority's transactions. -/
@[reducible] def authority : Signature where
  Data := AuthorityTables
  Write := AuthorityWrite
  Lock := AuthorityLock
  Query := AuthorityQuery
  Time := Instant
  Ident := Uuid
  Err := PyErr
  apply x d := x.apply d
  decidableLock := inferInstance

abbrev AuthorityTx (α : Type) := Txn authority α

/-- What the database adds of its own: the order of rows without `ORDER BY`, and the texts
of its `IntegrityError`s, by table. -/
structure AuthorityEngine where
  rowOrder : AuthorityTables → (n : Nat) → Equiv.Perm (Fin n)
  duplicateKey : String → String
  missingReference : String → String

namespace AuthorityEngine

/-- An engine that returns rows in the order of insertion. -/
def simple : AuthorityEngine :=
  ⟨fun _ n => Equiv.refl (Fin n), fun table => s!"duplicate key in {table}",
    fun table => s!"missing reference in {table}"⟩

/-- The rows as the engine returns them. -/
def rows {α : Type} (engine : AuthorityEngine) (d : AuthorityTables) (found : List α) : List α :=
  List.ofFn fun i => found.get (engine.rowOrder d found.length i)

theorem rows_perm {α : Type} (engine : AuthorityEngine) (d : AuthorityTables) (found : List α) :
    (engine.rows d found).Perm found := by
  have h := (engine.rowOrder d found.length).ofFn_comp_perm found.get
  rwa [List.ofFn_get] at h

@[simp] theorem mem_rows {α : Type} (engine : AuthorityEngine) (d : AuthorityTables)
    (found : List α) (a : α) : a ∈ engine.rows d found ↔ a ∈ found :=
  (engine.rows_perm d found).mem_iff

end AuthorityEngine

namespace AuthorityTables

/-- A nullable reference to a participant is met. -/
def knows (d : AuthorityTables) (participantId : Option String) : Bool :=
  participantId.all d.participants.contains

/-- A nullable reference to a role is met. -/
def hasRole (d : AuthorityTables) (roleId : Option String) : Bool := roleId.all d.roles.contains

/-- The references of a registry entry are met. -/
def entryRefers (d : AuthorityTables) (e : PatchPanelRegistryEntry) : Bool :=
  d.knows e.ownerParticipantId && e.supersedesEntryId.all d.patchPanelRegistryEntries.contains

end AuthorityTables

/-- `INSERT` into a table with foreign keys, which are checked after the row is written. -/
def insertReferring (engine : AuthorityEngine) (table : String) (l : AuthorityLock)
    (taken refers : AuthorityTables → Bool) (x : AuthorityWrite) : AuthorityTx Unit := do
  Txn.insert (S := authority) l taken x (.integrity (engine.duplicateKey table))
  let d ← Txn.query (S := authority) (.references table)
  Txn.ensure (S := authority) (refers d) (.integrity (engine.missingReference table))

/-! ## One transaction with nobody else on the database -/

def World.authoritySupply (w : World) : Supply authority := ⟨w.clock, w.uuid4⟩

/-- Alone, a row is refused if its key is taken, or if a reference of it is not met. -/
theorem insertReferring_aloneOn (engine : AuthorityEngine) (table : String) (l : AuthorityLock)
    (taken refers : AuthorityTables → Bool) (x : AuthorityWrite) (env : Supply authority)
    (d : AuthorityTables) (n m : Nat) :
    (insertReferring engine table l taken refers x).aloneOn env d n m =
      if taken d then (.error (.integrity (engine.duplicateKey table)), d, n, m)
      else (if refers (x.apply d) then .ok () else
        .error (.integrity (engine.missingReference table)), x.apply d, n, m) := by
  refine (Txn.aloneOn_bind _ _ _ _ _ _).trans ?_
  rw [Txn.aloneOn_insert]
  cases taken d with
  | true => rfl
  | false => exact Txn.aloneOn_ensure _ _ _ _ _ _

theorem insertReferring_writes {W : AuthorityWrite → Prop} (engine : AuthorityEngine)
    (table : String) (l : AuthorityLock) (taken refers : AuthorityTables → Bool)
    {x : AuthorityWrite} (hx : W x) : (insertReferring engine table l taken refers x).Writes W :=
  Txn.Writes.bind (Txn.Writes.insert _ _ _ hx) fun _ =>
    Txn.Writes.bind (Txn.Writes.query _) fun _ => Txn.Writes.ensure _ _

namespace Op

variable {α : Type}

def committed (x : AuthorityTx α) : Op AuthorityTables α :=
  ⟨fun w m => match x.alone w.authoritySupply m.store m.ticks m.draws with
    | (r, d, ticks, draws) => (r, ⟨d, ticks, draws⟩)⟩

section Run
variable {w : World} {m : Machine AuthorityTables}

/-- A transaction that returns keeps what it has written. -/
theorem run_committed_ok {x : AuthorityTx α} {a : α} {d : AuthorityTables} {ticks draws : Nat}
    (h : x.aloneOn w.authoritySupply m.store m.ticks m.draws = (.ok a, d, ticks, draws)) :
    (committed x).run w m = (.ok a, ⟨d, ticks, draws⟩) := by
  simp only [committed, Txn.alone, h]

/-- One that raises has written nothing. -/
theorem run_committed_error {x : AuthorityTx α} {e : PyErr} {d : AuthorityTables}
    {ticks draws : Nat}
    (h : x.aloneOn w.authoritySupply m.store m.ticks m.draws = (.error e, d, ticks, draws)) :
    (committed x).run w m = (.error e, ⟨m.store, ticks, draws⟩) := by
  simp only [committed, Txn.alone, h]

/-- A call draws its identifiers from those to come, and reads later clocks. -/
theorem committed_later (x : AuthorityTx α) (w : World) (m : Machine AuthorityTables) :
    m.ticks ≤ ((committed x).run w m).2.ticks ∧ m.draws ≤ ((committed x).run w m).2.draws := by
  have hlater := x.aloneOn_later w.authoritySupply m.store m.ticks m.draws
  simp only [committed, Txn.alone]
  rcases halone : x.aloneOn w.authoritySupply m.store m.ticks m.draws with ⟨r, d, ticks, draws⟩
  rw [halone] at hlater
  cases r <;> exact hlater

/-- A call keeps what the writes of its transaction keep. -/
theorem committed_keeps {W : AuthorityWrite → Prop} {I : AuthorityTables → Prop}
    {x : AuthorityTx α} (hx : x.Writes W) (hkeep : ∀ y d, W y → I d → I (y.apply d))
    (hm : I m.store) : I ((committed x).run w m).2.store := by
  have hkept := hx.aloneOn_keeps hkeep w.authoritySupply hm m.ticks m.draws
  simp only [committed, Txn.alone]
  rcases halone : x.aloneOn w.authoritySupply m.store m.ticks m.draws with ⟨r, d, ticks, draws⟩
  rw [halone] at hkept
  cases r with
  | error e => exact hm
  | ok a => exact hkept

end Run

end Op

end GhostMesh
