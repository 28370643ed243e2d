import GhostMesh.Domain.Models
import GhostMesh.Lib.ReadCommitted
import Mathlib.Data.List.FinRange

/-!
# The runtime tables

Rows under their primary keys, the writes and row locks on them, and the statements
that read them. The rows of a table are in the order in which they were inserted; a
query without `ORDER BY` may return them in any other.
-/

set_option autoImplicit false

namespace GhostMesh

open ReadCommitted (Signature Txn Supply)

structure WorkflowVersion where
  patchPanelId : String
  version : String
  active : Bool
  createdAt : Instant

structure CardLocation where
  id : Uuid
  cardId : Uuid
  bucket : String
  status : String
  enteredAt : Instant
  acceptedAt : Option Instant
  exitedAt : Option Instant

structure ValidationResult where
  id : Uuid
  cardId : Uuid
  validatorId : String
  accepted : Bool
  reason : Option String
  outputPipe : Option String
  payload : JsonObj
  createdAt : Instant

/-- The texts of `response_ref`: a prefix that names the operation, and ids. -/
inductive ResponseRef where
  | card (id : Uuid)
  | lease (id : Uuid)
  | artifacts (ids : List Uuid)
  | event (id : Uuid)

structure IdempotencyRecord where
  operation : String
  responseRef : ResponseRef
  createdAt : Instant

/-- A stored definition, which is read back as it was validated. -/
structure Stamped (α : Type) where
  definition : α
  createdAt : Instant

structure Tables where
  patchPanels : Dict (String × String) (Stamped PatchPanel)
  workflowVersions : Dict String WorkflowVersion
  buckets : Dict (String × String) (Stamped BucketDefinition)
  cards : Dict Uuid Card
  cardLocations : Dict Uuid CardLocation
  leases : Dict Uuid Lease
  cardEvents : Dict Uuid CardEvent
  artifacts : Dict Uuid ArtifactReference
  validationResults : Dict Uuid ValidationResult
  idempotencyRecords : Dict String IdempotencyRecord

def Tables.init : Tables :=
  ⟨Dict.empty, Dict.empty, Dict.empty, Dict.empty, Dict.empty, Dict.empty, Dict.empty, Dict.empty,
    Dict.empty, Dict.empty⟩

/-- One row inserted, or some columns of one row updated. -/
inductive RowWrite where
  | patchPanel (row : Stamped PatchPanel)
  | workflowVersion (id : String) (row : WorkflowVersion)
  | bucket (workflowVersion : String) (row : Stamped BucketDefinition)
  | card (row : Card)
  | cardBucket (id : Uuid) (bucket : String)
  | cardLocation (row : CardLocation)
  | locationExited (id : Uuid) (exitedAt : Instant)
  | lease (row : Lease)
  | leaseExpiry (id : Uuid) (expiresAt : Instant)
  | leaseReleased (id : Uuid) (releasedAt : Instant)
  | cardEvent (row : CardEvent)
  | artifact (row : ArtifactReference)
  | validationResult (row : ValidationResult)
  | idempotencyRecord (key : String) (row : IdempotencyRecord)

def RowWrite.apply (d : Tables) : RowWrite → Tables
  | patchPanel row =>
    { d with patchPanels :=
        d.patchPanels.set (row.definition.id, row.definition.version) row }
  | workflowVersion id row => { d with workflowVersions := d.workflowVersions.set id row }
  | bucket version row =>
    { d with buckets := d.buckets.set (version, row.definition.id) row }
  | card row => { d with cards := d.cards.set row.id row }
  | cardBucket id toBucket =>
    { d with cards := d.cards.modify id fun c => { c with currentBucket := toBucket } }
  | cardLocation row => { d with cardLocations := d.cardLocations.set row.id row }
  | locationExited id exitedAt =>
    { d with cardLocations := d.cardLocations.modify id fun row =>
        { row with status := "exited", exitedAt := some exitedAt } }
  | lease row => { d with leases := d.leases.set row.id row }
  | leaseExpiry id expiresAt =>
    { d with leases := d.leases.modify id fun l => { l with expiresAt } }
  | leaseReleased id releasedAt =>
    { d with leases := d.leases.modify id fun l => { l with releasedAt := some releasedAt } }
  | cardEvent row => { d with cardEvents := d.cardEvents.set row.id row }
  | artifact row => { d with artifacts := d.artifacts.set row.id row }
  | validationResult row => { d with validationResults := d.validationResults.set row.id row }
  | idempotencyRecord key row =>
    { d with idempotencyRecords := d.idempotencyRecords.set key row }

/-- A row by its table and primary key. -/
inductive RowLock where
  | patchPanel (id version : String)
  | workflowVersion (id : String)
  | bucket (workflowVersion id : String)
  | card (id : Uuid)
  | cardLocation (id : Uuid)
  | lease (id : Uuid)
  | cardEvent (id : Uuid)
  | artifact (id : Uuid)
  | validationResult (id : Uuid)
  | idempotencyRecord (key : String)
deriving DecidableEq

/-- The statements that read, with their parameters. -/
inductive RowQuery where
  | patchPanels
  | patchPanel (id version : String)
  | activePatchPanel (id : String)
  | workflowVersion (id : String)
  | cards
  | card (id : Uuid)
  | claimable (bucket : String) (now : Instant)
  | activeLocations (cardId : Uuid)
  | leases
  | lease (id : Uuid)
  | lapsedLeases (now : Instant)
  | activeLease (cardId : Uuid) (now : Instant)
  | event (id : Uuid)
  | cardEvents (cardId : Uuid)
  | artifacts (ids : List Uuid)
  | idempotencyRecord (key : String)

/-- The signature of the runtime's transactions. -/
@[reducible] def postgres : Signature where
  Data := Tables
  Write := RowWrite
  Lock := RowLock
  Query := RowQuery
  Time := Instant
  Ident := Uuid
  Err := PyErr
  apply x d := x.apply d
  decidableLock := inferInstance

abbrev Tx (α : Type) := Txn postgres α

/-- What the database adds of its own: the order in which it returns the `n` rows of a
query without `ORDER BY`, and its texts. -/
structure Engine where
  rowOrder : Tables → (n : Nat) → Equiv.Perm (Fin n)
  /-- The text of an `IntegrityError` for a duplicate primary key of the table. -/
  duplicateKey : String → String

namespace Engine

/-- An engine that returns rows in the order of insertion. -/
def simple : Engine := ⟨fun _ n => Equiv.refl (Fin n), fun table => s!"duplicate key in {table}"⟩

/-- The rows as the engine returns them. -/
def rows {α : Type} (engine : Engine) (d : Tables) (found : List α) : List α :=
  List.ofFn fun i => found.get (engine.rowOrder d found.length i)

theorem rows_perm {α : Type} (engine : Engine) (d : Tables) (found : List α) :
    (engine.rows d found).Perm found := by
  have h := (engine.rowOrder d found.length).ofFn_comp_perm found.get
  rwa [List.ofFn_get] at h

@[simp] theorem mem_rows {α : Type} (engine : Engine) (d : Tables) (found : List α) (a : α) :
    a ∈ engine.rows d found ↔ a ∈ found := (engine.rows_perm d found).mem_iff

end Engine

/-- The readings of the clients are those of the world. -/
def World.supply (w : World) : Supply postgres := ⟨w.clock, w.uuid4⟩

/-- One transaction with nobody else on the database. -/
def Op.atomically {α : Type} (x : Tx α) : Op Tables α :=
  ⟨fun w m => match x.alone w.supply m.store m.ticks m.draws with
    | (r, d, ticks, draws) => (r, ⟨d, ticks, draws⟩)⟩

end GhostMesh
