import GhostMesh.Runtime.Postgres

/-!
# The stand-alone lease store

`PostgresLeaseStore` statement by statement. Unlike the runtime's claim it locks the card
first, and looks for active leases in a statement after that.
-/

set_option autoImplicit false

namespace GhostMesh

open ReadCommitted (Txn)

/-- `UUID(response_ref)`: the bare id where this store wrote the record; the references
that the runtime writes have a prefix. -/
def IdempotencyRecord.leaseId? (record : IdempotencyRecord) : Option Uuid :=
  match record.responseRef with
  | .lease id => if record.operation = "lease.acquire" then some id else none
  | _ => none

namespace PostgresLeaseStore

section Statements

/-- `SELECT cards.id ... FOR UPDATE`. -/
def lockCard (cardId : Uuid) : Tx (Option Uuid) :=
  Txn.lockFirst (S := postgres) (.card cardId) RowLock.card
    (fun d => if d.cards.contains cardId then [cardId] else [])
    (fun _ d id => if d.cards.contains id then some id else none)

/-- The first active lease of the card; the clock is read for the parameter of the query. -/
def activeLease (engine : Engine) (cardId : Uuid) : Tx (Option Uuid) := do
  let now ← Txn.now (S := postgres)
  let d ← Txn.query (S := postgres) (.activeLease cardId now)
  let found := d.leases.values.filter fun l => l.cardId = cardId && l.activeAt now
  return ((engine.rows d found).head?).map (·.id)

def unreleased (d : Tables) (leaseId : Uuid) : Bool :=
  (d.leases.get? leaseId).any (·.releasedAt.isNone)

/-- `UPDATE leases SET released_at ... WHERE id = ... AND released_at IS NULL`, with
`rowcount`. -/
def updateReleased (leaseId : Uuid) (releasedAt : Instant) : Tx Nat :=
  Txn.updateCount (S := postgres) (.lease leaseId) RowLock.lease
    (fun d => if unreleased d leaseId then [leaseId] else []) unreleased
    (fun id => .leaseReleased id releasedAt)

def getIdempotency (key : String) : Tx (Option IdempotencyRecord) := do
  let d ← Txn.query (S := postgres) (.idempotencyRecord key)
  return d.idempotencyRecords.get? key

end Statements

section Operations
variable (engine : Engine)

/-- The part of an acquisition behind its idempotency key. -/
def acquireNew (cardId : Uuid) (nodeId workerId inputPipe : String) (leaseSeconds : Int)
    (idempotencyKey : Option String) : Tx Uuid := do
  match ← lockCard cardId with
  | none => Txn.raise (.notFound s!"card '{cardId.str}' does not exist")
  | some _ => do
    match ← activeLease engine cardId with
    | some _ => Txn.raise (.conflict s!"card '{cardId.str}' already has an active lease")
    | none => do
      let leaseId ← Txn.fresh (S := postgres)
      let claimedAt ← Txn.now (S := postgres)
      let expiresAt ← PostgresCardRuntime.expiryAfter leaseSeconds
      PostgresCardRuntime.insertLease engine
        { id := leaseId, cardId, nodeId, workerId, inputPipe, claimedAt, expiresAt,
          releasedAt := none }
      PostgresCardRuntime.storeIdempotency idempotencyKey "lease.acquire" (.lease leaseId)
      return leaseId

def acquireLease (cardId : Uuid) (nodeId workerId inputPipe : String) (leaseSeconds : Int)
    (idempotencyKey : Option String) : Tx Uuid :=
  match truthyStr idempotencyKey with
  | none => acquireNew engine cardId nodeId workerId inputPipe leaseSeconds idempotencyKey
  | some key => do
    match ← getIdempotency key with
    | some record => match record.leaseId? with
      | some leaseId => return leaseId
      | none => PostgresCardRuntime.badUuid
    | none => acquireNew engine cardId nodeId workerId inputPipe leaseSeconds idempotencyKey

def releaseLease (leaseId : Uuid) : Tx Unit := do
  let releasedAt ← Txn.now (S := postgres)
  let rowcount ← updateReleased leaseId releasedAt
  if rowcount = 0 then Txn.raise (.notFound s!"active lease '{leaseId.str}' does not exist")
  else return ()

end Operations

end PostgresLeaseStore

/-- A call of the store. -/
inductive LeaseStoreCall where
  | acquireLease (cardId : Uuid) (nodeId workerId inputPipe : String) (leaseSeconds : Int)
      (idempotencyKey : Option String)
  | releaseLease (leaseId : Uuid)

/-- The transaction of a call; what it returns is not needed any more. -/
def LeaseStoreCall.program (engine : Engine) : LeaseStoreCall → Tx Unit
  | acquireLease cardId nodeId workerId inputPipe leaseSeconds idempotencyKey => do
    let _ ← PostgresLeaseStore.acquireLease engine cardId nodeId workerId inputPipe leaseSeconds
      idempotencyKey
    return ()
  | releaseLease leaseId => PostgresLeaseStore.releaseLease leaseId

end GhostMesh
