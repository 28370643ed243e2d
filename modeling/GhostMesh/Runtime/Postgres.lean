import GhostMesh.Persistence.Tables
import GhostMesh.Runtime.Memory
import Mathlib.Data.List.Sort

/-!
# The Postgres runtime

`PostgresCardRuntime` method by method, statement by statement. The foreign keys are
not modelled: the code only refers to rows that it has read, and no row is ever
deleted.
-/

set_option autoImplicit false

namespace GhostMesh

open ReadCommitted (Txn)

namespace PostgresCardRuntime

/-! ## Statements -/

section Statements
variable (engine : Engine)

def insertCard (c : Card) : Tx Unit :=
  Txn.insert (S := postgres) (.card c.id) (fun d => d.cards.contains c.id) (.card c)
    (.integrity (engine.duplicateKey "cards"))

def insertLocation (row : CardLocation) : Tx Unit :=
  Txn.insert (S := postgres) (.cardLocation row.id) (fun d => d.cardLocations.contains row.id)
    (.cardLocation row) (.integrity (engine.duplicateKey "card_locations"))

def insertLease (l : Lease) : Tx Unit :=
  Txn.insert (S := postgres) (.lease l.id) (fun d => d.leases.contains l.id) (.lease l)
    (.integrity (engine.duplicateKey "leases"))

def insertEvent (e : CardEvent) : Tx Unit :=
  Txn.insert (S := postgres) (.cardEvent e.id) (fun d => d.cardEvents.contains e.id)
    (.cardEvent e) (.integrity (engine.duplicateKey "card_events"))

def insertArtifact (ref : ArtifactReference) : Tx Unit :=
  Txn.insert (S := postgres) (.artifact ref.id) (fun d => d.artifacts.contains ref.id)
    (.artifact ref) (.integrity (engine.duplicateKey "artifacts"))

def insertValidationResult (row : ValidationResult) : Tx Unit :=
  Txn.insert (S := postgres) (.validationResult row.id)
    (fun d => d.validationResults.contains row.id) (.validationResult row)
    (.integrity (engine.duplicateKey "validation_results"))

def insertPatchPanel (row : Stamped PatchPanel) : Tx Unit :=
  Txn.insert (S := postgres) (.patchPanel row.definition.id row.definition.version)
    (fun d => d.patchPanels.contains (row.definition.id, row.definition.version))
    (.patchPanel row) (.integrity (engine.duplicateKey "patch_panels"))

def insertWorkflowVersion (id : String) (row : WorkflowVersion) : Tx Unit :=
  Txn.insert (S := postgres) (.workflowVersion id) (fun d => d.workflowVersions.contains id)
    (.workflowVersion id row) (.integrity (engine.duplicateKey "workflow_versions"))

def insertBucket (version : String) (row : Stamped BucketDefinition) : Tx Unit :=
  Txn.insert (S := postgres) (.bucket version row.definition.id)
    (fun d => d.buckets.contains (version, row.definition.id)) (.bucket version row)
    (.integrity (engine.duplicateKey "buckets"))

/-- `UPDATE leases SET ... WHERE id = ...`. -/
def updateLease (id : Uuid) (x : RowWrite) : Tx Unit :=
  Txn.update (S := postgres) (.lease id) RowLock.lease
    (fun d => if d.leases.contains id then [id] else []) (fun d id => d.leases.contains id)
    (fun _ => x)

/-- `UPDATE cards SET current_bucket = ... WHERE id = ...`. -/
def updateCardBucket (id : Uuid) (bucket : String) : Tx Unit :=
  Txn.update (S := postgres) (.card id) RowLock.card
    (fun d => if d.cards.contains id then [id] else []) (fun d id => d.cards.contains id)
    (fun id => .cardBucket id bucket)

def activeLocationOf (cardId : Uuid) (row : CardLocation) : Bool :=
  row.cardId = cardId && row.status = "active"

/-- The active location rows of a card leave. -/
def exitLocations (cardId : Uuid) (exitedAt : Instant) : Tx Unit :=
  Txn.update (S := postgres) (.activeLocations cardId) RowLock.cardLocation
    (fun d => (engine.rows d (d.cardLocations.values.filter (activeLocationOf cardId))).map
      (·.id))
    (fun d id => (d.cardLocations.get? id).any (activeLocationOf cardId))
    (fun id => .locationExited id exitedAt)

end Statements

/-! ## Helpers -/

def newEvent (cardId : Uuid) (eventType : String) (actorId : Option String)
    (payload : JsonObj) : Tx CardEvent := do
  let id ← Txn.fresh (S := postgres)
  let occurredAt ← Txn.now (S := postgres)
  return { id, cardId, eventType, actorId, payload, occurredAt }

def getCard (cardId : Uuid) : Tx Card := do
  let d ← Txn.query (S := postgres) (.card cardId)
  match d.cards.get? cardId with
  | some c => return c
  | none => Txn.raise (.notFound s!"card '{cardId.str}' does not exist")

def getEvent (eventId : Uuid) : Tx CardEvent := do
  let d ← Txn.query (S := postgres) (.event eventId)
  match d.cardEvents.get? eventId with
  | some e => return e
  | none => Txn.raise (.notFound s!"event '{eventId.str}' does not exist")

def getLease (leaseId : Uuid) : Tx Lease := do
  let d ← Txn.query (S := postgres) (.lease leaseId)
  match d.leases.get? leaseId with
  | some l => return l
  | none => Txn.raise (.notFound s!"lease '{leaseId.str}' does not exist")

def artifactsOf (d : Tables) : List Uuid → Except PyErr (List ArtifactReference)
  | [] => .ok []
  | id :: ids => match d.artifacts.get? id with
    | some ref => do
      let refs ← artifactsOf d ids
      return ref :: refs
    | none => .error (.notFound s!"artifact '{id.str}' does not exist")

def getArtifacts (ids : List Uuid) : Tx (List ArtifactReference) :=
  if ids = [] then return []
  else do
    let d ← Txn.query (S := postgres) (.artifacts ids)
    Txn.ofExcept (artifactsOf d ids)

/-- The definitions that belong to an active version of the panel. -/
def activeDefinitions (d : Tables) (patchPanelId : String) : List PatchPanel :=
  (d.patchPanels.values.filter fun row =>
    row.definition.id = patchPanelId && d.workflowVersions.values.any fun v =>
      v.active && v.patchPanelId = row.definition.id && v.version = row.definition.version).map
    (·.definition)

def getActivePatchPanel (engine : Engine) (patchPanelId : String) : Tx PatchPanel := do
  let d ← Txn.query (S := postgres) (.activePatchPanel patchPanelId)
  match engine.rows d (activeDefinitions d patchPanelId) with
  | p :: _ => return p
  | [] => Txn.raise (.notFound s!"Patch Panel '{patchPanelId}' is not registered")

def singlePatchPanel : Tx PatchPanel := do
  let d ← Txn.query (S := postgres) .patchPanels
  match d.patchPanels.values with
  | [] => Txn.raise (.notFound "no Patch Panels are registered")
  | [row] => return row.definition
  | _ => Txn.raise (.conflict
      "operation requires an explicit Patch Panel when multiple are registered")

/-- `text.split(":", maxsplit=1)` into two parts; without a colon the unpacking fails. -/
def splitFirstColon (text : String) : Option (String × String) :=
  if ':' ∈ text.toList then
    some (String.ofList (text.toList.takeWhile (· ≠ ':')),
      String.ofList ((text.toList.dropWhile (· ≠ ':')).drop 1))
  else none

def getPatchPanelForCard (card : Card) : Tx PatchPanel :=
  match splitFirstColon card.workflowVersion with
  | none => Txn.raise (.value "not enough values to unpack (expected 2, got 1)")
  | some (id, version) => do
    let d ← Txn.query (S := postgres) (.patchPanel id version)
    match d.patchPanels.get? (id, version) with
    | some row => return row.definition
    | none => Txn.raise (.notFound s!"Patch Panel '{card.workflowVersion}' is not registered")

def getIdempotency (key : Option String) : Tx (Option ResponseRef) :=
  match truthyStr key with
  | none => return none
  | some k => do
    let d ← Txn.query (S := postgres) (.idempotencyRecord k)
    return (d.idempotencyRecords.get? k).map (·.responseRef)

def storeIdempotency (key : Option String) (operation : String) (responseRef : ResponseRef) :
    Tx Unit :=
  match truthyStr key with
  | none => return ()
  | some k => do
    let createdAt ← Txn.now (S := postgres)
    Txn.insert (S := postgres) (.idempotencyRecord k) (fun d => d.idempotencyRecords.contains k)
      (.idempotencyRecord k ⟨operation, responseRef, createdAt⟩)
      (.conflict s!"idempotency key '{k}' already exists")

/-- `UUID(cached.removeprefix(...))` of another operation's reference. -/
def badUuid {α : Type} : Tx α := Txn.raise (.value "badly formed hexadecimal UUID string")

def cachedCard : ResponseRef → Tx Card
  | .card id => getCard id
  | _ => badUuid

def cachedLease : ResponseRef → Tx Lease
  | .lease id => getLease id
  | _ => badUuid

def cachedEvent : ResponseRef → Tx CardEvent
  | .event id => getEvent id
  | _ => badUuid

def cachedArtifacts : ResponseRef → Tx (List ArtifactReference)
  | .artifacts ids => getArtifacts ids
  | _ => badUuid

/-- The opening of every operation that takes an idempotency key. -/
def idempotent {α : Type} (key : Option String) (replay : ResponseRef → Tx α) (body : Tx α) :
    Tx α := do
  match ← getIdempotency key with
  | some ref => replay ref
  | none => body

/-- `_move_card_row`: the locations of the card and its current bucket. -/
def moveCardRow (engine : Engine) (card : Card) (toBucket : String) (actorId reason : Option String)
    (emitEvent : Bool) : Tx Card := do
  let now ← Txn.now (S := postgres)
  exitLocations engine card.id now
  let id ← Txn.fresh (S := postgres)
  insertLocation engine { id, cardId := card.id, bucket := toBucket, status := "active",
                          enteredAt := now, acceptedAt := some now, exitedAt := none }
  updateCardBucket card.id toBucket
  if emitEvent then do
    let event ← newEvent card.id "card_moved" actorId
      [("from_bucket", .str card.currentBucket), ("to_bucket", .str toBucket),
        ("reason", Json.ofOptionStr reason)]
    insertEvent engine event
    return { card with currentBucket := toBucket }
  else return { card with currentBucket := toBucket }

def ensureActiveLease (lease : Lease) : Tx Unit := do
  Txn.ensure (S := postgres) lease.releasedAt.isNone
    (.conflict s!"lease '{lease.id.str}' has already been released")
  let t ← Txn.now (S := postgres)
  Txn.ensure (S := postgres) (t < lease.expiresAt)
    (.conflict s!"lease '{lease.id.str}' has expired")

def expiryAfter (seconds : Int) : Tx Instant := do
  let t ← Txn.now (S := postgres)
  match t.addSeconds seconds with
  | some e => return e
  | none => Txn.raise .overflow

def newLease (card : Card) (nodeId workerId inputPipe : String) (seconds : Int) : Tx Lease := do
  let expiresAt ← expiryAfter seconds
  let id ← Txn.fresh (S := postgres)
  let claimedAt ← Txn.now (S := postgres)
  return { id, cardId := card.id, nodeId, workerId, inputPipe, claimedAt, expiresAt,
           releasedAt := none }

/-! ## The operations -/

section Operations
variable (engine : Engine)

def registerBuckets (version : String) (now : Instant) (buckets : List BucketDefinition) :
    Tx Unit :=
  Txn.forEach (fun bucket => insertBucket engine version ⟨bucket, now⟩) buckets

/-- The transaction of `register_patch_panel`; the definition is validated before it. -/
def registerPatchPanel (p : PatchPanel) (now : Instant) : Tx PatchPanel := do
  let d ← Txn.query (S := postgres) (.patchPanel p.id p.version)
  if d.patchPanels.contains (p.id, p.version) then Txn.ret () else
    insertPatchPanel engine ⟨p, now⟩
  let d ← Txn.query (S := postgres) (.workflowVersion p.workflowVersion)
  if d.workflowVersions.contains p.workflowVersion then Txn.ret () else do
    insertWorkflowVersion engine p.workflowVersion ⟨p.id, p.version, true, now⟩
    registerBuckets engine p.workflowVersion now p.buckets
  return p

def listPatchPanels : Tx (List PatchPanel) := do
  let d ← Txn.query (S := postgres) .patchPanels
  return (engine.rows d d.patchPanels.values).map (·.definition)

def createCard (patchPanelId : String) (payload : JsonObj) (metadata : Option JsonObj)
    (idempotencyKey : Option String) : Tx Card :=
  idempotent idempotencyKey cachedCard do
    let p ← getActivePatchPanel engine patchPanelId
    let bucket ← Txn.ofExcept (S := postgres) (resolveInitialBucket p)
    let id ← Txn.fresh (S := postgres)
    let createdAt ← Txn.now (S := postgres)
    let card : Card :=
      { id, workflowVersion := p.workflowVersion, currentBucket := bucket, payload,
        metadata := metadata.getD [], createdAt }
    insertCard engine card
    let locationId ← Txn.fresh (S := postgres)
    insertLocation engine { id := locationId, cardId := card.id, bucket, status := "active",
                            enteredAt := createdAt, acceptedAt := some createdAt,
                            exitedAt := none }
    let event ← newEvent card.id "card_created" none
      [("patch_panel_id", .str p.id), ("version", .str p.version), ("bucket", .str bucket)]
    insertEvent engine event
    storeIdempotency idempotencyKey "card.create" (.card card.id)
    return card

def listCards : Tx (List Card) := do
  let d ← Txn.query (S := postgres) .cards
  return engine.rows d d.cards.values

def listLeases : Tx (List Lease) := do
  let d ← Txn.query (S := postgres) .leases
  return engine.rows d d.leases.values

/-- The `WHERE` clause of the claim on a card, with the leases of the snapshot. -/
def claimable (snapshot : Tables) (bucket : String) (now : Instant) (c : Card) : Bool :=
  c.currentBucket = bucket &&
    !snapshot.leases.values.any fun l => l.cardId = c.id && l.activeAt now

/-- `SELECT ... FROM cards ... LIMIT 1 FOR UPDATE`. -/
def selectClaimable (bucket : String) (now : Instant) : Tx (Option Card) :=
  Txn.lockFirst (S := postgres) (.claimable bucket now) RowLock.card
    (fun d => (engine.rows d (d.cards.values.filter (claimable d bucket now))).map (·.id))
    (fun snapshot d id => (d.cards.get? id).filter (claimable snapshot bucket now))

def claimCard (inputPipe workerId : String) (leaseSeconds : Int)
    (idempotencyKey : Option String) : Tx Lease :=
  idempotent idempotencyKey cachedLease do
    let p ← singlePatchPanel
    let (bucket, nodeId) ← Txn.ofExcept (S := postgres) (resolvePipeBucket p inputPipe .input)
    let now ← Txn.now (S := postgres)
    match ← selectClaimable engine bucket now with
    | none => Txn.raise (.notFound s!"no claimable cards in bucket '{bucket}'")
    | some card => do
      let lease ← newLease card nodeId workerId inputPipe leaseSeconds
      insertLease engine lease
      let event ← newEvent card.id "card_claimed" (some workerId)
        [("lease_id", .str lease.id.str), ("input_pipe", .str inputPipe)]
      insertEvent engine event
      storeIdempotency idempotencyKey "card.claim" (.lease lease.id)
      return lease

def submitArtifact (w : World) (leaseId : Uuid) (outputPipe : String)
    (refs : List ArtifactReference) (idempotencyKey : Option String) :
    Tx (List ArtifactReference) :=
  idempotent idempotencyKey cachedArtifacts do
    let lease ← getLease leaseId
    ensureActiveLease lease
    let card ← getCard lease.cardId
    let p ← getPatchPanelForCard card
    let (destination, nodeId) ← Txn.ofExcept (S := postgres) (resolvePipeBucket p outputPipe .output)
    Txn.ofExcept (S := postgres) (ensureArtifactRefsBelongToCard card.id refs)
    Txn.ofExcept (S := postgres) (ensureArtifactsAccepted w p destination refs)
    Txn.ensure (S := postgres) (nodeId = lease.nodeId)
      (.conflict s!"lease node '{lease.nodeId}' cannot submit through node '{nodeId}'")
    let _ ← moveCardRow engine card destination (some lease.workerId) (some "artifact_submitted")
      false
    let releasedAt ← Txn.now (S := postgres)
    updateLease lease.id (.leaseReleased lease.id releasedAt)
    let event ← newEvent card.id "artifact_submitted" (some lease.workerId)
      [("artifact_ids", .list (refs.map fun ref => .str ref.id.str)),
        ("artifact_refs", .list (refs.map InMemoryCardRuntime.artifactJson)),
        ("lease_id", .str lease.id.str), ("output_pipe", .str outputPipe),
        ("destination_bucket", .str destination)]
    insertEvent engine event
    let storedRefs := refs.map fun ref =>
      { ref with cardId := card.id, eventId := some event.id }
    Txn.forEach (insertArtifact engine) storedRefs
    storeIdempotency idempotencyKey "artifact.submit" (.artifacts (storedRefs.map (·.id)))
    return storedRefs

def renewLease (leaseId : Uuid) (leaseSeconds : Int) (idempotencyKey : Option String) :
    Tx Lease :=
  idempotent idempotencyKey cachedLease do
    let lease ← getLease leaseId
    ensureActiveLease lease
    let expiresAt ← expiryAfter leaseSeconds
    updateLease lease.id (.leaseExpiry lease.id expiresAt)
    let event ← newEvent lease.cardId "lease_renewed" (some lease.workerId)
      [("lease_id", .str lease.id.str), ("expires_at", .str expiresAt.isoformat)]
    insertEvent engine event
    storeIdempotency idempotencyKey "lease.renew" (.lease lease.id)
    return { lease with expiresAt }

def releaseLease (leaseId : Uuid) (actorId idempotencyKey : Option String) : Tx Lease :=
  idempotent idempotencyKey cachedLease do
    let lease ← getLease leaseId
    match lease.releasedAt with
    | some _ => return lease
    | none => do
      let releasedAt ← Txn.now (S := postgres)
      updateLease lease.id (.leaseReleased lease.id releasedAt)
      let event ← newEvent lease.cardId "lease_released"
        (some ((truthyStr actorId).getD lease.workerId)) [("lease_id", .str lease.id.str)]
      insertEvent engine event
      storeIdempotency idempotencyKey "lease.release" (.lease lease.id)
      return { lease with releasedAt := some releasedAt }

def lapsed (now : Instant) (l : Lease) : Bool := l.releasedAt.isNone && l.expiresAt ≤ now

def expireEach (now : Instant) : List Lease → Tx (List Lease)
  | [] => return []
  | lease :: rest => do
    updateLease lease.id (.leaseReleased lease.id now)
    let event ← newEvent lease.cardId "lease_expired" (some lease.workerId)
      [("lease_id", .str lease.id.str)]
    insertEvent engine event
    let expired ← expireEach now rest
    return { lease with releasedAt := some now } :: expired

/-- The transaction of `expire_leases`; the clock is read before it. -/
def expireLeases (now : Instant) : Tx (List Lease) := do
  let d ← Txn.query (S := postgres) (.lapsedLeases now)
  expireEach engine now (engine.rows d (d.leases.values.filter (lapsed now)))

def validationPayload (accepted : Bool) (reason : Option String) (resultId : Uuid)
    (payload : Option JsonObj) : JsonObj :=
  JsonObj.update [("accepted", .bool accepted), ("reason", Json.ofOptionStr reason),
    ("validation_result_id", .str resultId.str)] (payload.getD [])

/-- The card moves along the output pipe of a verdict. -/
def validationRoute (card : Card) (validatorId : String) (outputPipe : Option String) :
    Tx (Option (String × String)) :=
  match truthyStr outputPipe with
  | none => return none
  | some pipe => do
    let p ← getPatchPanelForCard card
    let (destination, _) ← Txn.ofExcept (S := postgres) (resolvePipeBucket p pipe .output)
    let _ ← moveCardRow engine card destination (some validatorId) (some "validator_output") true
    return some (pipe, destination)

def validateCard (cardId : Uuid) (validatorId : String) (accepted : Bool)
    (reason outputPipe : Option String) (payload : Option JsonObj)
    (idempotencyKey : Option String) : Tx CardEvent :=
  idempotent idempotencyKey cachedEvent do
    let card ← getCard cardId
    let id ← Txn.fresh (S := postgres)
    let createdAt ← Txn.now (S := postgres)
    insertValidationResult engine { id, cardId := card.id, validatorId, accepted, reason,
                                    outputPipe, payload := payload.getD [], createdAt }
    let route ← validationRoute engine card validatorId outputPipe
    let event ← newEvent card.id "card_validated" (some validatorId)
      (InMemoryCardRuntime.routedPayload (validationPayload accepted reason id payload) route)
    insertEvent engine event
    storeIdempotency idempotencyKey "card.validate" (.event event.id)
    return event

def moveCard (cardId : Uuid) (toBucket : String) (actorId reason idempotencyKey : Option String) :
    Tx Card :=
  idempotent idempotencyKey cachedCard do
    let card ← getCard cardId
    let p ← getPatchPanelForCard card
    Txn.ofExcept (S := postgres) (ensureBucketExists p toBucket)
    let moved ← moveCardRow engine card toBucket actorId reason true
    storeIdempotency idempotencyKey "card.move" (.card card.id)
    return moved

/-- `ORDER BY occurred_at, id`. -/
def eventBefore (e e' : CardEvent) : Prop :=
  e.occurredAt < e'.occurredAt ∨ (e.occurredAt = e'.occurredAt ∧ e.id.int ≤ e'.id.int)

instance : DecidableRel eventBefore := fun _ _ => inferInstanceAs (Decidable (_ ∨ _))

def cardHistory (cardId : Uuid) : Tx (List CardEvent) := do
  let _ ← getCard cardId
  let d ← Txn.query (S := postgres) (.cardEvents cardId)
  return (d.cardEvents.values.filter fun e => e.cardId = cardId).insertionSort eventBefore

def recordEvent (cardId : Uuid) (eventType : String) (actorId : Option String)
    (payload : Option JsonObj) (idempotencyKey : Option String) : Tx CardEvent :=
  idempotent idempotencyKey cachedEvent do
    let _ ← getCard cardId
    let event ← newEvent cardId eventType actorId (payload.getD [])
    insertEvent engine event
    storeIdempotency idempotencyKey "event.record" (.event event.id)
    return event

end Operations

/-- The runtime with one client at a time. -/
def runtime (engine : Engine) : CardRuntime Tables where
  registerPatchPanel p := do
    let w ← Op.world
    let _ ← Op.ofExcept (PatchPanelValidator.validate w p)
    let now ← Op.now
    Op.atomically (registerPatchPanel engine p now)
  listPatchPanels := Op.atomically (listPatchPanels engine)
  createCard panel payload metadata key :=
    Op.atomically (createCard engine panel payload metadata key)
  listCards := Op.atomically (listCards engine)
  getCard card := Op.atomically (getCard card)
  listLeases := Op.atomically (listLeases engine)
  getLease lease := Op.atomically (getLease lease)
  claimCard pipe worker seconds key := Op.atomically (claimCard engine pipe worker seconds key)
  submitArtifact lease pipe refs key := do
    let w ← Op.world
    Op.atomically (submitArtifact engine w lease pipe refs key)
  renewLease lease seconds key := Op.atomically (renewLease engine lease seconds key)
  releaseLease lease actor key := Op.atomically (releaseLease engine lease actor key)
  expireLeases := do
    let now ← Op.now
    Op.atomically (expireLeases engine now)
  validateCard card validator accepted reason pipe payload key :=
    Op.atomically (validateCard engine card validator accepted reason pipe payload key)
  moveCard card bucket actor reason key := Op.atomically (moveCard engine card bucket actor reason key)
  cardHistory card := Op.atomically (cardHistory card)
  recordEvent card type actor payload key :=
    Op.atomically (recordEvent engine card type actor payload key)

end PostgresCardRuntime

end GhostMesh
