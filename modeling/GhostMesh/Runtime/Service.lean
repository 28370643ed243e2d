import GhostMesh.Artifacts.Validation
import GhostMesh.PatchPanel.Validator

/-!
# Runtime service functions

The checks and lookups that both runtimes share.
-/

set_option autoImplicit false

namespace GhostMesh

/-- The protocol that services are written against. -/
structure CardRuntime (σ : Type) where
  registerPatchPanel : PatchPanel → Op σ PatchPanel
  listPatchPanels : Op σ (List PatchPanel)
  createCard : String → JsonObj → Option JsonObj → Option String → Op σ Card
  listCards : Op σ (List Card)
  getCard : Uuid → Op σ Card
  listLeases : Op σ (List Lease)
  getLease : Uuid → Op σ Lease
  claimCard : String → String → Int → Option String → Op σ Lease
  submitArtifact : Uuid → String → List ArtifactReference → Option String →
    Op σ (List ArtifactReference)
  renewLease : Uuid → Int → Option String → Op σ Lease
  releaseLease : Uuid → Option String → Option String → Op σ Lease
  expireLeases : Op σ (List Lease)
  validateCard : Uuid → String → Bool → Option String → Option String → Option JsonObj →
    Option String → Op σ CardEvent
  moveCard : Uuid → String → Option String → Option String → Option String → Op σ Card
  cardHistory : Uuid → Op σ (List CardEvent)
  recordEvent : Uuid → String → Option String → Option JsonObj → Option String → Op σ CardEvent

/-- The runtime of a component, seen from the store that contains it. -/
def CardRuntime.on {σ τ : Type} (c : Component τ σ) (r : CardRuntime σ) :
    CardRuntime τ where
  registerPatchPanel p := Op.on c (r.registerPatchPanel p)
  listPatchPanels := Op.on c r.listPatchPanels
  createCard panel payload metadata key :=
    Op.on c (r.createCard panel payload metadata key)
  listCards := Op.on c r.listCards
  getCard card := Op.on c (r.getCard card)
  listLeases := Op.on c r.listLeases
  getLease lease := Op.on c (r.getLease lease)
  claimCard pipe worker seconds key := Op.on c (r.claimCard pipe worker seconds key)
  submitArtifact lease pipe refs key :=
    Op.on c (r.submitArtifact lease pipe refs key)
  renewLease lease seconds key := Op.on c (r.renewLease lease seconds key)
  releaseLease lease actor key := Op.on c (r.releaseLease lease actor key)
  expireLeases := Op.on c r.expireLeases
  validateCard card validator accepted reason pipe payload key :=
    Op.on c (r.validateCard card validator accepted reason pipe payload key)
  moveCard card bucket actor reason key :=
    Op.on c (r.moveCard card bucket actor reason key)
  cardHistory card := Op.on c (r.cardHistory card)
  recordEvent card type actor payload key :=
    Op.on c (r.recordEvent card type actor payload key)

def resolveInitialBucket (p : PatchPanel) : Except PyErr String :=
  match p.nodes.find? (fun n => n.type = .source) with
  | none => .error (.invalidOperation "Patch Panel has no source node")
  | some source => match source.outputPipes with
    | [] => .error (.invalidOperation s!"source node '{source.id}' has no output pipe")
    | pipe :: _ => match p.pipeBindings.get? pipe with
      | none => .error (.invalidOperation s!"source pipe '{pipe}' is not bound")
      | some binding => .ok binding.bucket

def findNodeForPipe (p : PatchPanel) (pipe : String) (direction : Direction) :
    Except PyErr String :=
  match p.nodes.find? (fun n => pipe ∈ n.pipes direction) with
  | some n => .ok n.id
  | none => .error (.notFound s!"pipe '{pipe}' is not declared by any node")

def ensureDirection (pipe : String) (declared : Option Direction) (direction : Direction) :
    Except PyErr Unit :=
  match declared with
  | none => .ok ()
  | some d =>
    if d = direction then .ok ()
    else .error (.invalidOperation
      s!"pipe '{pipe}' is configured as '{d.value}', not '{direction.value}'")

/-- Bucket and node of a pipe. A binding without a node falls back to the first
node that declares the pipe for the direction. -/
def resolvePipeBucket (p : PatchPanel) (pipe : String) (direction : Direction) :
    Except PyErr (String × String) :=
  match p.pipeBindings.get? pipe with
  | none => .error (.invalidOperation s!"pipe '{pipe}' is not bound")
  | some binding => do
    ensureDirection pipe binding.direction direction
    match truthyStr binding.node with
    | some node => .ok (binding.bucket, node)
    | none => do
      let node ← findNodeForPipe p pipe direction
      .ok (binding.bucket, node)

def ensureBucketExists (p : PatchPanel) (bucketId : String) : Except PyErr Unit :=
  if bucketId ∈ p.buckets.map (·.id) then .ok ()
  else .error (.invalidOperation s!"bucket '{bucketId}' is not declared")

/-- A lease holds its card at an instant. -/
def Lease.activeAt (l : Lease) (t : Instant) : Bool :=
  l.releasedAt.isNone && decide (t < l.expiresAt)

/-- The clock is read only for a lease that has not been released. -/
def ensureActiveLease {σ : Type} (lease : Lease) : Op σ Unit := do
  Op.ensure lease.releasedAt.isNone
    (.conflict s!"lease '{lease.id.str}' has already been released")
  let t ← Op.now
  Op.ensure (t < lease.expiresAt) (.conflict s!"lease '{lease.id.str}' has expired")

/-- `datetime.now(UTC) + timedelta(seconds=seconds)`. -/
def expiryAfter {σ : Type} (seconds : Int) : Op σ Instant := do
  let t ← Op.now
  match t.addSeconds seconds with
  | some e => return e
  | none => Op.raise .overflow

def newLease {σ : Type} (card : Card) (nodeId workerId inputPipe : String) (seconds : Int) :
    Op σ Lease := do
  let expiresAt ← expiryAfter seconds
  let id ← Op.uuid4
  let claimedAt ← Op.now
  return { id, cardId := card.id, nodeId, workerId, inputPipe, claimedAt, expiresAt,
           releasedAt := none }

def newEvent {σ : Type} (cardId : Uuid) (eventType : String) (actorId : Option String)
    (payload : JsonObj) : Op σ CardEvent := do
  let id ← Op.uuid4
  let occurredAt ← Op.now
  return { id, cardId, eventType, actorId, payload, occurredAt }

def ensureArtifactsAccepted (w : World) (p : PatchPanel) (destinationBucketId : String)
    (refs : List ArtifactReference) : Except PyErr Unit :=
  match p.buckets.find? (fun b => b.id = destinationBucketId) with
  | none => .error (.invalidOperation s!"bucket '{destinationBucketId}' is not declared")
  | some bucket => match bucket.acceptanceContract with
    | none => .ok ()
    | some contractId => match p.acceptanceContracts.find? (fun c => c.id = contractId) with
      | none => .error (.invalidOperation
          (s!"bucket '{destinationBucketId}' references unknown acceptance contract " ++
            s!"'{contractId}'"))
      | some contract => validateArtifactReferences w refs contract

def ensureRefsOfCard (cardId : Uuid) : List ArtifactReference → Except PyErr Unit
  | [] => .ok ()
  | ref :: rest =>
    if ref.cardId ≠ cardId then
      .error (.invalidOperation
        (s!"artifact '{ref.id.str}' belongs to card '{ref.cardId.str}', " ++
          s!"not '{cardId.str}'"))
    else ensureRefsOfCard cardId rest

def ensureArtifactRefsBelongToCard (cardId : Uuid) (refs : List ArtifactReference) :
    Except PyErr Unit :=
  if refs = [] then .error (.invalidOperation "submit requires at least one artifact reference")
  else ensureRefsOfCard cardId refs

end GhostMesh
