import GhostMesh.Runtime.Service

/-!
# The in-memory runtime

`InMemoryCardRuntime` method by method. Dictionaries keep insertion order, so a
scan over cards or panels meets them in the order in which they were first stored.
-/

set_option autoImplicit false

namespace GhostMesh

/-- A value of the idempotency map. -/
inductive Stored where
  | card (c : Card)
  | lease (l : Lease)
  | artifacts (refs : List ArtifactReference)
  | event (e : CardEvent)

/-- `if cached := ...`: only an empty list is falsy. -/
def Stored.truthy : Stored → Bool
  | .artifacts refs => !refs.isEmpty
  | _ => true

def Stored.card? : Stored → Option Card
  | .card c => some c
  | _ => none

def Stored.lease? : Stored → Option Lease
  | .lease l => some l
  | _ => none

def Stored.artifacts? : Stored → Option (List ArtifactReference)
  | .artifacts refs => some refs
  | _ => none

def Stored.event? : Stored → Option CardEvent
  | .event e => some e
  | _ => none

structure InMemoryCardRuntime where
  patchPanels : Dict String PatchPanel
  cards : Dict Uuid Card
  leases : Dict Uuid Lease
  artifacts : Dict Uuid ArtifactReference
  events : Dict Uuid (List CardEvent)
  idempotency : Dict String Stored

namespace InMemoryCardRuntime

def init : InMemoryCardRuntime :=
  ⟨Dict.empty, Dict.empty, Dict.empty, Dict.empty, Dict.empty, Dict.empty⟩

/-- The history of a card as stored, empty for a card without events. -/
def history (s : InMemoryCardRuntime) (cardId : Uuid) : List CardEvent :=
  (s.events.get? cardId).getD []

def putCard (s : InMemoryCardRuntime) (c : Card) : InMemoryCardRuntime :=
  { s with cards := s.cards.set c.id c }

def putLease (s : InMemoryCardRuntime) (l : Lease) : InMemoryCardRuntime :=
  { s with leases := s.leases.set l.id l }

def putArtifacts (s : InMemoryCardRuntime) (refs : List ArtifactReference) : InMemoryCardRuntime :=
  { s with artifacts := refs.foldl (fun d ref => d.set ref.id ref) s.artifacts }

def putEvent (s : InMemoryCardRuntime) (e : CardEvent) : InMemoryCardRuntime :=
  { s with events := s.events.set e.cardId (s.history e.cardId ++ [e]) }

def putPanel (s : InMemoryCardRuntime) (p : PatchPanel) : InMemoryCardRuntime :=
  { s with patchPanels := s.patchPanels.set p.id p }

def putKey (s : InMemoryCardRuntime) (key : Option String) (value : Stored) :
    InMemoryCardRuntime :=
  match truthyStr key with
  | some k => { s with idempotency := s.idempotency.set k value }
  | none => s

abbrev Rt (α : Type) := Op InMemoryCardRuntime α

/-! ## Helpers -/

def recordCardEvent (e : CardEvent) : Rt Unit := Op.modify (·.putEvent e)

def getPatchPanel (patchPanelId : String) : Rt PatchPanel := do
  let s ← Op.get
  match s.patchPanels.get? patchPanelId with
  | some p => return p
  | none => Op.raise (.notFound s!"Patch Panel '{patchPanelId}' is not registered")

/-- `text.rsplit(":", 1)[0]`. -/
def beforeLastColon (text : String) : String :=
  if ':' ∈ text.toList then
    String.ofList ((text.toList.reverse.dropWhile (· ≠ ':')).drop 1).reverse
  else text

def getPatchPanelForCard (card : Card) : Rt PatchPanel :=
  getPatchPanel (beforeLastColon card.workflowVersion)

def getCard (cardId : Uuid) : Rt Card := do
  let s ← Op.get
  match s.cards.get? cardId with
  | some c => return c
  | none => Op.raise (.notFound s!"card '{cardId.str}' does not exist")

def getLease (leaseId : Uuid) : Rt Lease := do
  let s ← Op.get
  match s.leases.get? leaseId with
  | some l => return l
  | none => Op.raise (.notFound s!"lease '{leaseId.str}' does not exist")

/-- What the idempotency map answers for a key. -/
def cached (s : InMemoryCardRuntime) (key : Option String) : Option Stored :=
  ((truthyStr key).bind s.idempotency.get?).filter Stored.truthy

def getIdempotent (key : Option String) : Rt (Option Stored) := do
  let s ← Op.get
  return s.cached key

def storeIdempotent (key : Option String) (value : Stored) : Rt Unit :=
  Op.modify (·.putKey key value)

/-- `_typed` and `_typed_artifacts`. -/
def typed {α : Type} (value : Option α) : Rt α :=
  match value with
  | some a => return a
  | none => Op.raise (.conflict "idempotency key was already used for a different operation")

/-- The opening of every operation that takes an idempotency key. -/
def idempotent {α : Type} (key : Option String) (ofStored : Stored → Option α) (body : Rt α) :
    Rt α := do
  match ← getIdempotent key with
  | some cached => typed (ofStored cached)
  | none => body

/-! ## Panels and cards -/

def registerPatchPanel (p : PatchPanel) : Rt PatchPanel := do
  let w ← Op.world
  let _ ← Op.ofExcept (PatchPanelValidator.validate w p)
  Op.modify (·.putPanel p)
  return p

def listPatchPanels : Rt (List PatchPanel) := do
  let s ← Op.get
  return s.patchPanels.values

def createCard (patchPanelId : String) (payload : JsonObj) (metadata : Option JsonObj)
    (idempotencyKey : Option String) : Rt Card :=
  idempotent idempotencyKey Stored.card? do
    let p ← getPatchPanel patchPanelId
    let bucket ← Op.ofExcept (resolveInitialBucket p)
    let id ← Op.uuid4
    let createdAt ← Op.now
    let card : Card :=
      { id, workflowVersion := p.workflowVersion, currentBucket := bucket, payload,
        metadata := metadata.getD [], createdAt }
    Op.modify (·.putCard card)
    let event ← newEvent card.id "card_created" none
      [("patch_panel_id", .str p.id), ("version", .str p.version), ("bucket", .str bucket)]
    recordCardEvent event
    storeIdempotent idempotencyKey (.card card)
    return card

def listCards : Rt (List Card) := do
  let s ← Op.get
  return s.cards.values

def listLeases : Rt (List Lease) := do
  let s ← Op.get
  return s.leases.values

/-! ## Leases -/

def hasActiveLease (cardId : Uuid) : Rt Bool := do
  let t ← Op.now
  let s ← Op.get
  return s.leases.values.any (fun l => l.cardId = cardId && l.activeAt t)

/-- The first card of the panel in the bucket without an active lease; the clock is
read once for every card that gets as far as the lease check. -/
def firstClaimable (p : PatchPanel) (bucket : String) : List Card → Rt (Option Card)
  | [] => return none
  | c :: cs =>
    if c.workflowVersion = p.workflowVersion ∧ c.currentBucket = bucket then do
      let held ← hasActiveLease c.id
      if held then firstClaimable p bucket cs else return some c
    else firstClaimable p bucket cs

structure ClaimMatch where
  panel : PatchPanel
  bucket : String
  nodeId : String
  card : Option Card

def claimMatches (inputPipe : String) : List PatchPanel → Rt (List ClaimMatch)
  | [] => return []
  | p :: ps =>
    match resolvePipeBucket p inputPipe .input with
    | .error (.invalidOperation _) => claimMatches inputPipe ps
    | .error e => Op.raise e
    | .ok (bucket, nodeId) => do
      let s ← Op.get
      let card ← firstClaimable p bucket s.cards.values
      let rest ← claimMatches inputPipe ps
      return ⟨p, bucket, nodeId, card⟩ :: rest

/-- The choice among the panels that bind the pipe as an input. -/
def chooseMatch (inputPipe : String) (found : List ClaimMatch) : Except PyErr ClaimMatch :=
  match found, found.filter (fun m => m.card.isSome) with
  | [], _ => .error (.notFound s!"input pipe '{inputPipe}' is not bound to a Patch Panel")
  | _, [m] => .ok m
  | [m], _ => .ok m
  | first :: _, [] => .ok { first with card := none }
  | _, _ => .error (.conflict s!"input pipe '{inputPipe}' has claimable cards in multiple workflows")

def claimTarget (inputPipe : String) : Rt ClaimMatch := do
  let s ← Op.get
  let found ← claimMatches inputPipe s.patchPanels.values
  Op.ofExcept (chooseMatch inputPipe found)

def claimCard (inputPipe workerId : String) (leaseSeconds : Int)
    (idempotencyKey : Option String) : Rt Lease :=
  idempotent idempotencyKey Stored.lease? do
    let target ← claimTarget inputPipe
    match target.card with
    | none => Op.raise (.notFound s!"no claimable cards in bucket '{target.bucket}'")
    | some card => do
      let lease ← newLease card target.nodeId workerId inputPipe leaseSeconds
      Op.modify (·.putLease lease)
      let event ← newEvent card.id "card_claimed" (some workerId)
        [("lease_id", .str lease.id.str), ("input_pipe", .str inputPipe)]
      recordCardEvent event
      storeIdempotent idempotencyKey (.lease lease)
      return lease

def artifactJson (ref : ArtifactReference) : Json :=
  .obj [("id", .str ref.id.str), ("storage_ref", .str ref.storageRef),
    ("content_hash", .str ref.contentHash), ("content_type", .str ref.contentType),
    ("size_bytes", .int ref.sizeBytes), ("metadata", .obj ref.metadata)]

def submitArtifact (leaseId : Uuid) (outputPipe : String) (refs : List ArtifactReference)
    (idempotencyKey : Option String) : Rt (List ArtifactReference) :=
  idempotent idempotencyKey Stored.artifacts? do
    let lease ← getLease leaseId
    ensureActiveLease lease
    let card ← getCard lease.cardId
    let p ← getPatchPanelForCard card
    let (destination, nodeId) ← Op.ofExcept (resolvePipeBucket p outputPipe .output)
    Op.ofExcept (ensureArtifactRefsBelongToCard card.id refs)
    let w ← Op.world
    Op.ofExcept (ensureArtifactsAccepted w p destination refs)
    Op.ensure (nodeId = lease.nodeId)
      (.conflict s!"lease node '{lease.nodeId}' cannot submit through node '{nodeId}'")
    Op.modify (·.putCard { card with currentBucket := destination })
    let releasedAt ← Op.now
    Op.modify (·.putLease { lease with releasedAt := some releasedAt })
    let event ← newEvent card.id "artifact_submitted" (some lease.workerId)
      [("artifact_ids", .list (refs.map fun ref => .str ref.id.str)),
        ("artifact_refs", .list (refs.map artifactJson)), ("lease_id", .str lease.id.str),
        ("output_pipe", .str outputPipe), ("destination_bucket", .str destination)]
    let storedRefs := refs.map fun ref =>
      { ref with cardId := card.id, eventId := some event.id }
    Op.modify (·.putArtifacts storedRefs)
    recordCardEvent event
    storeIdempotent idempotencyKey (.artifacts storedRefs)
    return storedRefs

def renewLease (leaseId : Uuid) (leaseSeconds : Int) (idempotencyKey : Option String) : Rt Lease :=
  idempotent idempotencyKey Stored.lease? do
    let lease ← getLease leaseId
    ensureActiveLease lease
    let expiresAt ← expiryAfter leaseSeconds
    let renewed := { lease with expiresAt }
    Op.modify (·.putLease renewed)
    let event ← newEvent lease.cardId "lease_renewed" (some lease.workerId)
      [("lease_id", .str lease.id.str), ("expires_at", .str expiresAt.isoformat)]
    recordCardEvent event
    storeIdempotent idempotencyKey (.lease renewed)
    return renewed

def releaseLease (leaseId : Uuid) (actorId idempotencyKey : Option String) : Rt Lease :=
  idempotent idempotencyKey Stored.lease? do
    let lease ← getLease leaseId
    match lease.releasedAt with
    | some _ => return lease
    | none => do
      let releasedAt ← Op.now
      let released := { lease with releasedAt := some releasedAt }
      Op.modify (·.putLease released)
      let event ← newEvent lease.cardId "lease_released"
        (some ((truthyStr actorId).getD lease.workerId)) [("lease_id", .str lease.id.str)]
      recordCardEvent event
      storeIdempotent idempotencyKey (.lease released)
      return released

def expireEach (t : Instant) : List Lease → Rt (List Lease)
  | [] => return []
  | lease :: rest =>
    if lease.releasedAt.isNone ∧ lease.expiresAt ≤ t then do
      let released := { lease with releasedAt := some t }
      Op.modify (·.putLease released)
      let event ← newEvent lease.cardId "lease_expired" (some lease.workerId)
        [("lease_id", .str lease.id.str)]
      recordCardEvent event
      let expired ← expireEach t rest
      return released :: expired
    else expireEach t rest

def expireLeases : Rt (List Lease) := do
  let t ← Op.now
  let s ← Op.get
  expireEach t s.leases.values

/-! ## Validation, movement, evidence -/

/-- The merged payload before routing fields: the caller's dictionary overrides
`accepted` and `reason`. -/
def validationPayload (accepted : Bool) (reason : Option String) (payload : Option JsonObj) :
    JsonObj :=
  JsonObj.update [("accepted", .bool accepted), ("reason", Json.ofOptionStr reason)]
    (payload.getD [])

/-- Where a validation routes the card: nowhere without an output pipe. -/
def validationRoute (card : Card) (outputPipe : Option String) : Rt (Option (String × String)) :=
  match truthyStr outputPipe with
  | none => return none
  | some pipe => do
    let p ← getPatchPanelForCard card
    let (destination, _) ← Op.ofExcept (resolvePipeBucket p pipe .output)
    return some (pipe, destination)

def routedPayload (payload : JsonObj) : Option (String × String) → JsonObj
  | none => payload
  | some (pipe, destination) =>
    JsonObj.set (JsonObj.set payload "output_pipe" (.str pipe)) "destination_bucket"
      (.str destination)

def routeCard (s : InMemoryCardRuntime) (card : Card) :
    Option (String × String) → InMemoryCardRuntime
  | none => s
  | some (_, destination) => s.putCard { card with currentBucket := destination }

def validateCard (cardId : Uuid) (validatorId : String) (accepted : Bool)
    (reason outputPipe : Option String) (payload : Option JsonObj)
    (idempotencyKey : Option String) : Rt CardEvent :=
  idempotent idempotencyKey Stored.event? do
    let card ← getCard cardId
    let route ← validationRoute card outputPipe
    Op.modify (·.routeCard card route)
    let event ← newEvent card.id "card_validated" (some validatorId)
      (routedPayload (validationPayload accepted reason payload) route)
    recordCardEvent event
    storeIdempotent idempotencyKey (.event event)
    return event

def moveCard (cardId : Uuid) (toBucket : String) (actorId reason idempotencyKey : Option String) :
    Rt Card :=
  idempotent idempotencyKey Stored.card? do
    let card ← getCard cardId
    let p ← getPatchPanelForCard card
    Op.ofExcept (ensureBucketExists p toBucket)
    let moved := { card with currentBucket := toBucket }
    Op.modify (·.putCard moved)
    let event ← newEvent card.id "card_moved" actorId
      [("from_bucket", .str card.currentBucket), ("to_bucket", .str toBucket),
        ("reason", Json.ofOptionStr reason)]
    recordCardEvent event
    storeIdempotent idempotencyKey (.card moved)
    return moved

def cardHistory (cardId : Uuid) : Rt (List CardEvent) := do
  let _ ← getCard cardId
  let s ← Op.get
  return s.history cardId

def recordEvent (cardId : Uuid) (eventType : String) (actorId : Option String)
    (payload : Option JsonObj) (idempotencyKey : Option String) : Rt CardEvent :=
  idempotent idempotencyKey Stored.event? do
    let _ ← getCard cardId
    let event ← newEvent cardId eventType actorId (payload.getD [])
    recordCardEvent event
    storeIdempotent idempotencyKey (.event event)
    return event

def runtime : CardRuntime InMemoryCardRuntime where
  registerPatchPanel := registerPatchPanel
  listPatchPanels := listPatchPanels
  createCard := createCard
  listCards := listCards
  getCard := getCard
  listLeases := listLeases
  getLease := getLease
  claimCard := claimCard
  submitArtifact := submitArtifact
  renewLease := renewLease
  releaseLease := releaseLease
  expireLeases := expireLeases
  validateCard := validateCard
  moveCard := moveCard
  cardHistory := cardHistory
  recordEvent := recordEvent

end InMemoryCardRuntime

end GhostMesh
