import GhostMesh.Lib.Tally
import GhostMesh.Runtime.Service

/-!
# Operator views

`ObservabilityService` over any runtime: what it shows is computed from the listings and
the histories. A quotient is kept as its two numbers, and the length of an interval as the
whole seconds of its microseconds.
-/

set_option autoImplicit false

namespace GhostMesh

structure TopologyNode where
  id : String
  type : NodeType
  validatorKind : Option String
  inputPipes : List String
  outputPipes : List String

structure TopologyEdge where
  fromNode : String
  toNode : String
  on : String
  condition : Option JsonObj

structure Topology where
  patchPanelId : String
  version : String
  nodes : List TopologyNode
  edges : List TopologyEdge
  buckets : List BucketDefinition
  mermaid : String

structure ActiveLease where
  lease : Lease
  ageSeconds : Int
  expiresInSeconds : Int

structure ValidatorDecision where
  cardId : Uuid
  validatorId : Option String
  accepted : Json
  reason : Json
  occurredAt : Instant

structure WorkflowVersionView where
  id : String
  patchPanelId : String
  version : String
  active : Bool

/-- A quotient of two counts. -/
structure Rate where
  count : Nat
  total : Nat

structure Metrics where
  cardCount : Nat
  bucketLoad : Dict String Nat
  activeLeaseCount : Nat
  workerActivity : Dict String (Dict String Nat)
  eventCounts : Dict String Nat
  acceptanceRate : Option Rate
  retryRate : Option Rate
  failedMovementCount : Nat
  oldestActiveLeaseAgeSeconds : Int

structure Dashboard where
  topology : Topology
  bucketLoad : Dict String Nat
  activeLeases : List ActiveLease
  workerActivity : Dict String (Dict String Nat)
  validatorDecisions : List ValidatorDecision
  failedMovements : List CardEvent
  metrics : Metrics

/-- `int(delta.total_seconds())`. -/
def wholeSeconds (micros : Int) : Int := micros.tdiv 1000000

def nodeShape (nodeId : String) (nodeType : NodeType) : String :=
  let label := s!"{nodeId}\\n{nodeType.value}"
  match nodeType with
  | .source | .sink => "([\"" ++ label ++ "\"])"
  | _ => "[\"" ++ label ++ "\"]"

def mermaid (p : PatchPanel) : String :=
  "\n".intercalate ("flowchart LR" ::
    p.nodes.map (fun node => s!"  {node.id}" ++ nodeShape node.id node.type) ++
    p.edges.map (fun edge => s!"  {edge.fromNode} -- {edge.on} --> {edge.toNode}"))

def retryTypes : List String := ["lease_expired", "card_move_failed", "failed_dropoff"]

def failureTypes : List String := ["card_move_failed", "failed_dropoff", "sink_failed"]

def activityTypes : List String :=
  ["card_claimed", "artifact_submitted", "lease_renewed", "lease_released", "lease_expired"]

def retryRate (events : List CardEvent) : Option Rate :=
  let retryEvents := events.filter fun e => e.eventType ∈ retryTypes
  let claimEvents := events.filter fun e => e.eventType = "card_claimed"
  if claimEvents = [] then none else some ⟨retryEvents.length, claimEvents.length⟩

namespace CardEvent

/-- The key by which `_all_events` sorts. -/
def shownBefore (e e' : CardEvent) : Bool :=
  decide (e.occurredAt < e'.occurredAt) ||
    decide (e.occurredAt = e'.occurredAt) && decide (e.id.str ≤ e'.id.str)

/-- Whose activity the event is. -/
def workerName (e : CardEvent) : String := (truthyStr e.actorId).getD "unknown"

end CardEvent

/-- `activity[worker_id][event.event_type] += 1`. -/
def addActivity (activity : Dict String (Dict String Nat)) (e : CardEvent) :
    Dict String (Dict String Nat) :=
  if e.eventType ∈ activityTypes then
    activity.set e.workerName (((activity.get? e.workerName).getD Dict.empty).bump e.eventType)
  else activity

namespace ObservabilityService

variable {σ : Type} (runtime : CardRuntime σ)

def patchPanel (patchPanelId : String) : Op σ PatchPanel := do
  let patchPanels ← runtime.listPatchPanels
  match patchPanels.find? (fun p => p.id = patchPanelId) with
  | some p => return p
  | none => Op.raise (.notFound s!"Patch Panel '{patchPanelId}' is not registered")

def topology (patchPanelId : String) : Op σ Topology := do
  let p ← patchPanel runtime patchPanelId
  return { patchPanelId := p.id
           version := p.version
           nodes := p.nodes.map fun n => ⟨n.id, n.type, n.validatorKind, n.inputPipes, n.outputPipes⟩
           edges := p.edges.map fun e => ⟨e.fromNode, e.toNode, e.on, e.condition⟩
           buckets := p.buckets
           mermaid := mermaid p }

def cardsByBucket : Op σ (Dict String (List Card)) := do
  let cards ← runtime.listCards
  return Dict.groupBy Card.currentBucket cards

def bucketLoad : Op σ (Dict String Nat) := do
  let grouped ← cardsByBucket runtime
  return grouped.mapSorted (fun b b' => decide (b ≤ b')) List.length

def activeLeases : Op σ (List ActiveLease) := do
  let t ← Op.now
  let leases ← runtime.listLeases
  return (leases.filter (·.activeAt t)).map fun lease =>
    ⟨lease, wholeSeconds (t - lease.claimedAt), wholeSeconds (lease.expiresAt - t)⟩

def historiesOf : List Card → Op σ (List CardEvent)
  | [] => return []
  | card :: cards => do
    let events ← runtime.cardHistory card.id
    let rest ← historiesOf cards
    return events ++ rest

def allEvents : Op σ (List CardEvent) := do
  let cards ← runtime.listCards
  let events ← historiesOf runtime cards
  return events.mergeSort CardEvent.shownBefore

def workerActivity : Op σ (Dict String (Dict String Nat)) := do
  let events ← allEvents runtime
  return events.foldl addActivity Dict.empty

def validatorDecisions : Op σ (List ValidatorDecision) := do
  let events ← allEvents runtime
  return (events.filter fun e => e.eventType = "card_validated").map fun e =>
    ⟨e.cardId, e.actorId, JsonObj.getD e.payload "accepted" .null,
      JsonObj.getD e.payload "reason" .null, e.occurredAt⟩

def workflowVersions : Op σ (List WorkflowVersionView) := do
  let patchPanels ← runtime.listPatchPanels
  return patchPanels.map fun p => ⟨p.workflowVersion, p.id, p.version, true⟩

def failedMovements : Op σ (List CardEvent) := do
  let events ← allEvents runtime
  return events.filter fun e => e.eventType ∈ failureTypes

/-- Only the value `True` counts, not a truthy one. -/
def acceptanceRate (events : List CardEvent) : Option Rate :=
  let validatorEvents := events.filter fun e => e.eventType = "card_validated"
  let accepted := validatorEvents.filter fun e =>
    match JsonObj.get? e.payload "accepted" with
    | some (.bool true) => true
    | _ => false
  if validatorEvents = [] then none else some ⟨accepted.length, validatorEvents.length⟩

def metrics : Op σ Metrics := do
  let events ← allEvents runtime
  let active ← activeLeases runtime
  let cards ← runtime.listCards
  let load ← bucketLoad runtime
  let activity ← workerActivity runtime
  let failed ← failedMovements runtime
  return { cardCount := cards.length
           bucketLoad := load
           activeLeaseCount := active.length
           workerActivity := activity
           eventCounts := Dict.tally (events.map (·.eventType))
           acceptanceRate := acceptanceRate events
           retryRate := retryRate events
           failedMovementCount := failed.length
           oldestActiveLeaseAgeSeconds := (active.map (·.ageSeconds)).max?.getD 0 }

def dashboard (patchPanelId : String) : Op σ Dashboard := do
  let topology ← topology runtime patchPanelId
  let bucketLoad ← bucketLoad runtime
  let activeLeases ← activeLeases runtime
  let workerActivity ← workerActivity runtime
  let validatorDecisions ← validatorDecisions runtime
  let failedMovements ← failedMovements runtime
  let metrics ← metrics runtime
  return { topology, bucketLoad, activeLeases, workerActivity, validatorDecisions, failedMovements,
           metrics }

end ObservabilityService

end GhostMesh
