import GhostMesh.Nodes.Executor

/-!
# Boundary adapters

Ingress and egress through the contracts in a node's configuration.
-/

set_option autoImplicit false

namespace GhostMesh

structure BoundaryAuth where
  token : Option String
  tokens : List String

structure SourceBoundaryContract where
  adapter : String
  auth : Option BoundaryAuth
  payloadMap : Dict String String
  metadataMap : Dict String String
  deduplicationKey : Option String
  targetWorkflowVersion : Option String

structure SinkBoundaryContract where
  adapter : String
  auth : Option BoundaryAuth
  payloadMap : Dict String String
  idempotencyKey : Option String
  externalReferencePath : Option String

structure BoundarySourceRequest where
  patchPanelId : String
  sourceId : String
  externalPayload : JsonObj
  headers : JsonObj
  actorToken : Option String

structure BoundarySinkRequest where
  patchPanelId : String
  sinkId : String
  cardId : Uuid
  externalResponse : JsonObj
  actorToken : Option String

structure SourceBoundaryResult where
  card : Card
  deduplicationKey : Option String
  adapter : String

structure SinkBoundaryResult where
  event : CardEvent
  externalReference : Option String
  egressIdempotencyKey : Option String
  adapter : String

section Contracts
open Decode

def BoundaryAuth.ofJson : Json → Option BoundaryAuth
  | .obj o => do
    let token ← fieldD o "token" none (opt str)
    let tokens ← fieldD o "tokens" [] (list str)
    return { token, tokens }
  | _ => none

def SourceBoundaryContract.ofJson : Json → Option SourceBoundaryContract
  | .obj o => do
    let adapter ← fieldD o "adapter" "webhook" str
    let auth ← fieldD o "auth" none (opt BoundaryAuth.ofJson)
    let payloadMap ← fieldD o "payload_map" Dict.empty (dict str)
    let metadataMap ← fieldD o "metadata_map" Dict.empty (dict str)
    let deduplicationKey ← fieldD o "deduplication_key" none (opt str)
    let targetWorkflowVersion ← fieldD o "target_workflow_version" none (opt str)
    return { adapter, auth, payloadMap, metadataMap, deduplicationKey, targetWorkflowVersion }
  | _ => none

def SinkBoundaryContract.ofJson : Json → Option SinkBoundaryContract
  | .obj o => do
    let adapter ← fieldD o "adapter" "webhook" str
    let auth ← fieldD o "auth" none (opt BoundaryAuth.ofJson)
    let payloadMap ← fieldD o "payload_map" Dict.empty (dict str)
    let idempotencyKey ← fieldD o "idempotency_key" none (opt str)
    let externalReferencePath ← fieldD o "external_reference_path" none (opt str)
    return { adapter, auth, payloadMap, idempotencyKey, externalReferencePath }
  | _ => none

end Contracts

namespace BoundaryAdapterService

/-- `config.get("boundary_contract", config.get(other, {}))`. -/
def contractJson (n : NodeDefinition) (other : String) : Json :=
  JsonObj.getD n.config "boundary_contract" (JsonObj.getD n.config other (.obj []))

def parseContract {α : Type} (w : World) (model : String) (ofJson : Json → Option α) (j : Json) :
    Except PyErr α :=
  match ofJson j with
  | some contract => .ok contract
  | none => .error (.value (w.schemaError model j))

def ensureAuthorized (auth : Option BoundaryAuth) (actorToken : Option String) :
    Except PyErr Unit :=
  match auth with
  | none => .ok ()
  | some auth =>
    let allowed := auth.tokens ++ (truthyStr auth.token).toList
    if allowed = [] ∨ (∃ token ∈ actorToken, token ∈ allowed) then .ok ()
    else .error (.invalidOperation "boundary adapter authorization failed")

/-- The parts of `text.split(separator)`. -/
def splitChars (separator : Char) (part : List Char) : List Char → List (List Char)
  | [] => [part.reverse]
  | c :: cs =>
    if c = separator then part.reverse :: splitChars separator [] cs
    else splitChars separator (c :: part) cs

def split (text : String) (separator : Char) : List String :=
  (splitChars separator [] text.toList).map String.ofList

def extractParts (path : String) : Json → List String → Except PyErr Json
  | value, [] => .ok value
  | value, part :: rest =>
    match value with
    | .obj fields => match JsonObj.get? fields part with
      | some inner => extractParts path inner rest
      | none => .error (.invalidOperation s!"boundary mapping path '{path}' was not found")
    | _ => .error (.invalidOperation s!"boundary mapping path '{path}' was not found")

def extractPath (envelope : JsonObj) (path : String) : Except PyErr Json :=
  if path = "" then .ok .null else extractParts path (.obj envelope) (split path '.')

def mapEntries (envelope : JsonObj) : List (String × String) → Except PyErr JsonObj
  | [] => .ok []
  | (target, source) :: rest => do
    let value ← extractPath envelope source
    let more ← mapEntries envelope rest
    return (target, value) :: more

def mapPayload (envelope : JsonObj) (mapping : Dict String String) : Except PyErr JsonObj :=
  mapEntries envelope mapping.entries

/-! ## Egress keys -/

def templateValues (card : Card) (sinkId : String) (externalReference : Option String) :
    List (String × String) :=
  [("card_id", card.id.str), ("sink_id", sinkId), ("workflow_version", card.workflowVersion),
    ("external_reference", externalReference.getD "")]

def strip (w : World) (s : String) : String :=
  String.ofList ((s.toList.dropWhile w.isSpace).reverse.dropWhile w.isSpace).reverse

/-- The text of a replacement field and what follows its closing brace; braces inside
the field nest. -/
def takeField : Nat → List Char → List Char → Option (List Char × List Char)
  | _, _, [] => none
  | depth, acc, '}' :: cs => match depth with
    | 0 => some (acc.reverse, cs)
    | d + 1 => takeField d ('}' :: acc) cs
  | depth, acc, c :: cs =>
    takeField (if c = '{' then depth + 1 else depth) (c :: acc) cs

/-- `template.format(**values)`, character by character; the fuel is the length. -/
def formatChars (w : World) (values : List (String × String)) :
    Nat → List Char → Except PyErr (List Char)
  | _, [] => .ok []
  | 0, _ => .ok []
  | fuel + 1, '{' :: '{' :: cs => do
    let rest ← formatChars w values fuel cs
    return '{' :: rest
  | fuel + 1, '}' :: '}' :: cs => do
    let rest ← formatChars w values fuel cs
    return '}' :: rest
  | _ + 1, '}' :: _ => .error (.value "Single '\x7d' encountered in format string")
  | _ + 1, ['{'] => .error (.value "Single '\x7b' encountered in format string")
  | fuel + 1, '{' :: cs => match takeField 0 [] cs with
    | none => .error (.value "expected '\x7d' before end of string")
    | some (name, after) => do
      let shown ← match Dict.lookupIn (String.ofList name) values with
        | some value => .ok value
        | none => w.formatField (String.ofList name) values
      let rest ← formatChars w values fuel after
      return shown.toList ++ rest
  | fuel + 1, c :: cs => do
    let rest ← formatChars w values fuel cs
    return c :: rest

def renderTemplate (w : World) (template : String) (card : Card) (sinkId : String)
    (externalReference : Option String) : Except PyErr String :=
  let values := templateValues card sinkId externalReference
  match Dict.lookupIn template values with
  | some value => .ok value
  | none =>
    let parts := (split template '+').map (strip w)
    if 1 < parts.length ∧ ∀ part ∈ parts, (Dict.lookupIn part values).isSome then
      .ok (":".intercalate (parts.filterMap fun part => Dict.lookupIn part values))
    else (formatChars w values template.length template.toList).map String.ofList

/-- `card.model_dump(mode="json")`. -/
def cardJson (card : Card) : Json :=
  .obj [("id", .str card.id.str), ("workflow_version", .str card.workflowVersion),
    ("current_bucket", .str card.currentBucket), ("payload", .obj card.payload),
    ("metadata", .obj card.metadata), ("created_at", .str card.createdAt.jsonformat)]

section Operations
variable {σ : Type} (runtime : CardRuntime σ)

def patchPanel (patchPanelId : String) : Op σ PatchPanel := do
  let panels ← runtime.listPatchPanels
  match panels.find? (fun p => p.id = patchPanelId) with
  | some p => return p
  | none => Op.raise (.notFound s!"Patch Panel '{patchPanelId}' is not registered")

def ensureTarget (p : PatchPanel) (n : NodeDefinition) (target : Option String) :
    Except PyErr Unit :=
  match target with
  | none => .ok ()
  | some version =>
    if version = p.workflowVersion then .ok ()
    else .error (.invalidOperation
      s!"source '{n.id}' targets workflow '{version}', not '{p.workflowVersion}'")

def extractOption (w : World) (envelope : JsonObj) (path : Option String) :
    Except PyErr (Option String) :=
  match truthyStr path with
  | none => .ok none
  | some path => do
    let value ← extractPath envelope path
    return some (value.pyStr w)

def executeSource (request : BoundarySourceRequest) : Op σ SourceBoundaryResult := do
  let p ← patchPanel runtime request.patchPanelId
  let n ← Op.ofExcept (NodeExecutor.node p request.sourceId .source)
  let w ← Op.world
  let contract ← Op.ofExcept (parseContract w "SourceBoundaryContract"
    SourceBoundaryContract.ofJson (contractJson n "ingress_contract"))
  Op.ofExcept (ensureAuthorized contract.auth request.actorToken)
  Op.ofExcept (ensureTarget p n contract.targetWorkflowVersion)
  let envelope : JsonObj :=
    [("payload", .obj request.externalPayload), ("headers", .obj request.headers)]
  let mapped ← Op.ofExcept (mapPayload envelope contract.payloadMap)
  let payload := if mapped.isEmpty then request.externalPayload else mapped
  let metadata ← Op.ofExcept (mapPayload envelope contract.metadataMap)
  let metadata := JsonObj.update metadata
    [("boundary_adapter", .str contract.adapter), ("boundary_source", .str n.id)]
  let deduplicationKey ← Op.ofExcept (extractOption w envelope contract.deduplicationKey)
  let metadata := match truthyStr deduplicationKey with
    | some key => JsonObj.set metadata "deduplication_key" (.str key)
    | none => metadata
  let sourceKey := (truthyStr deduplicationKey).map fun key =>
    s!"boundary-source:{p.id}:{n.id}:{key}"
  let executor : NodeExecutor σ :=
    { patchPanel := p, runtime, registry := none, authorizationRepository := none }
  let card ← executor.executeSource n.id payload (some metadata) sourceKey
  let _ ← runtime.recordEvent card.id "boundary_source_received" (some n.id)
    (some [("adapter", .str contract.adapter), ("source_id", .str n.id),
      ("deduplication_key", Json.ofOptionStr deduplicationKey),
      ("headers", .obj request.headers)])
    (sourceKey.map (· ++ ":event"))
  return { card, deduplicationKey, adapter := contract.adapter }

/-- The external reference of an egress: along the configured path, or as the response
names it. -/
def externalReferenceOf (w : World) (envelope : JsonObj) (contract : SinkBoundaryContract)
    (response : JsonObj) : Except PyErr (Option String) :=
  match truthyStr contract.externalReferencePath with
  | some path => do
    let value ← extractPath envelope path
    return some (value.pyStr w)
  | none => match JsonObj.get? response "external_reference" with
    | none | some .null => .ok none
    | some value => .ok (some (value.pyStr w))

def executeSink (request : BoundarySinkRequest) : Op σ SinkBoundaryResult := do
  let p ← patchPanel runtime request.patchPanelId
  let n ← Op.ofExcept (NodeExecutor.node p request.sinkId .sink)
  let w ← Op.world
  let contract ← Op.ofExcept (parseContract w "SinkBoundaryContract"
    SinkBoundaryContract.ofJson (contractJson n "egress_contract"))
  Op.ofExcept (ensureAuthorized contract.auth request.actorToken)
  let card ← runtime.getCard request.cardId
  let envelope : JsonObj :=
    [("card", cardJson card), ("external_response", .obj request.externalResponse)]
  let externalPayload ← Op.ofExcept (mapPayload envelope contract.payloadMap)
  let externalReference ← Op.ofExcept
    (externalReferenceOf w envelope contract request.externalResponse)
  let egressIdempotencyKey ← Op.ofExcept (renderTemplate w
    ((truthyStr contract.idempotencyKey).getD "card_id + sink_id") card n.id externalReference)
  let executor : NodeExecutor σ :=
    { patchPanel := p, runtime, registry := none, authorizationRepository := none }
  let sinkKey := s!"boundary-sink:{p.id}:{n.id}:{egressIdempotencyKey}"
  let result ← executor.executeSink card.id n.id externalReference (some sinkKey)
  let _ ← runtime.recordEvent card.id "boundary_sink_egressed" (some n.id)
    (some [("adapter", .str contract.adapter), ("sink_id", .str n.id),
      ("external_payload", .obj externalPayload),
      ("external_reference", Json.ofOptionStr result.externalReference),
      ("egress_idempotency_key", .str egressIdempotencyKey)])
    (some (sinkKey ++ ":event"))
  return { event := result.event, externalReference := result.externalReference,
           egressIdempotencyKey := some egressIdempotencyKey, adapter := contract.adapter }

end Operations

end BoundaryAdapterService

end GhostMesh
