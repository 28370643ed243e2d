import GhostMesh.Runtime.Service

/-!
# Shadow cards and mutations

`ShadowService` keeps its links and mutations in memory, on top of any runtime.
-/

set_option autoImplicit false

namespace GhostMesh

structure ShadowPolicy where
  sampleRate : PyFloat
  maxParallel : Int

/-- `x <= 0`; a comparison with NaN is false. -/
def PyFloat.leZero : PyFloat → Bool
  | .finite mantissa _ => mantissa ≤ 0
  | .infinite negative => negative
  | .nan => false

structure ShadowRun where
  productionCard : Card
  shadowCard : Card
  shadowMetadata : JsonObj

structure ShadowStore where
  links : Dict Uuid ShadowCardLink
  mutations : Dict Uuid ProposedMutation

def ShadowStore.init : ShadowStore := ⟨Dict.empty, Dict.empty⟩

/-- `text.split(":", maxsplit=1)[0]`. -/
def beforeFirstColon (text : String) : String :=
  String.ofList (text.toList.takeWhile (· ≠ ':'))

/-- The service on a store that contains a runtime and the service's own records. -/
structure ShadowService (σ : Type) where
  runtime : CardRuntime σ
  store : Component σ ShadowStore

namespace ShadowService

variable {σ : Type} (x : ShadowService σ)

def putLink (link : ShadowCardLink) : Op σ Unit :=
  Op.on x.store (Op.modify fun s => { s with links := s.links.set link.id link })

def putMutation (mutation : ProposedMutation) : Op σ Unit :=
  Op.on x.store (Op.modify fun s =>
    { s with mutations := s.mutations.set mutation.id mutation })

def link (linkId : Uuid) : Op σ ShadowCardLink := do
  let s ← Op.on x.store Op.get
  match s.links.get? linkId with
  | some link => return link
  | none => Op.raise (.notFound s!"shadow link '{linkId.str}' does not exist")

def mutation (mutationId : Uuid) : Op σ ProposedMutation := do
  let s ← Op.on x.store Op.get
  match s.mutations.get? mutationId with
  | some mutation => return mutation
  | none => Op.raise (.notFound s!"mutation '{mutationId.str}' does not exist")

def activeLinks (s : ShadowStore) (productionCardId : Uuid) : List ShadowCardLink :=
  s.links.values.filter fun l => l.productionCardId = productionCardId && l.status = "active"

def createShadowCard (productionCard : Card) (candidateId : String) (policy : ShadowPolicy)
    (idempotencyKey : Option String) : Op σ ShadowRun := do
  Op.ensure (!policy.sampleRate.leZero)
    (.invalidOperation "shadow sampling skipped this card")
  let s ← Op.on x.store Op.get
  Op.ensure ((activeLinks s productionCard.id).length < policy.maxParallel)
    (.conflict
      s!"production card '{productionCard.id.str}' already has maximum parallel shadows")
  let shadowCard ← x.runtime.createCard (beforeFirstColon productionCard.workflowVersion)
    productionCard.payload
    (some (JsonObj.update productionCard.metadata
      [("shadow", .bool true), ("production_card_id", .str productionCard.id.str),
        ("candidate_id", .str candidateId)]))
    idempotencyKey
  let id ← Op.uuid4
  let createdAt ← Op.now
  x.putLink { id, productionCardId := productionCard.id, shadowCardId := shadowCard.id,
              candidateId, status := "active", metrics := [], createdAt }
  let _ ← x.runtime.recordEvent productionCard.id "shadow_created" (some candidateId)
    (some [("shadow_card_id", .str shadowCard.id.str), ("shadow_link_id", .str id.str),
      ("candidate_id", .str candidateId)]) none
  return { productionCard, shadowCard,
           shadowMetadata := [("production_card_id", .str productionCard.id.str),
             ("shadow_card_id", .str shadowCard.id.str), ("shadow_link_id", .str id.str),
             ("candidate_id", .str candidateId)] }

def completeShadow (linkId : Uuid) (metrics : JsonObj) : Op σ ShadowCardLink := do
  let link ← x.link linkId
  let completed := { link with status := "completed", metrics }
  Op.on x.store (Op.modify fun s => { s with links := s.links.set linkId completed })
  let _ ← x.runtime.recordEvent completed.productionCardId "shadow_completed"
    (some completed.candidateId)
    (some [("shadow_link_id", .str linkId.str), ("metrics", .obj metrics)]) none
  return completed

def proposeMutation (mutationType proposedBy : String) (payload : JsonObj) :
    Op σ ProposedMutation := do
  let id ← Op.uuid4
  let createdAt ← Op.now
  let mutation : ProposedMutation :=
    { id, mutationType, proposedBy, payload, status := .shadowing, createdAt,
      validatedAt := none, promotedAt := none }
  x.putMutation mutation
  return mutation

def validateMutation (mutationId : Uuid) (accepted : Bool) (validatorId : String)
    (reason : Option String) : Op σ ProposedMutation := do
  let mutation ← x.mutation mutationId
  let validatedAt ← Op.now
  let validated : ProposedMutation :=
    { mutation with
      status := if accepted then .validated else .rejected
      validatedAt := some validatedAt
      payload := JsonObj.set mutation.payload "validation"
        (.obj [("validator_id", .str validatorId), ("reason", Json.ofOptionStr reason)]) }
  Op.on x.store (Op.modify fun s => { s with mutations := s.mutations.set mutationId validated })
  return validated

def promoteMutation (mutationId : Uuid) (p : PatchPanel) : Op σ ProposedMutation := do
  let mutation ← x.mutation mutationId
  Op.ensure (mutation.status = .validated) (.conflict "only validated mutations can be promoted")
  let _ ← x.runtime.registerPatchPanel p
  let promotedAt ← Op.now
  let promoted := { mutation with status := .promoted, promotedAt := some promotedAt }
  Op.on x.store (Op.modify fun s => { s with mutations := s.mutations.set mutationId promoted })
  return promoted

end ShadowService

end GhostMesh
