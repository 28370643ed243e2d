import GhostMesh.Runtime.Idempotency

/-!
# Concurrent transactions

The transactions of the Postgres runtime as the programs of one system, and what the
helpers in them write.
-/

set_option autoImplicit false

namespace GhostMesh

open ReadCommitted

/-- One transaction with its arguments. -/
inductive Transaction where
  | keyed (call : KeyedCall) (idempotencyKey : Option String)
  | expireLeases
  | registerPatchPanel (p : PatchPanel)

section Programs
variable (engine : Engine) (w : World)

def KeyedCall.program (key : Option String) : KeyedCall → Tx Unit
  | createCard panel payload metadata => do
    let _ ← PostgresCardRuntime.createCard engine panel payload metadata key
    return ()
  | claimCard pipe worker seconds => do
    let _ ← PostgresCardRuntime.claimCard engine pipe worker seconds key
    return ()
  | submitArtifact lease pipe refs => do
    let _ ← PostgresCardRuntime.submitArtifact engine w lease pipe refs key
    return ()
  | renewLease lease seconds => do
    let _ ← PostgresCardRuntime.renewLease engine lease seconds key
    return ()
  | releaseLease lease actor => do
    let _ ← PostgresCardRuntime.releaseLease engine lease actor key
    return ()
  | validateCard card validator accepted reason pipe payload => do
    let _ ← PostgresCardRuntime.validateCard engine card validator accepted reason pipe payload key
    return ()
  | moveCard card bucket actor reason => do
    let _ ← PostgresCardRuntime.moveCard engine card bucket actor reason key
    return ()
  | recordEvent card type actor payload => do
    let _ ← PostgresCardRuntime.recordEvent engine card type actor payload key
    return ()

/-- The statements of a transaction; what the client computes before it opens the
transaction comes first. -/
def Transaction.program : Transaction → Tx Unit
  | keyed call key => call.program engine w key
  | expireLeases => do
    let now ← Txn.now (S := postgres)
    let _ ← PostgresCardRuntime.expireLeases engine now
    return ()
  | registerPatchPanel p => do
    let _ ← Txn.ofExcept (S := postgres) (PatchPanelValidator.validate w p)
    let now ← Txn.now (S := postgres)
    let _ ← PostgresCardRuntime.registerPatchPanel engine p now
    return ()

end Programs

/-- The key that a transaction carries. -/
def Transaction.key : Transaction → Option String
  | keyed _ key => truthyStr key
  | _ => none

abbrev PgSession := Session postgres Transaction Unit

abbrev PgSystem := System postgres Transaction Unit

/-- A database with these rows and no transaction yet. -/
def PgSystem.init (d : Tables) : PgSystem := ⟨d, 0, 0, []⟩

theorem PgSystem.init_none (d : Tables) (i : Nat) (s : PgSession) :
    (PgSystem.init d).sessions[i]? ≠ some s := by
  intro h
  cases h

/-- A line panel with one card in its inbox. -/
def Tables.line : Tables :=
  let p := PatchPanelValidator.linePanel "orders" "1"
  { Tables.init with
    patchPanels := Dict.empty.set (p.id, p.version) ⟨p, 0⟩
    workflowVersions := Dict.empty.set p.workflowVersion ⟨p.id, p.version, true, 0⟩
    buckets := p.buckets.foldl (fun ds b => ds.set (p.workflowVersion, b.id) ⟨b, 0⟩) Dict.empty
    cards := Dict.empty.set ⟨100⟩ ⟨⟨100⟩, p.workflowVersion, "inbox", [], [], 0⟩
    cardLocations := Dict.empty.set ⟨101⟩ ⟨⟨101⟩, ⟨100⟩, "inbox", "active", 0, some 0, none⟩ }

def PgSystem.step (engine : Engine) (w : World) (σ : PgSystem) (a : Action Transaction) :
    PgSystem := System.step w.supply (Transaction.program engine w) σ a

/-! ## What the helpers write -/

namespace PostgresCardRuntime

section Writes
variable {W : RowWrite → Prop}

theorem getCard_writes (id : Uuid) : (getCard id).Writes W := by
  refine .bind (.query _) fun d => ?_
  split
  · exact .ret _
  · exact .raise _

theorem getEvent_writes (id : Uuid) : (getEvent id).Writes W := by
  refine .bind (.query _) fun d => ?_
  split
  · exact .ret _
  · exact .raise _

theorem getLease_writes (id : Uuid) : (getLease id).Writes W := by
  refine .bind (.query _) fun d => ?_
  split
  · exact .ret _
  · exact .raise _

theorem getArtifacts_writes (ids : List Uuid) : (getArtifacts ids).Writes W := by
  unfold getArtifacts
  split
  · exact .ret _
  · exact .bind (.query _) fun d => .ofExcept _

theorem getActivePatchPanel_writes (engine : Engine) (id : String) :
    (getActivePatchPanel engine id).Writes W := by
  refine .bind (.query _) fun d => ?_
  split
  · exact .ret _
  · exact .raise _

theorem singlePatchPanel_writes : singlePatchPanel.Writes W := by
  refine .bind (.query _) fun d => ?_
  split
  · exact .raise _
  · exact .ret _
  · exact .raise _

theorem getPatchPanelForCard_writes (card : Card) : (getPatchPanelForCard card).Writes W := by
  unfold getPatchPanelForCard
  split
  · exact .raise _
  · refine .bind (.query _) fun d => ?_
    split
    · exact .ret _
    · exact .raise _

theorem getIdempotency_writes (key : Option String) : (getIdempotency key).Writes W := by
  unfold getIdempotency
  split
  · exact .ret _
  · exact .bind (.query _) fun d => .ret _

theorem newEvent_writes (cardId : Uuid) (type : String) (actor : Option String)
    (payload : JsonObj) : (newEvent cardId type actor payload).Writes W :=
  .bind .fresh fun _ => .bind .now fun _ => .ret _

theorem ensureActiveLease_writes (lease : Lease) : (ensureActiveLease lease).Writes W :=
  .bind (.ensure _ _) fun _ => .bind .now fun _ => .ensure _ _

theorem expiryAfter_writes (seconds : Int) : (expiryAfter seconds).Writes W := by
  refine .bind .now fun t => ?_
  split
  · exact .ret _
  · exact .raise _

theorem newLease_writes (card : Card) (nodeId workerId inputPipe : String) (seconds : Int) :
    (newLease card nodeId workerId inputPipe seconds).Writes W :=
  .bind (expiryAfter_writes seconds) fun _ => .bind .fresh fun _ => .bind .now fun _ => .ret _

theorem selectClaimable_writes (engine : Engine) (bucket : String) (now : Instant) :
    (selectClaimable engine bucket now).Writes W := .lockFirst _ _ _ _

theorem badUuid_writes {α : Type} : (badUuid : Tx α).Writes W := .raise _

theorem cachedCard_writes (ref : ResponseRef) : (cachedCard ref).Writes W := by
  cases ref with
  | card id => exact getCard_writes id
  | _ => exact badUuid_writes

theorem cachedLease_writes (ref : ResponseRef) : (cachedLease ref).Writes W := by
  cases ref with
  | lease id => exact getLease_writes id
  | _ => exact badUuid_writes

theorem cachedEvent_writes (ref : ResponseRef) : (cachedEvent ref).Writes W := by
  cases ref with
  | event id => exact getEvent_writes id
  | _ => exact badUuid_writes

theorem cachedArtifacts_writes (ref : ResponseRef) : (cachedArtifacts ref).Writes W := by
  cases ref with
  | artifacts ids => exact getArtifacts_writes ids
  | _ => exact badUuid_writes

variable (engine : Engine)

theorem insertCard_writes {c : Card} (hx : W (.card c)) : (insertCard engine c).Writes W :=
  .insert _ _ _ hx

theorem insertLocation_writes {row : CardLocation} (hx : W (.cardLocation row)) :
    (insertLocation engine row).Writes W := .insert _ _ _ hx

theorem insertLease_writes {l : Lease} (hx : W (.lease l)) : (insertLease engine l).Writes W :=
  .insert _ _ _ hx

theorem insertEvent_writes {e : CardEvent} (hx : W (.cardEvent e)) :
    (insertEvent engine e).Writes W := .insert _ _ _ hx

theorem insertArtifact_writes {ref : ArtifactReference} (hx : W (.artifact ref)) :
    (insertArtifact engine ref).Writes W := .insert _ _ _ hx

theorem insertValidationResult_writes {row : ValidationResult} (hx : W (.validationResult row)) :
    (insertValidationResult engine row).Writes W := .insert _ _ _ hx

theorem updateLease_writes (id : Uuid) {x : RowWrite} (hx : W x) : (updateLease id x).Writes W :=
  .update _ _ _ _ fun _ => hx

theorem updateCardBucket_writes (id : Uuid) (bucket : String)
    (hx : ∀ id, W (.cardBucket id bucket)) : (updateCardBucket id bucket).Writes W :=
  .update _ _ _ _ hx

theorem exitLocations_writes (cardId : Uuid) (exitedAt : Instant)
    (hx : ∀ id, W (.locationExited id exitedAt)) :
    (exitLocations engine cardId exitedAt).Writes W := .update _ _ _ _ hx

theorem storeIdempotency_writes (key : Option String) (operation : String) (ref : ResponseRef)
    (hx : ∀ k t, W (.idempotencyRecord k ⟨operation, ref, t⟩)) :
    (storeIdempotency key operation ref).Writes W := by
  unfold storeIdempotency
  split
  · exact .ret _
  · exact .bind .now fun t => .insert _ _ _ (hx _ t)

/-- The rows that describe where a card is, and the event of a move. -/
def MovementWrite : RowWrite → Prop
  | .cardBucket _ _ | .cardLocation _ | .locationExited _ _ | .cardEvent _ => True
  | _ => False

theorem moveCardRow_writes (card : Card) (toBucket : String) (actorId reason : Option String)
    (emitEvent : Bool) (hx : ∀ x, MovementWrite x → W x) :
    (moveCardRow engine card toBucket actorId reason emitEvent).Writes W := by
  refine .bind .now fun now => ?_
  refine .bind (exitLocations_writes engine card.id now fun _ => hx _ trivial) fun _ => ?_
  refine .bind .fresh fun id => ?_
  refine .bind (insertLocation_writes engine (hx _ trivial)) fun _ => ?_
  refine .bind (updateCardBucket_writes card.id toBucket fun _ => hx _ trivial) fun _ => ?_
  split
  · refine .bind (newEvent_writes _ _ _ _) fun event => ?_
    exact .bind (insertEvent_writes engine (hx _ trivial)) fun _ => .ret _
  · exact .ret _

theorem validationRoute_writes (card : Card) (validatorId : String) (outputPipe : Option String)
    (hx : ∀ x, MovementWrite x → W x) :
    (validationRoute engine card validatorId outputPipe).Writes W := by
  unfold validationRoute
  split
  · exact .ret _
  · refine .bind (getPatchPanelForCard_writes card) fun p => ?_
    refine .bind (.ofExcept _) fun target => ?_
    exact .bind (moveCardRow_writes engine card _ _ _ true hx) fun _ => .ret _

/-- The rows of a definition. -/
def DefinitionWrite : RowWrite → Prop
  | .patchPanel _ | .workflowVersion _ _ | .bucket _ _ => True
  | _ => False

theorem registerPatchPanel_writes (p : PatchPanel) (now : Instant)
    (hx : ∀ x, DefinitionWrite x → W x) : (registerPatchPanel engine p now).Writes W := by
  refine .bind (.query _) fun d => ?_
  -- Both branches go on with the rows of the version.
  have hversion : (do
      let d ← Txn.query (S := postgres) (.workflowVersion p.workflowVersion)
      if d.workflowVersions.contains p.workflowVersion then Txn.ret () else do
        insertWorkflowVersion engine p.workflowVersion ⟨p.id, p.version, true, now⟩
        registerBuckets engine p.workflowVersion now p.buckets
      return p : Tx PatchPanel).Writes W := by
    refine .bind (.query _) fun d => ?_
    split
    · exact .bind (.ret _) fun _ => .ret _
    · refine .bind (.insert _ _ _ (hx _ trivial)) fun _ => ?_
      have hbucket : ∀ bucket, (insertBucket engine p.workflowVersion ⟨bucket, now⟩).Writes W :=
        fun bucket => .insert _ _ _ (hx (.bucket p.workflowVersion ⟨bucket, now⟩) trivial)
      exact .bind (.forEach hbucket _) fun _ => .ret _
  split
  · exact .bind (.ret _) fun _ => hversion
  · exact .bind (.insert _ _ _ (hx _ trivial)) fun _ => hversion

end Writes

/-- An operation behind its key: a replay keeps what its reads leave as it was. -/
theorem idempotent_kept {α : Type} {W : RowWrite → Prop}
    {fits : Log postgres → Obs postgres → Prop} {I D : Log postgres → Prop} {key : Option String}
    {replay : ResponseRef → Tx α} {body : Tx α} {log : Log postgres} (hstart : Log.Kept W I)
    (hdone : Log.Kept W D) (hreplay : ∀ ref, (replay ref).Writes W) (himp : ∀ log, I log → D log)
    (hbody : ∀ log, I log → body.Spec fits Always (fun _ => D) log) (hlog : I log) :
    (idempotent key replay body).Spec fits Always (fun _ => D) log := by
  refine .after_kept hstart (getIdempotency_writes key) hlog fun found log' hlog' => ?_
  cases found with
  | none => exact hbody log' hlog'
  | some ref =>
    have hspec : (replay ref).Spec fits D (fun _ => D) log' :=
      .of_writes hdone (hreplay ref) (himp log' hlog')
    exact hspec.weaken fun _ _ => trivial

/-- A new event has the fields that it was asked for. -/
theorem newEvent_spec {fits : Log postgres → Obs postgres → Prop} {P : Log postgres → Prop}
    {log : Log postgres} (cardId : Uuid) (type : String) (actor : Option String)
    (payload : JsonObj) (hlog : P log) (hident : ∀ u, P (.ident u :: log))
    (hclock : ∀ u t, P (.clock t :: .ident u :: log)) :
    (newEvent cardId type actor payload).Spec fits P (fun e log' => ∃ u t,
      e = ⟨u, cardId, type, actor, payload, t⟩ ∧ log' = .clock t :: .ident u :: log) log :=
  ⟨hlog, fun u _ => ⟨hident u, fun t _ => ⟨hclock u t, u, t, rfl, rfl⟩⟩⟩

end PostgresCardRuntime

end GhostMesh
