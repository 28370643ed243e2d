import GhostMesh.Runtime.CallEffects
import GhostMesh.Runtime.SameCalls

/-!
# The Postgres runtime refines the in-memory one

A run of calls on the tables, one client at a time, is matched by the same run in memory
if each claim there may take the card that the tables offer.
-/

set_option autoImplicit false

namespace GhostMesh

open Op (inside)

/-! ## Calls -/

/-- An operation of the runtime without an idempotency key. -/
inductive KeylessCall where
  | registerPatchPanel (p : PatchPanel)
  | listPatchPanels
  | createCard (patchPanelId : String) (payload : JsonObj) (metadata : Option JsonObj)
  | listCards
  | getCard (cardId : Uuid)
  | listLeases
  | getLease (leaseId : Uuid)
  | claimCard (inputPipe workerId : String) (leaseSeconds : Int)
  | submitArtifact (leaseId : Uuid) (outputPipe : String) (refs : List ArtifactReference)
  | renewLease (leaseId : Uuid) (leaseSeconds : Int)
  | releaseLease (leaseId : Uuid) (actorId : Option String)
  | expireLeases
  | validateCard (cardId : Uuid) (validatorId : String) (accepted : Bool)
      (reason outputPipe : Option String) (payload : Option JsonObj)
  | moveCard (cardId : Uuid) (toBucket : String) (actorId reason : Option String)
  | cardHistory (cardId : Uuid)
  | recordEvent (cardId : Uuid) (eventType : String) (actorId : Option String)
      (payload : Option JsonObj)

namespace KeylessCall

def on {σ : Type} (R : CardRuntime σ) : KeylessCall → Op σ Unit
  | registerPatchPanel p => (R.registerPatchPanel p).discard
  | listPatchPanels => R.listPatchPanels.discard
  | createCard panel payload metadata => (R.createCard panel payload metadata none).discard
  | listCards => R.listCards.discard
  | getCard card => (R.getCard card).discard
  | listLeases => R.listLeases.discard
  | getLease lease => (R.getLease lease).discard
  | claimCard pipe worker seconds => (R.claimCard pipe worker seconds none).discard
  | submitArtifact lease pipe refs => (R.submitArtifact lease pipe refs none).discard
  | renewLease lease seconds => (R.renewLease lease seconds none).discard
  | releaseLease lease actor => (R.releaseLease lease actor none).discard
  | expireLeases => R.expireLeases.discard
  | validateCard card validator accepted reason pipe payload =>
    (R.validateCard card validator accepted reason pipe payload none).discard
  | moveCard card bucket actor reason => (R.moveCard card bucket actor reason none).discard
  | cardHistory card => (R.cardHistory card).discard
  | recordEvent card type actor payload => (R.recordEvent card type actor payload none).discard

/-- The stores from which the call may start in memory: the scan of a claim may look at the
cards in another order. -/
def Starts (s s₀ : InMemoryCardRuntime) : KeylessCall → Prop
  | claimCard _ _ _ => ∃ first, s₀ = s.prefer first
  | _ => s₀ = s

/-- The artifacts of a submission are new to the tables, and differ from each other. -/
def ArtifactsFresh (d : Tables) : KeylessCall → Prop
  | submitArtifact _ _ refs => (refs.map (·.id)).Nodup ∧
    ∀ ref ∈ refs, d.artifacts.contains ref.id = false
  | _ => True

/-- Only this panel is registered. -/
def Registers (p : PatchPanel) : KeylessCall → Prop
  | registerPatchPanel q => q = p
  | _ => True

end KeylessCall

/-- A call at one instant, with the identifiers that it may draw. -/
structure SerialCall where
  call : KeylessCall
  now : Instant
  world : World

namespace SerialCall

def onTables (engine : Engine) (c : SerialCall) (d : Tables) : Except PyErr Unit × Tables :=
  let r := (c.call.on (PostgresCardRuntime.runtime engine)).run (c.world.stopped c.now) ⟨d, 0, 0⟩
  (r.1, r.2.store)

def inMemory (c : SerialCall) (s : InMemoryCardRuntime) :
    Except PyErr Unit × InMemoryCardRuntime :=
  let r := (c.call.on InMemoryCardRuntime.runtime).run (c.world.stopped c.now) ⟨s, 0, 0⟩
  (r.1, r.2.store)

/-- The two calls draw no identifier in common. -/
def Apart (c c' : SerialCall) : Prop := ∀ i j, c'.world.uuid4 j ≠ c.world.uuid4 i

/-- The identifiers that these calls may draw. -/
def drawnBy (calls : List SerialCall) (a : Uuid) : Prop := ∃ c ∈ calls, ∃ i, a = c.world.uuid4 i

end SerialCall

/-- Each call returns on both stores or raises on both, and after it the stores are
related by `R`. -/
def Matched (engine : Engine) (R : Tables → InMemoryCardRuntime → Prop) :
    Tables → InMemoryCardRuntime → List SerialCall → Prop
  | _, _, [] => True
  | d, s, c :: calls => ∃ s₀, c.call.Starts s s₀ ∧
    (c.onTables engine d).1.isOk = (c.inMemory s₀).1.isOk ∧
    R (c.onTables engine d).2 (c.inMemory s₀).2 ∧
    Matched engine R (c.onTables engine d).2 (c.inMemory s₀).2 calls

/-! ## One call -/

/-- Both calls have returned or both have raised, and the stores are the same ledger. -/
structure Ends (later : Uuid → Prop) (p : PatchPanel) (X : Except PyErr Unit × Tables)
    (Y : Except PyErr Unit × InMemoryCardRuntime) : Prop where
  same : X.1.isOk = Y.1.isOk
  ledger : SameLedger p X.2 Y.2
  unseen : Unseen later X.2

section Step
variable {w w' : World} {later : Uuid → Prop} {p : PatchPanel} {m : Machine Tables}
  {n : Machine InMemoryCardRuntime} {α β : Type}

theorem Paired.unseenLater (h : Paired w later p m.store m.draws n.store) : Unseen later m.store :=
  h.unseen.mono fun _ ha => .inl ha

/-- A transaction that raises is rolled back, and then memory has written nothing. -/
theorem Ends.of_matches {x : Tx α} {y : Op InMemoryCardRuntime β}
    (h : Paired w later p m.store m.draws n.store)
    (hmatches : Matches w later p n.store ((inside x).run w' m) (y.run w' n)) :
    Ends later p
      (((Op.atomically x).discard.run w' m).1, ((Op.atomically x).discard.run w' m).2.store)
      ((y.discard.run w' n).1, (y.discard.run w' n).2.store) := by
  rw [Op.run_discard, Op.run_discard, Op.atomically_run]
  rcases hx : (inside x).run w' m with ⟨r, m'⟩
  rcases hy : y.run w' n with ⟨r', n'⟩
  rw [hx, hy] at hmatches
  cases r with
  | ok a =>
    cases r' with
    | ok b => exact ⟨rfl, hmatches.ledger, hmatches.unseenLater⟩
    | error e => exact hmatches.elim
  | error e =>
    cases r' with
    | ok b => exact hmatches.elim
    | error e' =>
      have hstore : n'.store = n.store := hmatches
      refine ⟨rfl, ?_, h.unseenLater⟩
      dsimp only
      rw [hstore]
      exact h.ledger

/-- A call that writes on neither side. -/
theorem Ends.of_reads {x : Op Tables α} {y : Op InMemoryCardRuntime β} {r : Except PyErr α}
    {r' : Except PyErr β} (h : Paired w later p m.store m.draws n.store)
    (hx : x.run w' m = (r, m)) (hy : y.run w' n = (r', n)) (hsame : r.isOk = r'.isOk) :
    Ends later p ((x.discard.run w' m).1, (x.discard.run w' m).2.store)
      ((y.discard.run w' n).1, (y.discard.run w' n).2.store) := by
  rw [Op.run_discard, Op.run_discard, hx, hy]
  refine ⟨?_, h.ledger, h.unseenLater⟩
  cases r <;> cases r' <;> exact hsame

theorem getCard_matches (h : Paired w later p m.store m.draws n.store) (cardId : Uuid) :
    Matches w later p n.store ((inside (PostgresCardRuntime.getCard cardId)).run w' m)
      ((InMemoryCardRuntime.getCard cardId).run w' n) := by
  rw [PostgresCardRuntime.run_getCard, InMemoryCardRuntime.run_getCard, h.ledger.cards]
  cases n.store.cards.get? cardId with
  | none => rfl
  | some c => exact h

theorem getLease_matches (h : Paired w later p m.store m.draws n.store) (leaseId : Uuid) :
    Matches w later p n.store ((inside (PostgresCardRuntime.getLease leaseId)).run w' m)
      ((InMemoryCardRuntime.getLease leaseId).run w' n) := by
  rw [PostgresCardRuntime.run_getLease, InMemoryCardRuntime.run_getLease, h.ledger.leases]
  cases n.store.leases.get? leaseId with
  | none => rfl
  | some l => exact h

theorem cardHistory_matches (h : Paired w later p m.store m.draws n.store) (cardId : Uuid) :
    Matches w later p n.store ((inside (PostgresCardRuntime.cardHistory cardId)).run w' m)
      ((InMemoryCardRuntime.cardHistory cardId).run w' n) := by
  unfold PostgresCardRuntime.cardHistory InMemoryCardRuntime.cardHistory
  refine lockstep_getCard h.ledger fun c _ => ?_
  rw [Op.run_query]
  exact h

/-- The panel is there already, in both stores. -/
theorem registerPatchPanel_ends (engine : Engine)
    (h : Paired w later p m.store m.draws n.store) :
    Ends later p
      ((((PostgresCardRuntime.runtime engine).registerPatchPanel p).discard.run w' m).1,
        (((PostgresCardRuntime.runtime engine).registerPatchPanel p).discard.run w' m).2.store)
      (((InMemoryCardRuntime.registerPatchPanel p).discard.run w' n).1,
        ((InMemoryCardRuntime.registerPatchPanel p).discard.run w' n).2.store) := by
  obtain ⟨row, hrow, -⟩ := h.ledger.panelRowAt
  obtain ⟨now, hversions⟩ := h.ledger.versionRow
  have hversion : m.store.workflowVersions.contains p.workflowVersion = true := by
    rw [Dict.contains, Dict.get?, hversions]
    simp [Dict.lookupIn]
  have hsame : n.store.putPanel p = n.store := by
    unfold InMemoryCardRuntime.putPanel
    rw [Dict.set_of_get?]
    rw [h.ledger.panelAt, if_pos rfl]
  rw [Op.run_discard, Op.run_discard, PostgresCardRuntime.run_registerPatchPanel_stored engine
    (Dict.contains_of_get? hrow) hversion, InMemoryCardRuntime.run_registerPatchPanel]
  cases PatchPanelValidator.validate w' p with
  | error e => exact ⟨rfl, h.ledger, h.unseenLater⟩
  | ok report =>
    refine ⟨rfl, ?_, h.unseenLater⟩
    dsimp only
    rw [hsame]
    exact h.ledger

/-- The step lemma: one call on both stores. -/
theorem SerialCall.ends (engine : Engine) (hid : ':' ∉ p.id.toList)
    (hversion : ':' ∉ p.version.toList) {c : SerialCall} {d : Tables} {s : InMemoryCardRuntime}
    (hledger : SameLedger p d s) (hunseen : Unseen (Spare c.world later 0) d)
    (hlater : ∀ a, later a → ∀ i, a ≠ c.world.uuid4 i) (hregisters : c.call.Registers p)
    (hfresh : c.call.ArtifactsFresh d) : ∃ s₀, c.call.Starts s s₀ ∧
      Ends later p (c.onTables engine d) (c.inMemory s₀) := by
  obtain ⟨call, t, w⟩ := c
  have h : Paired w later p (⟨d, 0, 0⟩ : Machine Tables).store
      (⟨d, 0, 0⟩ : Machine Tables).draws (⟨s, 0, 0⟩ : Machine InMemoryCardRuntime).store :=
    ⟨hledger, hunseen⟩
  cases call with
  | registerPatchPanel q =>
    cases hregisters
    exact ⟨s, rfl, registerPatchPanel_ends engine h⟩
  | listPatchPanels => exact ⟨s, rfl, .of_reads h rfl rfl rfl⟩
  | createCard panel payload metadata =>
    exact ⟨s, rfl, .of_matches h (createCard_matches t engine hlater h rfl panel payload metadata)⟩
  | listCards => exact ⟨s, rfl, .of_reads h rfl rfl rfl⟩
  | getCard card => exact ⟨s, rfl, .of_matches h (getCard_matches h card)⟩
  | listLeases => exact ⟨s, rfl, .of_reads h rfl rfl rfl⟩
  | getLease lease => exact ⟨s, rfl, .of_matches h (getLease_matches h lease)⟩
  | claimCard pipe worker seconds =>
    obtain ⟨first, hmatches⟩ := claimCard_matches t engine hlater h rfl pipe worker seconds
    have hpreferred : Paired w later p (⟨d, 0, 0⟩ : Machine Tables).store
        (⟨d, 0, 0⟩ : Machine Tables).draws
        (⟨s.prefer first, 0, 0⟩ : Machine InMemoryCardRuntime).store :=
      ⟨hledger.prefer first, hunseen⟩
    exact ⟨s.prefer first, ⟨first, rfl⟩, .of_matches hpreferred hmatches⟩
  | submitArtifact lease pipe refs =>
    exact ⟨s, rfl, .of_matches h (submitArtifact_matches t engine hlater hid hversion h lease pipe
      refs hfresh.1 hfresh.2)⟩
  | renewLease lease seconds =>
    exact ⟨s, rfl, .of_matches h (renewLease_matches t engine hlater h lease seconds)⟩
  | releaseLease lease actor =>
    exact ⟨s, rfl, .of_matches h (releaseLease_matches t engine hlater h lease actor)⟩
  | expireLeases =>
    -- the clock is read before the transaction
    exact ⟨s, rfl, Ends.of_matches (m := ⟨d, 1, 0⟩) h
      (expireLeases_matches (m := ⟨d, 1, 0⟩) t engine hlater h)⟩
  | validateCard card validator accepted reason pipe payload =>
    exact ⟨s, rfl, .of_matches h (validateCard_matches t engine hlater hid hversion h card validator
      accepted reason pipe payload)⟩
  | moveCard card bucket actor reason =>
    exact ⟨s, rfl, .of_matches h (moveCard_matches t engine hlater hid hversion h card bucket actor
      reason)⟩
  | cardHistory card => exact ⟨s, rfl, .of_matches h (cardHistory_matches h card)⟩
  | recordEvent card type actor payload =>
    exact ⟨s, rfl, .of_matches h (recordEvent_matches t engine hlater h card type actor payload)⟩

end Step

/-! ## Runs -/

/-- The run lemma, by induction over the calls: the identifiers of the later ones stay
unseen. -/
theorem matched_of_sameLedger (engine : Engine) {p : PatchPanel} (hid : ':' ∉ p.id.toList)
    (hversion : ':' ∉ p.version.toList) (calls : List SerialCall) {d : Tables}
    {s : InMemoryCardRuntime} (hledger : SameLedger p d s)
    (hunseen : Unseen (SerialCall.drawnBy calls) d) (hapart : calls.Pairwise SerialCall.Apart)
    (hregisters : ∀ c ∈ calls, c.call.Registers p)
    (hfresh : Permitted (fun d c => (SerialCall.onTables engine c d).2)
      (fun d c => c.call.ArtifactsFresh d) d calls) : Matched engine Agrees d s calls := by
  induction calls generalizing d s with
  | nil => trivial
  | cons c calls ih =>
    obtain ⟨hfirst, hapart⟩ := List.pairwise_cons.mp hapart
    obtain ⟨hregister, hregisters⟩ := List.forall_mem_cons.mp hregisters
    have hspare : Unseen (Spare c.world (SerialCall.drawnBy calls) 0) d := by
      refine hunseen.mono fun a ha => ?_
      rcases ha with ⟨c', hc', i, ha⟩ | ⟨i, -, ha⟩
      · exact ⟨c', List.mem_cons_of_mem c hc', i, ha⟩
      · exact ⟨c, List.mem_cons_self, i, ha⟩
    have hlater : ∀ a, SerialCall.drawnBy calls a → ∀ i, a ≠ c.world.uuid4 i := by
      rintro a ⟨c', hc', j, rfl⟩ i
      exact hfirst c' hc' i j
    obtain ⟨s₀, hstarts, hends⟩ := SerialCall.ends engine hid hversion hledger hspare hlater
      hregister hfresh.1
    exact ⟨s₀, hstarts, hends.same, hends.ledger.toAgrees,
      ih hends.ledger hends.unseen hapart hregisters hfresh.2⟩

/-- Stores in which the panel has been registered, and nothing else. -/
theorem sameLedger_registered {engine : Engine} {w : World} {p : PatchPanel} {m : Machine Tables}
    (hregister : ((PostgresCardRuntime.runtime engine).registerPatchPanel p).run w
      ⟨Tables.init, 0, 0⟩ = (.ok p, m)) :
    SameLedger p m.store
        ((InMemoryCardRuntime.registerPatchPanel p).run w InMemoryCardRuntime.start).2.store ∧
      ∀ spare, Unseen spare m.store := by
  rcases PostgresCardRuntime.runtime_registerPatchPanel_cases engine hregister with
    ⟨⟨e, he⟩, -⟩ | ⟨-, haccepts, hregisters⟩
  · cases he
  obtain ⟨report, hvalid⟩ := PatchPanelValidator.accepts_iff.mp haccepts
  rw [InMemoryCardRuntime.run_registerPatchPanel, hvalid]
  obtain ⟨hpanels, hversions, hrest⟩ := hregisters
  have hrows : m.store.cards = Dict.empty ∧ m.store.cardLocations = Dict.empty ∧
      m.store.leases = Dict.empty ∧ m.store.cardEvents = Dict.empty ∧
      m.store.validationResults = Dict.empty := by
    rw [hrest]
    exact ⟨rfl, rfl, rfl, rfl, rfl⟩
  obtain ⟨hcards, hlocations, hleases, hevents, hresults⟩ := hrows
  constructor
  · constructor
    · constructor
      · intro id
        rw [hcards]
        rfl
      · intro id
        rw [hleases]
        rfl
      · intro id
        refine ⟨[], by simp, ?_⟩
        unfold Tables.evidence
        rw [hevents]
        exact .refl _
    · exact ⟨_, congrArg Dict.entries hpanels⟩
    · exact ⟨_, congrArg Dict.entries hversions⟩
    · rfl
    · intro id c hc
      cases hc
    · intro id l hl
      cases hl
  · intro spare
    constructor
    · intro a _
      rw [hcards]
      rfl
    · intro a _
      rw [hlocations]
      rfl
    · intro a _
      rw [hleases]
      rfl
    · intro a _
      rw [hevents]
      rfl
    · intro a _
      rw [hresults]
      rfl

/-- Every serial run without keys on tables that hold one panel is matched in memory. -/
theorem postgres_refines_memory (engine : Engine) (w : World) (p : PatchPanel)
    (m : Machine Tables) (calls : List SerialCall) (hid : ':' ∉ p.id.toList)
    (hversion : ':' ∉ p.version.toList)
    (hregister : ((PostgresCardRuntime.runtime engine).registerPatchPanel p).run w
      ⟨Tables.init, 0, 0⟩ = (.ok p, m))
    (hapart : calls.Pairwise SerialCall.Apart) (hregisters : ∀ c ∈ calls, c.call.Registers p)
    (hfresh : Permitted (fun d c => (SerialCall.onTables engine c d).2)
      (fun d c => c.call.ArtifactsFresh d) m.store calls) :
    Matched engine Agrees m.store
      ((InMemoryCardRuntime.registerPatchPanel p).run w InMemoryCardRuntime.start).2.store calls := by
  obtain ⟨hledger, hunseen⟩ := sameLedger_registered hregister
  exact matched_of_sameLedger engine hid hversion calls hledger (hunseen _) hapart hregisters hfresh

/-! ## Movements that a caller asks for -/

/-- The event is a movement with the reason that the tables give to those of a verdict. -/
def Evidence.isVerdictMove (e : Evidence) : Bool :=
  e.eventType = "card_moved" && (JsonObj.getD e.payload "reason" .null).isStr "validator_output"

/-- Buckets, leases and events agree if the tables' movements with that reason are dropped,
whoever asked for them. -/
structure AgreesWithoutMoves (d : Tables) (s : InMemoryCardRuntime) : Prop where
  buckets : ∀ id, (d.cards.get? id).map (·.currentBucket) = (s.cards.get? id).map (·.currentBucket)
  leases : ∀ id, (d.leases.get? id).map (fun l => (l.cardId, l.nodeId, l.workerId, l.expiresAt,
    l.releasedAt)) = (s.leases.get? id).map fun l => (l.cardId, l.nodeId, l.workerId, l.expiresAt,
      l.releasedAt)
  events : ∀ id, ((d.evidence id).filter fun e => !e.isVerdictMove).Perm (s.evidence id)

/-- The `k`-th of four supplies that have no identifier in common. -/
def World.lane (k : Nat) : World :=
  { World.simple with
    uuid4 := fun n => ⟨4 * n + k⟩
    uuid4_injective := fun i j h => by
      have heq := Uuid.mk.inj h
      omega }

def laneCall (k : Nat) (call : KeylessCall) : SerialCall := ⟨call, k, World.lane k⟩

theorem laneCall_apart {i j : Nat} (hi : i < 4) (hj : j < 4) (hne : i ≠ j) (a b : KeylessCall) :
    (laneCall i a).Apart (laneCall j b) := by
  intro x y h
  have heq : 4 * y + j = 4 * x + i := Uuid.mk.inj h
  omega

def lineTables : Machine Tables :=
  (((PostgresCardRuntime.runtime .simple).registerPatchPanel
    (PatchPanelValidator.linePanel "orders" "1")).run .simple ⟨Tables.init, 0, 0⟩).2

def lineMemory : InMemoryCardRuntime :=
  ((InMemoryCardRuntime.registerPatchPanel (PatchPanelValidator.linePanel "orders" "1")).run .simple
    InMemoryCardRuntime.start).2.store

/-- A caller's movement with that reason is in memory only, and a second definition of the
panel's version is in memory only. -/
theorem runs_differ :
    ¬ Matched .simple AgreesWithoutMoves lineTables.store lineMemory
        [laneCall 0 (.createCard "orders" [] none),
          laneCall 1 (.moveCard ⟨0⟩ "outbox" none (some "validator_output"))] ∧
      ¬ Matched .simple AgreesWithoutMoves lineTables.store lineMemory
        [laneCall 0 (.createCard "orders" [] none),
          laneCall 1 (.registerPatchPanel (PatchPanelValidator.reviewPanel "orders" "1")),
          laneCall 2 (.moveCard ⟨0⟩ "review" none none)] := by
  constructor
  · rintro ⟨_, rfl, -, -, _, rfl, -, hagrees, -⟩
    have hlength := (hagrees.events ⟨0⟩).length_eq
    revert hlength
    decide +kernel
  · rintro ⟨_, rfl, -, -, _, rfl, -, -, _, rfl, hsame, -⟩
    revert hsame
    decide +kernel

def orderArtifact : ArtifactReference :=
  ⟨⟨100⟩, ⟨0⟩, none, "store://orders/1", "sha256:0", "text/plain", 1, [], 0⟩

/-- A card is created, claimed and submitted. -/
theorem postgres_refines_memory_line :
    Matched .simple Agrees lineTables.store lineMemory
      [laneCall 0 (.createCard "orders" [] none), laneCall 1 (.claimCard "work_in" "agent" 300),
        laneCall 2 (.submitArtifact ⟨1⟩ "work_out" [orderArtifact]), laneCall 3 .expireLeases] := by
  refine postgres_refines_memory .simple .simple (PatchPanelValidator.linePanel "orders" "1")
    lineTables _ (by decide) (by decide) rfl ?_ ?_ ?_
  · refine .cons ?_ (.cons ?_ (.cons ?_ (.cons (by simp) .nil)))
    · simp only [List.forall_mem_cons]
      exact ⟨laneCall_apart (by decide) (by decide) (by decide) _ _,
        laneCall_apart (by decide) (by decide) (by decide) _ _,
        laneCall_apart (by decide) (by decide) (by decide) _ _, by simp⟩
    · simp only [List.forall_mem_cons]
      exact ⟨laneCall_apart (by decide) (by decide) (by decide) _ _,
        laneCall_apart (by decide) (by decide) (by decide) _ _, by simp⟩
    · simp only [List.forall_mem_cons]
      exact ⟨laneCall_apart (by decide) (by decide) (by decide) _ _, by simp⟩
  · simp only [List.forall_mem_cons]
    exact ⟨trivial, trivial, trivial, trivial, by simp⟩
  · exact ⟨trivial, trivial, ⟨by decide, by decide +kernel⟩, trivial, trivial⟩

end GhostMesh
