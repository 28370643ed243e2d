import Mathlib
import GhostMesh.Runtime.SameRuns
import GhostMesh.Runtime.Transactions

/-!
# The order of a history

A transaction inserts an event right after it has read the clock for it, so the rows of
the events stand in the order of the readings. `card_history` sorts by the readings and
breaks ties by the identifiers, which are random.
-/

set_option autoImplicit false

namespace GhostMesh

open ReadCommitted (Txn)

/-! ## What a call adds -/

section Added
variable {w : World} {m m' m'' : Machine Tables}

/-- The new rows come after the old ones, each with a reading of its own that was made in
between. -/
structure EventsAdded (w : World) (m m' : Machine Tables) : Prop where
  ticks : m.ticks ≤ m'.ticks
  rows : ∃ added : List (CardEvent × Nat),
    m'.store.cardEvents.values = m.store.cardEvents.values ++ added.map Prod.fst ∧
    (∀ a ∈ added, a.1.occurredAt = w.clock a.2 ∧ m.ticks ≤ a.2 ∧ a.2 < m'.ticks) ∧
    added.Pairwise fun a b => a.2 < b.2

namespace EventsAdded

theorem of_same (hticks : m.ticks ≤ m'.ticks) (hrows : m'.store.cardEvents = m.store.cardEvents) :
    EventsAdded w m m' := by
  refine ⟨hticks, [], ?_, ?_, List.Pairwise.nil⟩
  · rw [hrows, List.map_nil, List.append_nil]
  · intro a ha
    cases ha

theorem refl (m : Machine Tables) : EventsAdded w m m := of_same (Nat.le_refl _) rfl

theorem trans (h : EventsAdded w m m') (h' : EventsAdded w m' m'') : EventsAdded w m m'' := by
  obtain ⟨added, hrows, hread, hordered⟩ := h.rows
  obtain ⟨added', hrows', hread', hordered'⟩ := h'.rows
  refine ⟨Nat.le_trans h.ticks h'.ticks, added ++ added', ?_, ?_, ?_⟩
  · rw [hrows', hrows, List.map_append, List.append_assoc]
  · intro a ha
    rcases List.mem_append.mp ha with ha | ha
    · obtain ⟨hclock, hlow, hhigh⟩ := hread a ha
      exact ⟨hclock, hlow, Nat.lt_of_lt_of_le hhigh h'.ticks⟩
    · obtain ⟨hclock, hlow, hhigh⟩ := hread' a ha
      exact ⟨hclock, Nat.le_trans h.ticks hlow, hhigh⟩
  · apply List.pairwise_append.mpr
    refine ⟨hordered, hordered', ?_⟩
    intro a ha b hb
    exact Nat.lt_of_lt_of_le (hread a ha).2.2 (hread' b hb).2.1

end EventsAdded

end Added

/-- Alone, with or without an exception, the program only adds events. -/
def AddsEvents {α : Type} (w : World) (x : Tx α) : Prop :=
  Exec.Within (EventsAdded w) w (Op.inside x)

/-- A write to another table. -/
def OffEvents : RowWrite → Prop
  | .cardEvent _ => False
  | _ => True

namespace AddsEvents

variable {w : World} {α β : Type}

theorem bind {x : Tx α} {f : α → Tx β} (hx : AddsEvents w x) (hf : ∀ a, AddsEvents w (f a)) :
    AddsEvents w (x >>= f) := by
  unfold AddsEvents
  rw [Op.inside_bind]
  exact Exec.Within.bind (fun h h' => h.trans h') hx hf

theorem of_writes {x : Tx α} (hx : x.Writes OffEvents) : AddsEvents w x := by
  intro m
  have hkept : (x.aloneOn w.supply m.store m.ticks m.draws).2.1.cardEvents =
      m.store.cardEvents := by
    apply hx.aloneOn_keeps (I := fun d : Tables => d.cardEvents = m.store.cardEvents) _ w.supply rfl
    intro y d hy hd
    cases y with
    | cardEvent e => exact hy.elim
    | _ => exact hd
  exact .of_same (x.aloneOn_later w.supply m.store m.ticks m.draws).1 hkept

theorem after {x : Tx α} {f : α → Tx β} (hx : x.Writes OffEvents) (hf : ∀ a, AddsEvents w (f a)) :
    AddsEvents w (x >>= f) := bind (of_writes hx) hf

/-- A new event is read off the clock and inserted. -/
theorem event (engine : Engine) (cardId : Uuid) (type : String) (actor : Option String)
    (payload : JsonObj) {f : CardEvent → Tx β} (hf : ∀ e, AddsEvents w (f e)) :
    AddsEvents w (do
      let e ← PostgresCardRuntime.newEvent cardId type actor payload
      PostgresCardRuntime.insertEvent engine e
      f e) := by
  intro m
  rw [Op.run_bind_ok (PostgresCardRuntime.run_newEvent _ _ _ _ _ _), Op.run_inside_bind,
    PostgresCardRuntime.insertEvent, Op.run_insert]
  cases hnew : m.store.cardEvents.get? (w.uuid4 m.draws) with
  | some e =>
    rw [if_pos (Dict.contains_of_get? hnew)]
    exact .of_same (Nat.le_succ _) rfl
  | none =>
    rw [if_neg (by simp [Dict.contains, hnew])]
    refine EventsAdded.trans ⟨Nat.le_succ _, [(⟨w.uuid4 m.draws, cardId, type, actor, payload,
      w.clock m.ticks⟩, m.ticks)], ?_, ?_, List.pairwise_singleton _ _⟩ (hf _ _)
    · exact Dict.values_set_of_new hnew
    · intro a ha
      cases List.mem_singleton.mp ha
      exact ⟨rfl, Nat.le_refl _, Nat.lt_succ_self _⟩

end AddsEvents

/-! ## The operations -/

namespace PostgresCardRuntime

section Operations
variable (engine : Engine) {w : World} {key : Option String}

theorem idempotent_adds {α : Type} {replay : ResponseRef → Tx α} {body : Tx α}
    (hreplay : ∀ ref, (replay ref).Writes OffEvents) (hbody : AddsEvents w body) :
    AddsEvents w (idempotent key replay body) := by
  refine .after (getIdempotency_writes key) fun found => ?_
  cases found with
  | none => exact hbody
  | some ref => exact .of_writes (hreplay ref)

theorem finish_adds {α : Type} (operation : String) (ref : ResponseRef) (a : α) :
    AddsEvents w (storeIdempotency key operation ref >>= fun _ => pure a) :=
  .after (storeIdempotency_writes key operation ref fun _ _ => trivial) fun _ => .of_writes (.ret a)

theorem offEvents_definition (x : RowWrite) (hx : DefinitionWrite x) : OffEvents x := by
  cases x with
  | cardEvent e => exact hx
  | _ => trivial

theorem moveCardRow_adds (card : Card) (toBucket : String) (actorId reason : Option String)
    (emitEvent : Bool) :
    AddsEvents w (moveCardRow engine card toBucket actorId reason emitEvent) := by
  refine .after .now fun now => ?_
  refine .after (exitLocations_writes engine card.id now fun _ => trivial) fun _ => ?_
  refine .after .fresh fun id => ?_
  refine .after (insertLocation_writes engine trivial) fun _ => ?_
  refine .after (updateCardBucket_writes card.id toBucket fun _ => trivial) fun _ => ?_
  split
  · exact .event engine _ _ _ _ fun e => .of_writes (.ret _)
  · exact .of_writes (.ret _)

theorem createCard_adds (panel : String) (payload : JsonObj) (metadata : Option JsonObj) :
    AddsEvents w (createCard engine panel payload metadata key) := by
  refine idempotent_adds cachedCard_writes ?_
  refine .after (getActivePatchPanel_writes engine panel) fun p => ?_
  refine .after (.ofExcept _) fun bucket => ?_
  refine .after .fresh fun id => ?_
  refine .after .now fun createdAt => ?_
  refine .after (insertCard_writes engine trivial) fun _ => ?_
  refine .after .fresh fun locationId => ?_
  refine .after (insertLocation_writes engine trivial) fun _ => ?_
  exact .event engine _ _ _ _ fun e => finish_adds _ _ _

theorem claimCard_adds (pipe worker : String) (seconds : Int) :
    AddsEvents w (claimCard engine pipe worker seconds key) := by
  refine idempotent_adds cachedLease_writes ?_
  refine .after singlePatchPanel_writes fun p => ?_
  refine .after (.ofExcept _) fun target => ?_
  refine .after .now fun now => ?_
  refine .after (selectClaimable_writes engine _ _) fun found => ?_
  cases found with
  | none => exact .of_writes (.raise _)
  | some card =>
    refine .after (newLease_writes _ _ _ _ _) fun lease => ?_
    refine .after (insertLease_writes engine trivial) fun _ => ?_
    exact .event engine _ _ _ _ fun e => finish_adds _ _ _

theorem submitArtifact_adds (w' : World) (leaseId : Uuid) (pipe : String)
    (refs : List ArtifactReference) :
    AddsEvents w (submitArtifact engine w' leaseId pipe refs key) := by
  refine idempotent_adds cachedArtifacts_writes ?_
  refine .after (getLease_writes leaseId) fun lease => ?_
  refine .after (ensureActiveLease_writes lease) fun _ => ?_
  refine .after (getCard_writes lease.cardId) fun card => ?_
  refine .after (getPatchPanelForCard_writes card) fun p => ?_
  refine .after (.ofExcept _) fun target => ?_
  refine .after (.ofExcept _) fun _ => ?_
  refine .after (.ofExcept _) fun _ => ?_
  refine .after (.ensure _ _) fun _ => ?_
  refine .bind (moveCardRow_adds engine card _ _ _ false) fun _ => ?_
  refine .after .now fun releasedAt => ?_
  refine .after (updateLease_writes lease.id trivial) fun _ => ?_
  refine .event engine _ _ _ _ fun e => ?_
  exact .after (.forEach (fun ref => insertArtifact_writes engine trivial) _) fun _ =>
    finish_adds _ _ _

theorem renewLease_adds (leaseId : Uuid) (seconds : Int) :
    AddsEvents w (renewLease engine leaseId seconds key) := by
  refine idempotent_adds cachedLease_writes ?_
  refine .after (getLease_writes leaseId) fun lease => ?_
  refine .after (ensureActiveLease_writes lease) fun _ => ?_
  refine .after (expiryAfter_writes seconds) fun expiresAt => ?_
  refine .after (updateLease_writes lease.id trivial) fun _ => ?_
  exact .event engine _ _ _ _ fun e => finish_adds _ _ _

theorem releaseLease_adds (leaseId : Uuid) (actorId : Option String) :
    AddsEvents w (releaseLease engine leaseId actorId key) := by
  refine idempotent_adds cachedLease_writes ?_
  refine .after (getLease_writes leaseId) fun lease => ?_
  cases lease.releasedAt with
  | some t => exact .of_writes (.ret _)
  | none =>
    refine .after .now fun releasedAt => ?_
    refine .after (updateLease_writes lease.id trivial) fun _ => ?_
    exact .event engine _ _ _ _ fun e => finish_adds _ _ _

theorem expireEach_adds (now : Instant) (ls : List Lease) :
    AddsEvents w (expireEach engine now ls) := by
  induction ls with
  | nil => exact .of_writes (.ret _)
  | cons lease rest ih =>
    refine .after (updateLease_writes lease.id trivial) fun _ => ?_
    exact .event engine _ _ _ _ fun e => .bind ih fun _ => .of_writes (.ret _)

theorem validateCard_adds (cardId : Uuid) (validatorId : String) (accepted : Bool)
    (reason outputPipe : Option String) (payload : Option JsonObj) :
    AddsEvents w
      (validateCard engine cardId validatorId accepted reason outputPipe payload key) := by
  refine idempotent_adds cachedEvent_writes ?_
  refine .after (getCard_writes cardId) fun card => ?_
  refine .after .fresh fun id => ?_
  refine .after .now fun createdAt => ?_
  refine .after (insertValidationResult_writes engine trivial) fun _ => ?_
  have hroute : AddsEvents w (validationRoute engine card validatorId outputPipe) := by
    unfold validationRoute
    split
    · exact .of_writes (.ret _)
    · refine .after (getPatchPanelForCard_writes card) fun p => ?_
      refine .after (.ofExcept _) fun target => ?_
      exact .bind (moveCardRow_adds engine card _ _ _ true) fun _ => .of_writes (.ret _)
  exact .bind hroute fun route => .event engine _ _ _ _ fun e => finish_adds _ _ _

theorem moveCard_adds (cardId : Uuid) (toBucket : String) (actorId reason : Option String) :
    AddsEvents w (moveCard engine cardId toBucket actorId reason key) := by
  refine idempotent_adds cachedCard_writes ?_
  refine .after (getCard_writes cardId) fun card => ?_
  refine .after (getPatchPanelForCard_writes card) fun p => ?_
  refine .after (.ofExcept _) fun _ => ?_
  exact .bind (moveCardRow_adds engine card _ _ _ true) fun moved => finish_adds _ _ _

theorem recordEvent_adds (cardId : Uuid) (type : String) (actorId : Option String)
    (payload : Option JsonObj) :
    AddsEvents w (recordEvent engine cardId type actorId payload key) := by
  refine idempotent_adds cachedEvent_writes ?_
  refine .after (getCard_writes cardId) fun card => ?_
  exact .event engine _ _ _ _ fun e => finish_adds _ _ _

end Operations

end PostgresCardRuntime

/-! ## Runs -/

/-- One call of the Postgres runtime. -/
inductive TableCall where
  | keyless (call : KeylessCall)
  | keyed (call : KeyedCall) (idempotencyKey : Option String)

/-- The machine after a call, whether it returned or raised. -/
def TableCall.step (engine : Engine) (w : World) (m : Machine Tables) : TableCall → Machine Tables
  | keyless call => ((call.on (PostgresCardRuntime.runtime engine)).run w m).2
  | keyed call key => ((call.runOn (PostgresCardRuntime.runtime engine) key).run w m).2

/-- The machine after a sequence of calls, one client at a time. -/
def runTables (engine : Engine) (w : World) (m : Machine Tables) (calls : List TableCall) :
    Machine Tables := calls.foldl (TableCall.step engine w) m

section Runs
variable (engine : Engine) {w : World} {α β : Type}

abbrev Adding (w : World) (x : Op Tables α) : Prop := Exec.Within (EventsAdded w) w x

theorem Adding.bind {x : Op Tables α} {f : α → Op Tables β} (hx : Adding w x)
    (hf : ∀ a, Adding w (f a)) : Adding w (x >>= f) :=
  Exec.Within.bind (fun h h' => h.trans h') hx hf

theorem Adding.returns {x : Op Tables α} {f : α → β} (hx : Adding w x) :
    Adding w (x >>= fun a => pure (f a)) :=
  .bind hx fun a => Exec.Within.pure EventsAdded.refl (f a)

/-- An exception takes the rows back, but not the readings. -/
theorem AddsEvents.atomically {x : Tx α} (hx : AddsEvents w x) : Adding w (Op.atomically x) := by
  intro m
  have hm := hx m
  rw [Op.atomically_run]
  rcases hrun : (Op.inside x).run w m with ⟨r, m'⟩
  rw [hrun] at hm
  cases r with
  | ok a => exact hm
  | error e => exact .of_same hm.ticks rfl

open PostgresCardRuntime

theorem runtime_registerPatchPanel_adds (p : PatchPanel) :
    Adding w ((runtime engine).registerPatchPanel p) := by
  refine .bind EventsAdded.refl fun w' => ?_
  refine .bind (Exec.Within.ofExcept EventsAdded.refl _) fun _ => ?_
  refine .bind (fun m => .of_same (Nat.le_succ _) rfl) fun now => ?_
  exact (AddsEvents.of_writes
    (registerPatchPanel_writes engine p now offEvents_definition)).atomically

theorem runtime_expireLeases_adds : Adding w (runtime engine).expireLeases := by
  refine .bind (fun m => .of_same (Nat.le_succ _) rfl) fun now => ?_
  exact (AddsEvents.after (.query _) fun d => expireEach_adds engine now _).atomically

theorem runtime_submitArtifact_adds (leaseId : Uuid) (pipe : String)
    (refs : List ArtifactReference) (key : Option String) :
    Adding w ((runtime engine).submitArtifact leaseId pipe refs key) :=
  .bind EventsAdded.refl fun w' => (submitArtifact_adds engine w' leaseId pipe refs).atomically

theorem KeyedCall.adds (key : Option String) (call : KeyedCall) :
    Adding w (call.runOn (runtime engine) key) := by
  cases call with
  | createCard panel payload metadata =>
    exact .returns (createCard_adds engine panel payload metadata).atomically
  | claimCard pipe worker seconds =>
    exact .returns (claimCard_adds engine pipe worker seconds).atomically
  | submitArtifact lease pipe refs =>
    exact .returns (runtime_submitArtifact_adds engine lease pipe refs key)
  | renewLease lease seconds => exact .returns (renewLease_adds engine lease seconds).atomically
  | releaseLease lease actor => exact .returns (releaseLease_adds engine lease actor).atomically
  | validateCard card validator accepted reason pipe payload =>
    exact .returns
      (validateCard_adds engine card validator accepted reason pipe payload).atomically
  | moveCard card bucket actor reason =>
    exact .returns (moveCard_adds engine card bucket actor reason).atomically
  | recordEvent card type actor payload =>
    exact .returns (recordEvent_adds engine card type actor payload).atomically

theorem Adding.discard {x : Op Tables α} (hx : Adding w x) : Adding w x.discard := .returns hx

theorem KeylessCall.adds (call : KeylessCall) : Adding w (call.on (runtime engine)) := by
  cases call with
  | registerPatchPanel p => exact (runtime_registerPatchPanel_adds engine p).discard
  | listPatchPanels =>
    have hread : AddsEvents w (PostgresCardRuntime.listPatchPanels engine) :=
      .after (.query _) fun d => .of_writes (.ret _)
    exact hread.atomically.discard
  | createCard panel payload metadata =>
    exact (createCard_adds engine panel payload metadata).atomically.discard
  | listCards =>
    have hread : AddsEvents w (PostgresCardRuntime.listCards engine) :=
      .after (.query _) fun d => .of_writes (.ret _)
    exact hread.atomically.discard
  | getCard card => exact (AddsEvents.of_writes (getCard_writes card)).atomically.discard
  | listLeases =>
    have hread : AddsEvents w (PostgresCardRuntime.listLeases engine) :=
      .after (.query _) fun d => .of_writes (.ret _)
    exact hread.atomically.discard
  | getLease lease => exact (AddsEvents.of_writes (getLease_writes lease)).atomically.discard
  | claimCard pipe worker seconds =>
    exact (claimCard_adds engine pipe worker seconds).atomically.discard
  | submitArtifact lease pipe refs =>
    exact (runtime_submitArtifact_adds engine lease pipe refs none).discard
  | renewLease lease seconds => exact (renewLease_adds engine lease seconds).atomically.discard
  | releaseLease lease actor => exact (releaseLease_adds engine lease actor).atomically.discard
  | expireLeases => exact (runtime_expireLeases_adds engine).discard
  | validateCard card validator accepted reason pipe payload =>
    exact (validateCard_adds engine card validator accepted reason pipe payload).atomically.discard
  | moveCard card bucket actor reason =>
    exact (moveCard_adds engine card bucket actor reason).atomically.discard
  | cardHistory card =>
    have hread : AddsEvents w (PostgresCardRuntime.cardHistory card) :=
      .after (getCard_writes card) fun c => .after (.query _) fun d => .of_writes (.ret _)
    exact hread.atomically.discard
  | recordEvent card type actor payload =>
    exact (recordEvent_adds engine card type actor payload).atomically.discard

/-- The step lemma. -/
theorem TableCall.step_adds (m : Machine Tables) (call : TableCall) :
    EventsAdded w m (call.step engine w m) := by
  cases call with
  | keyless call => exact call.adds engine m
  | keyed call key => exact call.adds engine key m

/-- The run lemma: the rows of later calls follow those of earlier ones. -/
theorem runTables_adds (m : Machine Tables) (calls : List TableCall) :
    EventsAdded w m (runTables engine w m calls) := by
  unfold runTables
  induction calls generalizing m with
  | nil => exact .refl m
  | cons call calls ih => exact (call.step_adds engine m).trans (ih _)

end Runs

/-! ## The history of a card -/

/-- The events of a card in the order in which they were recorded. -/
def Tables.recordedEvents (d : Tables) (cardId : Uuid) : List CardEvent :=
  d.cardEvents.values.filter fun e => e.cardId = cardId

/-- Among events at one reading of the clock, the one recorded first has the smaller
identifier. -/
def TiesInOrder (events : List CardEvent) : Prop :=
  events.Pairwise fun e e' => e.occurredAt = e'.occurredAt → e.id.int ≤ e'.id.int

section History
variable {events : List CardEvent}

theorem eventBefore_total (e e' : CardEvent) :
    PostgresCardRuntime.eventBefore e e' ∨ PostgresCardRuntime.eventBefore e' e := by
  unfold PostgresCardRuntime.eventBefore
  rcases lt_trichotomy e.occurredAt e'.occurredAt with hlt | heq | hgt
  · exact .inl (.inl hlt)
  · rcases Nat.le_total e.id.int e'.id.int with hle | hle
    · exact .inl (.inr ⟨heq, hle⟩)
    · exact .inr (.inr ⟨heq.symm, hle⟩)
  · exact .inr (.inl hgt)

theorem eventBefore_trans {e e' e'' : CardEvent} (h : PostgresCardRuntime.eventBefore e e')
    (h' : PostgresCardRuntime.eventBefore e' e'') : PostgresCardRuntime.eventBefore e e'' := by
  unfold PostgresCardRuntime.eventBefore at *
  rcases h with hlt | ⟨heq, hle⟩
  · rcases h' with hlt' | ⟨heq', -⟩
    · exact .inl (hlt.trans hlt')
    · exact .inl (heq' ▸ hlt)
  · rcases h' with hlt' | ⟨heq', hle'⟩
    · exact .inl (heq ▸ hlt')
    · exact .inr ⟨heq.trans heq', hle.trans hle'⟩

/-- Events at readings that never go back are sorted exactly when ties are. -/
theorem sorted_iff_ties (hread : events.Pairwise fun e e' => e.occurredAt ≤ e'.occurredAt) :
    events.insertionSort PostgresCardRuntime.eventBefore = events ↔ TiesInOrder events := by
  have hbefore : events.Pairwise PostgresCardRuntime.eventBefore ↔ TiesInOrder events := by
    constructor
    · intro hsorted
      refine hsorted.imp ?_
      intro e e' hbefore heq
      rcases hbefore with hlt | ⟨-, hle⟩
      · exact absurd heq hlt.ne
      · exact hle
    · intro hties
      refine (hread.and hties).imp ?_
      intro e e' hboth
      rcases hboth.1.lt_or_eq with hlt | heq
      · exact .inl hlt
      · exact .inr ⟨heq, hboth.2 heq⟩
  rw [← hbefore]
  constructor
  · intro hsame
    rw [← hsame]
    have : Std.Total PostgresCardRuntime.eventBefore := ⟨eventBefore_total⟩
    have : IsTrans CardEvent PostgresCardRuntime.eventBefore := ⟨fun _ _ _ => eventBefore_trans⟩
    exact List.pairwise_insertionSort _ _
  · intro hsorted
    exact hsorted.insertionSort_eq

end History

section Order
variable (engine : Engine) {w : World} {m m' : Machine Tables}

/-- Rows are only added behind the ones that are there, for each card too. -/
theorem EventsAdded.recordedEvents (h : EventsAdded w m m') (cardId : Uuid) :
    m.store.recordedEvents cardId <+: m'.store.recordedEvents cardId := by
  obtain ⟨added, hrows, -⟩ := h.rows
  unfold Tables.recordedEvents
  rw [hrows, List.filter_append]
  exact List.prefix_append _ _

/-- From no events on, the events of a card stand in the order of their readings. -/
theorem EventsAdded.readings {R : Instant → Instant → Prop}
    (hclock : ∀ i j, i < j → R (w.clock i) (w.clock j)) (h : EventsAdded w m m')
    (hnew : m.store.cardEvents = Dict.empty) (cardId : Uuid) :
    (m'.store.recordedEvents cardId).Pairwise fun e e' => R e.occurredAt e'.occurredAt := by
  obtain ⟨added, hrows, hread, hordered⟩ := h.rows
  rw [hnew] at hrows
  have hvalues : m'.store.cardEvents.values = added.map Prod.fst := hrows
  unfold Tables.recordedEvents
  rw [hvalues]
  apply List.Pairwise.filter
  rw [List.pairwise_map]
  refine hordered.imp_of_mem ?_
  intro a b ha hb hlt
  rw [(hread a ha).1, (hread b hb).1]
  exact hclock _ _ hlt

theorem run_cardHistory {cardId : Uuid} {events : List CardEvent}
    (h : (((PostgresCardRuntime.runtime engine).cardHistory cardId).run w m).1 = .ok events) :
    events = (m.store.recordedEvents cardId).insertionSort PostgresCardRuntime.eventBefore := by
  have hrun : ((PostgresCardRuntime.runtime engine).cardHistory cardId).run w m =
      (Op.atomically (PostgresCardRuntime.cardHistory cardId)).run w m := rfl
  rw [hrun, Op.atomically_run, PostgresCardRuntime.cardHistory, Op.run_inside_bind,
    PostgresCardRuntime.run_getCard] at h
  cases hcard : m.store.cards.get? cardId with
  | none =>
    rw [hcard] at h
    cases h
  | some c =>
    rw [hcard] at h
    cases h
    rfl

/-- In every run on new tables, while the clock does not go back: a history is in the order
of recording exactly when ties are. -/
theorem cardHistory_recorded_iff (hclock : Monotone w.clock)
    (hnew : m.store.cardEvents = Dict.empty) (calls : List TableCall) (cardId : Uuid)
    {events : List CardEvent}
    (h : (((PostgresCardRuntime.runtime engine).cardHistory cardId).run w
      (runTables engine w m calls)).1 = .ok events) :
    (events = (runTables engine w m calls).store.recordedEvents cardId ∧
      events.getLast? = ((runTables engine w m calls).store.recordedEvents cardId).getLast?) ↔
    TiesInOrder ((runTables engine w m calls).store.recordedEvents cardId) := by
  have hread := (runTables_adds engine (w := w) m calls).readings (R := (· ≤ ·))
    (fun i j hlt => hclock hlt.le) hnew cardId
  rw [run_cardHistory engine h, ← sorted_iff_ties hread]
  constructor
  · intro hboth
    exact hboth.1
  · intro hsame
    exact ⟨hsame, congrArg List.getLast? hsame⟩

/-- A clock that moves on at every reading leaves no ties. -/
theorem cardHistory_recorded (hclock : StrictMono w.clock)
    (hnew : m.store.cardEvents = Dict.empty) (calls : List TableCall) (cardId : Uuid)
    {events : List CardEvent}
    (h : (((PostgresCardRuntime.runtime engine).cardHistory cardId).run w
      (runTables engine w m calls)).1 = .ok events) :
    events = (runTables engine w m calls).store.recordedEvents cardId := by
  have hread := (runTables_adds engine (w := w) m calls).readings (R := (· < ·))
    (fun i j hlt => hclock hlt) hnew cardId
  rw [run_cardHistory engine h, sorted_iff_ties (hread.imp le_of_lt)]
  refine hread.imp ?_
  intro e e' hlt heq
  exact absurd heq hlt.ne

end Order

/-- One reading of the clock for everything, and the third and fourth identifier drawn the
other way round. -/
def World.tied : World :=
  { World.simple with
    clock := fun _ => 0
    uuid4 := fun n => ⟨Equiv.swap 2 3 n⟩
    uuid4_injective := fun _ _ h => (Equiv.swap 2 3).injective (Uuid.mk.inj h) }

/-- The verdict of a validator that sends the card on. -/
def tiedCalls : List TableCall :=
  [.keyless (.validateCard ⟨100⟩ "check" true none (some "work_out") none)]

def tiedMachine (w : World) : Machine Tables := runTables .simple w ⟨Tables.line, 0, 0⟩ tiedCalls

theorem cardHistory_recorded_iff_tied : ∃ events,
    (((PostgresCardRuntime.runtime .simple).cardHistory ⟨100⟩).run .tied (tiedMachine .tied)).1 =
      .ok events ∧
    ((events = (tiedMachine .tied).store.recordedEvents ⟨100⟩ ∧
      events.getLast? = ((tiedMachine .tied).store.recordedEvents ⟨100⟩).getLast?) ↔
    TiesInOrder ((tiedMachine .tied).store.recordedEvents ⟨100⟩)) :=
  ⟨_, rfl, cardHistory_recorded_iff .simple (w := .tied) (m := ⟨Tables.line, 0, 0⟩)
    (fun _ _ _ => Int.le_refl 0) rfl tiedCalls ⟨100⟩ rfl⟩

/-- The move is recorded before the verdict, and the history ends with the move. -/
theorem verdict_not_last : Monotone World.tied.clock ∧ ∃ events,
    (((PostgresCardRuntime.runtime .simple).cardHistory ⟨100⟩).run .tied (tiedMachine .tied)).1 =
      .ok events ∧
    (events.getLast?.map (·.eventType)) = some "card_moved" ∧
    (((tiedMachine .tied).store.recordedEvents ⟨100⟩).getLast?.map (·.eventType)) =
      some "card_validated" := ⟨fun _ _ _ => Int.le_refl 0, _, rfl, rfl, rfl⟩

end GhostMesh
