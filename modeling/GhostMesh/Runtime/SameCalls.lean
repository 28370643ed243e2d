import GhostMesh.Runtime.ManyPanels
import GhostMesh.Runtime.SameLedger
import GhostMesh.Runtime.WorkflowVersion

/-!
# The two runtimes call by call

Every operation without an idempotency key, run on both stores at one instant with the
same identifiers to draw: both return or both raise, and the stores stay the same ledger.
-/

set_option autoImplicit false

namespace GhostMesh

open ReadCommitted (Txn)
open Op (inside)

/-- Both return, related by `Φ`, or both raise and the in-memory store is still `s`. -/
abbrev InStep {α β : Type} (Φ : α → β → Machine Tables → Machine InMemoryCardRuntime → Prop)
    (s : InMemoryCardRuntime) : Except PyErr α × Machine Tables →
      Except PyErr β × Machine InMemoryCardRuntime → Prop :=
  Exec.Lockstep Φ fun _ n => n.store = s

/-- The stores of calls that return are the same ledger again. -/
abbrev Matches (w : World) (later : Uuid → Prop) (p : PatchPanel) (s : InMemoryCardRuntime)
    {α β : Type} : Except PyErr α × Machine Tables →
      Except PyErr β × Machine InMemoryCardRuntime → Prop :=
  InStep (fun _ _ m n => Paired w later p m.store m.draws n.store) s

/-! ## Statements of the tables alone -/

namespace PostgresCardRuntime

section Statements
variable (w : World) (m : Machine Tables)

theorem run_ensureActiveLease (l : Lease) : (inside (ensureActiveLease l)).run w m =
    if l.releasedAt.isNone then
      (if w.clock m.ticks < l.expiresAt then .ok ()
        else .error (.conflict s!"lease '{l.id.str}' has expired"),
        { m with ticks := m.ticks + 1 })
    else (.error (.conflict s!"lease '{l.id.str}' has already been released"), m) := by
  unfold ensureActiveLease
  rw [Op.run_inside_bind, Op.inside_ensure, Op.run_ensure]
  cases l.releasedAt.isNone with
  | false => rfl
  | true =>
    simp only [if_true]
    rw [Op.run_clock, Op.inside_ensure, Op.run_ensure]
    simp only [decide_eq_true_eq]

theorem run_expiryAfter (seconds : Int) : (inside (expiryAfter seconds)).run w m =
    (match (w.clock m.ticks).addSeconds seconds with
      | some e => .ok e
      | none => .error .overflow, { m with ticks := m.ticks + 1 }) := by
  unfold expiryAfter
  rw [Op.run_clock]
  cases (w.clock m.ticks).addSeconds seconds <;> rfl

theorem run_getPatchPanelForCard {p : PatchPanel} {c : Card} {row : Stamped PatchPanel}
    (hcolon : ':' ∉ p.id.toList) (hc : c.workflowVersion = p.workflowVersion)
    (hrow : m.store.patchPanels.get? (p.id, p.version) = some row) :
    (inside (getPatchPanelForCard c)).run w m = (.ok row.definition, m) := by
  unfold getPatchPanelForCard
  rw [hc, (splitFirstColon_iff p).mpr hcolon]
  simp only
  rw [Op.run_query, hrow]
  rfl

theorem run_updateRow {β : Type} (lock : β → RowLock) (holds : Tables → β → Bool)
    (set : β → RowWrite) (b : β) :
    (inside (Txn.updateRow (S := postgres) lock holds set b)).run w m =
      (.ok (), if holds m.store b then { m with store := (set b).apply m.store } else m) := by
  unfold Txn.updateRow
  rw [Op.run_lockRow]
  cases holds m.store b <;> rfl

/-- An `UPDATE` of one row by its key. -/
theorem run_updateLease {id : Uuid} {x : RowWrite} (hid : m.store.leases.contains id = true) :
    (inside (updateLease id x)).run w m = (.ok (), { m with store := x.apply m.store }) := by
  unfold updateLease Txn.update
  rw [Op.run_query]
  simp only [hid, if_true, Txn.forEach]
  rw [Op.run_bind_ok (run_updateRow w m _ _ _ _)]
  simp only [hid, if_true]
  rfl

theorem run_updateCardBucket {id : Uuid} {bucket : String}
    (hid : m.store.cards.contains id = true) :
    (inside (updateCardBucket id bucket)).run w m =
      (.ok (), { m with store := RowWrite.apply m.store (.cardBucket id bucket) }) := by
  unfold updateCardBucket Txn.update
  rw [Op.run_query]
  simp only [hid, if_true, Txn.forEach]
  rw [Op.run_bind_ok (run_updateRow w m _ _ _ _)]
  simp only [hid, if_true]
  rfl

variable (engine : Engine)

/-- The location rows keep their keys. -/
theorem run_exitEach (cardId : Uuid) (t : Instant) (ids : List Uuid) :
    ∃ table, (inside (Txn.forEach (Txn.updateRow (S := postgres) RowLock.cardLocation
        (fun d id => (d.cardLocations.get? id).any (activeLocationOf cardId))
        (fun id => .locationExited id t)) ids)).run w m =
          (.ok (), { m with store := { m.store with cardLocations := table } }) ∧
      ∀ k, table.contains k = m.store.cardLocations.contains k := by
  induction ids generalizing m with
  | nil => exact ⟨_, rfl, fun _ => rfl⟩
  | cons id ids ih =>
    simp only [Txn.forEach]
    rw [Op.run_bind_ok (run_updateRow w m _ _ _ _)]
    split
    · obtain ⟨table, hrun, hkeys⟩ :=
        ih { m with store := RowWrite.apply m.store (.locationExited id t) }
      refine ⟨table, hrun, fun k => (hkeys k).trans ?_⟩
      exact Dict.contains_modify _ _ _ _
    · exact ih m

theorem run_exitLocations (cardId : Uuid) (t : Instant) :
    ∃ table, (inside (exitLocations engine cardId t)).run w m =
        (.ok (), { m with store := { m.store with cardLocations := table } }) ∧
      ∀ k, table.contains k = m.store.cardLocations.contains k := by
  unfold exitLocations Txn.update
  rw [Op.run_query]
  exact run_exitEach w m cardId t _

/-- New artifacts go into their table. -/
theorem run_insertArtifacts {refs : List ArtifactReference} (hnodup : (refs.map (·.id)).Nodup)
    (hnew : ∀ ref ∈ refs, m.store.artifacts.contains ref.id = false) :
    (inside (Txn.forEach (insertArtifact engine) refs)).run w m =
      (.ok (), { m with store := { m.store with
        artifacts := refs.foldl (fun d ref => d.set ref.id ref) m.store.artifacts } }) := by
  induction refs generalizing m with
  | nil => rfl
  | cons ref refs ih =>
    rw [List.map_cons, List.nodup_cons] at hnodup
    obtain ⟨hhead, htail⟩ := List.forall_mem_cons.mp hnew
    have hinsert : (inside (insertArtifact engine ref)).run w m =
        (.ok (), { m with store := RowWrite.apply m.store (.artifact ref) }) := by
      rw [insertArtifact, Op.run_insert, hhead]
      rfl
    simp only [Txn.forEach]
    rw [Op.run_bind_ok hinsert]
    refine ih { m with store := RowWrite.apply m.store (.artifact ref) } hnodup.2 ?_
    intro x hx
    have hne : x.id ≠ ref.id := fun heq => hnodup.1 (heq ▸ List.mem_map_of_mem hx)
    change (m.store.artifacts.set ref.id ref).contains x.id = false
    rw [Dict.contains, Dict.get?_set_ne _ _ hne]
    exact htail x hx

end Statements

section Movement
variable {w : World} {later : Uuid → Prop} {p : PatchPanel} {m : Machine Tables}
  {s : InMemoryCardRuntime} (engine : Engine) (hlater : ∀ a, later a → ∀ i, a ≠ w.uuid4 i)
  (h : Paired w later p m.store m.draws s)
include hlater h

/-- A movement of the card row, before and after its event. -/
theorem run_moveCardRow {c : Card} (hc : m.store.cards.get? c.id = some c) (t : Instant)
    (bucket : String) (actor reason : Option String) :
    ∃ m', Paired w later p m'.store m'.draws (s.putCard { c with currentBucket := bucket }) ∧
      m'.store.artifacts = m.store.artifacts ∧ ∀ emit,
        (inside (moveCardRow engine c bucket actor reason emit)).run (w.stopped t) m =
        (.ok { c with currentBucket := bucket }, if emit then
          ⟨RowWrite.apply m'.store (.cardEvent ⟨w.uuid4 m'.draws, c.id, "card_moved", actor,
            [("from_bucket", .str c.currentBucket), ("to_bucket", .str bucket),
              ("reason", Json.ofOptionStr reason)], t⟩), m'.ticks + 1, m'.draws + 1⟩ else m') := by
  obtain ⟨table, hexit, hkeys⟩ :=
    run_exitLocations (w.stopped t) { m with ticks := m.ticks + 1 } engine c.id t
  have hleft : Paired w later p { m.store with cardLocations := table } m.draws s :=
    h.locations hkeys
  let row : CardLocation := ⟨w.uuid4 m.draws, c.id, bucket, "active", t, some t, none⟩
  have hentered : Paired w later p (RowWrite.apply _ (.cardLocation row)) (m.draws + 1) s :=
    hleft.location hlater rfl
  have hmoved := hentered.moved (c := c) hc bucket
  refine ⟨⟨_, m.ticks + 1, m.draws + 1⟩, hmoved, rfl, fun emit => ?_⟩
  have hfree : table.contains (w.uuid4 m.draws) = false :=
    hleft.unseen.locations _ (Spare.own m.draws)
  unfold moveCardRow
  rw [Op.run_clock]
  simp only [World.stopped_clock]
  refine (Op.run_bind_ok hexit).trans ?_
  rw [Op.run_ident]
  have hinsert : (inside (insertLocation engine row)).run (w.stopped t)
      ⟨{ m.store with cardLocations := table }, m.ticks + 1, m.draws + 1⟩ = (.ok (), _) :=
    insertLocation_ok engine hfree
  refine (Op.run_bind_ok hinsert).trans ?_
  refine (Op.run_bind_ok (run_updateCardBucket _ _ ?_)).trans ?_
  · exact Dict.contains_of_get? hc
  cases emit with
  | false => rfl
  | true =>
    have hnew := hmoved.unseen.events _ (Spare.own (m.draws + 1))
    simp only [if_true]
    refine (Op.run_bind_ok (run_newEvent _ _ _ _ _ _)).trans ?_
    refine (Op.run_bind_ok (insertEvent_ok engine hnew)).trans ?_
    rfl

end Movement

end PostgresCardRuntime

/-! ## Steps that both runtimes make -/

section Steps
variable {w w' : World} {p : PatchPanel} {m : Machine Tables}
  {n : Machine InMemoryCardRuntime} {α β γ : Type}
  {Φ : α → β → Machine Tables → Machine InMemoryCardRuntime → Prop}

theorem lockstep_ofExcept {f : γ → Tx α} {g : γ → InMemoryCardRuntime.Rt β} {x : Except PyErr γ}
    (hrest : ∀ a, x = .ok a →
      InStep Φ n.store ((inside (f a)).run w' m) ((g a).run w' n)) :
    InStep Φ n.store ((inside (Txn.ofExcept (S := postgres) x >>= f)).run w' m)
      ((Op.ofExcept x >>= g).run w' n) := by
  rw [Op.inside_bind, Op.inside_ofExcept]
  exact .both (Op.run_ofExcept x w' m) (Op.run_ofExcept x w' n) rfl hrest

theorem lockstep_ensure {f : Unit → Tx α} {g : Unit → InMemoryCardRuntime.Rt β} {c : Bool}
    {e : PyErr}
    (hrest : InStep Φ n.store ((inside (f ())).run w' m) ((g ()).run w' n)) :
    InStep Φ n.store ((inside (Txn.ensure (S := postgres) c e >>= f)).run w' m)
      ((Op.ensure c e >>= g).run w' n) := by
  rw [Op.inside_bind, Op.inside_ensure]
  exact .both (Op.run_ensure c e w' m) (Op.run_ensure c e w' n) rfl fun _ _ => hrest

variable (h : SameLedger p m.store n.store)
include h

theorem lockstep_getCard {f : Card → Tx α} {g : Card → InMemoryCardRuntime.Rt β} {id : Uuid}
    (hrest : ∀ c, m.store.cards.get? id = some c →
      InStep Φ n.store ((inside (f c)).run w' m) ((g c).run w' n)) :
    InStep Φ n.store ((inside (PostgresCardRuntime.getCard id >>= f)).run w' m)
      ((InMemoryCardRuntime.getCard id >>= g).run w' n) := by
  have hmemory := InMemoryCardRuntime.run_getCard w' n id
  rw [← h.cards] at hmemory
  rw [Op.inside_bind]
  refine .both (PostgresCardRuntime.run_getCard w' m id) hmemory rfl fun c hc => hrest c ?_
  split at hc
  · cases hc
    assumption
  · cases hc

theorem lockstep_getLease {f : Lease → Tx α} {g : Lease → InMemoryCardRuntime.Rt β} {id : Uuid}
    (hrest : ∀ l, m.store.leases.get? id = some l →
      InStep Φ n.store ((inside (f l)).run w' m) ((g l).run w' n)) :
    InStep Φ n.store ((inside (PostgresCardRuntime.getLease id >>= f)).run w' m)
      ((InMemoryCardRuntime.getLease id >>= g).run w' n) := by
  have hmemory := InMemoryCardRuntime.run_getLease w' n id
  rw [← h.leases] at hmemory
  rw [Op.inside_bind]
  refine .both (PostgresCardRuntime.run_getLease w' m id) hmemory rfl fun l hl => hrest l ?_
  split at hl
  · cases hl
    assumption
  · cases hl

/-- Both runtimes find the panel of a card, the one by its id and version, the other by
its id. -/
theorem lockstep_getPatchPanelForCard {f : PatchPanel → Tx α}
    {g : PatchPanel → InMemoryCardRuntime.Rt β} {c : Card} (hid : ':' ∉ p.id.toList)
    (hversion : ':' ∉ p.version.toList) (hc : c.workflowVersion = p.workflowVersion)
    (hrest : InStep Φ n.store ((inside (f p)).run w' m) ((g p).run w' n)) :
    InStep Φ n.store
      ((inside (PostgresCardRuntime.getPatchPanelForCard c >>= f)).run w' m)
      ((InMemoryCardRuntime.getPatchPanelForCard c >>= g).run w' n) := by
  obtain ⟨row, hrow, hdef⟩ := h.panelRowAt
  have hpostgres := PostgresCardRuntime.run_getPatchPanelForCard w' m hid hc hrow
  rw [hdef] at hpostgres
  have hmemory := InMemoryCardRuntime.run_getPatchPanel w' n
    (InMemoryCardRuntime.beforeLastColon c.workflowVersion)
  rw [hc, (beforeLastColon_iff p).mpr hversion, h.panelAt, if_pos rfl] at hmemory
  rw [Op.inside_bind]
  refine .left hpostgres (.right ?_ hrest)
  rw [InMemoryCardRuntime.getPatchPanelForCard, hc, (beforeLastColon_iff p).mpr hversion]
  exact hmemory

omit h

/-- The lease check reads the clock on both sides or on neither. -/
theorem lockstep_ensureActiveLease {f : Unit → Tx α} {g : Unit → InMemoryCardRuntime.Rt β}
    {l : Lease} {t : Instant}
    (hrest : InStep Φ n.store
      ((inside (f ())).run (w.stopped t) { m with ticks := m.ticks + 1 })
      ((g ()).run (w.stopped t) { n with ticks := n.ticks + 1 })) :
    InStep Φ n.store
      ((inside (PostgresCardRuntime.ensureActiveLease l >>= f)).run (w.stopped t) m)
      ((GhostMesh.ensureActiveLease l >>= g).run (w.stopped t) n) := by
  have hpostgres := PostgresCardRuntime.run_ensureActiveLease (w.stopped t) m l
  have hmemory := InMemoryCardRuntime.run_ensureActiveLease l (w.stopped t) n
  simp only [World.stopped_clock] at hpostgres hmemory
  rw [Op.inside_bind]
  cases hreleased : l.releasedAt.isNone with
  | false =>
    rw [hreleased] at hpostgres hmemory
    exact .both hpostgres hmemory rfl fun _ hok => by cases hok
  | true =>
    rw [hreleased] at hpostgres hmemory
    exact .both hpostgres hmemory rfl fun _ _ => hrest

theorem lockstep_expiryAfter {f : Instant → Tx α} {g : Instant → InMemoryCardRuntime.Rt β}
    {seconds : Int} {t : Instant}
    (hrest : ∀ e, InStep Φ n.store
      ((inside (f e)).run (w.stopped t) { m with ticks := m.ticks + 1 })
      ((g e).run (w.stopped t) { n with ticks := n.ticks + 1 })) :
    InStep Φ n.store
      ((inside (PostgresCardRuntime.expiryAfter seconds >>= f)).run (w.stopped t) m)
      ((GhostMesh.expiryAfter seconds >>= g).run (w.stopped t) n) := by
  rw [Op.inside_bind]
  exact .both (PostgresCardRuntime.run_expiryAfter (w.stopped t) m seconds)
    (InMemoryCardRuntime.run_expiryAfter seconds (w.stopped t) n) rfl fun e _ => hrest e

end Steps

/-! ## The operations -/

section Operations
variable {w : World} {later : Uuid → Prop} {p : PatchPanel} {m : Machine Tables}
  {n : Machine InMemoryCardRuntime} (t : Instant) (engine : Engine)
  (hlater : ∀ a, later a → ∀ i, a ≠ w.uuid4 i) (hid : ':' ∉ p.id.toList)
  (hversion : ':' ∉ p.version.toList) (h : Paired w later p m.store m.draws n.store)
include h

section Keyless
variable {α : Type} {w' : World}

omit h in
theorem run_keyless (replay : ResponseRef → Tx α) (body : Tx α) :
    (inside (PostgresCardRuntime.idempotent none replay body)).run w' m =
      (inside body).run w' m := by
  rw [PostgresCardRuntime.run_idempotent]
  rfl

omit h in
theorem run_keyless_memory (f : Stored → Option α) (body : InMemoryCardRuntime.Rt α) :
    (InMemoryCardRuntime.idempotent none f body).run w' n = body.run w' n := by
  rw [InMemoryCardRuntime.run_idempotent]
  rfl

end Keyless

include hlater

theorem recordEvent_matches (cardId : Uuid) (type : String) (actor : Option String)
    (payload : Option JsonObj) : Matches w later p n.store
      ((inside (PostgresCardRuntime.recordEvent engine cardId type actor payload none)).run
        (w.stopped t) m)
      ((InMemoryCardRuntime.recordEvent cardId type actor payload none).run (w.stopped t) n) := by
  rw [PostgresCardRuntime.recordEvent, InMemoryCardRuntime.recordEvent, run_keyless,
    run_keyless_memory]
  refine lockstep_getCard h.ledger fun c _ => ?_
  rw [Op.run_bind_ok (PostgresCardRuntime.run_newEvent _ _ _ _ _ _)]
  rw [Op.run_bind_ok (PostgresCardRuntime.insertEvent_ok engine ?_)]
  · exact h.event hlater rfl rfl
  · exact h.unseen.events _ (Spare.own m.draws)

theorem createCard_matches (hdraws : n.draws = m.draws) (panel : String) (payload : JsonObj)
    (metadata : Option JsonObj) : Matches w later p n.store
      ((inside (PostgresCardRuntime.createCard engine panel payload metadata none)).run
        (w.stopped t) m)
      ((InMemoryCardRuntime.createCard panel payload metadata none).run (w.stopped t) n) := by
  obtain ⟨s, ticks, draws⟩ := n
  obtain rfl : draws = m.draws := hdraws
  rw [PostgresCardRuntime.createCard, InMemoryCardRuntime.createCard, run_keyless,
    run_keyless_memory]
  have hactive := PostgresCardRuntime.run_getActivePatchPanel (w := w.stopped t) (m := m) engine
    panel
  have hpanel := InMemoryCardRuntime.run_getPatchPanel (w.stopped t) ⟨s, ticks, m.draws⟩ panel
  rw [h.ledger.activeDefinitions_eq] at hactive
  rw [h.ledger.panelAt] at hpanel
  rw [Op.inside_bind]
  by_cases hown : panel = p.id
  · rw [if_pos hown] at hactive hpanel
    rw [List.perm_singleton.mp (engine.rows_perm m.store [p])] at hactive
    refine .left hactive (.right hpanel ?_)
    refine lockstep_ofExcept fun bucket _ => ?_
    let c : Card := ⟨w.uuid4 m.draws, p.workflowVersion, bucket, payload, metadata.getD [], t⟩
    let row : CardLocation := ⟨w.uuid4 (m.draws + 1), c.id, bucket, "active", t, some t, none⟩
    have hcard : Paired w later p (RowWrite.apply m.store (.card c)) (m.draws + 1)
        (s.putCard c) := h.card hlater rfl rfl
    have hrow : Paired w later p (RowWrite.apply _ (.cardLocation row)) (m.draws + 2)
        (s.putCard c) := hcard.location hlater rfl
    rw [Op.run_ident, Op.run_clock, Op.run_bind_ok (PostgresCardRuntime.insertCard_ok engine ?_)]
    · rw [Op.run_ident, Op.run_bind_ok (PostgresCardRuntime.insertLocation_ok engine ?_)]
      · rw [Op.run_bind_ok (PostgresCardRuntime.run_newEvent _ _ _ _ _ _)]
        rw [Op.run_bind_ok (PostgresCardRuntime.insertEvent_ok engine ?_)]
        · exact hrow.event hlater rfl rfl
        · exact hrow.unseen.events _ (Spare.own _)
      · exact hcard.unseen.locations _ (Spare.own _)
    · exact h.unseen.cards _ (Spare.own m.draws)
  · rw [if_neg hown] at hactive hpanel
    rw [(engine.rows_perm m.store ([] : List PatchPanel)).eq_nil] at hactive
    exact .both hactive hpanel rfl fun _ hok => by cases hok

include hid hversion in
theorem moveCard_matches (cardId : Uuid) (bucket : String) (actor reason : Option String) :
    Matches w later p n.store
      ((inside (PostgresCardRuntime.moveCard engine cardId bucket actor reason none)).run
        (w.stopped t) m)
      ((InMemoryCardRuntime.moveCard cardId bucket actor reason none).run (w.stopped t) n) := by
  rw [PostgresCardRuntime.moveCard, InMemoryCardRuntime.moveCard, run_keyless, run_keyless_memory]
  refine lockstep_getCard h.ledger fun c hc => ?_
  obtain ⟨rfl, hver⟩ := h.ledger.cardRow hc
  refine lockstep_getPatchPanelForCard h.ledger hid hversion hver ?_
  refine lockstep_ofExcept fun _ _ => ?_
  obtain ⟨m', hmoved, -, hrun⟩ :=
    PostgresCardRuntime.run_moveCardRow engine hlater h hc t bucket actor reason
  rw [Op.run_bind_ok (hrun true)]
  exact hmoved.event hlater rfl rfl

theorem renewLease_matches (leaseId : Uuid) (seconds : Int) : Matches w later p n.store
    ((inside (PostgresCardRuntime.renewLease engine leaseId seconds none)).run (w.stopped t) m)
    ((InMemoryCardRuntime.renewLease leaseId seconds none).run (w.stopped t) n) := by
  rw [PostgresCardRuntime.renewLease, InMemoryCardRuntime.renewLease, run_keyless,
    run_keyless_memory]
  refine lockstep_getLease h.ledger fun l hl => ?_
  have hkey : l.id = leaseId := h.ledger.leaseKeys _ l (h.ledger.leases leaseId ▸ hl)
  subst hkey
  refine lockstep_ensureActiveLease ?_
  refine lockstep_expiryAfter fun e => ?_
  rw [Op.run_bind_ok (PostgresCardRuntime.run_updateLease _ _ ?_)]
  · rw [Op.run_bind_ok (PostgresCardRuntime.run_newEvent _ _ _ _ _ _)]
    rw [Op.run_bind_ok (PostgresCardRuntime.insertEvent_ok engine ?_)]
    · have hrenewed := h.leaseChanged hl (f := fun l => { l with expiresAt := e }) rfl
      exact hrenewed.event hlater rfl rfl
    · exact h.unseen.events _ (Spare.own m.draws)
  · exact Dict.contains_of_get? hl

theorem releaseLease_matches (leaseId : Uuid) (actor : Option String) : Matches w later p n.store
    ((inside (PostgresCardRuntime.releaseLease engine leaseId actor none)).run (w.stopped t) m)
    ((InMemoryCardRuntime.releaseLease leaseId actor none).run (w.stopped t) n) := by
  rw [PostgresCardRuntime.releaseLease, InMemoryCardRuntime.releaseLease, run_keyless,
    run_keyless_memory]
  refine lockstep_getLease h.ledger fun l hl => ?_
  have hkey : l.id = leaseId := h.ledger.leaseKeys _ l (h.ledger.leases leaseId ▸ hl)
  subst hkey
  cases l.releasedAt with
  | some _ => exact h
  | none =>
    simp only
    rw [Op.run_clock]
    rw [Op.run_bind_ok (PostgresCardRuntime.run_updateLease _ _ ?_)]
    · rw [Op.run_bind_ok (PostgresCardRuntime.run_newEvent _ _ _ _ _ _)]
      rw [Op.run_bind_ok (PostgresCardRuntime.insertEvent_ok engine ?_)]
      · have hreleased := h.leaseChanged hl (f := fun l => { l with releasedAt := some t }) rfl
        exact hreleased.event hlater rfl rfl
      · exact h.unseen.events _ (Spare.own m.draws)
    · exact Dict.contains_of_get? hl

include hid hversion in
/-- The route of a verdict, with the movement that the tables record along with it. -/
theorem validationRoute_matches {c : Card} (hc : m.store.cards.get? c.id = some c)
    (validator : String) (outputPipe : Option String) :
    InStep (fun a b m' n' => a = b ∧ n' = n ∧
        Paired w later p m'.store m'.draws (n.store.routeCard c a)) n.store
      ((inside (PostgresCardRuntime.validationRoute engine c validator outputPipe)).run
        (w.stopped t) m)
      ((InMemoryCardRuntime.validationRoute c outputPipe).run (w.stopped t) n) := by
  unfold PostgresCardRuntime.validationRoute InMemoryCardRuntime.validationRoute
  cases truthyStr outputPipe with
  | none => exact ⟨rfl, rfl, h⟩
  | some pipe =>
    refine lockstep_getPatchPanelForCard h.ledger hid hversion (h.ledger.cardRow hc).2 ?_
    refine lockstep_ofExcept fun found _ => ?_
    obtain ⟨m', hmoved, -, hrun⟩ := PostgresCardRuntime.run_moveCardRow engine hlater h hc t found.1
      (some validator) (some "validator_output")
    rw [Op.run_bind_ok (hrun true)]
    exact ⟨rfl, rfl, hmoved.move hlater rfl ⟨rfl, rfl⟩⟩

omit h hlater in
/-- The payloads of a verdict differ in the id of its result only. -/
theorem erase_validationPayload (accepted : Bool) (reason : Option String) (resultId : Uuid)
    (payload : Option JsonObj) (route : Option (String × String)) :
    JsonObj.erase (InMemoryCardRuntime.routedPayload
        (PostgresCardRuntime.validationPayload accepted reason resultId payload) route)
        "validation_result_id" =
      JsonObj.erase (InMemoryCardRuntime.routedPayload
        (InMemoryCardRuntime.validationPayload accepted reason payload) route)
        "validation_result_id" := by
  have hbase : JsonObj.erase (PostgresCardRuntime.validationPayload accepted reason resultId payload)
      "validation_result_id" = JsonObj.erase
        (InMemoryCardRuntime.validationPayload accepted reason payload) "validation_result_id" := by
    unfold PostgresCardRuntime.validationPayload InMemoryCardRuntime.validationPayload
    rw [JsonObj.erase_update, JsonObj.erase_update]
    rfl
  cases route with
  | none => exact hbase
  | some found =>
    simp only [InMemoryCardRuntime.routedPayload, JsonObj.erase_set, hbase]

include hid hversion in
theorem validateCard_matches (cardId : Uuid) (validator : String) (accepted : Bool)
    (reason outputPipe : Option String) (payload : Option JsonObj) : Matches w later p n.store
      ((inside (PostgresCardRuntime.validateCard engine cardId validator accepted reason outputPipe
        payload none)).run (w.stopped t) m)
      ((InMemoryCardRuntime.validateCard cardId validator accepted reason outputPipe payload
        none).run (w.stopped t) n) := by
  rw [PostgresCardRuntime.validateCard, InMemoryCardRuntime.validateCard, run_keyless,
    run_keyless_memory]
  refine lockstep_getCard h.ledger fun c hc => ?_
  obtain ⟨rfl, -⟩ := h.ledger.cardRow hc
  let row : ValidationResult :=
    ⟨w.uuid4 m.draws, c.id, validator, accepted, reason, outputPipe, payload.getD [], t⟩
  have hresult : Paired w later p (RowWrite.apply m.store (.validationResult row)) (m.draws + 1)
      n.store := h.result hlater rfl
  have hinsert : (inside (PostgresCardRuntime.insertValidationResult engine row)).run (w.stopped t)
      ⟨m.store, m.ticks + 1, m.draws + 1⟩ =
        (.ok (), ⟨RowWrite.apply m.store (.validationResult row), m.ticks + 1, m.draws + 1⟩) := by
    rw [PostgresCardRuntime.insertValidationResult, Op.run_insert,
      if_neg (by rw [h.unseen.results _ (Spare.own m.draws)]; exact Bool.false_ne_true)]
  rw [Op.run_ident, Op.run_clock]
  refine (Op.run_bind_ok hinsert).symm ▸ ?_
  rw [Op.inside_bind]
  refine (validationRoute_matches t engine hlater hid hversion
    (m := ⟨_, m.ticks + 1, m.draws + 1⟩) hresult hc validator outputPipe).bind ?_
  rintro route _ m' _ ⟨rfl, rfl, hrouted⟩
  rw [Op.run_bind_ok (PostgresCardRuntime.run_newEvent _ _ _ _ _ _),
    Op.run_bind_ok (PostgresCardRuntime.insertEvent_ok engine ?_)]
  · refine hrouted.event hlater rfl ?_
    unfold CardEvent.evidence
    rw [erase_validationPayload]
    rfl
  · exact hrouted.unseen.events _ (Spare.own m'.draws)

include hid hversion in
theorem submitArtifact_matches (leaseId : Uuid) (pipe : String) (refs : List ArtifactReference)
    (hnodup : (refs.map (·.id)).Nodup)
    (hnew : ∀ ref ∈ refs, m.store.artifacts.contains ref.id = false) : Matches w later p n.store
      ((inside (PostgresCardRuntime.submitArtifact engine (w.stopped t) leaseId pipe refs none)).run
        (w.stopped t) m)
      ((InMemoryCardRuntime.submitArtifact leaseId pipe refs none).run (w.stopped t) n) := by
  rw [PostgresCardRuntime.submitArtifact, InMemoryCardRuntime.submitArtifact, run_keyless,
    run_keyless_memory]
  refine lockstep_getLease h.ledger fun l hl => ?_
  obtain rfl : l.id = leaseId := h.ledger.leaseKeys _ l (h.ledger.leases leaseId ▸ hl)
  refine lockstep_ensureActiveLease ?_
  refine lockstep_getCard (m := { m with ticks := m.ticks + 1 })
    (n := { n with ticks := n.ticks + 1 }) h.ledger fun c hc => ?_
  obtain ⟨hcard, hver⟩ := h.ledger.cardRow hc
  rw [← hcard] at hc
  refine lockstep_getPatchPanelForCard (m := { m with ticks := m.ticks + 1 })
    (n := { n with ticks := n.ticks + 1 }) h.ledger hid hversion hver ?_
  refine lockstep_ofExcept fun found _ => ?_
  refine lockstep_ofExcept fun _ _ => ?_
  refine .right (Op.run_world (w.stopped t) _) ?_
  refine lockstep_ofExcept fun _ _ => ?_
  refine lockstep_ensure ?_
  obtain ⟨m', hmoved, hartifacts, hrun⟩ := PostgresCardRuntime.run_moveCardRow
    (m := { m with ticks := m.ticks + 1 }) engine hlater h hc t found.1 (some l.workerId)
      (some "artifact_submitted")
  rw [Op.run_bind_ok (hrun false)]
  simp only [Bool.false_eq_true, if_false]
  have hl' : m'.store.leases.get? l.id = some l :=
    (hmoved.ledger.leases l.id).trans ((h.ledger.leases l.id).symm.trans hl)
  have hreleased := hmoved.leaseChanged hl' (f := fun l => { l with releasedAt := some t }) rfl
  rw [Op.run_clock, Op.run_bind_ok (PostgresCardRuntime.run_updateLease _ _ ?_)]
  · rw [Op.run_bind_ok (PostgresCardRuntime.run_newEvent _ _ _ _ _ _),
      Op.run_bind_ok (PostgresCardRuntime.insertEvent_ok engine ?_)]
    · -- The two runtimes give the event an id of their own.
      let event (id : Uuid) : CardEvent := ⟨id, c.id, "artifact_submitted", some l.workerId,
        [("artifact_ids", .list (refs.map fun ref => .str ref.id.str)),
          ("artifact_refs", .list (refs.map InMemoryCardRuntime.artifactJson)),
          ("lease_id", .str l.id.str), ("output_pipe", .str pipe),
          ("destination_bucket", .str found.1)], t⟩
      let stored (id : Uuid) := refs.map fun ref =>
        { ref with cardId := c.id, eventId := some id }
      have hsame : (event (w.uuid4 m'.draws)).evidence = (event (w.uuid4 n.draws)).evidence := rfl
      have hstored := (hreleased.event hlater rfl hsame).artifacts
        ((stored (w.uuid4 m'.draws)).foldl (fun d ref => d.set ref.id ref) m'.store.artifacts)
        (stored (w.uuid4 n.draws))
      have hids : (stored (w.uuid4 m'.draws)).map (·.id) = refs.map (·.id) := by
        simp only [stored, List.map_map, Function.comp_def]
      rw [Op.inside_bind]
      refine .left (PostgresCardRuntime.run_insertArtifacts _ _ engine ?_ ?_) ?_
      · exact hids ▸ hnodup
      · intro ref hmem
        obtain ⟨x, hx, rfl⟩ := List.mem_map.mp hmem
        change m'.store.artifacts.contains x.id = false
        rw [hartifacts]
        exact hnew x hx
      · exact hstored
    · exact hreleased.unseen.events _ (Spare.own m'.draws)
  · exact Dict.contains_of_get? hl'

omit h hlater in
/-- Both scans make the same of a card. -/
theorem isFree_eq_claimable {d : Tables} {s : InMemoryCardRuntime} (h : SameLedger p d s)
    {bucket : String} {c : Card} (hc : c ∈ d.cards.values) :
    InMemoryCardRuntime.isFree s t p bucket c = PostgresCardRuntime.claimable d bucket t c := by
  obtain ⟨id, hget⟩ := (Dict.mem_values_iff _ _).mp hc
  have hleases : ∀ f : Lease → Bool, s.leases.values.any f = d.leases.values.any f := by
    intro f
    rw [Bool.eq_iff_iff, List.any_eq_true, List.any_eq_true]
    simp only [h.leaseValues]
  simp only [InMemoryCardRuntime.isFree, PostgresCardRuntime.claimable, (h.cardRow hget).2, hleases,
    decide_true, Bool.true_and]

omit h hlater in
/-- Memory prefers the card that the tables offer, and offers none if they do not. -/
theorem find?_prefer {d : Tables} {s : InMemoryCardRuntime} (h : SameLedger p d s)
    (bucket : String) : ∃ first, (s.prefer first).cards.values.find?
        (InMemoryCardRuntime.isFree (s.prefer first) t p bucket) =
      (engine.rows d (d.cards.values.filter (PostgresCardRuntime.claimable d bucket t))).head? := by
  cases hcard : (engine.rows d
      (d.cards.values.filter (PostgresCardRuntime.claimable d bucket t))).head? with
  | none =>
    refine ⟨⟨0⟩, List.find?_eq_none.mpr fun c hc hfree => ?_⟩
    have hmem : c ∈ d.cards.values := ((h.prefer ⟨0⟩).cardValues c).mpr hc
    rw [isFree_eq_claimable t (h.prefer ⟨0⟩) hmem] at hfree
    rw [List.head?_eq_none_iff] at hcard
    have hrow : c ∈ engine.rows d _ :=
      (Engine.mem_rows engine d _ c).mpr (List.mem_filter.mpr ⟨hmem, hfree⟩)
    rw [hcard] at hrow
    cases hrow
  | some c =>
    have hrow := List.mem_of_head? hcard
    rw [Engine.mem_rows, List.mem_filter] at hrow
    obtain ⟨id, hget⟩ := (Dict.mem_values_iff _ _).mp hrow.1
    have hid : c.id = id := (h.cardRow hget).1
    rw [h.cards, ← hid] at hget
    obtain ⟨rest, hvalues⟩ := Dict.values_toFront hget
    refine ⟨c.id, ?_⟩
    change (s.cards.toFront c.id).values.find? _ = _
    rw [hvalues]
    apply List.find?_cons_of_pos
    rw [isFree_eq_claimable t (h.prefer c.id) hrow.1]
    exact hrow.2

omit h hlater in
theorem run_newLease_memory {s : InMemoryCardRuntime} (ticks draws : Nat) (c : Card)
    (nodeId worker pipe : String) (seconds : Int) :
    (newLease c nodeId worker pipe seconds).run (w.stopped t)
        (⟨s, ticks, draws⟩ : Machine InMemoryCardRuntime) =
      match t.addSeconds seconds with
      | some e => (.ok ⟨w.uuid4 draws, c.id, nodeId, worker, pipe, t, e, none⟩,
          ⟨s, ticks + 2, draws + 1⟩)
      | none => (.error .overflow, ⟨s, ticks + 1, draws⟩) := by
  simp only [newLease, Exec.run_bind, InMemoryCardRuntime.run_expiryAfter, World.stopped_clock]
  cases t.addSeconds seconds <;> rfl

omit h hlater in
theorem chooseMatch_sole (pipe : String) (x : InMemoryCardRuntime.ClaimMatch) :
    InMemoryCardRuntime.chooseMatch pipe [x] = .ok x := by
  unfold InMemoryCardRuntime.chooseMatch
  cases hcard : x.card.isSome <;> simp [hcard]

omit h hlater in
/-- The scan of the only panel. -/
theorem run_claimTarget_alone {s : InMemoryCardRuntime} (hpanels : s.patchPanels.values = [p])
    (ticks draws : Nat) (pipe : String) : ∃ ticks',
      (InMemoryCardRuntime.claimTarget pipe).run (w.stopped t) ⟨s, ticks, draws⟩ =
        (match resolvePipeBucket p pipe .input with
          | .ok (bucket, nodeId) => .ok ⟨p, bucket, nodeId,
              s.cards.values.find? (InMemoryCardRuntime.isFree s t p bucket)⟩
          | .error (.invalidOperation _) =>
            .error (.notFound s!"input pipe '{pipe}' is not bound to a Patch Panel")
          | .error e => .error e, ⟨s, ticks', draws⟩) := by
  obtain ⟨k, hk⟩ := InMemoryCardRuntime.run_claimTarget (w := w) (t := t) (m := ⟨s, ticks, draws⟩)
    pipe
  refine ⟨k, hk.trans ?_⟩
  simp only [hpanels, InMemoryCardRuntime.offers, InMemoryCardRuntime.panelOffer]
  cases resolvePipeBucket p pipe .input with
  | error e =>
    cases e
    case invalidOperation message => rfl
    all_goals rfl
  | ok found =>
    obtain ⟨bucket, nodeId⟩ := found
    exact Prod.ext (chooseMatch_sole _ _) rfl

/-- The card of the claim on the tables is the one that memory is to prefer. -/
theorem claimCard_matches (hdraws : n.draws = m.draws) (pipe worker : String) (seconds : Int) :
    ∃ first, Matches w later p (n.store.prefer first)
      ((inside (PostgresCardRuntime.claimCard engine pipe worker seconds none)).run
        (w.stopped t) m)
      ((InMemoryCardRuntime.claimCard pipe worker seconds none).run (w.stopped t)
        ⟨n.store.prefer first, n.ticks, n.draws⟩) := by
  obtain ⟨s, ticks, draws⟩ := n
  obtain rfl : draws = m.draws := hdraws
  obtain ⟨row, hrow, hdef⟩ := h.ledger.panelRows
  have hpanel := PostgresCardRuntime.run_singlePatchPanel (w.stopped t) m
  rw [hrow] at hpanel
  simp only [hdef] at hpanel
  have htarget : ∀ first, ∃ k, _ := fun first => run_claimTarget_alone (w := w) t
    (h.ledger.prefer first).panelValues ticks m.draws pipe
  simp only [PostgresCardRuntime.claimCard, InMemoryCardRuntime.claimCard, run_keyless,
    run_keyless_memory]
  rw [Op.inside_bind, Exec.run_bind_ok hpanel, Op.run_inside_bind, Op.inside_ofExcept,
    Op.run_ofExcept]
  cases hres : resolvePipeBucket p pipe .input with
  | error e =>
    obtain ⟨k, hk⟩ := htarget ⟨0⟩
    rw [hres] at hk
    have hfails : ∃ e', (InMemoryCardRuntime.claimTarget pipe).run (w.stopped t)
        ⟨s.prefer ⟨0⟩, ticks, m.draws⟩ = (.error e', ⟨s.prefer ⟨0⟩, k, m.draws⟩) := by
      cases e <;> exact ⟨_, hk⟩
    obtain ⟨e', he'⟩ := hfails
    refine ⟨⟨0⟩, ?_⟩
    rw [Exec.run_bind_error he']
    rfl
  | ok found =>
    obtain ⟨bucket, nodeId⟩ := found
    obtain ⟨first, hfind⟩ := find?_prefer t engine h.ledger bucket
    obtain ⟨k, hk⟩ := htarget first
    rw [hres] at hk
    simp only [hfind] at hk
    refine ⟨first, ?_⟩
    rw [Exec.run_bind_ok hk]
    have hkeyed : ∀ id c, m.store.cards.get? id = some c → c.id = id :=
      fun id c hc => (h.ledger.cardRow hc).1
    have hselect := PostgresCardRuntime.run_selectClaimable (w.stopped t)
      ⟨m.store, m.ticks + 1, m.draws⟩ engine bucket t hkeyed
    simp only
    rw [Op.run_clock]
    refine (Op.run_bind_ok hselect).symm ▸ ?_
    cases (engine.rows m.store
        (m.store.cards.values.filter (PostgresCardRuntime.claimable m.store bucket t))).head? with
    | none => rfl
    | some c =>
      have hpostgres := PostgresCardRuntime.run_newLease (w.stopped t)
        ⟨m.store, m.ticks + 1, m.draws⟩ c nodeId worker pipe seconds
      have hmemory := run_newLease_memory (w := w) (s := s.prefer first) t k m.draws c nodeId worker
        pipe seconds
      simp only [World.stopped_clock, World.stopped_uuid4] at hpostgres
      simp only
      rw [Op.inside_bind]
      cases hends : t.addSeconds seconds with
      | none =>
        rw [hends] at hpostgres hmemory
        exact .both hpostgres hmemory rfl fun _ hok => by cases hok
      | some e =>
        rw [hends] at hpostgres hmemory
        have hpreferred : Paired w later p m.store m.draws (s.prefer first) :=
          ⟨h.ledger.prefer first, h.unseen⟩
        let l : Lease := ⟨w.uuid4 m.draws, c.id, nodeId, worker, pipe, t, e, none⟩
        have hlease : Paired w later p (RowWrite.apply m.store (.lease l)) (m.draws + 1)
            ((s.prefer first).putLease l) := hpreferred.lease hlater rfl
        refine .left hpostgres (.right hmemory ?_)
        rw [Op.run_bind_ok (PostgresCardRuntime.insertLease_ok engine ?_)]
        · rw [Op.run_bind_ok (PostgresCardRuntime.run_newEvent _ _ _ _ _ _),
            Op.run_bind_ok (PostgresCardRuntime.insertEvent_ok engine ?_)]
          · exact hlease.event hlater rfl rfl
          · exact hlease.unseen.events _ (Spare.own (m.draws + 1))
        · exact h.unseen.leases _ (Spare.own m.draws)

end Operations

/-! ## Expiry -/

section Expiry
variable {w : World} {later : Uuid → Prop} {p : PatchPanel} {m : Machine Tables}
  {n : Machine InMemoryCardRuntime} (t : Instant) (engine : Engine)

/-- The lease as the loop stores it. -/
def lapsed (l : Lease) : Lease := { l with releasedAt := some t }

def lapseEvidence (l : Lease) : Evidence :=
  CardEvent.evidence ⟨⟨0⟩, l.cardId, "lease_expired", some l.workerId,
    [("lease_id", .str l.id.str)], t⟩

/-- The evidence that the leases of the list leave on a card. -/
def lapses (ls : List Lease) (cardId : Uuid) : List Evidence :=
  (ls.filter fun l => l.cardId = cardId).map (lapseEvidence t)

/-- What becomes of a stored lease. -/
def lapsedIn (ls : List Lease) (l : Lease) : Lease :=
  if l.id ∈ ls.map (·.id) then lapsed t l else l

theorem lapses_cons (l : Lease) (ls : List Lease) (cardId : Uuid) : lapses t (l :: ls) cardId =
    (if l.cardId = cardId then [lapseEvidence t l] else []) ++ lapses t ls cardId := by
  by_cases h : l.cardId = cardId <;> simp [lapses, h]

/-- What the loop does to the in-memory store. -/
structure Expired (ls : List Lease) (s s' : InMemoryCardRuntime) : Prop where
  leases : ∀ id, s'.leases.get? id = (s.leases.get? id).map (lapsedIn t ls)
  events : ∀ id, s'.evidence id = s.evidence id ++ lapses t ls id
  cards : s'.cards = s.cards
  patchPanels : s'.patchPanels = s.patchPanels

/-- The stored lease is the listed one, released or not. -/
def Listed (leases : Dict Uuid Lease) (l : Lease) : Prop :=
  ∃ l', leases.get? l.id = some l' ∧ lapsed t l' = lapsed t l

variable {t} in
theorem Listed.set {leases : Dict Uuid Lease} {l x : Lease} (hl : Listed t leases l)
    (hx : Listed t leases x) : Listed t (leases.set l.id (lapsed t l)) x := by
  obtain ⟨l', hl', hsame⟩ := hl
  obtain ⟨x', hx', hsame'⟩ := hx
  by_cases hid : x.id = l.id
  · rw [hid, hl'] at hx'
    cases hx'
    exact ⟨lapsed t l, by rw [hid, Dict.get?_set_self], hsame.symm.trans hsame'⟩
  · exact ⟨x', by rw [Dict.get?_set_ne _ _ hid]; exact hx', hsame'⟩

/-- The loop over the same leases on both sides. -/
theorem expireEach_matches (hlater : ∀ a, later a → ∀ i, a ≠ w.uuid4 i)
    (h : Paired w later p m.store m.draws n.store) (ls : List Lease)
    (hlapsed : ∀ l ∈ ls, InMemoryCardRuntime.lapsedAt l t = true)
    (hlisted : ∀ l ∈ ls, Listed t n.store.leases l) :
    ∃ r m' r' n', (inside (PostgresCardRuntime.expireEach engine t ls)).run (w.stopped t) m =
        (.ok r, m') ∧
      (InMemoryCardRuntime.expireEach t ls).run (w.stopped t) n = (.ok r', n') ∧
      Paired w later p m'.store m'.draws n'.store := by
  induction ls generalizing m n with
  | nil => exact ⟨[], m, [], n, rfl, rfl, h⟩
  | cons l ls ih =>
    obtain ⟨hl, hls⟩ := List.forall_mem_cons.mp hlapsed
    obtain ⟨hown, hothers⟩ := List.forall_mem_cons.mp hlisted
    have ⟨l', hl', hsame⟩ := hown
    have hid : l'.id = l.id := (congrArg Lease.id hsame :)
    have hrow : m.store.leases.get? l'.id = some l' := by rw [h.ledger.leases, hid, hl']
    have hreleased := h.leaseChanged hrow (f := lapsed t) rfl
    rw [hid, hsame] at hreleased
    let event (id : Uuid) : CardEvent :=
      ⟨id, l.cardId, "lease_expired", some l.workerId, [("lease_id", .str l.id.str)], t⟩
    have hsame' : (event (w.uuid4 m.draws)).evidence = (event (w.uuid4 n.draws)).evidence := rfl
    have hnext := hreleased.event hlater rfl hsame'
    obtain ⟨r, m', r', n', hrows, hstore, hpaired⟩ :=
      ih (m := ⟨_, m.ticks + 1, m.draws + 1⟩) (n := ⟨_, n.ticks + 1, n.draws + 1⟩) hnext hls
        fun x hx => hown.set (hothers x hx)
    refine ⟨lapsed t l :: r, m', lapsed t l :: r', n', ?_, ?_, hpaired⟩
    · simp only [PostgresCardRuntime.expireEach]
      rw [Op.run_bind_ok (PostgresCardRuntime.run_updateLease _ _ ?_)]
      · rw [Op.run_bind_ok (PostgresCardRuntime.run_newEvent _ _ _ _ _ _),
          Op.run_bind_ok (PostgresCardRuntime.insertEvent_ok engine ?_)]
        · exact Op.run_bind_ok hrows
        · exact hreleased.unseen.events _ (Spare.own m.draws)
      · exact Dict.contains_of_get? (hid ▸ hrow)
    · simp only [InMemoryCardRuntime.lapsedAt, Bool.and_eq_true, decide_eq_true_eq] at hl
      simp only [InMemoryCardRuntime.expireEach, if_pos hl]
      exact Exec.run_bind_ok hstore

/-- The loop on the in-memory store alone; leases that have not lapsed are passed over. -/
theorem expireEach_expired (ls : List Lease) {s : InMemoryCardRuntime}
    (hkeyed : ∀ id l, s.leases.get? id = some l → l.id = id)
    (hlisted : ∀ l ∈ ls, Listed t s.leases l) (ticks draws : Nat) :
    ∃ r n', (InMemoryCardRuntime.expireEach t ls).run (w.stopped t) ⟨s, ticks, draws⟩ =
        (.ok r, n') ∧
      Expired t (ls.filter fun l => InMemoryCardRuntime.lapsedAt l t) s n'.store := by
  induction ls generalizing s ticks draws with
  | nil =>
    refine ⟨[], _, rfl, fun id => ?_, fun id => ?_, rfl, rfl⟩
    · cases s.leases.get? id <;> rfl
    · exact (List.append_nil _).symm
  | cons l ls ih =>
    obtain ⟨⟨l', hl', hsame⟩, hothers⟩ := List.forall_mem_cons.mp hlisted
    cases hl : InMemoryCardRuntime.lapsedAt l t with
    | false =>
      obtain ⟨r, n', hrun, hexpired⟩ := ih hkeyed hothers ticks draws
      refine ⟨r, n', ?_, ?_⟩
      · rw [InMemoryCardRuntime.expireEach, if_neg]
        · exact hrun
        · simpa [InMemoryCardRuntime.lapsedAt] using hl
      · have hpassed : (l :: ls).filter (fun l => InMemoryCardRuntime.lapsedAt l t) =
            ls.filter fun l => InMemoryCardRuntime.lapsedAt l t :=
          List.filter_cons_of_neg (by rw [hl]; exact Bool.false_ne_true)
        rw [hpassed]
        exact hexpired
    | true =>
      have hreleased : (l :: ls).filter (fun l => InMemoryCardRuntime.lapsedAt l t) =
          l :: ls.filter fun l => InMemoryCardRuntime.lapsedAt l t := List.filter_cons_of_pos hl
      rw [hreleased]
      let event : CardEvent := ⟨w.uuid4 draws, l.cardId, "lease_expired", some l.workerId,
        [("lease_id", .str l.id.str)], t⟩
      let s₁ : InMemoryCardRuntime := (s.putLease (lapsed t l)).putEvent event
      have hkeyed₁ : ∀ id x, s₁.leases.get? id = some x → x.id = id :=
        Dict.forall_values_set hkeyed rfl
      obtain ⟨r, n', hrun, hexpired⟩ := ih (s := s₁) hkeyed₁
        (fun x hx => (Listed.set ⟨l', hl', hsame⟩ (hothers x hx))) (ticks + 1) (draws + 1)
      refine ⟨lapsed t l :: r, n', ?_, fun id => ?_, fun id => ?_, hexpired.cards,
        hexpired.patchPanels⟩
      · rw [InMemoryCardRuntime.expireEach, if_pos]
        · exact Exec.run_bind_ok hrun
        · simpa [InMemoryCardRuntime.lapsedAt] using hl
      · rw [hexpired.leases id]
        change Option.map _ ((s.leases.set l.id (lapsed t l)).get? id) = _
        by_cases hid : id = l.id
        · rw [hid, Dict.get?_set_self, hl']
          have hid' : l'.id = l.id := (congrArg Lease.id hsame :)
          simp only [Option.map_some, lapsedIn, List.map_cons, hid', List.mem_cons, true_or, if_true]
          rw [hsame]
          split <;> rfl
        · rw [Dict.get?_set_ne _ _ hid]
          cases hx : s.leases.get? id with
          | none => rfl
          | some x =>
            have hne : x.id ≠ l.id := by
              rw [hkeyed id x hx]
              exact hid
            simp only [Option.map_some, lapsedIn, List.map_cons, List.mem_cons, hne, false_or]
      · rw [hexpired.events id, lapses_cons]
        change (InMemoryCardRuntime.evidence ((s.putLease (lapsed t l)).putEvent event) id) ++ _ = _
        rw [evidence_putEvent]
        by_cases hid : l.cardId = id
        · rw [if_pos hid, if_pos hid, List.append_assoc]
          rfl
        · rw [if_neg hid, if_neg hid]
          rfl

/-- The order of the loop does not matter to the ledger. -/
theorem SameLedger.expired_perm {d : Tables} {s s₁ s₂ : InMemoryCardRuntime} {ls₁ ls₂ : List Lease}
    (h : SameLedger p d s₁) (h₁ : Expired t ls₁ s s₁) (h₂ : Expired t ls₂ s s₂)
    (hperm : ls₁.Perm ls₂) : SameLedger p d s₂ := by
  have hcards : s₂.cards = s₁.cards := h₂.cards.trans h₁.cards.symm
  have hleases : ∀ id, s₂.leases.get? id = s₁.leases.get? id := by
    intro id
    rw [h₁.leases, h₂.leases]
    congr 1
    funext l
    have hmem : l.id ∈ ls₁.map (·.id) ↔ l.id ∈ ls₂.map (·.id) := (hperm.map _).mem_iff
    simp only [lapsedIn, hmem]
  constructor
  · constructor
    · intro id
      rw [hcards]
      exact h.cards id
    · intro id
      rw [hleases]
      exact h.leases id
    · intro id
      obtain ⟨moves, hmoves, hevents⟩ := h.events id
      refine ⟨moves, hmoves, hevents.trans (List.Perm.append_right _ ?_)⟩
      rw [h₁.events, h₂.events]
      exact ((hperm.filter _).map _).append_left _
  · exact h.panelRow
  · exact h.versionRow
  · rw [h₂.patchPanels, ← h₁.patchPanels]
    exact h.panel
  · intro id c hc
    rw [hcards] at hc
    exact h.cardKeys id c hc
  · intro id l hl
    rw [hleases] at hl
    exact h.leaseKeys id l hl

/-- Both loops release the leases that have lapsed, each in its own order. -/
theorem expireLeases_matches (hlater : ∀ a, later a → ∀ i, a ≠ w.uuid4 i)
    (h : Paired w later p m.store m.draws n.store) : Matches w later p n.store
      ((inside (PostgresCardRuntime.expireLeases engine t)).run (w.stopped t) m)
      (InMemoryCardRuntime.expireLeases.run (w.stopped t) n) := by
  obtain ⟨s, ticks, draws⟩ := n
  have hkeyed : ∀ id l, s.leases.get? id = some l → l.id = id := h.ledger.leaseKeys
  let rows := engine.rows m.store (m.store.leases.values.filter (PostgresCardRuntime.lapsed t))
  have hstored : ∀ l ∈ s.leases.values, Listed t s.leases l := by
    intro l hl
    obtain ⟨id, hget⟩ := (Dict.mem_values_iff _ _).mp hl
    rw [← hkeyed id l hget] at hget
    exact ⟨l, hget, rfl⟩
  have hmem : ∀ l, l ∈ rows ↔ l ∈ s.leases.values ∧ InMemoryCardRuntime.lapsedAt l t = true := by
    intro l
    rw [Engine.mem_rows, List.mem_filter, h.ledger.leaseValues]
    rfl
  have hlapsed : ∀ l ∈ rows, InMemoryCardRuntime.lapsedAt l t = true := fun l hl => ((hmem l).mp hl).2
  have hlisted : ∀ l ∈ rows, Listed t s.leases l := fun l hl => hstored l ((hmem l).mp hl).1
  obtain ⟨r, m', r', n', hrows, hstore, hpaired⟩ := expireEach_matches (n := ⟨s, ticks + 1, draws⟩) t
    engine hlater h rows hlapsed hlisted
  obtain ⟨r₁, n₁, hrun₁, hexpired₁⟩ := expireEach_expired (w := w) t rows hkeyed hlisted (ticks + 1)
    draws
  cases hstore.symm.trans hrun₁
  obtain ⟨r₂, n₂, hrun₂, hexpired₂⟩ := expireEach_expired (w := w) t s.leases.values hkeyed hstored
    (ticks + 1) draws
  have hself : rows.filter (fun l => InMemoryCardRuntime.lapsedAt l t) = rows :=
    List.filter_eq_self.mpr hlapsed
  have hperm : rows.Perm (s.leases.values.filter fun l => InMemoryCardRuntime.lapsedAt l t) := by
    have hnodup : s.leases.values.Nodup := Dict.values_nodup_of_keyed hkeyed
    have hrows : m.store.leases.values.Nodup :=
      Dict.values_nodup_of_keyed fun id l hl => hkeyed id l ((h.ledger.leases id).symm.trans hl)
    refine (List.perm_ext_iff_of_nodup ?_ (hnodup.filter _)).mpr fun l => ?_
    · exact (engine.rows_perm m.store _).nodup_iff.mpr (hrows.filter _)
    · rw [hmem, List.mem_filter]
  rw [hself] at hexpired₁
  have hpostgres : (inside (PostgresCardRuntime.expireLeases engine t)).run (w.stopped t) m =
      (.ok r, m') := by
    unfold PostgresCardRuntime.expireLeases
    rw [Op.run_query]
    exact hrows
  have hmemory : InMemoryCardRuntime.expireLeases.run (w.stopped t) ⟨s, ticks, draws⟩ =
      (.ok r₂, n₂) := hrun₂
  rw [hpostgres, hmemory]
  exact ⟨hpaired.ledger.expired_perm t hexpired₁ hexpired₂ hperm, hpaired.unseen⟩

end Expiry

end GhostMesh
