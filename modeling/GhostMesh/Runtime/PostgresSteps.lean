import GhostMesh.Runtime.Postgres

/-!
# Transactions with one client

With nobody else on the database a transaction is an operation on the tables: `inside`
is that operation without its commit, and commutes with sequencing, so that the rules
for operations apply to it. An exception then undoes the writes.
-/

set_option autoImplicit false

namespace GhostMesh

open ReadCommitted (Txn)

namespace Op

section Inside
variable {α β : Type}

/-- The statements of a transaction, one after the other. -/
def inside (x : Tx α) : Op Tables α :=
  ⟨fun w m => match x.aloneOn w.supply m.store m.ticks m.draws with
    | (r, d, ticks, draws) => (r, ⟨d, ticks, draws⟩)⟩

theorem atomically_run (x : Tx α) (w : World) (m : Machine Tables) :
    (atomically x).run w m = match (inside x).run w m with
      | (.ok a, m') => (.ok a, m')
      | (.error e, m') => (.error e, { m' with store := m.store }) := by
  simp only [atomically, inside, Txn.alone]
  rcases x.aloneOn w.supply m.store m.ticks m.draws with ⟨r, d, ticks, draws⟩
  cases r <;> rfl

/-- A call keeps what the writes of its transaction keep. -/
theorem atomically_keeps {W : RowWrite → Prop} {I : Tables → Prop} {x : Tx α} (hx : x.Writes W)
    (hkeep : ∀ y d, W y → I d → I (y.apply d)) {w : World} {m : Machine Tables} (hm : I m.store) :
    I ((atomically x).run w m).2.store := by
  have hkept := hx.aloneOn_keeps hkeep w.supply hm m.ticks m.draws
  simp only [atomically, Txn.alone]
  rcases halone : x.aloneOn w.supply m.store m.ticks m.draws with ⟨r, d, ticks, draws⟩
  rw [halone] at hkept
  cases r with
  | error e => exact hm
  | ok a => exact hkept

/-- A call draws its identifiers from those to come, and reads later clocks. -/
theorem atomically_later (x : Tx α) (w : World) (m : Machine Tables) :
    m.ticks ≤ ((atomically x).run w m).2.ticks ∧ m.draws ≤ ((atomically x).run w m).2.draws := by
  have hlater := x.aloneOn_later w.supply m.store m.ticks m.draws
  simp only [atomically, Txn.alone]
  rcases halone : x.aloneOn w.supply m.store m.ticks m.draws with ⟨r, d, ticks, draws⟩
  rw [halone] at hlater
  cases r <;> exact hlater

theorem inside_bind (x : Tx α) (f : α → Tx β) :
    inside (x >>= f) = inside x >>= fun a => inside (f a) := by
  apply congrArg Exec.mk
  funext w m
  have hbind := Txn.aloneOn_bind w.supply x f m.store m.ticks m.draws
  change (match (x.bind f).aloneOn w.supply m.store m.ticks m.draws with
    | (r, d, ticks, draws) => (r, (⟨d, ticks, draws⟩ : Machine Tables))) = _
  rw [hbind]
  rcases hx : x.aloneOn w.supply m.store m.ticks m.draws with ⟨r, d, ticks, draws⟩
  cases r with
  | error e => simp only [inside, hx]
  | ok a => simp only [inside, hx]

@[simp] theorem inside_ret (a : α) : inside (Txn.ret a) = pure a := rfl

@[simp] theorem inside_pure (a : α) : inside (pure a) = pure a := rfl

@[simp] theorem inside_raise (e : PyErr) : inside (Txn.raise e : Tx α) = Op.raise e := rfl

@[simp] theorem inside_now : inside (Txn.now (S := postgres)) = Op.now := rfl

@[simp] theorem inside_fresh : inside (Txn.fresh (S := postgres)) = Op.uuid4 := rfl

@[simp] theorem inside_query (q : RowQuery) :
    inside (Txn.query (S := postgres) q) = Op.get := rfl

@[simp] theorem inside_lockRow (l : RowLock) :
    inside (Txn.lockRow (S := postgres) l) = Op.get := rfl

@[simp] theorem inside_put (x : RowWrite) :
    inside (Txn.put (S := postgres) x) = Op.modify x.apply := rfl

@[simp] theorem inside_ofExcept (x : Except PyErr α) :
    inside (Txn.ofExcept (S := postgres) x) = Op.ofExcept x := by
  cases x <;> rfl

@[simp] theorem inside_ensure (c : Bool) (e : PyErr) :
    inside (Txn.ensure (S := postgres) c e) = Op.ensure c e := by
  cases c <;> rfl

/-! The same rules for a statement in front of the rest of its transaction. -/

section Statements
variable (w : World) (m : Machine Tables)

theorem run_query (q : RowQuery) (f : Tables → Tx β) :
    (inside (Txn.query (S := postgres) q >>= f)).run w m = (inside (f m.store)).run w m := rfl

theorem run_lockRow (l : RowLock) (f : Tables → Tx β) :
    (inside (Txn.lockRow (S := postgres) l >>= f)).run w m = (inside (f m.store)).run w m := rfl

theorem run_clock (f : Instant → Tx β) :
    (inside (Txn.now (S := postgres) >>= f)).run w m =
      (inside (f (w.clock m.ticks))).run w { m with ticks := m.ticks + 1 } := rfl

theorem run_ident (f : Uuid → Tx β) :
    (inside (Txn.fresh (S := postgres) >>= f)).run w m =
      (inside (f (w.uuid4 m.draws))).run w { m with draws := m.draws + 1 } := rfl

theorem run_inside_bind (x : Tx α) (f : α → Tx β) :
    (inside (x >>= f)).run w m = match (inside x).run w m with
      | (.ok a, m') => (inside (f a)).run w m'
      | (.error e, m') => (.error e, m') := by
  rw [inside_bind, Exec.run_bind]
  rcases (inside x).run w m with ⟨r, m'⟩
  cases r <;> rfl

variable {w m}

theorem run_bind_ok {x : Tx α} {f : α → Tx β} {m' : Machine Tables} {a : α}
    (h : (inside x).run w m = (.ok a, m')) :
    (inside (x >>= f)).run w m = (inside (f a)).run w m' := by
  rw [run_inside_bind, h]

theorem run_bind_error {x : Tx α} {f : α → Tx β} {m' : Machine Tables} {e : PyErr}
    (h : (inside x).run w m = (.error e, m')) :
    (inside (x >>= f)).run w m = (.error e, m') := by
  rw [run_inside_bind, h]

end Statements

/-- Alone, an insertion fails only on a row that is there. -/
theorem run_insert (l : RowLock) (taken : Tables → Bool) (x : RowWrite) (e : PyErr) (w : World)
    (m : Machine Tables) : (inside (Txn.insert (S := postgres) l taken x e)).run w m =
      if taken m.store then (.error e, m) else (.ok (), { m with store := x.apply m.store }) := by
  unfold Txn.insert
  rw [run_lockRow]
  cases taken m.store <;> rfl

end Inside

end Op

namespace PostgresCardRuntime

open Op (inside)

/-! ## The helpers -/

section Helpers
variable (w : World) (m : Machine Tables)

theorem run_getCard (id : Uuid) : (inside (getCard id)).run w m =
    (match m.store.cards.get? id with
      | some c => .ok c
      | none => .error (.notFound s!"card '{id.str}' does not exist"), m) := by
  unfold getCard
  rw [Op.run_query]
  cases m.store.cards.get? id <;> rfl

theorem run_getEvent (id : Uuid) : (inside (getEvent id)).run w m =
    (match m.store.cardEvents.get? id with
      | some e => .ok e
      | none => .error (.notFound s!"event '{id.str}' does not exist"), m) := by
  unfold getEvent
  rw [Op.run_query]
  cases m.store.cardEvents.get? id <;> rfl

theorem run_getLease (id : Uuid) : (inside (getLease id)).run w m =
    (match m.store.leases.get? id with
      | some l => .ok l
      | none => .error (.notFound s!"lease '{id.str}' does not exist"), m) := by
  unfold getLease
  rw [Op.run_query]
  cases m.store.leases.get? id <;> rfl

theorem run_getArtifacts (ids : List Uuid) : (inside (getArtifacts ids)).run w m =
    (artifactsOf m.store ids, m) := by
  unfold getArtifacts
  split
  · rename_i hids
    rw [hids]
    rfl
  · rw [Op.run_query, Op.inside_ofExcept, Op.run_ofExcept]

/-- What the key table answers for a key. -/
def recorded (d : Tables) (key : Option String) : Option ResponseRef :=
  (truthyStr key).bind fun k => (d.idempotencyRecords.get? k).map (·.responseRef)

theorem run_getIdempotency (key : Option String) : (inside (getIdempotency key)).run w m =
    (.ok (recorded m.store key), m) := by
  unfold getIdempotency recorded
  cases truthyStr key <;> rfl

theorem run_idempotent {α : Type} (key : Option String) (replay : ResponseRef → Tx α)
    (body : Tx α) : (inside (idempotent key replay body)).run w m =
      match recorded m.store key with
      | some ref => (inside (replay ref)).run w m
      | none => (inside body).run w m := by
  unfold idempotent
  rw [Op.run_bind_ok (run_getIdempotency w m key)]
  cases recorded m.store key <;> rfl

theorem run_newEvent (cardId : Uuid) (type : String) (actor : Option String) (payload : JsonObj) :
    (inside (newEvent cardId type actor payload)).run w m =
      (.ok ⟨w.uuid4 m.draws, cardId, type, actor, payload, w.clock m.ticks⟩,
        ⟨m.store, m.ticks + 1, m.draws + 1⟩) := rfl

theorem run_singlePatchPanel : (inside singlePatchPanel).run w m =
    (match m.store.patchPanels.values with
      | [] => .error (.notFound "no Patch Panels are registered")
      | [row] => .ok row.definition
      | _ => .error (.conflict
          "operation requires an explicit Patch Panel when multiple are registered"), m) := by
  unfold singlePatchPanel
  rw [Op.run_query]
  rcases m.store.patchPanels.values with _ | ⟨row, _ | ⟨row', rows⟩⟩ <;> rfl

section Insertions
variable {w m} (engine : Engine)

theorem insertCard_ok {c : Card} (h : m.store.cards.contains c.id = false) :
    (inside (insertCard engine c)).run w m =
      (.ok (), { m with store := RowWrite.apply m.store (.card c) }) := by
  rw [insertCard, Op.run_insert, h]
  rfl

theorem insertLocation_ok {row : CardLocation} (h : m.store.cardLocations.contains row.id = false) :
    (inside (insertLocation engine row)).run w m =
      (.ok (), { m with store := RowWrite.apply m.store (.cardLocation row) }) := by
  rw [insertLocation, Op.run_insert, h]
  rfl

theorem insertLease_ok {l : Lease} (h : m.store.leases.contains l.id = false) :
    (inside (insertLease engine l)).run w m =
      (.ok (), { m with store := RowWrite.apply m.store (.lease l) }) := by
  rw [insertLease, Op.run_insert, h]
  rfl

theorem insertEvent_ok {e : CardEvent} (h : m.store.cardEvents.contains e.id = false) :
    (inside (insertEvent engine e)).run w m =
      (.ok (), { m with store := RowWrite.apply m.store (.cardEvent e) }) := by
  rw [insertEvent, Op.run_insert, h]
  rfl

end Insertions

/-- Among rows that lie under their keys and satisfy the condition, the first is locked. -/
theorem run_firstLocked (row : Tables → Uuid → Option Card) (cs : List Card)
    (hcs : ∀ c ∈ cs, row m.store c.id = some c) :
    (inside (Txn.firstLocked (S := postgres) RowLock.card row (cs.map (·.id)))).run w m =
      (.ok cs.head?, m) := by
  cases cs with
  | nil => rfl
  | cons c cs =>
    rw [List.map_cons, Txn.firstLocked, Op.run_lockRow, hcs c List.mem_cons_self]
    rfl

theorem run_selectClaimable (engine : Engine) (bucket : String) (now : Instant)
    (hkeyed : ∀ id c, m.store.cards.get? id = some c → c.id = id) :
    (inside (selectClaimable engine bucket now)).run w m =
      (.ok (engine.rows m.store
        (m.store.cards.values.filter (claimable m.store bucket now))).head?, m) := by
  unfold selectClaimable Txn.lockFirst
  rw [Op.run_query, run_firstLocked]
  intro c hc
  rw [Engine.mem_rows, List.mem_filter] at hc
  simp only [Dict.get?_of_keyed hkeyed hc.1, Option.filter_some, hc.2, if_true]

theorem run_newLease (card : Card) (nodeId workerId inputPipe : String) (seconds : Int) :
    (inside (newLease card nodeId workerId inputPipe seconds)).run w m =
      match (w.clock m.ticks).addSeconds seconds with
      | some e => (.ok ⟨w.uuid4 m.draws, card.id, nodeId, workerId, inputPipe,
          w.clock (m.ticks + 1), e, none⟩, ⟨m.store, m.ticks + 2, m.draws + 1⟩)
      | none => (.error .overflow, { m with ticks := m.ticks + 1 }) := by
  unfold newLease expiryAfter
  rw [Op.run_inside_bind, Op.run_clock]
  cases (w.clock m.ticks).addSeconds seconds <;> rfl

/-- The row of a key that is not in the table yet. -/
def keyed (d : Tables) (key : Option String) (operation : String) (ref : ResponseRef)
    (createdAt : Instant) : Tables :=
  match truthyStr key with
  | none => d
  | some k => RowWrite.apply d (.idempotencyRecord k ⟨operation, ref, createdAt⟩)

theorem run_storeIdempotency {key : Option String} (operation : String) (ref : ResponseRef)
    (hkey : recorded m.store key = none) :
    (inside (storeIdempotency key operation ref)).run w m =
      (.ok (), ⟨keyed m.store key operation ref (w.clock m.ticks),
        m.ticks + (if (truthyStr key).isSome then 1 else 0), m.draws⟩) := by
  unfold storeIdempotency keyed
  unfold recorded at hkey
  cases htruthy : truthyStr key with
  | none => rfl
  | some k =>
    rw [htruthy, Option.bind_some, Option.map_eq_none_iff] at hkey
    rw [Op.run_clock, Op.run_insert, if_neg]
    · rfl
    · simp [Dict.contains, hkey]

end Helpers

/-! ## Card creation -/

/-- The identifiers from the `n`-th on are in none of the tables that draw them. -/
def Unused (w : World) (n : Nat) (d : Tables) : Prop :=
  ∀ i, n ≤ i → d.cards.contains (w.uuid4 i) = false ∧
    d.cardLocations.contains (w.uuid4 i) = false ∧ d.cardEvents.contains (w.uuid4 i) = false

section Creation
variable (engine : Engine) {w : World} {m : Machine Tables}

theorem run_getActivePatchPanel (id : String) : (inside (getActivePatchPanel engine id)).run w m =
    (match engine.rows m.store (activeDefinitions m.store id) with
      | p :: _ => .ok p
      | [] => .error (.notFound s!"Patch Panel '{id}' is not registered"), m) := by
  unfold getActivePatchPanel
  rw [Op.run_query]
  cases engine.rows m.store (activeDefinitions m.store id) <;> rfl

/-- A creation under an unused key returns the card of the first active definition. -/
theorem createCard_returns {panel : String} {payload : JsonObj} {metadata : Option JsonObj}
    {key : Option String} {p : PatchPanel} {ps : List PatchPanel} {bucket : String}
    (hkey : recorded m.store key = none) (hunused : Unused w m.draws m.store)
    (hpanel : engine.rows m.store (activeDefinitions m.store panel) = p :: ps)
    (hbucket : resolveInitialBucket p = .ok bucket) :
    (((runtime engine).createCard panel payload metadata key).run w m).1 =
      .ok ⟨w.uuid4 m.draws, p.workflowVersion, bucket, payload, metadata.getD [],
        w.clock m.ticks⟩ := by
  change ((Op.atomically (createCard engine panel payload metadata key)).run _ _).1 = _
  rw [Op.atomically_run, createCard, run_idempotent, hkey]
  simp only
  rw [Op.run_inside_bind, run_getActivePatchPanel, hpanel]
  simp only
  rw [Op.run_inside_bind, Op.inside_ofExcept, Op.run_ofExcept, hbucket]
  simp only
  rw [Op.run_ident, Op.run_clock, Op.run_inside_bind, insertCard_ok engine]
  swap
  · exact (hunused m.draws (Nat.le_refl _)).1
  simp only
  rw [Op.run_ident, Op.run_inside_bind, insertLocation_ok engine]
  swap
  · exact (hunused (m.draws + 1) (Nat.le_add_right _ 1)).2.1
  simp only
  rw [Op.run_bind_ok (run_newEvent _ _ _ _ _ _), Op.run_inside_bind, insertEvent_ok engine]
  swap
  · exact (hunused (m.draws + 2) (Nat.le_add_right _ 2)).2.2
  simp only
  rw [Op.run_inside_bind, run_storeIdempotency]
  swap
  · exact hkey
  rfl

theorem createCard_raises {panel : String} {payload : JsonObj} {metadata : Option JsonObj}
    {key : Option String} {p : PatchPanel} {ps : List PatchPanel} {e : PyErr}
    (hkey : recorded m.store key = none)
    (hpanel : engine.rows m.store (activeDefinitions m.store panel) = p :: ps)
    (hbucket : resolveInitialBucket p = .error e) :
    (((runtime engine).createCard panel payload metadata key).run w m).1 = .error e := by
  change ((Op.atomically (createCard engine panel payload metadata key)).run _ _).1 = _
  rw [Op.atomically_run, createCard, run_idempotent, hkey]
  simp only
  rw [Op.run_inside_bind, run_getActivePatchPanel, hpanel]
  simp only
  rw [Op.run_inside_bind, Op.inside_ofExcept, Op.run_ofExcept, hbucket]

end Creation

/-! ## Registration -/

section Registration
variable (engine : Engine) {w : World} {m m' : Machine Tables}

theorem registerBuckets_cases {version : String} {now : Instant} {bs : List BucketDefinition}
    {r : Except PyErr Unit}
    (h : (inside (registerBuckets engine version now bs)).run w m = (r, m')) :
    ∃ buckets, m' = { m with store := { m.store with buckets } } := by
  unfold registerBuckets at h
  induction bs generalizing m with
  | nil =>
    cases h
    exact ⟨_, rfl⟩
  | cons b bs ih =>
    rw [Txn.forEach, Op.inside_bind] at h
    unfold insertBucket at h
    rcases Exec.bind_cases h with ⟨e, h, -⟩ | ⟨_, m1, h1, h⟩
    · rw [Op.run_insert] at h
      split at h
      · cases h
        exact ⟨_, rfl⟩
      · cases h
    · rw [Op.run_insert] at h1
      split at h1
      · cases h1
      · cases h1
        obtain ⟨buckets, rfl⟩ := ih h
        exact ⟨buckets, rfl⟩

/-- What a registration that returns has done: each of its rows is the one that was
there before, if there was one. -/
structure Registers (d d' : Tables) (p : PatchPanel) (now : Instant) : Prop where
  patchPanels : d'.patchPanels = if d.patchPanels.contains (p.id, p.version) then d.patchPanels
    else d.patchPanels.set (p.id, p.version) ⟨p, now⟩
  workflowVersions : d'.workflowVersions =
    if d.workflowVersions.contains p.workflowVersion then d.workflowVersions
    else d.workflowVersions.set p.workflowVersion ⟨p.id, p.version, true, now⟩
  rest : d' = { d with
    patchPanels := d'.patchPanels
    workflowVersions := d'.workflowVersions
    buckets := d'.buckets }

/-- The statements after the definition is in its table. -/
theorem registerVersion_cases {p q : PatchPanel} {now : Instant} {d : Tables}
    (hpanels : m.store.patchPanels = if d.patchPanels.contains (p.id, p.version)
      then d.patchPanels else d.patchPanels.set (p.id, p.version) ⟨p, now⟩)
    (hrest : m.store = { d with patchPanels := m.store.patchPanels })
    (h : (inside do
      let d ← Txn.query (S := postgres) (.workflowVersion p.workflowVersion)
      if d.workflowVersions.contains p.workflowVersion then Txn.ret () else do
        insertWorkflowVersion engine p.workflowVersion ⟨p.id, p.version, true, now⟩
        registerBuckets engine p.workflowVersion now p.buckets
      return p).run w m = (.ok q, m')) :
    q = p ∧ Registers d m'.store p now := by
  have hversions : m.store.workflowVersions = d.workflowVersions := by rw [hrest]
  rw [Op.run_query, hversions] at h
  dsimp only at h
  split at h
  · rename_i hcontains
    cases h
    refine ⟨rfl, hpanels, ?_, ?_⟩
    · rw [hversions, if_pos hcontains]
    · rw [hrest]
  · rename_i hcontains
    unfold insertWorkflowVersion at h
    rw [Op.inside_bind] at h
    obtain ⟨_, m1, h1, h⟩ := Exec.bind_ok h
    rw [Op.run_insert, hversions, if_neg hcontains] at h1
    cases h1
    rw [Op.inside_bind] at h
    obtain ⟨_, m2, h2, h⟩ := Exec.bind_ok h
    obtain ⟨buckets, rfl⟩ := registerBuckets_cases engine h2
    cases h
    refine ⟨rfl, hpanels, ?_, ?_⟩
    · rw [if_neg hcontains]
      simp only [RowWrite.apply, hversions]
    · simp only [RowWrite.apply]
      rw [hrest]

theorem registerPatchPanel_cases {p q : PatchPanel} {now : Instant}
    (h : (inside (registerPatchPanel engine p now)).run w m = (.ok q, m')) :
    q = p ∧ Registers m.store m'.store p now := by
  unfold registerPatchPanel at h
  rw [Op.run_query] at h
  dsimp only at h
  split at h
  · rename_i hcontains
    exact registerVersion_cases engine (by rw [if_pos hcontains]) rfl h
  · rename_i hcontains
    unfold insertPatchPanel at h
    rw [Op.inside_bind] at h
    obtain ⟨_, m1, h1, h⟩ := Exec.bind_ok h
    rw [Op.run_insert, if_neg hcontains] at h1
    cases h1
    refine registerVersion_cases (d := m.store) engine ?_ ?_ h
    · rw [if_neg hcontains]
      rfl
    · rfl

/-- A panel whose two rows are there is registered without a write. -/
theorem run_registerPatchPanel_stored {p : PatchPanel}
    (hpanel : m.store.patchPanels.contains (p.id, p.version) = true)
    (hversion : m.store.workflowVersions.contains p.workflowVersion = true) :
    ((runtime engine).registerPatchPanel p).run w m =
      match PatchPanelValidator.validate w p with
      | .ok _ => (.ok p, { m with ticks := m.ticks + 1 })
      | .error e => (.error e, m) := by
  simp only [runtime, Exec.run_bind, Op.run_world, Op.run_ofExcept]
  cases PatchPanelValidator.validate w p with
  | error e => rfl
  | ok report =>
    have hrun : (inside (registerPatchPanel engine p (w.clock m.ticks))).run w
        { m with ticks := m.ticks + 1 } = (.ok p, { m with ticks := m.ticks + 1 }) := by
      unfold registerPatchPanel
      rw [Op.run_query, if_pos hpanel, Op.run_bind_ok (x := Txn.ret ()) rfl]
      dsimp only
      rw [Op.run_query, if_pos hversion]
      rfl
    simp only [Op.run_now, Op.atomically_run, hrun]

/-- The call: it either raises and leaves the tables, or has registered the panel. -/
theorem runtime_registerPatchPanel_cases {p : PatchPanel} {r : Except PyErr PatchPanel}
    (h : ((runtime engine).registerPatchPanel p).run w m = (r, m')) :
    ((∃ e, r = .error e) ∧ m'.store = m.store) ∨
      r = .ok p ∧ PatchPanelValidator.accepts w p = true ∧
        Registers m.store m'.store p (w.clock m.ticks) := by
  simp only [runtime, Exec.run_bind, Op.run_world, Op.run_ofExcept] at h
  cases hvalid : PatchPanelValidator.validate w p with
  | error e =>
    rw [hvalid] at h
    cases h
    exact .inl ⟨⟨e, rfl⟩, rfl⟩
  | ok report =>
    simp only [hvalid, Op.run_now, Op.atomically_run] at h
    rcases hrun : (inside (registerPatchPanel engine p (w.clock m.ticks))).run w
      { m with ticks := m.ticks + 1 } with ⟨r', m1⟩
    rw [hrun] at h
    cases r' with
    | error e =>
      cases h
      exact .inl ⟨⟨e, rfl⟩, rfl⟩
    | ok q =>
      obtain ⟨hq, hregisters⟩ := registerPatchPanel_cases engine hrun
      cases h
      exact .inr ⟨by rw [hq], PatchPanelValidator.accepts_iff.mpr ⟨report, hvalid⟩, hregisters⟩

end Registration

end PostgresCardRuntime

end GhostMesh
