import GhostMesh.Boundaries
import GhostMesh.Nodes.ValidationEvidence
import GhostMesh.Runtime.PipeRouting

/-!
# The bucket of an injected card

A source node is named by its id, but the bucket of the new card is chosen from the panel
alone: it is the one of the first source node that the panel lists. This holds of
any runtime that creates cards by `resolve_initial_bucket`, which both runtimes do.
-/

set_option autoImplicit false

namespace GhostMesh

open Op (inside)
open ReadCommitted (Txn)
open PatchPanelValidator (accepts)

/-- The first source node of the panel has its first output pipe bound to the bucket. -/
def FirstSourceInto (p : PatchPanel) (bucket : String) : Prop :=
  ∃ before first after, p.nodes = before ++ first :: after ∧ (∀ n ∈ before, n.type ≠ .source) ∧
    first.type = .source ∧ ∃ pipe rest binding, first.outputPipes = pipe :: rest ∧
      p.pipeBindings.get? pipe = some binding ∧ binding.bucket = bucket

theorem resolveInitialBucket_iff {p : PatchPanel} {bucket : String} :
    resolveInitialBucket p = .ok bucket ↔ FirstSourceInto p bucket := by
  unfold resolveInitialBucket
  constructor
  · intro h
    cases hfind : p.nodes.find? (fun n => n.type = .source) with
    | none =>
      rw [hfind] at h
      cases h
    | some first =>
      rw [hfind] at h
      obtain ⟨htype, before, after, hnodes, hbefore⟩ := List.find?_eq_some_iff_append.mp hfind
      cases hpipes : first.outputPipes with
      | nil =>
        simp only [hpipes] at h
        cases h
      | cons pipe rest =>
        simp only [hpipes] at h
        cases hget : p.pipeBindings.get? pipe with
        | none =>
          simp only [hget] at h
          cases h
        | some binding =>
          simp only [hget] at h
          refine ⟨before, first, after, hnodes, ?_, by simpa using htype, pipe, rest, binding,
            hpipes, hget, Except.ok.inj h⟩
          intro n hn
          simpa using hbefore n hn
  · rintro ⟨before, first, after, hnodes, hbefore, htype, pipe, rest, binding, hpipes, hget, rfl⟩
    have hfind : p.nodes.find? (fun n => n.type = .source) = some first := by
      refine List.find?_eq_some_iff_append.mpr ⟨by simpa using htype, before, after, hnodes, ?_⟩
      intro n hn
      simpa using hbefore n hn
    simp only [hfind, hpipes, hget]

/-! ## Runtimes that create cards -/

/-- The cards are as before, but for one in the initial bucket of the current panel. -/
def Injects {σ : Type} (cards : σ → Dict Uuid Card) (current : σ → String → Option PatchPanel)
    (panelId : String) (m m' : Machine σ) : Prop :=
  cards m'.store = cards m.store ∨ ∃ q c, current m.store panelId = some q ∧
    resolveInitialBucket q = .ok c.currentBucket ∧ cards m'.store = (cards m.store).set c.id c

/-- What the executors use of a runtime: a creation stores a card in the initial bucket of
the panel that is current for the id, or leaves the cards alone, and nothing else touches
them. -/
structure SourceRuntime {σ : Type} (R : CardRuntime σ) (cards : σ → Dict Uuid Card)
    (current : σ → String → Option PatchPanel) : Prop where
  creates : ∀ {w : World} {m m' : Machine σ} {id payload metadata key r},
    (R.createCard id payload metadata key).run w m = (r, m') → Injects cards current id m m'
  records : ∀ {w : World} {m m' : Machine σ} {card type actor payload key r},
    (R.recordEvent card type actor payload key).run w m = (r, m') →
      cards m'.store = cards m.store
  lists : ∀ {w : World} {m m' : Machine σ} {r},
    R.listPatchPanels.run w m = (r, m') → m'.store = m.store

theorem memory_sourceRuntime : SourceRuntime InMemoryCardRuntime.runtime (·.cards)
    (fun s id => s.patchPanels.get? id) where
  creates {w m m' id payload metadata key r} h := by
    have hrun : (InMemoryCardRuntime.createCard id payload metadata key).run w m = (r, m') := h
    rcases InMemoryCardRuntime.createCard_cases hrun with rfl | ⟨c, e, -, hcreates⟩
    · exact .inl rfl
    · obtain ⟨q, hq, hbucket, -⟩ := hcreates.panel
      exact .inr ⟨q, c, hq, hbucket, hcreates.logged.cards⟩
  records {w m m' card type actor payload key r} h := by
    have hrun : (InMemoryCardRuntime.recordEvent card type actor payload key).run w m = (r, m') := h
    rcases InMemoryCardRuntime.recordEvent_cases hrun with rfl | ⟨e, -, hrecords⟩
    · rfl
    · exact hrecords.noted.cards
  lists h := by
    cases h
    rfl

namespace PostgresCardRuntime

section Tables
variable {w : World} {m m' : Machine Tables} (engine : Engine)

/-- A replay of a creation only reads. -/
theorem run_cachedCard {ref : ResponseRef} {r : Except PyErr Card}
    (h : (inside (cachedCard ref)).run w m = (r, m')) : m' = m := by
  cases ref
  case card id =>
    rw [cachedCard, run_getCard] at h
    exact (Prod.mk.inj h).2.symm
  all_goals exact (Prod.mk.inj h).2.symm

theorem createCard_inserts {panel : String} {payload : JsonObj} {metadata : Option JsonObj}
    {key : Option String} {c : Card}
    (h : (inside (createCard engine panel payload metadata key)).run w m = (.ok c, m')) :
    m'.store.cards = m.store.cards ∨
      ∃ q rest, engine.rows m.store (activeDefinitions m.store panel) = q :: rest ∧
        resolveInitialBucket q = .ok c.currentBucket ∧
        m'.store.cards = m.store.cards.set c.id c := by
  rw [createCard, run_idempotent] at h
  cases hkey : recorded m.store key with
  | some ref =>
    rw [hkey] at h
    exact .inl (congrArg (·.store.cards) (run_cachedCard h))
  | none =>
    rw [hkey] at h
    simp only at h
    obtain ⟨q, m1, h1, h⟩ := returns_bind h
    rw [run_getActivePatchPanel] at h1
    have hm1 : m1 = m := (Prod.mk.inj h1).2.symm
    obtain ⟨bucket, m2, h2, h⟩ := returns_bind h
    rw [Op.inside_ofExcept, Op.run_ofExcept] at h2
    obtain ⟨hbucket, hm2⟩ := Prod.mk.inj h2
    rw [← hm2, hm1, Op.run_ident, Op.run_clock] at h
    obtain ⟨_, m3, h3, h⟩ := returns_bind h
    obtain ⟨-, hm3⟩ := insert_returns h3
    rw [Op.run_ident] at h
    obtain ⟨_, m4, h4, h⟩ := returns_bind h
    obtain ⟨-, hm4⟩ := insert_returns h4
    rw [Op.run_bind_ok (run_newEvent _ _ _ _ _ _)] at h
    obtain ⟨_, m5, h5, h⟩ := returns_bind h
    obtain ⟨-, hm5⟩ := insert_returns h5
    obtain ⟨_, m6, h6, h⟩ := returns_bind h
    obtain ⟨keys, hm6⟩ := storeIdempotency_returns h6
    obtain ⟨hc, hm'⟩ := Prod.mk.inj h
    cases hc
    have hrows := (Prod.mk.inj h1).1
    split at hrows
    · rename_i q' rest hlist
      cases hrows
      refine .inr ⟨q, rest, hlist, hbucket, ?_⟩
      rw [← hm', hm6, hm5, hm4, hm3]
      rfl
    · cases hrows

/-- A write that leaves the table of cards alone. -/
def OffCards (y : RowWrite) : Prop := ∀ d : Tables, (y.apply d).cards = d.cards

theorem storeIdempotency_offCards (key : Option String) (operation : String) (ref : ResponseRef) :
    (storeIdempotency key operation ref).Writes OffCards := by
  unfold storeIdempotency
  split
  · exact Txn.Writes.ret ()
  · exact Txn.Writes.bind Txn.Writes.now fun _ => Txn.Writes.insert _ _ _ fun _ => rfl

theorem cachedEvent_offCards (ref : ResponseRef) : (cachedEvent ref).Writes OffCards := by
  cases ref
  case event id =>
    refine Txn.Writes.bind (Txn.Writes.query _) fun d => ?_
    cases d.cardEvents.get? id with
    | none => exact Txn.Writes.raise _
    | some e => exact Txn.Writes.ret e
  all_goals exact Txn.Writes.raise _

theorem getCard_offCards (id : Uuid) : (getCard id).Writes OffCards := by
  refine Txn.Writes.bind (Txn.Writes.query _) fun d => ?_
  cases d.cards.get? id with
  | none => exact Txn.Writes.raise _
  | some c => exact Txn.Writes.ret c

theorem recordEvent_offCards (card : Uuid) (type : String) (actor : Option String)
    (payload : Option JsonObj) (key : Option String) :
    (recordEvent engine card type actor payload key).Writes OffCards := by
  have hread : (getIdempotency key).Writes OffCards := by
    unfold getIdempotency
    split
    · exact Txn.Writes.ret none
    · exact Txn.Writes.bind (Txn.Writes.query _) fun _ => Txn.Writes.ret _
  have hinsert : ∀ e, (insertEvent engine e).Writes OffCards :=
    fun e => Txn.Writes.insert _ _ _ fun _ => rfl
  refine Txn.Writes.bind hread fun found => ?_
  cases found with
  | some ref => exact cachedEvent_offCards ref
  | none =>
    refine Txn.Writes.bind (getCard_offCards card) fun _ => ?_
    refine Txn.Writes.bind (Txn.Writes.bind Txn.Writes.fresh fun _ =>
      Txn.Writes.bind Txn.Writes.now fun _ => Txn.Writes.ret _) fun e => ?_
    refine Txn.Writes.bind (hinsert e) fun _ => ?_
    exact Txn.Writes.bind (storeIdempotency_offCards _ _ _) fun _ => Txn.Writes.ret e

/-- The definition that a creation takes for an id. -/
def currentPanel (d : Tables) (id : String) : Option PatchPanel :=
  (engine.rows d (activeDefinitions d id)).head?

theorem tables_sourceRuntime :
    SourceRuntime (runtime engine) (·.cards) (currentPanel engine) where
  creates {w m m' id payload metadata key r} h := by
    have hrun : (Op.atomically (createCard engine id payload metadata key)).run w m = (r, m') := h
    rw [Op.atomically_run] at hrun
    split at hrun
    · rename_i c m1 hinside
      cases hrun
      rcases createCard_inserts engine hinside with hsame | ⟨q, rest, hrows, hbucket, hcards⟩
      · exact .inl hsame
      · refine .inr ⟨q, c, ?_, hbucket, hcards⟩
        rw [currentPanel, hrows, List.head?_cons]
    · cases hrun
      exact .inl rfl
  records {w m m' card type actor payload key r} h := by
    have hkept := Op.atomically_keeps (I := fun d => d.cards = m.store.cards) (w := w) (m := m)
      (recordEvent_offCards engine card type actor payload key)
      (fun y d hy hd => (hy d).trans hd) rfl
    have hrun : (Op.atomically (recordEvent engine card type actor payload key)).run w m =
      (r, m') := h
    rwa [hrun] at hkept
  lists {w m m' r} h := by
    have hrun : (Op.atomically (listPatchPanels engine)).run w m = (r, m') := h
    rw [Op.atomically_run, listPatchPanels, Op.run_query] at hrun
    cases hrun
    rfl

end Tables

end PostgresCardRuntime

/-! ## The two executors -/

/-- The step stored a card under an id that had none. -/
def AddsCard {σ : Type} (cards : σ → Dict Uuid Card) (m m' : Machine σ) (c : Card) : Prop :=
  (cards m.store).get? c.id = none ∧ (cards m'.store).get? c.id = some c

section Executors
variable {σ : Type} {R : CardRuntime σ} {cards : σ → Dict Uuid Card}
  {current : σ → String → Option PatchPanel} {w : World} {m m' : Machine σ}

theorem Injects.bucket_iff {panelId bucket : String} {c : Card}
    (h : Injects cards current panelId m m') (hnew : AddsCard cards m m' c) :
    c.currentBucket = bucket ↔
      ∃ q, current m.store panelId = some q ∧ FirstSourceInto q bucket := by
  obtain ⟨hnone, hsome⟩ := hnew
  rcases h with hsame | ⟨q, c', hq, hbucket, hset⟩
  · rw [hsame, hnone] at hsome
    cases hsome
  · rw [hset, Dict.get?_set] at hsome
    split at hsome
    · cases hsome
      constructor
      · rintro rfl
        exact ⟨q, hq, resolveInitialBucket_iff.mp hbucket⟩
      · rintro ⟨q', hq', hfirst⟩
        cases hq.symm.trans hq'
        have hother := resolveInitialBucket_iff.mpr hfirst
        exact Except.ok.inj (hbucket.symm.trans hother)
    · rw [hnone] at hsome
      cases hsome

theorem executeSource_injects (hR : SourceRuntime R cards current) {x : NodeExecutor σ}
    (hx : x.runtime = R) {sourceId : String} {payload : JsonObj} {metadata : Option JsonObj}
    {key : Option String} {r : Except PyErr Card}
    (h : (x.executeSource sourceId payload metadata key).run w m = (r, m')) :
    Injects cards current x.patchPanel.id m m' := by
  unfold NodeExecutor.executeSource at h
  rw [hx] at h
  obtain ⟨rfl, -⟩ | ⟨n, -, h⟩ := Exec.bind_same (Op.run_ofExcept _ w m) h
  · exact .inl rfl
  rcases Exec.bind_cases h with ⟨e, h1, -⟩ | ⟨card, m1, h1, h⟩
  · exact hR.creates h1
  · have hcreated : Injects cards current x.patchPanel.id m m1 := hR.creates h1
    have hrecorded : cards m'.store = cards m1.store := by
      rcases Exec.bind_cases h with ⟨e, h2, -⟩ | ⟨event, m2, h2, h⟩
      · exact hR.records h2
      · cases h
        exact hR.records h2
    unfold Injects at hcreated ⊢
    rwa [hrecorded]

theorem boundarySource_injects (hR : SourceRuntime R cards current)
    {request : BoundarySourceRequest} {r : Except PyErr SourceBoundaryResult} {p : PatchPanel}
    (hp : ((BoundaryAdapterService.patchPanel R request.patchPanelId).run w m).1 = .ok p)
    (h : (BoundaryAdapterService.executeSource R request).run w m = (r, m')) :
    Injects cards current p.id m m' := by
  unfold BoundaryAdapterService.executeSource at h
  rcases hlist : (BoundaryAdapterService.patchPanel R request.patchPanelId).run w m with ⟨q, m1⟩
  have hstore : m1.store = m.store := by
    unfold BoundaryAdapterService.patchPanel at hlist
    rcases Exec.bind_cases hlist with ⟨e, h1, -⟩ | ⟨panels, m2, h1, h2⟩
    · exact hR.lists h1
    · split at h2
      · cases h2
        exact hR.lists h1
      · cases h2
        exact hR.lists h1
  rw [hlist] at hp
  replace hp : q = .ok p := hp
  rw [hp] at hlist
  replace h := (Exec.run_bind_ok hlist).symm.trans h
  -- The checks on node, contract and payload come before anything is written.
  have hsame : ∀ {n : Machine σ}, n = m1 → Injects cards current p.id m n := by
    intro n hn
    refine .inl ?_
    rw [hn, hstore]
  obtain ⟨hn, -⟩ | ⟨n, -, h⟩ := Exec.bind_same (Op.run_ofExcept _ w m1) h
  · exact hsame hn
  rw [Exec.run_bind_ok (Op.run_world w m1)] at h
  obtain ⟨hn, -⟩ | ⟨contract, -, h⟩ := Exec.bind_same (Op.run_ofExcept _ w m1) h
  · exact hsame hn
  obtain ⟨hn, -⟩ | ⟨_, -, h⟩ := Exec.bind_same (Op.run_ofExcept _ w m1) h
  · exact hsame hn
  obtain ⟨hn, -⟩ | ⟨_, -, h⟩ := Exec.bind_same (Op.run_ofExcept _ w m1) h
  · exact hsame hn
  obtain ⟨hn, -⟩ | ⟨mapped, -, h⟩ := Exec.bind_same (Op.run_ofExcept _ w m1) h
  · exact hsame hn
  obtain ⟨hn, -⟩ | ⟨extra, -, h⟩ := Exec.bind_same (Op.run_ofExcept _ w m1) h
  · exact hsame hn
  obtain ⟨hn, -⟩ | ⟨text, -, h⟩ := Exec.bind_same (Op.run_ofExcept _ w m1) h
  · exact hsame hn
  have hfrom : ∀ {n : Machine σ}, Injects cards current p.id m1 n →
      Injects cards current p.id m n := by
    intro n hn
    unfold Injects at hn ⊢
    rwa [hstore] at hn
  rcases Exec.bind_cases h with ⟨e, h1, -⟩ | ⟨card, m2, h1, h⟩
  · exact hfrom (executeSource_injects hR rfl h1)
  · have hinjected : Injects cards current p.id m m2 := hfrom (executeSource_injects hR rfl h1)
    have hrecorded : cards m'.store = cards m2.store := by
      rcases Exec.bind_cases h with ⟨e, h2, -⟩ | ⟨event, m3, h2, h⟩
      · exact hR.records h2
      · cases h
        exact hR.records h2
    unfold Injects at hinjected ⊢
    rwa [hrecorded]

end Executors

/-- Both calls for the source node put a new card into the bucket exactly if the first
source of the current panel leads there. -/
structure SourceBucket {σ : Type} (R : CardRuntime σ) (cards : σ → Dict Uuid Card)
    (current : σ → String → Option PatchPanel) (w : World) (p : PatchPanel) (n : NodeDefinition)
    (bucket : String) : Prop where
  executor : ∀ (x : NodeExecutor σ) payload metadata key (m : Machine σ) c, x.runtime = R →
    x.patchPanel = p → AddsCard cards m ((x.executeSource n.id payload metadata key).run w m).2 c →
      (c.currentBucket = bucket ↔
        ∃ q, current m.store p.id = some q ∧ FirstSourceInto q bucket)
  boundary : ∀ (request : BoundarySourceRequest) (m : Machine σ) c,
    ((BoundaryAdapterService.patchPanel R request.patchPanelId).run w m).1 = .ok p →
    request.sourceId = n.id →
    AddsCard cards m ((BoundaryAdapterService.executeSource R request).run w m).2 c →
      (c.currentBucket = bucket ↔
        ∃ q, current m.store p.id = some q ∧ FirstSourceInto q bucket)

theorem SourceRuntime.sourceBucket {σ : Type} {R : CardRuntime σ} {cards : σ → Dict Uuid Card}
    {current : σ → String → Option PatchPanel} (hR : SourceRuntime R cards current) (w : World)
    (p : PatchPanel) (n : NodeDefinition) (bucket : String) :
    SourceBucket R cards current w p n bucket where
  executor x payload metadata key m c hx hp hnew := by
    rcases hrun : (x.executeSource n.id payload metadata key).run w m with ⟨r, m'⟩
    rw [hrun] at hnew
    have hinjects := executeSource_injects hR hx hrun
    rw [hp] at hinjects
    exact hinjects.bucket_iff hnew
  boundary request m c hp _ hnew := by
    rcases hrun : (BoundaryAdapterService.executeSource R request).run w m with ⟨r, m'⟩
    rw [hrun] at hnew
    exact (boundarySource_injects hR hp hrun).bucket_iff hnew

/-- On both runtimes a source injects into the bucket of its own first output pipe exactly
if the first source node of the panel leads to that bucket. -/
theorem source_bucket_iff {w : World} {p : PatchPanel} (haccepts : accepts w p = true)
    {n : NodeDefinition} (hn : n ∈ p.nodes) {pipe : String}
    {rest : List String} (hpipes : n.outputPipes = pipe :: rest) :
    ∃ binding, p.pipeBindings.get? pipe = some binding ∧
      SourceBucket InMemoryCardRuntime.runtime (·.cards) (fun s id => s.patchPanels.get? id) w p n
        binding.bucket ∧
      ∀ engine, SourceBucket (PostgresCardRuntime.runtime engine) (·.cards)
        (PostgresCardRuntime.currentPanel engine) w p n binding.bucket := by
  have hdeclares : pipe ∈ n.pipes .output := by
    rw [NodeDefinition.pipes, hpipes]
    exact List.mem_cons_self
  obtain ⟨binding, owner, d, hbound⟩ := PatchPanelValidator.accepts_bound haccepts hn hdeclares
  refine ⟨binding, hbound.binding, ?_, ?_⟩
  · exact memory_sourceRuntime.sourceBucket w p n binding.bucket
  · exact fun engine =>
      (PostgresCardRuntime.tables_sourceRuntime engine).sourceBucket w p n binding.bucket

/-! Two sources with buckets of their own; only the first one is asked. -/

section TwoSources

def mailSource : NodeDefinition := ⟨"mail", .source, none, none, [], ["mail_out"], none, []⟩

def twoSourcePanel : PatchPanel where
  id := "orders"
  version := "1"
  description := none
  buckets := [⟨"inbox", none, [], [], none, false⟩, ⟨"letters", none, [], [], none, false⟩,
    ⟨"outbox", none, [], [], none, false⟩]
  nodes := [⟨"web", .source, none, none, [], ["web_out"], none, []⟩, mailSource,
    ⟨"work", .worker, none, none, ["web_in", "mail_in"], ["work_out"], none, []⟩,
    ⟨"done", .sink, none, none, ["done_in"], [], none, []⟩]
  edges := [⟨"web", "work", "default", none⟩, ⟨"mail", "work", "default", none⟩,
    ⟨"work", "done", "default", none⟩]
  pipeBindings := ⟨[("web_out", ⟨"inbox", some "web", some .output⟩),
    ("mail_out", ⟨"letters", some "mail", some .output⟩),
    ("web_in", ⟨"inbox", some "work", some .input⟩),
    ("mail_in", ⟨"letters", some "work", some .input⟩),
    ("work_out", ⟨"outbox", some "work", some .output⟩),
    ("done_in", ⟨"outbox", some "done", some .input⟩)], by decide⟩
  acceptanceContracts := []
  metadata := []
  uniqueBuckets := by decide
  uniqueNodes := by decide
  uniqueContracts := List.nodup_nil

theorem twoSourcePanel_accepted : accepts .simple twoSourcePanel = true := by decide +kernel

theorem mailSource_mem : mailSource ∈ twoSourcePanel.nodes := .tail _ (.head _)

theorem source_bucket_iff_twoSources : ∃ binding,
    twoSourcePanel.pipeBindings.get? "mail_out" = some binding ∧
      SourceBucket InMemoryCardRuntime.runtime (·.cards) (fun s id => s.patchPanels.get? id) .simple
        twoSourcePanel mailSource binding.bucket ∧
      ∀ engine, SourceBucket (PostgresCardRuntime.runtime engine) (·.cards)
        (PostgresCardRuntime.currentPanel engine) .simple twoSourcePanel mailSource
        binding.bucket :=
  source_bucket_iff twoSourcePanel_accepted mailSource_mem rfl

/-- A card of the second source in the bucket of the first. -/
def misplacedCard : Card := ⟨⟨0⟩, "orders:1", "inbox", [], [], 0⟩

theorem mail_misplaced :
    ¬ ∀ (w : World) (p : PatchPanel) (n : NodeDefinition), accepts w p = true → n ∈ p.nodes →
      n.type = .source → ∀ pipe rest binding, n.outputPipes = pipe :: rest →
        p.pipeBindings.get? pipe = some binding →
      ∀ calls payload metadata key c, (runCalls w calls).store.patchPanels.get? p.id = some p →
        AddsCard (·.cards) (runCalls w calls) (((NodeExecutor.bare InMemoryCardRuntime.runtime
          p).executeSource n.id payload metadata key).run w (runCalls w calls)).2 c →
            c.currentBucket = binding.bucket := by
  intro h
  have hbucket := h .simple twoSourcePanel mailSource twoSourcePanel_accepted mailSource_mem rfl
    "mail_out" [] ⟨"letters", some "mail", some .output⟩ rfl rfl
    [.registerPatchPanel twoSourcePanel] [] none none misplacedCard rfl ⟨rfl, rfl⟩
  exact absurd hbucket (by decide)

end TwoSources

end GhostMesh
