import GhostMesh.Runtime.CallEffects

/-!
# Evidence

Histories only grow, and a call that raises writes nothing. An artifact reference
stays stored as it is until a later submission brings one with the same id: the
submission writes over it.
-/

set_option autoImplicit false

namespace GhostMesh

open InMemoryCardRuntime Op

/-! ## Calls that raise -/

section Raises
variable {w : World} {m : Machine InMemoryCardRuntime}

theorem RuntimeCall.store_of_error {call : RuntimeCall} {err : PyErr}
    (h : call.result w m = .error err) : SameStore m (call.step w m) := by
  have hcase := call.step_cases w m
  rw [h] at hcase
  generalize call.step w m = m' at hcase
  cases hcase with
  | same hsame => exact hsame

end Raises

/-- An operation that raises leaves panels, cards, leases, artifacts, histories and the
idempotency map as they were, so that its key answers as before; the two plain lookups
never write at all. -/
theorem raising_operation_writes_nothing (w : World) (m : Machine InMemoryCardRuntime) :
    (∀ call err, RuntimeCall.result w m call = .error err →
      (call.step w m).store = m.store ∧
        ∀ key, (call.step w m).store.cached key = m.store.cached key) ∧
      (∀ id, ((getCard id).run w m).2 = m) ∧ (∀ id, ((getLease id).run w m).2 = m) := by
  refine ⟨?_, ?_, ?_⟩
  · intro call err h
    have hsame := RuntimeCall.store_of_error h
    refine ⟨hsame.store, ?_⟩
    intro key
    rw [hsame.store]
  · intro id
    rw [run_getCard]
  · intro id
    rw [run_getLease]

/-- A creation for a panel that is not registered yet, and the same key afterwards. -/
theorem raising_operation_writes_nothing_unregistered :
    RuntimeCall.result .simple InMemoryCardRuntime.start (.createCard "orders" [] none (some "k")) =
        .error (.notFound "Patch Panel 'orders' is not registered") ∧
      (RuntimeCall.step .simple InMemoryCardRuntime.start
        (.createCard "orders" [] none (some "k"))).store = InMemoryCardRuntime.start.store ∧
      (runCalls .simple [.createCard "orders" [] none (some "k"),
        .registerPatchPanel (PatchPanelValidator.linePanel "orders" "1"),
        .createCard "orders" [] none (some "k")]).store.cards.values.length = 1 := by
  have hraises : RuntimeCall.result .simple InMemoryCardRuntime.start
      (.createCard "orders" [] none (some "k")) =
        .error (.notFound "Patch Panel 'orders' is not registered") := by rfl
  exact ⟨hraises, ((raising_operation_writes_nothing .simple _).1 _ _ hraises).1, by decide +kernel⟩

/-! ## Artifact references -/

namespace InMemoryCardRuntime

section Artifacts
variable {s : InMemoryCardRuntime} {id : Uuid}

@[simp] theorem putCard_artifacts (c : Card) : (s.putCard c).artifacts = s.artifacts := rfl
@[simp] theorem putLease_artifacts (l : Lease) : (s.putLease l).artifacts = s.artifacts := rfl
@[simp] theorem putEvent_artifacts (e : CardEvent) : (s.putEvent e).artifacts = s.artifacts := rfl
@[simp] theorem putPanel_artifacts (p : PatchPanel) : (s.putPanel p).artifacts = s.artifacts := rfl
@[simp] theorem putKey_artifacts (key : Option String) (v : Stored) :
    (s.putKey key v).artifacts = s.artifacts := by unfold putKey; split <;> rfl
@[simp] theorem routeCard_artifacts (c : Card) (r : Option (String × String)) :
    (s.routeCard c r).artifacts = s.artifacts := by cases r <;> rfl

theorem putArtifacts_cons (ref : ArtifactReference) (refs : List ArtifactReference) :
    s.putArtifacts (ref :: refs) = (s.putArtifacts [ref]).putArtifacts refs := rfl

theorem putArtifacts_absent {refs : List ArtifactReference} (h : ∀ ref ∈ refs, ref.id ≠ id) :
    (s.putArtifacts refs).artifacts.get? id = s.artifacts.get? id := by
  induction refs generalizing s with
  | nil => rfl
  | cons ref refs ih =>
    have hne : id ≠ ref.id := Ne.symm (h ref List.mem_cons_self)
    rw [putArtifacts_cons, ih fun r hr => h r (List.mem_cons_of_mem ref hr)]
    exact Dict.get?_set_ne _ _ hne

/-- Of the references with one id the last is stored. -/
theorem putArtifacts_present {refs : List ArtifactReference} (h : ∃ ref ∈ refs, ref.id = id) :
    ∃ ref ∈ refs, (s.putArtifacts refs).artifacts.get? id = some ref := by
  induction refs generalizing s with
  | nil =>
    obtain ⟨ref, hmem, -⟩ := h
    cases hmem
  | cons ref refs ih =>
    rw [putArtifacts_cons]
    by_cases hrest : ∃ r ∈ refs, r.id = id
    · obtain ⟨r, hr, hget⟩ := ih (s := s.putArtifacts [ref]) hrest
      exact ⟨r, List.mem_cons_of_mem ref hr, hget⟩
    · have hid : ref.id = id := by
        obtain ⟨r, hr, hrid⟩ := h
        rcases List.mem_cons.mp hr with rfl | hr
        · exact hrid
        · exact absurd ⟨r, hr, hrid⟩ hrest
      refine ⟨ref, List.mem_cons_self, ?_⟩
      rw [putArtifacts_absent fun r hr hrid => hrest ⟨r, hr, hrid⟩, ← hid]
      exact Dict.get?_set_self _ _ _

/-- A submission stores its references with the card and the event it is about. -/
theorem submitted_present (s : InMemoryCardRuntime) (key : Option String) (c : Card) (d : String)
    (l : Lease) (t : Instant) (e : CardEvent) {refs : List ArtifactReference}
    (h : ∃ ref ∈ refs, ref.id = id) :
    ∃ ref ∈ refs, (s.submitted key c d l t e refs).artifacts.get? id =
      some { ref with cardId := c.id, eventId := some e.id } := by
  simp only [submitted, putKey_artifacts, putEvent_artifacts]
  have hmap : ∃ x ∈ refs.map fun ref => { ref with cardId := c.id, eventId := some e.id },
      x.id = id := by simpa using h
  obtain ⟨x, hx, hget⟩ := putArtifacts_present
    (s := (s.putCard { c with currentBucket := d }).putLease { l with releasedAt := some t }) hmap
  obtain ⟨ref, href, rfl⟩ := List.mem_map.mp hx
  exact ⟨ref, href, hget⟩

theorem submitted_absent {key : Option String} {c : Card} {d : String} {l : Lease} {t : Instant}
    {e : CardEvent} {refs : List ArtifactReference} (h : ∀ ref ∈ refs, ref.id ≠ id) :
    (s.submitted key c d l t e refs).artifacts.get? id = s.artifacts.get? id := by
  simp only [submitted, putKey_artifacts, putEvent_artifacts]
  exact putArtifacts_absent (by simpa using h)

end Artifacts

end InMemoryCardRuntime

section Effects
variable {w : World} {m m' : Machine InMemoryCardRuntime}

/-- Only a submission writes artifact references. -/
theorem CallEffect.artifacts_cases {call : RuntimeCall} {r : Except PyErr Unit}
    (h : CallEffect w m m' call r) : m'.store.artifacts = m.store.artifacts ∨
      ∃ lease pipe refs key l c d t e, call = .submitArtifact lease pipe refs key ∧
        Submits w m m' lease pipe refs key l c d t e := by
  cases h with
  | submits h => exact .inr ⟨_, _, _, _, _, _, _, _, _, rfl, h⟩
  | same h => exact .inl (by rw [h.store])
  | registers _ _ h => exact .inl (by rw [h]; rfl)
  | creates h => exact .inl (by rw [h.store]; simp [created])
  | claims h => exact .inl (by rw [h.store]; simp [claimed])
  | renews h => exact .inl (by rw [h.store]; simp [renewed])
  | releases h => exact .inl (by rw [h.store]; simp [InMemoryCardRuntime.released])
  | expires h _ => exact .inl (h.keeps InMemoryCardRuntime.artifacts fun _ _ _ => rfl)
  | validates h => exact .inl (by rw [h.store]; simp [validated])
  | moves h => exact .inl (by rw [h.store]; simp [moved])
  | records h => exact .inl (by rw [h.store]; simp)

theorem Expires.history_grows {t : Instant} {ls : List Lease} {s s' : InMemoryCardRuntime}
    (h : Expires t ls s s') (x : Uuid) : s.history x <+: s'.history x :=
  h.within (R := fun s s' => s.history x <+: s'.history x) (List.prefix_refl _)
    List.IsPrefix.trans fun s l e _ => (released_noted s l t e).grows x

theorem CallEffect.history_grows {call : RuntimeCall} {r : Except PyErr Unit}
    (h : CallEffect w m m' call r) (x : Uuid) : m.store.history x <+: m'.store.history x := by
  cases h with
  | same h => simp only [h.store, List.prefix_rfl]
  | registers _ _ h =>
    rw [h]
    exact List.prefix_refl _
  | creates h => exact h.logged.grows x
  | claims h => exact h.noted.grows x
  | submits h => exact h.logged.grows x
  | renews h => exact h.noted.grows x
  | releases h => exact h.noted.grows x
  | expires h _ => exact Expires.history_grows h x
  | validates h => exact h.logged.grows x
  | moves h => exact h.logged.grows x
  | records h => exact h.noted.grows x

/-! ## Submissions -/

/-- The checks of a submission pass, with the lease read at the next clock reading. -/
def SubmitPasses (w : World) (m : Machine InMemoryCardRuntime) (lease : Uuid) (pipe : String)
    (refs : List ArtifactReference) (key : Option String) : Prop :=
  m.store.cached key = none ∧ ∃ l c p destination,
    SubmitOk w m.store lease pipe refs l c p destination ∧ l.activeAt (w.clock m.ticks) = true

/-- A submission whose checks pass writes, and stamps its references with the next id. -/
theorem submitPasses_submits {lease : Uuid} {pipe : String} {refs : List ArtifactReference}
    {key : Option String} (h : SubmitPasses w m lease pipe refs key) :
    ∃ l c destination t e, e.id = w.uuid4 m.draws ∧
      (RuntimeCall.step w m (.submitArtifact lease pipe refs key)).draws = m.draws + 1 ∧
      (RuntimeCall.step w m (.submitArtifact lease pipe refs key)).store =
        m.store.submitted key c destination l t e refs := by
  obtain ⟨hkey, l, c, p, destination, hok, hactive⟩ := h
  have hactive' := hactive
  simp only [Lease.activeAt, Bool.and_eq_true, decide_eq_true_eq] at hactive'
  refine ⟨l, c, destination, w.clock (m.ticks + 1), ⟨w.uuid4 m.draws, c.id, "artifact_submitted",
    some l.workerId, [("artifact_ids", .list (refs.map fun ref => .str ref.id.str)),
      ("artifact_refs", .list (refs.map artifactJson)), ("lease_id", .str l.id.str),
      ("output_pipe", .str pipe), ("destination_bucket", .str destination)],
    w.clock (m.ticks + 2)⟩, rfl, ?_⟩
  have hroute := hok.route
  have hbelong := hok.belong
  have haccepted := hok.accepted
  simp [RuntimeCall.step, submitArtifact, run_idempotent, hkey, Exec.run_bind, run_getLease,
    hok.lease, run_ensureActiveLease, hactive', run_getCard, hok.card, getPatchPanelForCard,
    run_getPatchPanel, hok.panel, hroute, hbelong, haccepted, recordCardEvent, storeIdempotent,
    submitted]

theorem submits_passes {lease : Uuid} {pipe : String} {refs : List ArtifactReference}
    {key : Option String} {l : Lease} {c : Card} {d : String} {t : Instant} {e : CardEvent}
    (h : Submits w m m' lease pipe refs key l c d t e) : SubmitPasses w m lease pipe refs key := by
  obtain ⟨p, hok⟩ := h.checks
  exact ⟨h.uncached, l, c, p, d, hok, h.active.2⟩

end Effects

/-- Stored references carry the id of the event they came with, drawn before. -/
def ArtifactsDrawn (w : World) (m : Machine InMemoryCardRuntime) : Prop :=
  ∀ id ref, m.store.artifacts.get? id = some ref → ∃ a, ref.eventId = some a ∧ Drawn w m.draws a

namespace ArtifactsDrawn

variable {w : World} {m : Machine InMemoryCardRuntime}

theorem start (w : World) : ArtifactsDrawn w InMemoryCardRuntime.start := by
  intro id ref h
  simp [InMemoryCardRuntime.start, InMemoryCardRuntime.init] at h

theorem step (hm : ArtifactsDrawn w m) (call : RuntimeCall) :
    ArtifactsDrawn w (call.step w m) := by
  have hlater : m.draws ≤ (call.step w m).draws := (call.step_effect w m).later.draws
  intro id ref hget
  rcases (call.step_cases w m).artifacts_cases with
    heq | ⟨lease, pipe, refs, key, l, c, d, t, e, rfl, hsubmits⟩
  · rw [heq] at hget
    obtain ⟨a, ha, hdrawn⟩ := hm id ref hget
    exact ⟨a, ha, hdrawn.mono hlater⟩
  · obtain ⟨l, c, d, t, e, heid, hdraws, hstore⟩ := submitPasses_submits (submits_passes hsubmits)
    rw [hstore] at hget
    by_cases hmem : ∃ r ∈ refs, r.id = id
    · obtain ⟨r, -, hnew⟩ := submitted_present m.store key c d l t e hmem
      rw [hnew] at hget
      cases hget
      refine ⟨e.id, rfl, m.draws, ?_, heid⟩
      omega
    · have habsent : ∀ r ∈ refs, r.id ≠ id := fun r hr hid => hmem ⟨r, hr, hid⟩
      rw [submitted_absent habsent] at hget
      obtain ⟨a, ha, hdrawn⟩ := hm id ref hget
      exact ⟨a, ha, hdrawn.mono hlater⟩

theorem run (w : World) (calls : List RuntimeCall) : ArtifactsDrawn w (runCalls w calls) := by
  have hrun : Reaches (RuntimeCall.step w) (fun _ _ => True) InMemoryCardRuntime.start
      (runCalls w calls) := .of_foldl _ _ calls
  exact hrun.invariant (start w) fun _ call hm _ => hm.step call

end ArtifactsDrawn

/-! ## Evidence is kept -/

/-- The reference says the same of its card, its event and the stored content. -/
structure SameEvidence (ref ref' : ArtifactReference) : Prop where
  cardId : ref'.cardId = ref.cardId
  eventId : ref'.eventId = ref.eventId
  storageRef : ref'.storageRef = ref.storageRef
  contentHash : ref'.contentHash = ref.contentHash

/-- Histories are extended, and stored references stay what they are. -/
structure EvidenceKept (s s' : InMemoryCardRuntime) : Prop where
  history : ∀ x, s.history x <+: s'.history x
  artifacts : ∀ id ref, s.artifacts.get? id = some ref →
    ∃ ref', s'.artifacts.get? id = some ref' ∧ SameEvidence ref ref'

/-- The call is a submission that passes and brings a reference with a stored id. -/
def RuntimeCall.Resubmits (w : World) (m : Machine InMemoryCardRuntime) : RuntimeCall → Prop
  | submitArtifact lease pipe refs key => SubmitPasses w m lease pipe refs key ∧
      ∃ ref ∈ refs, (m.store.artifacts.get? ref.id).isSome = true
  | _ => False

/-- From every reached state a call keeps all evidence, unless it is a submission that
passes with a reference under an id that is already stored. -/
theorem evidence_kept_iff (w : World) (calls : List RuntimeCall) (call : RuntimeCall) :
    EvidenceKept (runCalls w calls).store (call.step w (runCalls w calls)).store ↔
      ¬ call.Resubmits w (runCalls w calls) := by
  have hdrawn := ArtifactsDrawn.run w calls
  generalize runCalls w calls = m at hdrawn ⊢
  have hcases := call.step_cases w m
  constructor
  · intro hkept hre
    cases call with
    | submitArtifact lease pipe refs key =>
      obtain ⟨hpasses, ref, hmem, hsome⟩ := hre
      obtain ⟨l, c, d, t, e, heid, -, hstore⟩ := submitPasses_submits hpasses
      obtain ⟨old, hold⟩ := Option.isSome_iff_exists.mp hsome
      obtain ⟨new, hnew, hsame⟩ := hkept.artifacts ref.id old hold
      obtain ⟨r, -, hwritten⟩ := submitted_present m.store key c d l t e ⟨ref, hmem, rfl⟩
      rw [hstore, hwritten] at hnew
      cases hnew
      -- the new stamp was drawn just now, the old one before
      obtain ⟨a, ha, i, hi, hai⟩ := hdrawn ref.id old hold
      have hstamp : some e.id = some a := hsame.eventId.trans ha
      rw [heid, hai, Option.some.injEq] at hstamp
      have : m.draws = i := w.uuid4_injective hstamp
      omega
    | _ => exact hre
  · intro hre
    refine ⟨hcases.history_grows, ?_⟩
    intro id ref hget
    rcases hcases.artifacts_cases with
      heq | ⟨lease, pipe, refs, key, l, c, d, t, e, rfl, hsubmits⟩
    · exact ⟨ref, by rw [heq]; exact hget, rfl, rfl, rfl, rfl⟩
    · have habsent : ∀ x ∈ refs, x.id ≠ id := by
        intro x hx hid
        apply hre
        refine ⟨submits_passes hsubmits, x, hx, ?_⟩
        rw [hid, hget]
        rfl
      refine ⟨ref, ?_, rfl, rfl, rfl, rfl⟩
      rw [hsubmits.store, submitted_absent habsent]
      exact hget

/-- Two cards of one panel, the first with a submitted artifact and the second claimed. -/
def twoWorkersCalls : List RuntimeCall :=
  [.registerPatchPanel (PatchPanelValidator.linePanel "orders" "1"),
    .createCard "orders" [] none none, .claimCard "work_in" "w1" 300 none,
    .submitArtifact ⟨2⟩ "work_out" [⟨⟨90⟩, ⟨0⟩, none, "s3://first", "h1", "text/plain", 1, [], 0⟩] none,
    .createCard "orders" [] none none, .claimCard "work_in" "w2" 300 none]

/-- The second worker reuses the artifact id of the first. -/
def reusedArtifact : RuntimeCall :=
  .submitArtifact ⟨7⟩ "work_out" [⟨⟨90⟩, ⟨5⟩, none, "s3://second", "h2", "text/plain", 1, [], 0⟩] none

theorem reused_artifact_lost : ¬ EvidenceKept (runCalls .simple twoWorkersCalls).store
    (reusedArtifact.step .simple (runCalls .simple twoWorkersCalls)).store := by
  intro h
  have hold : ((runCalls .simple twoWorkersCalls).store.artifacts.get? ⟨90⟩).map (·.storageRef) =
      some "s3://first" := by decide +kernel
  have hnew : ((reusedArtifact.step .simple
      (runCalls .simple twoWorkersCalls)).store.artifacts.get? ⟨90⟩).map (·.storageRef) =
        some "s3://second" := by decide +kernel
  obtain ⟨ref, href, hstorage⟩ := Option.map_eq_some_iff.mp hold
  obtain ⟨ref', href', hsame⟩ := h.artifacts _ ref href
  rw [href', Option.map_some, hsame.storageRef, hstorage] at hnew
  exact absurd hnew (by decide)

end GhostMesh
