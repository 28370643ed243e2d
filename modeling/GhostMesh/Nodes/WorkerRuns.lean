import GhostMesh.Nodes.ExecutorSteps
import GhostMesh.Runtime.ClaimScan
import GhostMesh.Runtime.KeyedLeases

/-!
# Worker executions that fail and that are tried again

A worker execution is a claim, a submission and the checks that come after both. It has
no way back: what is left after an error is what the claim and the submission had
written when it was raised. The two keys that it derives replay a claim and a
submission, and the checks look at the runtime as it is then.
-/

set_option autoImplicit false

namespace GhostMesh.NodeExecutor

open InMemoryCardRuntime
open Op (SameStore)

/-- The executor's panel binds the output pipe to the worker itself. -/
def OwnOutput (p : PatchPanel) (n : NodeDefinition) (request : WorkerExecutionInput) : Prop :=
  ∃ b, p.pipeBindings.get? request.outputPipe = some b ∧ b.node = some n.id

/-- The last event of the card is a submission. -/
def LastSubmitted (s : InMemoryCardRuntime) (cardId : Uuid) : Prop :=
  ∃ e, (s.history cardId).getLast? = some e ∧ e.eventType = "artifact_submitted"

/-- What the checks after the submission establish. -/
structure Confirmed (p : PatchPanel) (n : NodeDefinition) (request : WorkerExecutionInput)
    (s : InMemoryCardRuntime) (l : Lease) (refs : List ArtifactReference) : Prop where
  refs : refs ≠ []
  card : ∃ c, s.cards.get? l.cardId = some c
  last : LastSubmitted s l.cardId
  output : OwnOutput p n request

/-- The checks that a worker execution makes after its submission. -/
def submissionChecks {σ : Type} (x : NodeExecutor σ) (request : WorkerExecutionInput)
    (n : NodeDefinition) (l : Lease) (refs : List ArtifactReference) :
    Op σ (List ArtifactReference) := do
  Op.ensure (!refs.isEmpty)
    (.invalidOperation "worker execution produced no artifact references")
  let history ← x.runtime.cardHistory l.cardId
  match history.getLast? with
  | none => Op.raise (.index "list index out of range")
  | some event => match x.patchPanel.pipeBindings.get? request.outputPipe with
    | none => Op.raise (.key s!"'{request.outputPipe}'")
    | some binding => do
      let eventNodeId := binding.node.getD "None"
      Op.ensure (binding.node = some n.id)
        (.invalidOperation
          (s!"worker pipe '{request.inputPipe}' resolved to '{n.id}' but output pipe " ++
            s!"was bound to '{eventNodeId}'"))
      Op.ensure (event.eventType = "artifact_submitted")
        (.invalidOperation "worker execution did not submit artifacts")
      return refs

theorem executeWorker_eq {σ : Type} (x : NodeExecutor σ) (request : WorkerExecutionInput) :
    x.executeWorker request = (do
      let n ← Op.ofExcept (nodeForPipe x.patchPanel request.inputPipe .worker)
      let lease ← x.runtime.claimCard request.inputPipe request.workerId request.leaseSeconds
        (suffixedKey request.idempotencyKey ":claim")
      let refs ← x.runtime.submitArtifact lease.id request.outputPipe request.artifactRefs
        (suffixedKey request.idempotencyKey ":submit")
      x.submissionChecks request n lease refs) := rfl

section Stages
variable {w : World} {m m' m₁ m₂ : Machine InMemoryCardRuntime} {p : PatchPanel}
  {request : WorkerExecutionInput} {n : NodeDefinition} {l : Lease}
  {refs refs' : List ArtifactReference}

theorem cardHistory_ok {cardId : Uuid} {history : List CardEvent}
    (h : (cardHistory cardId).run w m = (.ok history, m')) :
    m' = m ∧ (∃ c, m.store.cards.get? cardId = some c) ∧ history = m.store.history cardId := by
  obtain ⟨c, m₁, hc, hrest⟩ := Exec.bind_ok h
  obtain ⟨rfl, hstored⟩ := getCard_ok hc
  cases hrest
  exact ⟨rfl, ⟨c, hstored⟩, rfl⟩

theorem submissionChecks_reads :
    Exec.Within Eq w ((onMemory p).submissionChecks request n l refs) := by
  refine Exec.Within.bind (R := Eq) Eq.trans (Exec.Within.ensure Eq.refl _ _) fun _ => ?_
  refine Exec.Within.bind (R := Eq) Eq.trans (fun m => (cardHistory_same rfl).symm) fun history => ?_
  split
  · exact Exec.Within.raise Eq.refl _
  · split
    · exact Exec.Within.raise Eq.refl _
    · refine Exec.Within.bind (R := Eq) Eq.trans (Exec.Within.ensure Eq.refl _ _) fun _ => ?_
      refine Exec.Within.bind (R := Eq) Eq.trans (Exec.Within.ensure Eq.refl _ _) fun _ => ?_
      exact Exec.Within.pure Eq.refl _

theorem submissionChecks_ok
    (h : ((onMemory p).submissionChecks request n l refs).run w m = (.ok refs', m')) :
    refs' = refs ∧ Confirmed p n request m.store l refs := by
  unfold submissionChecks at h
  rcases Exec.ensure_bind h with ⟨-, -, he⟩ | ⟨hrefs, h⟩
  · cases he
  obtain ⟨history, m₁, hhistory, h⟩ := Exec.bind_ok h
  obtain ⟨rfl, hcard, rfl⟩ := cardHistory_ok hhistory
  split at h
  · cases h
  · rename_i e hlast
    split at h
    · cases h
    · rename_i b hb
      rcases Exec.ensure_bind h with ⟨-, -, he⟩ | ⟨hnode, h⟩
      · cases he
      rcases Exec.ensure_bind h with ⟨-, -, he⟩ | ⟨htype, h⟩
      · cases he
      cases h
      exact ⟨rfl, by simpa using hrefs, hcard, ⟨e, hlast, of_decide_eq_true htype⟩,
        ⟨b, hb, of_decide_eq_true hnode⟩⟩

theorem run_submissionChecks_of_confirmed (h : Confirmed p n request m.store l refs) :
    ((onMemory p).submissionChecks request n l refs).run w m = (.ok refs, m) := by
  obtain ⟨c, hc⟩ := h.card
  obtain ⟨e, hlast, htype⟩ := h.last
  obtain ⟨b, hb, hnode⟩ := h.output
  have hhistory : ((onMemory p).runtime.cardHistory l.cardId).run w m =
      (.ok (m.store.history l.cardId), m) := by
    change (InMemoryCardRuntime.cardHistory l.cardId).run w m = _
    rw [cardHistory, Exec.run_bind, run_getCard, hc]
    rfl
  have hrefs : (!refs.isEmpty) = true := by simpa using h.refs
  have hbound : (onMemory p).patchPanel.pipeBindings.get? request.outputPipe = some b := hb
  simp only [submissionChecks, Exec.run_bind, Op.run_ensure, hrefs, if_true, hhistory, hlast,
    hbound, hnode, htype, decide_true, Exec.run_pure]

/-- The checks only read, and pass if and only if the submission is confirmed. -/
theorem run_submissionChecks (w : World) (m : Machine InMemoryCardRuntime) (p : PatchPanel)
    (request : WorkerExecutionInput) (n : NodeDefinition) (l : Lease)
    (refs : List ArtifactReference) :
    ∃ r, ((onMemory p).submissionChecks request n l refs).run w m = (r, m) ∧
      ∀ refs', r = .ok refs' ↔ refs' = refs ∧ Confirmed p n request m.store l refs := by
  have hreads : (((onMemory p).submissionChecks request n l refs).run w m).2 = m :=
    (submissionChecks_reads m).symm
  refine ⟨_, Prod.ext rfl hreads, fun refs' => ⟨fun hr => ?_, ?_⟩⟩
  · exact submissionChecks_ok (Prod.ext hr rfl)
  · rintro ⟨rfl, hconfirmed⟩
    rw [run_submissionChecks_of_confirmed hconfirmed]
/-- After its claim an execution ends where its submission ends, and returns what the
submission returned if that is confirmed. -/
theorem executeWorker_after_claim (hn : nodeForPipe p request.inputPipe .worker = .ok n)
    (hclaim : (claimCard request.inputPipe request.workerId request.leaseSeconds
      (suffixedKey request.idempotencyKey ":claim")).run w m = (.ok l, m₁))
    {r₂ : Except PyErr (List ArtifactReference)}
    (hsubmit : (submitArtifact l.id request.outputPipe request.artifactRefs
      (suffixedKey request.idempotencyKey ":submit")).run w m₁ = (r₂, m₂)) :
    ∃ r, ((onMemory p).executeWorker request).run w m = (r, m₂) ∧
      ∀ refs, r = .ok refs ↔ r₂ = .ok refs ∧ Confirmed p n request m₂.store l refs := by
  have hnode : (Op.ofExcept (nodeForPipe p request.inputPipe .worker)).run w m = (.ok n, m) := by
    rw [Op.run_ofExcept, hn]
  have hstart : ((onMemory p).executeWorker request).run w m =
      ((submitArtifact l.id request.outputPipe request.artifactRefs
        (suffixedKey request.idempotencyKey ":submit")) >>= fun refs =>
          (onMemory p).submissionChecks request n l refs).run w m₁ := by
    rw [executeWorker_eq]
    refine (Exec.run_bind_ok hnode).trans ?_
    exact Exec.run_bind_ok hclaim
  rw [hstart]
  cases r₂ with
  | error err =>
    refine ⟨.error err, ?_, fun refs => by simp⟩
    rw [Exec.run_bind, hsubmit]
  | ok refs₂ =>
    obtain ⟨r, hr, hiff⟩ := run_submissionChecks w m₂ p request n l refs₂
    refine ⟨r, (Exec.run_bind_ok hsubmit).trans hr, fun refs => (hiff refs).trans ?_⟩
    constructor
    · rintro ⟨rfl, hconfirmed⟩
      exact ⟨rfl, hconfirmed⟩
    · rintro ⟨hrefs, hconfirmed⟩
      cases hrefs
      exact ⟨rfl, hconfirmed⟩

end Stages

/-! ## Executions that fail -/

/-- The checks of a submission that do not concern the lease itself. -/
def Fits (w : World) (s : InMemoryCardRuntime) (c : Card) (nodeId : String)
    (request : WorkerExecutionInput) : Prop :=
  ∃ p destination, s.patchPanels.get? (beforeLastColon c.workflowVersion) = some p ∧
    resolvePipeBucket p request.outputPipe .output = .ok (destination, nodeId) ∧
    ensureArtifactRefsBelongToCard c.id request.artifactRefs = .ok () ∧
    ensureArtifactsAccepted w p destination request.artifactRefs = .ok ()

/-- A submission on the lease would go through. -/
def Submittable (w : World) (m : Machine InMemoryCardRuntime) (leaseId : Uuid)
    (request : WorkerExecutionInput) : Prop :=
  ∃ l c, m.store.leases.get? leaseId = some l ∧ m.store.cards.get? l.cardId = some c ∧
    l.activeAt (w.clock m.ticks) = true ∧ Fits w m.store c l.nodeId request

/-- The condition under which an execution does not stop halfway. A submission that goes
through on a lease that is answered from its key leaves through the worker's own output.
A claim that goes through picks a card for which the submission is new and fits, with a
lease that lasts until then, and leaves through the worker's own output as well. -/
def Completes (w : World) (p : PatchPanel) (request : WorkerExecutionInput)
    (m : Machine InMemoryCardRuntime) : Prop :=
  ∀ n, nodeForPipe p request.inputPipe .worker = .ok n →
    (∀ v l, m.store.cached (suffixedKey request.idempotencyKey ":claim") = some v →
      v.lease? = some l → m.store.cached (suffixedKey request.idempotencyKey ":submit") = none →
      Submittable w m l.id request → OwnOutput p n request) ∧
    (m.store.cached (suffixedKey request.idempotencyKey ":claim") = none →
      ∀ x c e i, Picks w m request.inputPipe request.leaseSeconds x c e i →
        m.store.cached (suffixedKey request.idempotencyKey ":submit") = none ∧
        w.clock (i + 3) < e ∧ Fits w m.store c x.nodeId request ∧ OwnOutput p n request)

/-- A call that raised has left cards, leases, artifacts and histories as they were. -/
def FailureKeeps (w : World) (p : PatchPanel) (request : WorkerExecutionInput)
    (m : Machine InMemoryCardRuntime) : Prop :=
  ∀ err m', ((onMemory p).executeWorker request).run w m = (.error err, m') →
    m'.store.cards = m.store.cards ∧ m'.store.leases = m.store.leases ∧
      m'.store.artifacts = m.store.artifacts ∧ m'.store.events = m.store.events

section Failures
variable {w : World} {m m₁ m₂ : Machine InMemoryCardRuntime} {p : PatchPanel}
  {request : WorkerExecutionInput} {n : NodeDefinition} {l : Lease}

/-- The derived keys are different. -/
theorem cached_claimed_submit {key : Option String} (s : InMemoryCardRuntime) (l : Lease)
    (e : CardEvent) : (s.claimed (suffixedKey key ":claim") l e).cached
      (suffixedKey key ":submit") = s.cached (suffixedKey key ":submit") := by
  unfold suffixedKey claimed
  cases hkey : truthyStr key with
  | none => rfl
  | some k =>
    have hne : k ++ ":submit" ≠ k ++ ":claim" := by
      intro h
      simp at h
    have hclaim : k ++ ":claim" ≠ "" := by simp
    simp only [Option.map_some]
    rw [cached_putKey_some hclaim rfl, if_neg hne]
    rfl

/-- A submission under an unused key returns if and only if its checks pass. -/
theorem submittable_iff {leaseId : Uuid}
    (hkey : m.store.cached (suffixedKey request.idempotencyKey ":submit") = none) :
    Submittable w m leaseId request ↔ ∃ refs, ((submitArtifact leaseId request.outputPipe
      request.artifactRefs (suffixedKey request.idempotencyKey ":submit")).run w m).1 =
        .ok refs := by
  constructor
  · rintro ⟨l, c, hl, hc, hactive, q, destination, hq, hroute, hbelong, haccepted⟩
    exact ⟨_, congrArg Prod.fst (run_submitArtifact_of_ok hkey
      ⟨hl, hc, hq, hroute, hbelong, haccepted⟩ hactive)⟩
  · rintro ⟨refs, hrefs⟩
    obtain ⟨l, c, q, destination, ⟨hl, hc, hq, hroute, hbelong, haccepted⟩, hactive⟩ :=
      submitArtifact_ok hkey (Prod.ext hrefs rfl)
    exact ⟨l, c, hl, hc, hactive, q, destination, hq, hroute, hbelong, haccepted⟩

/-- The state after a claim that took the pick. -/
def afterClaim (w : World) (m : Machine InMemoryCardRuntime) (request : WorkerExecutionInput)
    (x : ClaimMatch) (c : Card) (e : Instant) (i : Nat) : Machine InMemoryCardRuntime :=
  ⟨m.store.claimed (suffixedKey request.idempotencyKey ":claim")
    (leaseOf w m request.inputPipe request.workerId x c e i)
    (claimEvent w m request.inputPipe request.workerId c i), i + 3, m.draws + 2⟩

theorem afterClaim_lease {x : ClaimMatch} {c : Card} {e : Instant} {i : Nat} :
    (afterClaim w m request x c e i).store.leases.get? (w.uuid4 m.draws) =
      some (leaseOf w m request.inputPipe request.workerId x c e i) := by
  simp only [afterClaim, claimed, putKey_leases, putEvent_leases, putLease_leases]
  exact Dict.get?_set_self _ _ _

theorem afterClaim_history {x : ClaimMatch} {c : Card} {e : Instant} {i : Nat} :
    (afterClaim w m request x c e i).store.history c.id =
      m.store.history c.id ++ [claimEvent w m request.inputPipe request.workerId c i] := by
  have hput : (afterClaim w m request x c e i).store.events =
      (m.store.putEvent (claimEvent w m request.inputPipe request.workerId c i)).events := by
    simp only [afterClaim, claimed, putKey_events]
    rfl
  rw [history_of_putEvent hput]
  exact if_pos rfl

/-- A submission right after the claim: the lease has to last and the card has to fit. -/
theorem submittable_afterClaim (hkeyed : WellKeyed m.store) {x : ClaimMatch} {c : Card}
    {e : Instant} {i : Nat} (h : Picks w m request.inputPipe request.leaseSeconds x c e i) :
    Submittable w (afterClaim w m request x c e i) (w.uuid4 m.draws) request ↔
      w.clock (i + 3) < e ∧ Fits w m.store c x.nodeId request := by
  have hcards : (afterClaim w m request x c e i).store.cards = m.store.cards := by
    simp [afterClaim, claimed]
  have hpanels : (afterClaim w m request x c e i).store.patchPanels = m.store.patchPanels := by
    simp [afterClaim, claimed]
  have hactive : (leaseOf w m request.inputPipe request.workerId x c e i).activeAt
      (w.clock (i + 3)) = true ↔ w.clock (i + 3) < e := by
    simp only [Lease.activeAt, leaseOf, Option.isNone_none, Bool.true_and]
    exact decide_eq_true_iff
  unfold Submittable Fits
  rw [afterClaim_lease, hcards, hpanels]
  constructor
  · rintro ⟨l, c', hl, hc', hact, hfits⟩
    cases hl
    have hsame : some c = some c' := h.stored hkeyed ▸ hc'
    cases hsame
    exact ⟨hactive.mp hact, hfits⟩
  · rintro ⟨hlt, hfits⟩
    exact ⟨_, c, rfl, h.stored hkeyed, hactive.mpr hlt, hfits⟩

/-- A submission is confirmed when it leaves through the worker's own output. -/
theorem confirmed_of_submits (hkeyed : WellKeyed m₁.store) {leaseId : Uuid}
    {key : Option String} {l' : Lease} {c : Card} {destination : String} {t : Instant}
    {e : CardEvent} (h : Submits w m₁ m₂ leaseId request.outputPipe request.artifactRefs key l' c
      destination t e) (hcard : l'.cardId = l.cardId) (hown : OwnOutput p n request) :
    Confirmed p n request m₂.store l
      (request.artifactRefs.map fun ref =>
        { ref with cardId := c.id, eventId := some e.id }) := by
  obtain ⟨q, hok⟩ := h.checks
  have hcid : c.id = l.cardId := (hkeyed.cards hok.card).trans hcard
  refine ⟨?_, ⟨{ c with currentBucket := destination }, ?_⟩, ⟨e, ?_, h.event.2.1⟩, hown⟩
  · intro hnil
    have hbelong := hok.belong
    rw [List.map_eq_nil_iff.mp hnil] at hbelong
    cases hbelong
  · rw [h.logged.cards, ← hcid]
    exact Dict.get?_set_self _ _ _
  · rw [h.logged.history, h.event.1, if_pos hcid.symm]
    exact List.getLast?_concat

theorem submitArtifact_history {leaseId : Uuid} {key : Option String}
    {r : Except PyErr (List ArtifactReference)}
    (h : (submitArtifact leaseId request.outputPipe request.artifactRefs key).run w m₁ = (r, m₂))
    (x : Uuid) : (m₁.store.history x).length ≤ (m₂.store.history x).length := by
  rcases submitArtifact_cases h with hsame | ⟨l, c, destination, t, e, -, hsubmits⟩
  · rw [hsame.store]
  · rw [hsubmits.logged.history]
    split
    · simp
    · exact Nat.le_refl _

/-- A claim whose key answers a lease changes nothing. -/
theorem run_claimCard_of_cached {pipe worker : String} {seconds : Int} {key : Option String}
    {v : Stored} (hv : m.store.cached key = some v) (hl : v.lease? = some l) :
    (claimCard pipe worker seconds key).run w m = (.ok l, m) := by
  rw [claimCard, run_idempotent, hv]
  simp only [hl]

/-- Without a worker node or without a claim an execution leaves the stores alone. -/
theorem executeWorker_unclaimed
    (hclaim : ∀ n l, nodeForPipe p request.inputPipe .worker = .ok n →
      ((claimCard request.inputPipe request.workerId request.leaseSeconds
        (suffixedKey request.idempotencyKey ":claim")).run w m).1 ≠ .ok l) :
    SameStore m (((onMemory p).executeWorker request).run w m).2 := by
  rw [executeWorker_eq, Exec.run_bind, Op.run_ofExcept]
  cases hn : nodeForPipe (onMemory p).patchPanel request.inputPipe .worker with
  | error e => exact .refl _
  | ok n =>
    rcases hrun : (claimCard request.inputPipe request.workerId request.leaseSeconds
      (suffixedKey request.idempotencyKey ":claim")).run w m with ⟨r₁, m₁⟩
    cases r₁ with
    | ok l => exact absurd (congrArg Prod.fst hrun) (hclaim n l hn)
    | error e =>
      rcases claimCard_cases hrun with ⟨hsame, -⟩ | ⟨l, e', hl, -⟩
      · have herror := Exec.run_bind_error (f := fun lease => ((onMemory p).runtime.submitArtifact
          lease.id request.outputPipe request.artifactRefs
          (suffixedKey request.idempotencyKey ":submit") >>= fun refs =>
            (onMemory p).submissionChecks request n lease refs)) hrun
        exact (congrArg Prod.snd herror).symm ▸ hsame
      · cases hl

/-- With a replayed claim only an unconfirmed submission can fail after it was made. -/
theorem executeWorker_replayed (hm : LeaseAnswers w m)
    (hn : nodeForPipe p request.inputPipe .worker = .ok n) {v : Stored}
    (hv : m.store.cached (suffixedKey request.idempotencyKey ":claim") = some v)
    (hl : v.lease? = some l)
    (hown : m.store.cached (suffixedKey request.idempotencyKey ":submit") = none →
      Submittable w m l.id request → OwnOutput p n request) :
    ∃ r m', ((onMemory p).executeWorker request).run w m = (r, m') ∧
      (SameStore m m' ∨ ∃ refs, r = .ok refs) := by
  rcases hsubmit : (submitArtifact l.id request.outputPipe request.artifactRefs
    (suffixedKey request.idempotencyKey ":submit")).run w m with ⟨r₂, m₂⟩
  obtain ⟨r, hr, hiff⟩ := executeWorker_after_claim hn (run_claimCard_of_cached hv hl) hsubmit
  refine ⟨r, m₂, hr, ?_⟩
  rcases submitArtifact_cases hsubmit with hsame | ⟨l', c, d, t, e, hrefs, hsubmits⟩
  · exact .inl hsame
  · obtain ⟨q, hok⟩ := hsubmits.checks
    obtain ⟨l₀, hl₀, hcard⟩ := hm.answers _ v l hv hl
    obtain rfl : l₀ = l' := Option.some.inj (hl₀.symm.trans hok.lease)
    have hsubmittable : Submittable w m l.id request :=
      (submittable_iff hsubmits.uncached).mpr ⟨_, (congrArg Prod.fst hsubmit).trans hrefs⟩
    exact .inr ⟨_, (hiff _).mpr ⟨hrefs, confirmed_of_submits hm.keyed hsubmits hcard
      (hown hsubmits.uncached hsubmittable)⟩⟩

/-- A new claim whose submission is new and fits is confirmed. -/
theorem executeWorker_fresh (hm : LeaseAnswers w m)
    (hn : nodeForPipe p request.inputPipe .worker = .ok n)
    (hkey : m.store.cached (suffixedKey request.idempotencyKey ":claim") = none) {x : ClaimMatch}
    {c : Card} {e : Instant} {i : Nat}
    (hpicks : Picks w m request.inputPipe request.leaseSeconds x c e i) :
    (∃ refs, (((onMemory p).executeWorker request).run w m).1 = .ok refs) ↔
      m.store.cached (suffixedKey request.idempotencyKey ":submit") = none ∧
        w.clock (i + 3) < e ∧ Fits w m.store c x.nodeId request ∧ OwnOutput p n request := by
  have hclaim : (claimCard request.inputPipe request.workerId request.leaseSeconds
      (suffixedKey request.idempotencyKey ":claim")).run w m =
      (.ok (leaseOf w m request.inputPipe request.workerId x c e i),
        afterClaim w m request x c e i) := run_claimCard_of_picks hkey hpicks
  have hkeyed : WellKeyed (afterClaim w m request x c e i).store := by
    rcases claimCard_cases hclaim with ⟨-, hold⟩ | ⟨l', e', -, hclaims⟩
    · obtain ⟨v, hv, -⟩ := hold _ rfl
      rw [hkey] at hv
      cases hv
    · exact hm.keyed.effect (.claims hclaims)
  have hcached : (afterClaim w m request x c e i).store.cached
      (suffixedKey request.idempotencyKey ":submit") =
      m.store.cached (suffixedKey request.idempotencyKey ":submit") :=
    cached_claimed_submit m.store _ _
  rcases hsubmit : (submitArtifact (w.uuid4 m.draws) request.outputPipe request.artifactRefs
    (suffixedKey request.idempotencyKey ":submit")).run w (afterClaim w m request x c e i)
    with ⟨r₂, m₂⟩
  obtain ⟨r, hr, hiff⟩ := executeWorker_after_claim hn hclaim hsubmit
  rw [hr, ← hcached]
  constructor
  · rintro ⟨refs, hrefs⟩
    obtain ⟨hr₂, hconfirmed⟩ := (hiff refs).mp hrefs
    rcases idempotent_cases hsubmit with ⟨rfl, -⟩ | ⟨hnew, -⟩
    · -- A replayed submission leaves the claim as the last event.
      obtain ⟨e', hlast, htype⟩ := hconfirmed.last
      rw [show (leaseOf w m request.inputPipe request.workerId x c e i).cardId = c.id from rfl,
        afterClaim_history, List.getLast?_concat] at hlast
      cases hlast
      exact absurd htype (by simp [claimEvent])
    · obtain ⟨hlt, hfits⟩ := (submittable_afterClaim hm.keyed hpicks).mp
        ((submittable_iff hnew).mpr ⟨refs, (congrArg Prod.fst hsubmit).trans hr₂⟩)
      exact ⟨hnew, hlt, hfits, hconfirmed.output⟩
  · rintro ⟨hnew, hlt, hfits, hown⟩
    obtain ⟨refs, hrefs⟩ := (submittable_iff hnew).mp
      ((submittable_afterClaim hm.keyed hpicks).mpr ⟨hlt, hfits⟩)
    rw [hsubmit] at hrefs
    dsimp only at hrefs
    subst hrefs
    obtain ⟨l', c', d, t, e', rfl, hsubmits⟩ := submitArtifact_made hnew hsubmit
    obtain ⟨q, hok⟩ := hsubmits.checks
    have hl' : l' = leaseOf w m request.inputPipe request.workerId x c e i :=
      Option.some.inj (hok.lease.symm.trans afterClaim_lease)
    exact ⟨_, (hiff _).mpr ⟨rfl, confirmed_of_submits hkeyed hsubmits (by rw [hl']) hown⟩⟩

/-- A new claim is in the history of its card whatever comes after it. -/
theorem executeWorker_claimed (hn : nodeForPipe p request.inputPipe .worker = .ok n)
    (hkey : m.store.cached (suffixedKey request.idempotencyKey ":claim") = none) {x : ClaimMatch}
    {c : Card} {e : Instant} {i : Nat}
    (hpicks : Picks w m request.inputPipe request.leaseSeconds x c e i) :
    (m.store.history c.id).length <
      ((((onMemory p).executeWorker request).run w m).2.store.history c.id).length := by
  have hclaim : (claimCard request.inputPipe request.workerId request.leaseSeconds
      (suffixedKey request.idempotencyKey ":claim")).run w m =
      (.ok (leaseOf w m request.inputPipe request.workerId x c e i),
        afterClaim w m request x c e i) := run_claimCard_of_picks hkey hpicks
  rcases hsubmit : (submitArtifact (w.uuid4 m.draws) request.outputPipe request.artifactRefs
    (suffixedKey request.idempotencyKey ":submit")).run w (afterClaim w m request x c e i)
    with ⟨r₂, m₂⟩
  obtain ⟨r, hr, -⟩ := executeWorker_after_claim hn hclaim hsubmit
  have hgrows := submitArtifact_history hsubmit c.id
  rw [afterClaim_history, List.length_append, List.length_singleton] at hgrows
  rw [hr]
  exact Nat.lt_of_succ_le hgrows

/-- A submission that was made is in the history of its card. -/
theorem executeWorker_submitted (hn : nodeForPipe p request.inputPipe .worker = .ok n)
    {v : Stored}
    (hv : m.store.cached (suffixedKey request.idempotencyKey ":claim") = some v)
    (hl : v.lease? = some l)
    (hnew : m.store.cached (suffixedKey request.idempotencyKey ":submit") = none)
    (hsubmittable : Submittable w m l.id request) :
    ∃ r m', ((onMemory p).executeWorker request).run w m = (r, m') ∧
      m'.store.events ≠ m.store.events ∧ ∀ refs, r = .ok refs → OwnOutput p n request := by
  obtain ⟨stored, hstored⟩ := (submittable_iff hnew).mp hsubmittable
  rcases hsubmit : (submitArtifact l.id request.outputPipe request.artifactRefs
    (suffixedKey request.idempotencyKey ":submit")).run w m with ⟨r₂, m₂⟩
  obtain rfl : r₂ = .ok stored := (congrArg Prod.fst hsubmit).symm.trans hstored
  obtain ⟨r, hr, hiff⟩ := executeWorker_after_claim hn (run_claimCard_of_cached hv hl) hsubmit
  obtain ⟨l', c, d, t, e, -, hsubmits⟩ := submitArtifact_made hnew hsubmit
  refine ⟨r, m₂, hr, ?_, fun refs hrefs => ((hiff refs).mp hrefs).2.output⟩
  intro hsame
  have hhistory := hsubmits.logged.history e.cardId
  rw [if_pos rfl, history_of_events hsame] at hhistory
  simp at hhistory

/-- A failed execution has written nothing exactly when the claim and the submission that
go through are followed by checks that pass. -/
theorem failureKeeps_iff (hm : LeaseAnswers w m) :
    FailureKeeps w p request m ↔ Completes w p request m := by
  constructor
  · intro h n hn
    refine ⟨fun v l hv hl hnew hsubmittable => ?_, fun hkey x c e i hpicks => ?_⟩
    · obtain ⟨r, m', hr, hevents, hown⟩ :=
        executeWorker_submitted hn hv hl hnew hsubmittable
      cases r with
      | error err => exact absurd (h err m' hr).2.2.2 hevents
      | ok refs => exact hown refs rfl
    · apply (executeWorker_fresh hm hn hkey hpicks).mp
      have hgrows := executeWorker_claimed hn hkey hpicks
      rcases hr : ((onMemory p).executeWorker request).run w m with ⟨r, m'⟩
      cases r with
      | error err =>
        rw [hr, history_of_events (h err m' hr).2.2.2] at hgrows
        exact absurd hgrows (Nat.lt_irrefl _)
      | ok refs => exact ⟨refs, rfl⟩
  · intro h err m' hrun
    suffices hsame : SameStore m m' by
      rw [hsame.store]
      exact ⟨rfl, rfl, rfl, rfl⟩
    by_cases hclaimed : ∃ n l, nodeForPipe p request.inputPipe .worker = .ok n ∧
        ((claimCard request.inputPipe request.workerId request.leaseSeconds
          (suffixedKey request.idempotencyKey ":claim")).run w m).1 = .ok l
    · obtain ⟨n, l, hn, hl⟩ := hclaimed
      have hclaim : (claimCard request.inputPipe request.workerId request.leaseSeconds
          (suffixedKey request.idempotencyKey ":claim")).run w m = (.ok l, _) := Prod.ext hl rfl
      obtain ⟨hreplay, hfresh⟩ := h n hn
      cases hkey : m.store.cached (suffixedKey request.idempotencyKey ":claim") with
      | some v =>
        have hlease : v.lease? = some l := by
          rcases idempotent_cases hclaim with ⟨-, v', hv', hlease⟩ | ⟨hnone, -⟩
          · rw [hkey] at hv'
            cases hv'
            exact hlease l rfl
          · rw [hkey] at hnone
            cases hnone
        obtain ⟨r, m₂, hr, hsame | ⟨refs, hrefs⟩⟩ :=
          executeWorker_replayed hm hn hkey hlease (hreplay v l hkey hlease)
        · rw [hr] at hrun
          cases hrun
          exact hsame
        · rw [hr, hrefs] at hrun
          cases hrun
      | none =>
        obtain ⟨x, c, e, i, hpicks⟩ := picks_of_claimCard hkey hclaim
        obtain ⟨refs, hrefs⟩ := (executeWorker_fresh hm hn hkey hpicks).mpr
          (hfresh hkey x c e i hpicks)
        rw [hrun] at hrefs
        cases hrefs
    · push Not at hclaimed
      have hsame := executeWorker_unclaimed hclaimed
      rw [hrun] at hsame
      exact hsame

end Failures

/-- In every reached state, for every executor panel and request, an execution that raises
has written nothing if and only if the condition holds. -/
theorem failed_execution_keeps_iff (w : World) (calls : List RuntimeCall) (p : PatchPanel)
    (request : WorkerExecutionInput) :
    FailureKeeps w p request (runCalls w calls) ↔ Completes w p request (runCalls w calls) :=
  failureKeeps_iff (runCalls_leaseAnswers w calls)

/-- A card that waits for the worker of a line. -/
def waitingCalls : List RuntimeCall :=
  [.registerPatchPanel (PatchPanelValidator.linePanel "orders" "1"),
    .createCard "orders" [] none none]

/-- A request for an output pipe that no panel binds. -/
def strayRequest : WorkerExecutionInput where
  inputPipe := "work_in"
  outputPipe := "work_done"
  workerId := "w1"
  artifactRefs := [⟨⟨90⟩, ⟨0⟩, none, "s3://report", "h1", "text/plain", 1, [], 0⟩]
  leaseSeconds := 300
  idempotencyKey := none

/-- The execution raises and leaves its lease on the card. -/
theorem stray_execution_leases : ¬ ∀ w calls p request,
    FailureKeeps w p request (runCalls w calls) := by
  intro h
  obtain ⟨err, m', hrun⟩ : ∃ err m',
      ((onMemory (PatchPanelValidator.linePanel "orders" "1")).executeWorker strayRequest).run
        .simple (runCalls .simple waitingCalls) = (.error err, m') := ⟨_, _, rfl⟩
  have hleases := (h .simple waitingCalls _ strayRequest err m' hrun).2.1
  have hone : (((onMemory (PatchPanelValidator.linePanel "orders" "1")).executeWorker
      strayRequest).run .simple (runCalls .simple waitingCalls)).2.store.leases.entries.length =
        1 := by decide +kernel
  have hnone : (runCalls .simple waitingCalls).store.leases.entries.length = 0 := by decide +kernel
  rw [hrun, hleases, hnone] at hone
  cases hone

/-! ## Executions that are tried again -/

section Retries
variable {w : World} {m m₁ : Machine InMemoryCardRuntime} {p : PatchPanel}
  {request : WorkerExecutionInput} {n : NodeDefinition} {l : Lease}

/-- An execution that returned went through a claim and a submission, in this order. -/
theorem executeWorker_ok {refs : List ArtifactReference}
    (h : ((onMemory p).executeWorker request).run w m = (.ok refs, m₁)) :
    ∃ n l s, nodeForPipe p request.inputPipe .worker = .ok n ∧
      (claimCard request.inputPipe request.workerId request.leaseSeconds
        (suffixedKey request.idempotencyKey ":claim")).run w m = (.ok l, s) ∧
      (submitArtifact l.id request.outputPipe request.artifactRefs
        (suffixedKey request.idempotencyKey ":submit")).run w s = (.ok refs, m₁) ∧
      Confirmed p n request m₁.store l refs := by
  have hbody := h
  rw [executeWorker_eq] at hbody
  obtain ⟨n, s₀, hn, hrest⟩ := Exec.bind_ok hbody
  obtain ⟨rfl, hnode⟩ := ofExcept_ok hn
  obtain ⟨l, s, hclaim, hrest'⟩ := Exec.bind_ok hrest
  obtain ⟨refs', s', hsubmit, -⟩ := Exec.bind_ok hrest'
  obtain ⟨r, hr, hiff⟩ := executeWorker_after_claim (p := p) hnode hclaim hsubmit
  rw [h] at hr
  obtain ⟨rfl, rfl⟩ := Prod.mk.inj hr
  obtain ⟨hrefs, hconfirmed⟩ := (hiff refs).mp rfl
  exact ⟨n, l, s, hnode, hclaim, hrefs ▸ hsubmit, hconfirmed⟩

/-- A claim that returned leaves its lease under its key. -/
theorem claimCard_answers {pipe worker : String} {seconds : Int} {key : Option String} {k : String}
    (hk : truthyStr key = some k)
    (h : (claimCard pipe worker seconds key).run w m = (.ok l, m₁)) :
    m₁.store.cached key = some (.lease l) := by
  rcases idempotent_cases h with ⟨rfl, v, hv, hl⟩ | ⟨hkey, -⟩
  · have hlease := hl l rfl
    cases v <;> cases hlease
    exact hv
  · obtain ⟨x, c, e, i, hpicks⟩ := picks_of_claimCard hkey h
    rw [run_claimCard_of_picks hkey hpicks] at h
    obtain ⟨hl, hm⟩ := Prod.mk.inj h
    cases hl
    rw [← hm]
    exact cached_putKey_self hk rfl

/-- A submission that returned leaves its references under its key. -/
theorem submitArtifact_answers {leaseId : Uuid} {pipe : String} {refs stored : List ArtifactReference}
    {key : Option String} {k : String} (hk : truthyStr key = some k)
    (h : (submitArtifact leaseId pipe refs key).run w m = (.ok stored, m₁)) (hne : stored ≠ []) :
    m₁.store.cached key = some (.artifacts stored) := by
  rcases idempotent_cases h with ⟨rfl, v, hv, hrefs⟩ | ⟨hkey, -⟩
  · have hstored := hrefs stored rfl
    cases v <;> cases hstored
    exact hv
  · obtain ⟨l, c, destination, t, e, rfl, hsubmits⟩ := submitArtifact_made hkey h
    rw [hsubmits.store]
    refine cached_putKey_self hk ?_
    simp only [Stored.truthy, Bool.not_eq_true', List.isEmpty_eq_false_iff]
    exact hne

/-- With both answers an execution only makes its checks. -/
theorem run_executeWorker_of_answers (hn : nodeForPipe p request.inputPipe .worker = .ok n)
    {refs : List ArtifactReference}
    (hclaim : m.store.cached (suffixedKey request.idempotencyKey ":claim") = some (.lease l))
    (hsubmit : m.store.cached (suffixedKey request.idempotencyKey ":submit") =
      some (.artifacts refs)) :
    ((onMemory p).executeWorker request).run w m = (.ok refs, m) ↔
      Confirmed p n request m.store l refs := by
  have hreplayed : (submitArtifact l.id request.outputPipe request.artifactRefs
      (suffixedKey request.idempotencyKey ":submit")).run w m = (.ok refs, m) := by
    rw [submitArtifact, run_idempotent, hsubmit]
    rfl
  obtain ⟨r, hr, hiff⟩ :=
    executeWorker_after_claim hn (run_claimCard_of_cached hclaim rfl) hreplayed
  rw [hr]
  constructor
  · intro h
    exact ((hiff refs).mp (congrArg Prod.fst h)).2
  · intro h
    rw [(hiff refs).mpr ⟨rfl, h⟩]

/-- The card of the lease that answers the claim key was last submitted. -/
def RetryReady (s : InMemoryCardRuntime) (request : WorkerExecutionInput) : Prop :=
  ∃ l, s.cached (suffixedKey request.idempotencyKey ":claim") = some (.lease l) ∧
    LastSubmitted s l.cardId

/-- After an execution under a key has returned, and after any calls that followed, the
same request returns the same references and changes nothing if and only if the last event
of its card is a submission. -/
theorem retry_returns_iff (calls : List RuntimeCall) {k : String}
    (hk : truthyStr request.idempotencyKey = some k) {refs : List ArtifactReference}
    (h : ((onMemory p).executeWorker request).run w (runCalls w calls) = (.ok refs, m₁))
    (later : List RuntimeCall) :
    ((onMemory p).executeWorker request).run w (later.foldl (RuntimeCall.step w) m₁) =
        (.ok refs, later.foldl (RuntimeCall.step w) m₁) ↔
      RetryReady (later.foldl (RuntimeCall.step w) m₁).store request := by
  obtain ⟨n, l, s, hn, hclaim, hsubmit, hconfirmed⟩ := executeWorker_ok h
  have hkc : truthyStr (suffixedKey request.idempotencyKey ":claim") = some (k ++ ":claim") := by
    rw [suffixedKey, hk]
    exact truthyStr_some (by simp)
  have hks : truthyStr (suffixedKey request.idempotencyKey ":submit") = some (k ++ ":submit") := by
    rw [suffixedKey, hk]
    exact truthyStr_some (by simp)
  have hfirst : Effect w (runCalls w calls) s := by
    rw [show s = RuntimeCall.step w (runCalls w calls) (.claimCard request.inputPipe
      request.workerId request.leaseSeconds (suffixedKey request.idempotencyKey ":claim"))
      from (congrArg Prod.snd hclaim).symm]
    exact RuntimeCall.step_effect w _ _
  have hsecond : Effect w s m₁ := by
    rw [show m₁ = RuntimeCall.step w s (.submitArtifact l.id request.outputPipe
      request.artifactRefs (suffixedKey request.idempotencyKey ":submit"))
      from (congrArg Prod.snd hsubmit).symm]
    exact RuntimeCall.step_effect w _ _
  have hlater : LeaseAnswers w (later.foldl (RuntimeCall.step w) m₁) := 
    (((runCalls_leaseAnswers w calls).effect hfirst).effect hsecond).run later
  have hcached : (later.foldl (RuntimeCall.step w) m₁).store.cached
      (suffixedKey request.idempotencyKey ":claim") = some (.lease l) :=
    foldl_keeps_cached later (hsecond.keeps_cached (claimCard_answers hkc hclaim))
  have hstored : (later.foldl (RuntimeCall.step w) m₁).store.cached
      (suffixedKey request.idempotencyKey ":submit") = some (.artifacts refs) :=
    foldl_keeps_cached later (submitArtifact_answers hks hsubmit hconfirmed.refs)
  rw [run_executeWorker_of_answers hn hcached hstored]
  constructor
  · intro hagain
    exact ⟨l, hcached, hagain.last⟩
  · rintro ⟨l', hl', hlast⟩
    have hsame : l' = l := by
      rw [hcached] at hl'
      cases hl'
      rfl
    rw [hsame] at hlast
    obtain ⟨e, he, htype⟩ := hlast
    have hne : (later.foldl (RuntimeCall.step w) m₁).store.history l.cardId ≠ [] := by
      intro hnil
      rw [hnil] at he
      cases he
    have hcard := hlater.issued.events l.cardId hne
    exact ⟨hconfirmed.refs, Option.isSome_iff_exists.mp hcard, ⟨e, he, htype⟩, hconfirmed.output⟩

end Retries

/-- A request of the same worker for its own output, under a key. -/
def jobRequest : WorkerExecutionInput :=
  { strayRequest with outputPipe := "work_out", idempotencyKey := some "job" }

/-- Another card arrives before the retry. -/
theorem retry_returns_iff_arrival : ∃ refs m₁,
    ((onMemory (PatchPanelValidator.linePanel "orders" "1")).executeWorker jobRequest).run .simple
      (runCalls .simple waitingCalls) = (.ok refs, m₁) ∧
    (((onMemory (PatchPanelValidator.linePanel "orders" "1")).executeWorker jobRequest).run .simple
        ([.createCard "orders" [] none none].foldl (RuntimeCall.step .simple) m₁) =
        (.ok refs, [.createCard "orders" [] none none].foldl (RuntimeCall.step .simple) m₁) ↔
      RetryReady ([.createCard "orders" [] none none].foldl (RuntimeCall.step .simple) m₁).store
        jobRequest) := by
  obtain ⟨refs, m₁, hrun⟩ : ∃ refs m₁,
      ((onMemory (PatchPanelValidator.linePanel "orders" "1")).executeWorker jobRequest).run
        .simple (runCalls .simple waitingCalls) = (.ok refs, m₁) := ⟨_, _, rfl⟩
  exact ⟨refs, m₁, hrun,
    retry_returns_iff waitingCalls rfl hrun [.createCard "orders" [] none none]⟩

/-- The operator sends the card back before the retry. -/
def sendsBack : RuntimeCall := .moveCard ⟨0⟩ "inbox" (some "operator") none none

/-- The retry of an execution that returned raises. -/
theorem retry_after_move_raises : ¬ ∀ w calls p request k refs m₁ (later : List RuntimeCall),
    truthyStr request.idempotencyKey = some k →
    ((onMemory p).executeWorker request).run w (runCalls w calls) = (.ok refs, m₁) →
    ((onMemory p).executeWorker request).run w (later.foldl (RuntimeCall.step w) m₁) =
      (.ok refs, later.foldl (RuntimeCall.step w) m₁) := by
  intro h
  obtain ⟨refs, m₁, hrun⟩ : ∃ refs m₁,
      ((onMemory (PatchPanelValidator.linePanel "orders" "1")).executeWorker jobRequest).run
        .simple (runCalls .simple waitingCalls) = (.ok refs, m₁) := ⟨_, _, rfl⟩
  have hagain := h .simple waitingCalls _ jobRequest "job" refs m₁ [sendsBack] rfl hrun
  have hraises : (((onMemory (PatchPanelValidator.linePanel "orders" "1")).executeWorker
      jobRequest).run .simple (sendsBack.step .simple (((onMemory
        (PatchPanelValidator.linePanel "orders" "1")).executeWorker jobRequest).run .simple
          (runCalls .simple waitingCalls)).2)).1.toOption.isSome = false := by decide +kernel
  rw [hrun] at hraises
  rw [List.foldl_cons, List.foldl_nil] at hagain
  rw [hagain] at hraises
  cases hraises

end GhostMesh.NodeExecutor
