import GhostMesh.Runtime.CardRecords
import GhostMesh.Runtime.LeaseExclusivity
import GhostMesh.Runtime.PipeRouting
import GhostMesh.Runtime.WorkflowVersion

/-!
# Where a leased card is submitted from

A submission looks at the lease, its node and the output pipe, and never at the bucket
that the card is in. A validation or a move looks at no lease. The card of a lease that
can still be submitted is in the bucket of its input pipe as long as none of them takes
it elsewhere and no panel is registered that binds the pipe to another bucket.
-/

set_option autoImplicit false

namespace GhostMesh

open InMemoryCardRuntime Op
open PatchPanelValidator (accepts)

namespace InMemoryCardRuntime

/-- A clock reading that is still to come finds the lease active. -/
def Usable (w : World) (m : Machine InMemoryCardRuntime) (l : Lease) : Prop :=
  ∃ i, m.ticks ≤ i ∧ l.activeAt (w.clock i) = true

/-- A stored lease of the card that can still be used. -/
structure Leased (w : World) (m : Machine InMemoryCardRuntime) (card : Uuid) (l : Lease) :
    Prop where
  stored : ∃ id, m.store.leases.get? id = some l
  cardId : l.cardId = card
  usable : Usable w m l

/-- The card and the panel that its version string leads to. -/
structure CardOf (s : InMemoryCardRuntime) (card : Uuid) (c : Card) (p : PatchPanel) : Prop where
  stored : s.cards.get? card = some c
  panel : s.patchPanels.get? (beforeLastColon c.workflowVersion) = some p

/-- The panel binds the pipe to the bucket. -/
def Binds (p : PatchPanel) (pipe bucket : String) : Prop :=
  ∃ b, p.pipeBindings.get? pipe = some b ∧ b.bucket = bucket

/-- The invariant: every leased card is in the bucket of the lease's input pipe. -/
def AtWork (w : World) (m : Machine InMemoryCardRuntime) : Prop :=
  ∀ id l c p, Leased w m id l → CardOf m.store id c p → Binds p l.inputPipe c.currentBucket

/-- What the code leaves to its callers. A registered panel keeps the buckets of the leased
cards that it gets; a claim finds its card where the version string of the card leads to a
panel that binds the pipe to that bucket as well; and neither a validation, a move nor a
submission takes a card away from a lease that can still be used, other than the lease
that is submitted. -/
def StaysPut (w : World) (m : Machine InMemoryCardRuntime) : RuntimeCall → Prop
  | .registerPatchPanel p => accepts w p = true → ∀ id l c, Leased w m id l →
    m.store.cards.get? id = some c → beforeLastColon c.workflowVersion = p.id →
      Binds p l.inputPipe c.currentBucket
  | .claimCard pipe _ _ key => m.store.cached key = none → ∀ id c p, CardOf m.store id c p →
    ∀ q ∈ m.store.patchPanels.values, q.workflowVersion = c.workflowVersion →
      Binds q pipe c.currentBucket → Binds p pipe c.currentBucket
  | .submitArtifact lease out _ key => m.store.cached key = none → ∀ l l' c p,
    m.store.leases.get? lease = some l → Usable w m l → Leased w m l.cardId l' → l' ≠ l →
    CardOf m.store l.cardId c p → ∀ destination,
      resolvePipeBucket p out .output = .ok (destination, l.nodeId) →
        Binds p l'.inputPipe destination
  | .validateCard card _ _ _ pipe _ key => m.store.cached key = none → ∀ l c p,
    Leased w m card l → CardOf m.store card c p → ∀ out destination nodeId,
      truthyStr pipe = some out → resolvePipeBucket p out .output = .ok (destination, nodeId) →
        Binds p l.inputPipe destination
  | .moveCard card bucket _ _ key => m.store.cached key = none → ∀ l c p, Leased w m card l →
    CardOf m.store card c p → ensureBucketExists p bucket = .ok () → Binds p l.inputPipe bucket
  | _ => True

section Steps
variable {w : World} {m m' : Machine InMemoryCardRuntime} {l : Lease}

theorem Usable.mono (hlater : m.ticks ≤ m'.ticks) (h : Usable w m' l) : Usable w m l := by
  obtain ⟨i, hi, hact⟩ := h
  exact ⟨i, Nat.le_trans hlater hi, hact⟩

theorem not_usable_of_released {t : Instant} (h : l.releasedAt = some t) : ¬ Usable w m l := by
  rintro ⟨i, -, hact⟩
  rw [Lease.activeAt_released h] at hact
  cases hact

/-- Every lease that can be used after a step was one before it, for the same pipe. -/
def NoneNew (w : World) (m m' : Machine InMemoryCardRuntime) : Prop :=
  ∀ id l, Leased w m' id l → ∃ l', Leased w m id l' ∧ l'.inputPipe = l.inputPipe

theorem NoneNew.of_leases (hlater : m.ticks ≤ m'.ticks)
    (hleases : m'.store.leases = m.store.leases) : NoneNew w m m' := by
  rintro id l ⟨⟨a, ha⟩, hcard, husable⟩
  rw [hleases] at ha
  exact ⟨l, ⟨⟨a, ha⟩, hcard, husable.mono hlater⟩, rfl⟩

/-- A lease that is written again as released cannot be used. -/
theorem NoneNew.of_released (hlater : m.ticks ≤ m'.ticks) {l : Lease} {t : Instant}
    (hleases : m'.store.leases = m.store.leases.set l.id { l with releasedAt := some t }) :
    NoneNew w m m' := by
  rintro id l' ⟨⟨a, ha⟩, hcard, husable⟩
  rw [hleases, Dict.get?_set] at ha
  split at ha
  · cases ha
    exact absurd husable (not_usable_of_released rfl)
  · exact ⟨l', ⟨⟨a, ha⟩, hcard, husable.mono hlater⟩, rfl⟩

/-- A lease that is renewed could be used before. -/
theorem NoneNew.of_renews {lease : Uuid} {key : Option String} {l : Lease} {t : Instant}
    {e : CardEvent} (h : Renews w m m' lease key l t e) : NoneNew w m m' := by
  rintro id l' ⟨⟨a, ha⟩, hcard, husable⟩
  have hleases : m'.store.leases = m.store.leases.set l.id { l with expiresAt := t } := by
    rw [h.store]
    simp [renewed]
  rw [hleases, Dict.get?_set] at ha
  split at ha
  · cases ha
    exact ⟨l, ⟨⟨lease, h.lease⟩, hcard, m.ticks, Nat.le_refl _, h.active.2⟩, rfl⟩
  · exact ⟨l', ⟨⟨a, ha⟩, hcard, husable.mono h.later.ticks⟩, rfl⟩

/-- An expiry only releases leases. -/
theorem expires_leases {t : Instant} {ls : List Lease} {s s' : InMemoryCardRuntime}
    (h : Expires t ls s s') : ∀ id l, s'.leases.get? id = some l →
      l.releasedAt ≠ none ∨ s.leases.get? id = some l := by
  induction h with
  | done s => exact fun id l hl => .inr hl
  | keep _ _ ih => exact ih
  | @lapse l₀ ls s s' e _ _ _ _ _ _ ih =>
    intro id l hl
    rcases ih id l hl with hreleased | hold
    · exact .inl hreleased
    · change (s.leases.set l₀.id { l₀ with releasedAt := some t }).get? id = some l at hold
      rw [Dict.get?_set] at hold
      split at hold
      · cases hold
        exact .inl (by simp)
      · exact .inr hold

theorem NoneNew.of_expires {t : Instant} {ls : List Lease} (h : Expires t ls m.store m'.store)
    (hlater : m.ticks ≤ m'.ticks) : NoneNew w m m' := by
  rintro id l ⟨⟨a, ha⟩, hcard, husable⟩
  rcases expires_leases h a l ha with hreleased | hold
  · obtain ⟨r, hr⟩ := Option.ne_none_iff_exists'.mp hreleased
    exact absurd husable (not_usable_of_released hr)
  · exact ⟨l, ⟨⟨a, hold⟩, hcard, husable.mono hlater⟩, rfl⟩

/-- Cards and panels as before. -/
theorem AtWork.of_same (hm : AtWork w m) (hnew : NoneNew w m m')
    (hcards : m'.store.cards = m.store.cards)
    (hpanels : m'.store.patchPanels = m.store.patchPanels) : AtWork w m' := by
  rintro id l c p hleased ⟨hc, hp⟩
  rw [hcards] at hc
  rw [hpanels] at hp
  obtain ⟨l', hleased', hpipe⟩ := hnew id l hleased
  have hbucket := hm id l' c p hleased' ⟨hc, hp⟩
  rw [← hpipe]
  exact hbucket

/-- One card has been written again, in a bucket that its leases do not object to. -/
theorem AtWork.of_moved (hm : AtWork w m) (hnew : NoneNew w m m') {c : Card} {bucket : String}
    (hcards : m'.store.cards = m.store.cards.set c.id { c with currentBucket := bucket })
    (hpanels : m'.store.patchPanels = m.store.patchPanels)
    (hstays : ∀ l p, Leased w m c.id l → CardOf m.store c.id c p → Binds p l.inputPipe bucket)
    (hc : m.store.cards.get? c.id = some c) : AtWork w m' := by
  rintro id l c' p hleased ⟨hc', hp⟩
  rw [hcards, Dict.get?_set] at hc'
  rw [hpanels] at hp
  obtain ⟨l', hleased', hpipe⟩ := hnew id l hleased
  rw [← hpipe]
  split at hc'
  · rename_i hid
    cases hc'
    subst hid
    exact hstays l' p hleased' ⟨hc, hp⟩
  · exact hm id l' c' p hleased' ⟨hc', hp⟩

/-- The new lease is for a card in the bucket of its pipe. -/
theorem AtWork.of_claims (hkeyed : WellKeyed m.store) (hm : AtWork w m) {pipe worker : String}
    {key : Option String} {l : Lease} {e : CardEvent} (h : Claims w m m' pipe worker key l e)
    (hagree : ∀ id c p, CardOf m.store id c p → ∀ q ∈ m.store.patchPanels.values,
      q.workflowVersion = c.workflowVersion → Binds q pipe c.currentBucket →
        Binds p pipe c.currentBucket) : AtWork w m' := by
  have hleases : m'.store.leases = m.store.leases.set l.id l := by
    rw [h.store]
    simp [claimed]
  rintro id l' c p ⟨⟨a, ha⟩, hcard, husable⟩ ⟨hc, hp⟩
  rw [h.noted.cards, Option.elim_none] at hc
  have hpanels : m'.store.patchPanels = m.store.patchPanels := by
    rw [h.store]
    simp [claimed]
  rw [hpanels] at hp
  rw [hleases, Dict.get?_set] at ha
  split at ha
  · cases ha
    obtain ⟨q, bucket, d, i, hq, hres, -, -, hclaim, hid, -⟩ := h.target
    have hd : m.store.cards.get? d.id = some d :=
      Dict.get?_of_keyed (fun _ _ => hkeyed.cards) hclaim.stored
    rw [hid, hcard, hc] at hd
    cases hd
    obtain ⟨b, hb⟩ : ∃ b, q.pipeBindings.get? pipe = some b := by
      cases hb : q.pipeBindings.get? pipe with
      | none =>
        simp only [resolvePipeBucket, hb] at hres
        cases hres
      | some b => exact ⟨b, rfl⟩
    obtain ⟨hbucket, -⟩ := resolvePipeBucket_cases hb hres
    rw [h.pipe]
    refine hagree id c p ⟨hc, hp⟩ q hq hclaim.version.symm ⟨b, hb, ?_⟩
    rw [← hbucket, hclaim.bucket]
  · exact hm id l' c p ⟨⟨a, ha⟩, hcard, husable.mono h.later.ticks⟩ ⟨hc, hp⟩

/-- The lease of a submission is released, and the others of the card have no objection. -/
theorem AtWork.of_submits (hkeyed : WellKeyed m.store) (hm : AtWork w m) {lease : Uuid}
    {pipe destination : String} {refs : List ArtifactReference} {key : Option String} {l : Lease}
    {c : Card} {t : Instant} {e : CardEvent}
    (h : Submits w m m' lease pipe refs key l c destination t e)
    (hothers : ∀ l' p, Leased w m l.cardId l' → l' ≠ l → CardOf m.store l.cardId c p →
      resolvePipeBucket p pipe .output = .ok (destination, l.nodeId) →
        Binds p l'.inputPipe destination) : AtWork w m' := by
  obtain ⟨p₀, hok⟩ := h.checks
  have hleases : m'.store.leases = m.store.leases.set l.id { l with releasedAt := some t } := by
    rw [h.store]
    simp [submitted]
  have hpanels : m'.store.patchPanels = m.store.patchPanels := by
    rw [h.store]
    simp [submitted]
  have hcid : c.id = l.cardId := hkeyed.cards hok.card
  rintro id l' c' p ⟨⟨a, ha⟩, hcard, husable⟩ ⟨hc, hp⟩
  rw [hpanels] at hp
  rw [h.logged.cards, Option.elim_some, Dict.get?_set] at hc
  rw [hleases, Dict.get?_set] at ha
  split at ha
  · cases ha
    exact absurd husable (not_usable_of_released rfl)
  · rename_i hother
    have hleased : Leased w m id l' := ⟨⟨a, ha⟩, hcard, husable.mono h.later.ticks⟩
    split at hc
    · rename_i hid
      cases hc
      rw [hcid] at hid
      subst hid
      have hne : l' ≠ l := by
        rintro rfl
        exact hother (hkeyed.leases ha).symm
      obtain rfl : p₀ = p := Option.some.inj (hok.panel.symm.trans hp)
      exact hothers l' p₀ hleased hne ⟨hok.card, hp⟩ hok.route
    · exact hm id l' c' p hleased ⟨hc, hp⟩

/-- The step lemma. -/
theorem AtWork.step (hkeyed : WellKeyed m.store) (hissued : Issued w m) (hm : AtWork w m)
    (call : RuntimeCall) (hok : StaysPut w m call) : AtWork w (call.step w m) := by
  have heffect := RuntimeCall.step_cases w m call
  generalize call.result w m = r at heffect
  generalize call.step w m = m' at heffect
  have hstored : ∀ {id : Uuid} {c : Card}, m.store.cards.get? id = some c →
      m.store.cards.get? c.id = some c := by
    intro id c hc
    rw [hkeyed.cards hc]
    exact hc
  cases heffect with
  | same h =>
    exact hm.of_same (.of_leases h.ticks (by rw [h.store])) (by rw [h.store]) (by rw [h.store])
  | @registers p report hvalid h =>
    subst h
    rintro id l c p' hleased ⟨hc, hp⟩
    have hleased' : Leased w m id l := ⟨hleased.stored, hleased.cardId, hleased.usable⟩
    rw [putPanel_patchPanels, Dict.get?_set] at hp
    split at hp
    · rename_i hid
      cases hp
      exact hok (PatchPanelValidator.accepts_iff.mpr ⟨report, hvalid⟩) id l c hleased' hc hid
    · exact hm id l c p' hleased' ⟨hc, hp⟩
  | @creates _ _ _ _ c₀ e h =>
    have hnew : NoneNew w m m' :=
      .of_leases h.later.ticks (by rw [h.store]; simp [created])
    have hpanels : m'.store.patchPanels = m.store.patchPanels := by
      rw [h.store]
      simp [created]
    rintro id l c p hleased ⟨hc, hp⟩
    obtain ⟨l', hleased', hpipe⟩ := hnew id l hleased
    rw [h.logged.cards, Option.elim_some, Dict.get?_set] at hc
    rw [hpanels] at hp
    split at hc
    · rename_i hid
      obtain ⟨a, ha⟩ := hleased'.stored
      have hcard := hissued.leases a l' ha
      rw [hleased'.cardId, hid, h.fresh.1, hissued.unused] at hcard
      cases hcard
    · have hbucket := hm id l' c p hleased' ⟨hc, hp⟩
      rw [← hpipe]
      exact hbucket
  | claims h => exact hm.of_claims hkeyed h (hok h.uncached)
  | @submits _ _ _ _ l _ _ _ _ h =>
    obtain ⟨p, hchecks⟩ := h.checks
    exact hm.of_submits hkeyed h fun l' q hl' hne hcard hroute =>
      hok h.uncached l l' _ q hchecks.lease ⟨m.ticks, Nat.le_refl _, h.active.2⟩ hl' hne hcard _
        hroute
  | renews h =>
    refine hm.of_same (.of_renews h) h.noted.cards ?_
    rw [h.store]
    simp [renewed]
  | @releases _ _ _ l t e h =>
    refine hm.of_same (.of_released (l := l) (t := t) h.later.ticks ?_) h.noted.cards ?_
    · rw [h.store]
      simp [released]
    · rw [h.store]
      simp [released]
  | expires h hlater =>
    exact hm.of_same (.of_expires h hlater.ticks) h.cards h.patchPanels
  | @validates _ _ _ _ _ _ _ c route e h =>
    have hnew : NoneNew w m m' :=
      .of_leases h.later.ticks (by rw [h.store]; simp [validated])
    have hpanels : m'.store.patchPanels = m.store.patchPanels := by
      rw [h.store]
      simp [validated]
    cases route with
    | none => exact hm.of_same hnew h.logged.cards hpanels
    | some r =>
      refine hm.of_moved (c := c) hnew h.logged.cards hpanels ?_ (hstored h.card)
      intro l p hleased hcard
      obtain ⟨hpipe, q, nodeId, hq, hres⟩ := h.routed
      obtain rfl : q = p := Option.some.inj (hq.symm.trans hcard.panel)
      rw [hkeyed.cards h.card] at hleased hcard
      exact hok h.uncached l c q hleased hcard r.1 r.2 nodeId hpipe hres
  | @moves _ bucket _ _ _ c e h =>
    have hnew : NoneNew w m m' :=
      .of_leases h.later.ticks (by rw [h.store]; simp [moved])
    have hpanels : m'.store.patchPanels = m.store.patchPanels := by
      rw [h.store]
      simp [moved]
    refine hm.of_moved (c := c) hnew h.logged.cards hpanels ?_ (hstored h.card)
    intro l p hleased hcard
    obtain ⟨q, hq, hbucket⟩ := h.bucket
    obtain rfl : q = p := Option.some.inj (hq.symm.trans hcard.panel)
    rw [hkeyed.cards h.card] at hleased hcard
    exact hok h.uncached l c q hleased hcard hbucket
  | records h =>
    refine hm.of_same (.of_leases h.later.ticks ?_) h.noted.cards ?_
    · rw [h.store]
      simp
    · rw [h.store]
      simp

/-- Every submission that is not answered from its key moves a card that is in the bucket
to which its panel binds the input pipe of the lease. -/
def SubmitsFromInput (w : World) (m : Machine InMemoryCardRuntime) : Prop :=
  ∀ lease pipe refs key stored, m.store.cached key = none →
    ((submitArtifact lease pipe refs key).run w m).1 = .ok stored →
      ∃ l c p, m.store.leases.get? lease = some l ∧ CardOf m.store l.cardId c p ∧
        Binds p l.inputPipe c.currentBucket

theorem AtWork.submits (hm : AtWork w m) : SubmitsFromInput w m := by
  intro lease pipe refs key stored hkey hok
  rcases hrun : (submitArtifact lease pipe refs key).run w m with ⟨r, m'⟩
  obtain rfl : r = .ok stored := (congrArg Prod.fst hrun).symm.trans hok
  obtain ⟨l, c, p, destination, hchecks, hactive⟩ := submitArtifact_ok hkey hrun
  have hcard : CardOf m.store l.cardId c p := ⟨hchecks.card, hchecks.panel⟩
  have hleased : Leased w m l.cardId l :=
    ⟨⟨lease, hchecks.lease⟩, rfl, m.ticks, Nat.le_refl _, hactive⟩
  exact ⟨l, c, p, hchecks.lease, hcard, hm l.cardId l c p hleased hcard⟩

/-- Readings that never go back find a lease that can still be used active at once. -/
theorem Usable.now (hclock : Monotone w.clock) (h : Usable w m l) :
    l.activeAt (w.clock m.ticks) = true := by
  obtain ⟨i, hi, hact⟩ := h
  exact Lease.activeAt_anti (hclock hi) hact

/-- On such a clock a card has one lease that can be used, and a submission asks nothing. -/
theorem StaysPut.submitArtifact (hclock : Monotone w.clock) (hm : LeaseExclusive w m)
    (lease : Uuid) (out : String) (refs : List ArtifactReference) (key : Option String) :
    StaysPut w m (.submitArtifact lease out refs key) := by
  rintro - l l' c p hl husable ⟨⟨a, ha⟩, hcard, husable'⟩ hne - destination -
  have hsame : a = lease :=
    hm _ (.first hclock) a lease l' l ha hl hcard (husable'.now hclock) (husable.now hclock)
  rw [hsame, hl] at ha
  exact absurd (Option.some.inj ha).symm hne

/-- Version strings with one colon lead back to their panel, and a claim asks nothing. -/
theorem StaysPut.claimCard (hkeyed : WellKeyed m.store)
    (hplain : ∀ p ∈ m.store.patchPanels.values, ':' ∉ p.version.toList) (pipe worker : String)
    (seconds : Int) (key : Option String) :
    StaysPut w m (.claimCard pipe worker seconds key) := by
  rintro - id c p ⟨-, hp⟩ q hq hversion hbinds
  have hown : m.store.patchPanels.get? q.id = some q :=
    Dict.get?_of_keyed (fun _ _ => hkeyed.panels) hq
  rw [← hversion, (beforeLastColon_iff q).mpr (hplain q hq), hown] at hp
  cases hp
  exact hbinds

end Steps

/-! ## Runs -/

/-- A run that leaves the leased cards in place submits every card from the bucket of the
input pipe of its lease, in the state that it reaches. -/
theorem submits_from_input (w : World) (calls : List RuntimeCall)
    (h : Permitted (RuntimeCall.step w) (StaysPut w) InMemoryCardRuntime.start calls) :
    SubmitsFromInput w (runCalls w calls) := by
  have hreach : Reaches (RuntimeCall.step w) (StaysPut w) InMemoryCardRuntime.start
      (runCalls w calls) := h.reaches
  have hinv : CardsSound w (runCalls w calls) ∧ AtWork w (runCalls w calls) := by
    refine hreach.invariant (I := fun m => CardsSound w m ∧ AtWork w m) ?_ ?_
    · refine ⟨⟨WellKeyed.init, Issued.start w⟩, ?_⟩
      rintro id l c p - ⟨hc, -⟩
      cases hc
    · rintro m call ⟨hsound, hwork⟩ hok
      exact ⟨hsound.effect (call.step_effect w m), hwork.step hsound.keyed hsound.issued call hok⟩
  exact hinv.2.submits

/-- A card of the review workflow, claimed by a worker. -/
def workCalls : List RuntimeCall :=
  [.registerPatchPanel (PatchPanelValidator.reviewPanel "orders" "1"),
    .createCard "orders" [] none none, .claimCard "work_in" "w1" 300 none]

def workArtifacts : List ArtifactReference :=
  [⟨⟨90⟩, ⟨0⟩, none, "s3://report", "h1", "text/plain", 1, [], 0⟩]

theorem submits_from_input_work :
    (∃ stored, ((submitArtifact ⟨2⟩ "work_out" workArtifacts none).run .simple
      (runCalls .simple workCalls)).1 = .ok stored) ∧
      SubmitsFromInput .simple (runCalls .simple workCalls) := by
  refine ⟨⟨_, rfl⟩, submits_from_input .simple workCalls ⟨?_, trivial, ?_, trivial⟩⟩
  · rintro - id l c ⟨⟨a, ha⟩, -, -⟩
    cases ha
  · refine StaysPut.claimCard (runCalls_wellKeyed .simple (workCalls.take 2)) ?_ _ _ _ _
    decide +kernel

/-- The same card, moved to a terminal bucket while its worker has the lease. -/
def finishedCalls : List RuntimeCall := workCalls ++ [.moveCard ⟨0⟩ "done" "operator" none none]

/-- The old lease takes the finished card back to the review. -/
theorem finished_card_submitted : ¬ ∀ w calls, SubmitsFromInput w (runCalls w calls) := by
  intro h
  obtain ⟨stored, hok⟩ : ∃ stored, ((submitArtifact ⟨2⟩ "work_out" workArtifacts none).run .simple
      (runCalls .simple finishedCalls)).1 = .ok stored := ⟨_, rfl⟩
  have hlease : ((runCalls .simple finishedCalls).store.leases.get? ⟨2⟩).map
      (fun l => (l.cardId, l.inputPipe)) = some (⟨0⟩, "work_in") := by decide +kernel
  have hcard : ((runCalls .simple finishedCalls).store.cards.get? ⟨0⟩).map (·.currentBucket) =
      some "done" := by decide +kernel
  have hpanels : ∀ p ∈ (runCalls .simple finishedCalls).store.patchPanels.values,
      (p.pipeBindings.get? "work_in").map (·.bucket) = some "inbox" := by decide +kernel
  obtain ⟨l, c, p, hl, hcp, b, hb, hbucket⟩ :=
    h .simple finishedCalls ⟨2⟩ "work_out" workArtifacts none stored rfl hok
  rw [hl] at hlease
  obtain ⟨hid, hpipe⟩ := Prod.mk.inj (Option.some.inj hlease)
  have hc := hcp.stored
  rw [hid] at hc
  rw [hc] at hcard
  have hinbox := hpanels p (Dict.mem_values_of_get? hcp.panel)
  rw [← hpipe, hb] at hinbox
  have hsame : ("inbox" : String) = "done" :=
    (Option.some.inj hinbox).symm.trans (hbucket.trans (Option.some.inj hcard))
  exact absurd hsame (by decide)

end InMemoryCardRuntime

end GhostMesh
