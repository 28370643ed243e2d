import GhostMesh.Observability
import GhostMesh.Runtime.CardRecords
import GhostMesh.Runtime.LeaseLife

/-!
# The operator's numbers

`metrics` counts events, and the tables hold cards and leases. After any run the two
accounts agree: a card for each creation, a lease for each claim and worker, and each
closing event accounts for one released lease. Nothing in this repository records a
failed movement.
-/

set_option autoImplicit false

namespace GhostMesh

open InMemoryCardRuntime Op

namespace CardEvent

def isCreation (e : CardEvent) : Bool := e.eventType = "card_created"

def isFailure (e : CardEvent) : Bool := e.eventType ∈ failureTypes

theorem isFailure_false_of_evidence {e : CardEvent} (h : evidenceType e.eventType = true) :
    e.isFailure = false ∧ e.isCreation = false := by
  have hother : ∀ type ∈ "card_created" :: failureTypes, evidenceType type = false := by decide
  have hnot : ∀ type ∈ "card_created" :: failureTypes, e.eventType ≠ type := by
    intro type hmem heq
    rw [heq, hother type hmem] at h
    cases h
  refine ⟨decide_eq_false fun hmem => ?_, decide_eq_false (hnot _ List.mem_cons_self)⟩
  exact hnot _ (List.mem_cons_of_mem _ hmem) rfl

end CardEvent

/-- Under which name the claims of a lease's worker are shown. -/
def Lease.workerName (l : Lease) : String := (truthyStr (some l.workerId)).getD "unknown"

/-- The events of all histories that pass a test. -/
def InMemoryCardRuntime.tallied (s : InMemoryCardRuntime) (P : CardEvent → Bool) : Nat :=
  (s.events.values.map (List.countP P)).sum

section Tally
variable {s s' : InMemoryCardRuntime} {e : CardEvent} {P : CardEvent → Bool}

theorem tallied_of_events (h : s'.events = s.events) : s'.tallied P = s.tallied P := by
  simp only [tallied, h]

theorem tallied_putEvent (h : s'.events = (s.putEvent e).events) :
    s'.tallied P = s.tallied P + if P e then 1 else 0 := by
  have hsum := Dict.sum_map_values_set (List.countP P) s.events e.cardId
    (s.history e.cardId ++ [e])
  have hold : ((s.events.get? e.cardId).map (List.countP P)).getD 0 =
      (s.history e.cardId).countP P := by
    unfold history
    cases s.events.get? e.cardId <;> rfl
  have hnew : (s.history e.cardId ++ [e]).countP P =
      (s.history e.cardId).countP P + if P e then 1 else 0 := by
    rw [List.countP_append, List.countP_singleton]
  rw [hold, hnew] at hsum
  simp only [tallied, h, putEvent]
  omega

theorem tallied_putEvent_of_false (h : s'.events = (s.putEvent e).events) (hP : P e = false) :
    s'.tallied P = s.tallied P := by
  rw [tallied_putEvent h, hP]
  rfl

end Tally

/-! ## Leases and the events about them -/

/-- A test of events that weighs what a test of leases counts. -/
structure Weighs (P : CardEvent → Bool) (Q : Lease → Bool) : Prop where
  note : ∀ e : CardEvent, e.IsNote → P e = false
  claim : ∀ (e : CardEvent) (l : Lease), e.isClaim = true → l.releasedAt = none →
    e.actorId = some l.workerId → P e = Q l
  renew : ∀ l t, Q { l with expiresAt := t } = Q l
  close : ∀ (e : CardEvent) (l : Lease) (t : Instant), e.isClosing = true →
    l.releasedAt = none → (if Q { l with releasedAt := some t } then 1 else 0) =
      (if Q l then 1 else 0) + if P e then 1 else 0

/-- The events weigh as much as the leases count. -/
def Balanced (P : CardEvent → Bool) (Q : Lease → Bool) (s : InMemoryCardRuntime) : Prop :=
  s.tallied P = s.leases.values.countP Q

theorem weighs_claims : Weighs (·.isClaim) fun _ => true where
  note _ he := he.1
  claim _ _ he _ _ := he
  renew _ _ := rfl
  close e _ _ he _ := by
    have hclaim : e.isClaim = false := CardEvent.isClaim_false_of_closing he
    simp [hclaim]

theorem weighs_claims_of (worker : String) :
    Weighs (fun e => e.isClaim && decide (worker = e.workerName))
      fun l => decide (worker = l.workerName) where
  note e he := by rw [he.1, Bool.false_and]
  claim e l he _ hactor := by
    rw [he, Bool.true_and, CardEvent.workerName, hactor]
    rfl
  renew _ _ := rfl
  close e l t he _ := by
    have hclaim : e.isClaim = false := CardEvent.isClaim_false_of_closing he
    rw [hclaim, Bool.false_and]
    rfl

theorem weighs_closings : Weighs (·.isClosing) (·.releasedAt.isSome) where
  note _ he := he.2
  claim e l he hopen _ := by
    rw [hopen]
    cases hclosing : e.isClosing with
    | false => rfl
    | true =>
      rw [CardEvent.isClaim_false_of_closing hclosing] at he
      cases he
  renew _ _ := rfl
  close e l t he hopen := by simp [he, hopen]

section Balance
variable {P : CardEvent → Bool} {Q : Lease → Bool} {s s' : InMemoryCardRuntime}
  {w : World} {m m' : Machine InMemoryCardRuntime}

theorem Closing.balanced {l : Lease} {t : Instant} {e : CardEvent} (h : Closing s s' l t e)
    (hweighs : Weighs P Q) (hs : Balanced P Q s) : Balanced P Q s' := by
  have hleases := Dict.countP_values_set_of_get? Q { l with releasedAt := some t } h.stored
  have hclose := hweighs.close e l t h.closing h.unreleased
  unfold Balanced at hs ⊢
  rw [tallied_putEvent h.events, h.leases, hs]
  omega

theorem Lapses.balanced (h : Relation.ReflTransGen Lapses s s') (hweighs : Weighs P Q)
    (hs : Balanced P Q s) : Balanced P Q s' := by
  induction h with
  | refl => exact hs
  | tail _ hstep ih =>
    obtain ⟨l, t, e, hclosing, -⟩ := hstep
    exact hclosing.balanced hweighs ih

theorem LeaseStep.balanced (h : LeaseStep w m m') (hkeyed : WellKeyed m.store)
    (hdrawn : LeasesDrawn w m.draws m.store) (hweighs : Weighs P Q)
    (hm : Balanced P Q m.store) : Balanced P Q m'.store := by
  unfold Balanced at hm
  cases h with
  | quiet hleases hevents =>
    unfold Balanced
    rw [tallied_of_events hevents, hleases, hm]
  | notes e hnote hleases hevents =>
    unfold Balanced
    rw [tallied_putEvent_of_false hevents (hweighs.note e hnote), hleases, hm]
  | @claims _ _ _ l e h =>
    have hclaim : e.isClaim = true := decide_eq_true h.event.2.1
    have hactor : e.actorId = some l.workerId := by rw [h.event.2.2.1, h.worker]
    have hsame := hweighs.claim e l hclaim h.unreleased hactor
    unfold Balanced
    rw [tallied_putEvent h.events_eq, h.leases_eq,
      Dict.countP_values_set_of_new Q l (h.unstored hdrawn), hm, hsame]
  | @renews _ _ l t e h =>
    have hnote : e.IsNote := .of_type h.event.2.1 (by decide)
    have hleases := Dict.countP_values_set_of_get? Q { l with expiresAt := t } (h.stored hkeyed)
    rw [hweighs.renew l t] at hleases
    unfold Balanced
    rw [tallied_putEvent_of_false h.events_eq (hweighs.note e hnote), h.leases_eq, hm]
    exact (Nat.add_right_cancel hleases).symm
  | submits h _ => exact h.balanced hweighs hm
  | lapses h => exact Lapses.balanced h hweighs hm

end Balance

/-! ## Cards and the events that created them -/

/-- A card comes with its creation; every other event is about no creation and no failure. -/
inductive LedgerStep (s s' : InMemoryCardRuntime) : Prop where
  | creates (c : Card) (e : CardEvent) (new : s.cards.get? c.id = none)
      (cards : s'.cards = s.cards.set c.id c) (events : s'.events = (s.putEvent e).events)
      (type : e.eventType = "card_created")
  | logs (c : Option Card) (e : CardEvent)
      (stored : ∀ x, c = some x → (s.cards.get? x.id).isSome = true)
      (cards : s'.cards = c.elim s.cards fun c => s.cards.set c.id c)
      (events : s'.events = (s.putEvent e).events)
      (plain : e.isFailure = false ∧ e.isCreation = false)

/-- As many creations as cards, and no failed movement. -/
structure Ledger (s : InMemoryCardRuntime) : Prop where
  created : s.tallied (·.isCreation) = s.cards.values.length
  failures : s.tallied (·.isFailure) = 0

section Ledgers
variable {s s' : InMemoryCardRuntime} {w : World} {m m' : Machine InMemoryCardRuntime}
  {e : CardEvent}

theorem Ledger.of_frame (hs : Ledger s) (hcards : s'.cards = s.cards)
    (hevents : s'.events = s.events) : Ledger s' := by
  refine ⟨?_, ?_⟩
  · rw [tallied_of_events hevents, hcards, hs.created]
  · rw [tallied_of_events hevents, hs.failures]

theorem Ledger.step (hs : Ledger s) (h : LedgerStep s s') : Ledger s' := by
  cases h with
  | creates c e hnew hcards hevents htype =>
    have hcreation : e.isCreation = true := decide_eq_true htype
    have hfailure : e.isFailure = false := by
      rw [CardEvent.isFailure, htype]
      decide
    have hlength : s'.cards.values.length = s.cards.values.length + 1 := by
      rw [hcards, Dict.values_set_of_new hnew, List.length_append, List.length_singleton]
    refine ⟨?_, ?_⟩
    · rw [tallied_putEvent hevents, if_pos hcreation, hs.created, hlength]
    · rw [tallied_putEvent_of_false hevents hfailure, hs.failures]
  | logs c e hstored hcards hevents hplain =>
    have hlength : s'.cards.values.length = s.cards.values.length := by
      rw [hcards]
      cases c with
      | none => rfl
      | some c =>
        obtain ⟨old, hold⟩ := Option.isSome_iff_exists.mp (hstored c rfl)
        exact Dict.length_values_set_of_get? c hold
    refine ⟨?_, ?_⟩
    · rw [tallied_putEvent_of_false hevents hplain.2, hs.created, hlength]
    · rw [tallied_putEvent_of_false hevents hplain.1, hs.failures]

theorem LedgerStep.notes (hcards : s'.cards = s.cards) (hevents : s'.events = (s.putEvent e).events)
    (hplain : e.isFailure = false ∧ e.isCreation = false) : LedgerStep s s' :=
  .logs none e (fun _ hx => by cases hx) hcards hevents hplain

theorem CardEvent.plain_of_type {type : String} (h : e.eventType = type)
    (htype : type ∉ failureTypes ∧ type ≠ "card_created") :
    e.isFailure = false ∧ e.isCreation = false := by
  subst h
  exact ⟨decide_eq_false htype.1, decide_eq_false htype.2⟩

theorem InMemoryCardRuntime.Expires.ledger {t : Instant} {ls : List Lease}
    (h : Expires t ls s s') (hs : Ledger s) : Ledger s' :=
  h.invariant (fun _ _ _ htype hs =>
    hs.step (.notes rfl rfl (CardEvent.plain_of_type htype (by decide)))) hs

/-- A card that is stored again in a bucket, with one event about it. -/
theorem LedgerStep.places {c : Card} {b : String}
    (hstored : (s.cards.get? c.id).isSome = true)
    (hcards : s'.cards = s.cards.set c.id { c with currentBucket := b })
    (hevents : s'.events = (s.putEvent e).events)
    (hplain : e.isFailure = false ∧ e.isCreation = false) : LedgerStep s s' := by
  refine .logs (some { c with currentBucket := b }) e ?_ hcards hevents hplain
  intro x hx
  cases hx
  exact hstored

theorem RuntimeCall.step_ledger {call : RuntimeCall} (hcall : call.evidence = true)
    (hkeyed : WellKeyed m.store) (hissued : Issued w m) (hm : Ledger m.store) :
    Ledger (call.step w m).store := by
  have hstored : ∀ {id : Uuid} {c : Card}, m.store.cards.get? id = some c →
      (m.store.cards.get? c.id).isSome = true := by
    intro id c hc
    rw [hkeyed.cards hc, hc]
    rfl
  have hcase := call.step_cases w m
  generalize hr : call.result w m = r at hcase
  generalize hm' : call.step w m = m' at hcase ⊢
  cases hcase with
  | same h => rwa [h.store]
  | registers report _ h =>
    rw [h]
    exact hm.of_frame rfl rfl
  | @creates _ _ _ _ c e h =>
    have hnew : m.store.cards.get? c.id = none := h.fresh.1 ▸ hissued.unused
    refine hm.step (.creates c e hnew ?_ ?_ h.event.2.1)
    · rw [h.store]
      simp [created]
    · rw [h.store, created, putKey_events]
      rfl
  | claims h =>
    refine hm.step (.notes ?_ h.events_eq (CardEvent.plain_of_type h.event.2.1 (by decide)))
    rw [h.store]
    simp [claimed]
  | @submits _ _ _ _ _ _ destination _ _ h =>
    obtain ⟨p, hchecks⟩ := h.checks
    refine hm.step (.places (b := destination) (hstored hchecks.card) ?_ ?_
      (CardEvent.plain_of_type h.event.2.1 (by decide)))
    · rw [h.store]
      simp [submitted]
    · rw [h.store]
      simp only [submitted, putKey_events]
      rfl
  | renews h =>
    refine hm.step (.notes ?_ h.events_eq (CardEvent.plain_of_type h.event.2.1 (by decide)))
    rw [h.store]
    simp [renewed]
  | releases h =>
    refine hm.step (.notes ?_ ?_ (CardEvent.plain_of_type h.event.2.1 (by decide)))
    · rw [h.store]
      simp [released]
    · rw [h.store]
      simp only [released, putKey_events]
      rfl
  | expires h _ => exact h.ledger hm
  | @validates _ _ _ _ _ _ _ c route e h =>
    have hplain := CardEvent.plain_of_type h.event.2.1 (by decide)
    have hevents : m'.store.events = (m.store.putEvent e).events := by
      rw [h.store, validated, putKey_events]
      cases route <;> rfl
    cases route with
    | none =>
      refine hm.step (.notes ?_ hevents hplain)
      rw [h.store]
      simp [validated, routeCard]
    | some r =>
      refine hm.step (.places (b := r.2) (hstored h.card) ?_ hevents hplain)
      rw [h.store]
      simp [validated, routeCard]
  | @moves _ bucket _ _ _ _ _ h =>
    refine hm.step (.places (b := bucket) (hstored h.card) ?_ ?_
      (CardEvent.plain_of_type h.event.2.1 (by decide)))
    · rw [h.store]
      simp [moved]
    · rw [h.store, moved, putKey_events]
      rfl
  | @records _ _ _ _ _ e h =>
    have hevidence : evidenceType e.eventType = true := by
      rw [h.event.2.1]
      exact hcall
    refine hm.step (.notes ?_ ?_ (CardEvent.isFailure_false_of_evidence hevidence))
    · rw [h.store]
      simp
    · rw [h.store, putKey_events]

end Ledgers

/-! ## Runs -/

/-- What holds of the tables and the evidence after any run. -/
structure AccountBook (w : World) (m : Machine InMemoryCardRuntime) : Prop where
  keyed : WellKeyed m.store
  drawn : LeasesDrawn w m.draws m.store
  issued : Issued w m
  ledger : Ledger m.store
  balanced : ∀ {P : CardEvent → Bool} {Q : Lease → Bool}, Weighs P Q → Balanced P Q m.store

section Run
variable {w : World} {m : Machine InMemoryCardRuntime}

theorem AccountBook.start (w : World) : AccountBook w InMemoryCardRuntime.start where
  keyed := WellKeyed.init
  drawn a l h := by simp [InMemoryCardRuntime.start, InMemoryCardRuntime.init] at h
  issued := Issued.start w
  ledger := ⟨rfl, rfl⟩
  balanced _ := rfl

theorem AccountBook.step (hm : AccountBook w m) {call : RuntimeCall}
    (hcall : call.evidence = true) : AccountBook w (call.step w m) where
  keyed := hm.keyed.effect (call.step_effect w m)
  drawn := hm.drawn.effect hm.keyed (call.step_effect w m)
  issued := hm.issued.effect hm.keyed (call.step_effect w m)
  ledger := RuntimeCall.step_ledger hcall hm.keyed hm.issued hm.ledger
  balanced hweighs := (call.step_lease w m hcall hm.keyed).balanced hm.keyed hm.drawn hweighs
    (hm.balanced hweighs)

theorem AccountBook.run (w : World) {calls : List RuntimeCall}
    (hcalls : ∀ call ∈ calls, call.evidence = true) : AccountBook w (runCalls w calls) := by
  have hreach : Reaches (RuntimeCall.step w) (fun _ call => call.evidence = true)
      InMemoryCardRuntime.start (runCalls w calls) :=
    (Permitted.of_forall_mem (fun _ => hcalls) _).reaches
  exact hreach.invariant (.start w) fun m call hm hcall => hm.step hcall

end Run

/-! ## The views of a stored runtime -/

namespace ObservabilityService

section Views
variable {w : World} {m : Machine InMemoryCardRuntime}

theorem run_historiesOf {cards : List Card}
    (h : ∀ c ∈ cards, (m.store.cards.get? c.id).isSome = true) :
    (historiesOf InMemoryCardRuntime.runtime cards).run w m =
      (.ok (cards.flatMap fun c => m.store.history c.id), m) := by
  induction cards with
  | nil => rfl
  | cons c cards ih =>
    obtain ⟨stored, hstored⟩ := Option.isSome_iff_exists.mp (h c List.mem_cons_self)
    have hhistory : (InMemoryCardRuntime.runtime.cardHistory c.id).run w m =
        (.ok (m.store.history c.id), m) := by
      simp only [InMemoryCardRuntime.runtime, InMemoryCardRuntime.cardHistory, Exec.run_bind,
        run_getCard, hstored, Op.run_get, Exec.run_pure]
    rw [historiesOf, Exec.run_bind_ok hhistory,
      Exec.run_bind_ok (ih fun x hx => h x (List.mem_cons_of_mem c hx))]
    rfl

/-- The events of all stored cards, as they are shown. -/
def shownEvents (s : InMemoryCardRuntime) : List CardEvent :=
  (s.cards.values.flatMap fun c => s.history c.id).mergeSort CardEvent.shownBefore

theorem run_allEvents (hkeyed : WellKeyed m.store) :
    (allEvents InMemoryCardRuntime.runtime).run w m = (.ok (shownEvents m.store), m) := by
  have hcards : ∀ c ∈ m.store.cards.values, (m.store.cards.get? c.id).isSome = true := by
    intro c hc
    rw [Dict.get?_of_keyed (fun _ _ => hkeyed.cards) hc]
    rfl
  have hlist : InMemoryCardRuntime.runtime.listCards.run w m = (.ok m.store.cards.values, m) := rfl
  rw [allEvents, Exec.run_bind_ok hlist, Exec.run_bind_ok (run_historiesOf hcards)]
  rfl

/-- Every recorded event is shown once. -/
theorem countP_shownEvents (P : CardEvent → Bool) (hkeyed : WellKeyed m.store)
    (hissued : Issued w m) : (shownEvents m.store).countP P = m.store.tallied P := by
  have hsum := Dict.sum_map_values_eq (d := m.store.events)
    (fun events : Option (List CardEvent) => (events.getD []).countP P) rfl m.store.cards.nodup
    fun k hk => by
      have hne : m.store.history k ≠ [] := by
        intro hnil
        rw [InMemoryCardRuntime.history] at hnil
        rw [hnil] at hk
        exact hk rfl
      by_contra hnot
      have hsome := hissued.events k hne
      rw [(Dict.get?_eq_none_iff _ _).mpr hnot] at hsome
      cases hsome
  have hkeys : m.store.cards.values.map (·.id) = m.store.cards.keys :=
    Dict.map_values_of_keyed fun _ _ => hkeyed.cards
  have hcards : (m.store.cards.values.map fun c => (m.store.history c.id).countP P) =
      m.store.cards.keys.map fun k => ((m.store.events.get? k).getD []).countP P := by
    rw [← hkeys, List.map_map]
    rfl
  rw [shownEvents, (List.mergeSort_perm _ _).countP_eq, List.countP_flatMap]
  calc (m.store.cards.values.map fun c => (m.store.history c.id).countP P).sum
      = (m.store.cards.keys.map fun k => ((m.store.events.get? k).getD []).countP P).sum := by
        rw [hcards]
    _ = m.store.tallied P := hsum.symm

end Views

end ObservabilityService

/-! ## The report -/

def Metrics.counted (r : Metrics) (type : String) : Nat := (r.eventCounts.get? type).getD 0

/-- How often the worker is shown with an event of the type. -/
def Metrics.active (r : Metrics) (worker type : String) : Nat :=
  (((r.workerActivity.get? worker).getD Dict.empty).get? type).getD 0

/-- The report, number by number, against the tables. -/
structure Metrics.Accounts (r : Metrics) (s : InMemoryCardRuntime) : Prop where
  cards : r.cardCount = s.cards.values.length
  created : r.counted "card_created" = r.cardCount
  load : ∀ b, (r.bucketLoad.get? b).getD 0 = s.cards.values.countP fun c => b = c.currentBucket
  loaded : r.bucketLoad.values.sum = r.cardCount
  claimed : r.counted "card_claimed" = s.leases.values.length
  claims : ∀ worker, r.active worker "card_claimed" =
    s.leases.values.countP fun l => worker = l.workerName
  closed : r.counted "artifact_submitted" + r.counted "lease_released" +
    r.counted "lease_expired" = s.leases.values.countP fun l => l.releasedAt.isSome
  held : r.activeLeaseCount ≤ s.leases.values.countP fun l => l.releasedAt.isNone
  retried : r.retryRate = if s.leases.values = [] then none
    else some ⟨r.counted "lease_expired", s.leases.values.length⟩
  failures : r.failedMovementCount = 0

namespace ObservabilityService

section Report
variable {w : World} {m : Machine InMemoryCardRuntime}

/-- What a row of the activity table says of a worker. -/
theorem get?_addActivity (activity : Dict String (Dict String Nat)) (e : CardEvent)
    (worker type : String) :
    ((((addActivity activity e).get? worker).getD Dict.empty).get? type).getD 0 =
      (((activity.get? worker).getD Dict.empty).get? type).getD 0 +
        if e.eventType ∈ activityTypes ∧ worker = e.workerName ∧ type = e.eventType then 1 else 0 := by
  unfold addActivity
  split
  · rename_i htype
    rw [Dict.get?_set]
    split
    · rename_i hworker
      rw [Option.getD_some, Dict.get?_bump, hworker]
      simp only [htype, true_and]
    · rename_i hworker
      simp [hworker]
  · rename_i htype
    simp [htype]

theorem get?_activity (events : List CardEvent) (worker : String) {type : String}
    (htype : type ∈ activityTypes) :
    (((events.foldl addActivity Dict.empty).get? worker).getD Dict.empty |>.get? type).getD 0 =
      events.countP fun e => e.eventType = type && decide (worker = e.workerName) := by
  have hfold : ∀ activity : Dict String (Dict String Nat),
      (((events.foldl addActivity activity).get? worker).getD Dict.empty |>.get? type).getD 0 =
        (((activity.get? worker).getD Dict.empty).get? type).getD 0 +
          events.countP fun e => e.eventType = type && decide (worker = e.workerName) := by
    induction events with
    | nil => exact fun _ => rfl
    | cons e events ih =>
      intro activity
      rw [List.foldl_cons, ih, get?_addActivity, List.countP_cons]
      have hsame : (e.eventType ∈ activityTypes ∧ worker = e.workerName ∧ type = e.eventType) ↔
          (decide (e.eventType = type) && decide (worker = e.workerName)) = true := by
        simp only [Bool.and_eq_true, decide_eq_true_eq]
        constructor
        · rintro ⟨-, hworker, heq⟩
          exact ⟨heq.symm, hworker⟩
        · rintro ⟨heq, hworker⟩
          exact ⟨heq ▸ htype, hworker, heq.symm⟩
      simp only [hsame]
      omega
  exact (hfold Dict.empty).trans (Nat.zero_add _)

/-- What `metrics` puts together, each part from the same unchanged store. -/
theorem run_metrics (hkeyed : WellKeyed m.store) :
    (metrics InMemoryCardRuntime.runtime).run w m = (.ok
      { cardCount := m.store.cards.values.length
        bucketLoad := (Dict.groupBy Card.currentBucket m.store.cards.values).mapSorted
          (fun b b' => decide (b ≤ b')) List.length
        activeLeaseCount := (m.store.leases.values.filter (·.activeAt (w.clock m.ticks))).length
        workerActivity := (shownEvents m.store).foldl addActivity Dict.empty
        eventCounts := Dict.tally ((shownEvents m.store).map (·.eventType))
        acceptanceRate := acceptanceRate (shownEvents m.store)
        retryRate := retryRate (shownEvents m.store)
        failedMovementCount := ((shownEvents m.store).filter (·.eventType ∈ failureTypes)).length
        oldestActiveLeaseAgeSeconds :=
          ((m.store.leases.values.filter (·.activeAt (w.clock m.ticks))).map fun l =>
            wholeSeconds (w.clock m.ticks - l.claimedAt)).max?.getD 0 },
      { m with ticks := m.ticks + 1 }) := by
  have hevents : ∀ m' : Machine InMemoryCardRuntime, m'.store = m.store →
      (allEvents InMemoryCardRuntime.runtime).run w m' = (.ok (shownEvents m.store), m') := by
    intro m' hm'
    rw [← hm', run_allEvents (hm' ▸ hkeyed)]
  have hactive : (activeLeases InMemoryCardRuntime.runtime).run w m =
      (.ok ((m.store.leases.values.filter (·.activeAt (w.clock m.ticks))).map fun l =>
        ⟨l, wholeSeconds (w.clock m.ticks - l.claimedAt),
          wholeSeconds (l.expiresAt - w.clock m.ticks)⟩), { m with ticks := m.ticks + 1 }) := rfl
  have hactivity : (workerActivity InMemoryCardRuntime.runtime).run w
      { m with ticks := m.ticks + 1 } = (.ok ((shownEvents m.store).foldl addActivity Dict.empty),
        { m with ticks := m.ticks + 1 }) := by
    rw [workerActivity, Exec.run_bind_ok (hevents ⟨m.store, m.ticks + 1, m.draws⟩ rfl)]
    rfl
  have hfailed : (failedMovements InMemoryCardRuntime.runtime).run w
      { m with ticks := m.ticks + 1 } = (.ok ((shownEvents m.store).filter
        (·.eventType ∈ failureTypes)), { m with ticks := m.ticks + 1 }) := by
    rw [failedMovements, Exec.run_bind_ok (hevents ⟨m.store, m.ticks + 1, m.draws⟩ rfl)]
    rfl
  have hlist : InMemoryCardRuntime.runtime.listCards.run w { m with ticks := m.ticks + 1 } =
      (.ok m.store.cards.values, { m with ticks := m.ticks + 1 }) := rfl
  have hload : (bucketLoad InMemoryCardRuntime.runtime).run w { m with ticks := m.ticks + 1 } =
      (.ok ((Dict.groupBy Card.currentBucket m.store.cards.values).mapSorted
        (fun b b' => decide (b ≤ b')) List.length), { m with ticks := m.ticks + 1 }) := rfl
  rw [metrics, Exec.run_bind_ok (hevents m rfl), Exec.run_bind_ok hactive,
    Exec.run_bind_ok hlist, Exec.run_bind_ok hload, Exec.run_bind_ok hactivity,
    Exec.run_bind_ok hfailed, Exec.run_pure]
  simp only [List.length_map, List.map_map, Function.comp_def]

/-- The count of a type among the shown events, as the report has it. -/
theorem get?_eventCounts (hkeyed : WellKeyed m.store) (hissued : Issued w m) (type : String) :
    ((Dict.tally ((shownEvents m.store).map (·.eventType))).get? type).getD 0 =
      m.store.tallied fun e => type = e.eventType := by
  rw [Dict.get?_tally, List.countP_map, ← countP_shownEvents _ hkeyed hissued]
  rfl

/-! The numbers that rest on the whole run. -/

variable (hbook : AccountBook w m)
include hbook

theorem claimed_events : m.store.tallied (·.isClaim) = m.store.leases.values.length := by
  have hall : m.store.leases.values.countP (fun _ => true) = m.store.leases.values.length :=
    congrFun List.countP_true _
  exact (hbook.balanced weighs_claims).trans hall

theorem closing_events :
    m.store.tallied (fun e => "artifact_submitted" = e.eventType) +
        m.store.tallied (fun e => "lease_released" = e.eventType) +
        m.store.tallied (fun e => "lease_expired" = e.eventType) =
      m.store.leases.values.countP (·.releasedAt.isSome) := by
  have hnodup : closingTypes.Nodup := by decide
  have hkeys := Dict.sum_countP_keys (fun e : CardEvent => e.eventType) (shownEvents m.store) hnodup
  simp only [closingTypes, List.map_cons, List.map_nil, List.sum_cons, List.sum_nil,
    countP_shownEvents _ hbook.keyed hbook.issued] at hkeys
  rw [← hbook.balanced weighs_closings, Nat.add_assoc]
  refine hkeys.trans ?_
  congr 1

theorem not_failure {e : CardEvent} (he : e ∈ shownEvents m.store) : e.isFailure = false := by
  have hnone : (shownEvents m.store).countP (·.isFailure) = 0 := by
    rw [countP_shownEvents _ hbook.keyed hbook.issued, hbook.ledger.failures]
  exact Bool.eq_false_iff.mpr (List.countP_eq_zero.mp hnone e he)

/-- An expired lease is the only retry that is ever recorded. -/
theorem retryRate_eq : retryRate (shownEvents m.store) = if m.store.leases.values = [] then none
    else some ⟨m.store.tallied fun e => "lease_expired" = e.eventType,
      m.store.leases.values.length⟩ := by
  have hclaims : ((shownEvents m.store).filter fun e => e.eventType = "card_claimed").length =
      m.store.leases.values.length := by
    rw [← List.countP_eq_length_filter, countP_shownEvents _ hbook.keyed hbook.issued]
    exact claimed_events hbook
  have hretries : ((shownEvents m.store).filter fun e => e.eventType ∈ retryTypes).length =
      m.store.tallied fun e => "lease_expired" = e.eventType := by
    rw [← List.countP_eq_length_filter, ← countP_shownEvents _ hbook.keyed hbook.issued]
    apply List.countP_congr
    intro e he
    have hnot : e.eventType ∉ failureTypes := of_decide_eq_false (not_failure hbook he)
    simp only [failureTypes, retryTypes, List.mem_cons, List.not_mem_nil, or_false,
      decide_eq_true_eq] at hnot ⊢
    grind
  have hempty : ((shownEvents m.store).filter fun e => e.eventType = "card_claimed") = [] ↔
      m.store.leases.values = [] := by
    rw [← List.length_eq_zero_iff, hclaims, List.length_eq_zero_iff]
  simp only [retryRate, hempty, hclaims, hretries]

/-- The report of a runtime whose accounts are kept. -/
theorem reports : ∃ r m', (metrics InMemoryCardRuntime.runtime).run w m = (.ok r, m') ∧
    m'.store = m.store ∧ r.Accounts m.store := by
  refine ⟨_, _, run_metrics hbook.keyed, rfl, ?_⟩
  have hcount := get?_eventCounts hbook.keyed hbook.issued
  refine
    { cards := rfl
      created := ?_
      load := ?_
      loaded := ?_
      claimed := ?_
      claims := ?_
      closed := ?_
      held := ?_
      retried := ?_
      failures := ?_ }
  · refine (hcount _).trans (Eq.trans ?_ hbook.ledger.created)
    congr 1
    funext e
    exact decide_eq_decide.mpr eq_comm
  · intro b
    rw [Dict.get?_mapSorted, List.countP_eq_length_filter, ← Dict.get?_groupBy]
    cases (Dict.groupBy Card.currentBucket m.store.cards.values).get? b <;> rfl
  · rw [(Dict.values_mapSorted _ _ _).sum_nat, Dict.sum_length_groupBy]
  · refine (hcount _).trans (Eq.trans ?_ (claimed_events hbook))
    congr 1
    funext e
    exact decide_eq_decide.mpr eq_comm
  · intro worker
    rw [Metrics.active, get?_activity _ _ (by decide), countP_shownEvents _ hbook.keyed hbook.issued]
    exact hbook.balanced (weighs_claims_of worker)
  · simp only [Metrics.counted, hcount]
    exact closing_events hbook
  · have hle : m.store.leases.values.countP (·.activeAt (w.clock m.ticks)) ≤
        m.store.leases.values.countP (·.releasedAt.isNone) := by
      apply List.countP_mono_left
      intro l _ hactive
      simp only [Lease.activeAt, Bool.and_eq_true] at hactive
      exact hactive.1
    rwa [List.countP_eq_length_filter] at hle
  · simp only [Metrics.counted, hcount]
    exact retryRate_eq hbook
  · have hnone : (shownEvents m.store).countP (·.isFailure) = 0 := by
      rw [countP_shownEvents _ hbook.keyed hbook.issued, hbook.ledger.failures]
    rwa [List.countP_eq_length_filter] at hnone

end Report

/-- After any run `metrics` returns, changes nothing, and every number of its report is the
one that the tables of cards and leases give. -/
theorem metrics_account (w : World) (calls : List RuntimeCall)
    (hcalls : ∀ call ∈ calls, call.evidence = true) :
    ∃ r m', (metrics InMemoryCardRuntime.runtime).run w (runCalls w calls) = (.ok r, m') ∧
      m'.store = (runCalls w calls).store ∧ r.Accounts (runCalls w calls).store :=
  reports (AccountBook.run w hcalls)

theorem metrics_account_reclaim :
    (runCalls .simple reclaimCalls).store.leases.values.length = 2 ∧
    ∃ r m', (metrics InMemoryCardRuntime.runtime).run .simple (runCalls .simple reclaimCalls) =
        (.ok r, m') ∧ m'.store = (runCalls .simple reclaimCalls).store ∧
      r.Accounts (runCalls .simple reclaimCalls).store :=
  ⟨by decide +kernel, metrics_account .simple reclaimCalls (by decide +kernel)⟩

end ObservabilityService

end GhostMesh
