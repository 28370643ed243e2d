import GhostMesh.Runtime.LeaseExclusivity

/-!
# The life of a lease

A lease is written by its claim, by renewals and by the one event that closes it.
Two invariants tie the lease table to the histories: the closing events of a lease
are as many as its released state says, and the card of an active lease was last
claimed for it. Both speak about runs in which `record_event` is called as this
repository calls it.
-/

set_option autoImplicit false

namespace GhostMesh

open InMemoryCardRuntime Op

/-! ## Events about leases -/

/-- The types with which the executor, the boundaries and the shadow service call
`record_event`. -/
def evidenceType (type : String) : Bool :=
  type = "source_executed" || type = "sink_executed" ||
    "boundary_".toList.isPrefixOf type.toList || "shadow_".toList.isPrefixOf type.toList

def RuntimeCall.evidence : RuntimeCall → Bool
  | recordEvent _ type _ _ _ => evidenceType type
  | _ => true

def closingTypes : List String := ["artifact_submitted", "lease_released", "lease_expired"]

namespace CardEvent

def isClaim (e : CardEvent) : Bool := e.eventType = "card_claimed"

def isSubmission (e : CardEvent) : Bool := e.eventType = "artifact_submitted"

def isClosing (e : CardEvent) : Bool := e.eventType ∈ closingTypes

/-- The lease named in the payload. -/
def leaseId (e : CardEvent) : Option String :=
  match JsonObj.get? e.payload "lease_id" with
  | some (.str id) => some id
  | _ => none

/-- The event closes the lease. -/
def closes (e : CardEvent) (id : Uuid) : Bool := e.isClosing && e.leaseId = some id.str

/-- It neither claims nor closes a lease. -/
def IsNote (e : CardEvent) : Prop := e.isClaim = false ∧ e.isClosing = false

theorem isClosing_of_isSubmission {e : CardEvent} (h : e.isSubmission = true) :
    e.isClosing = true := by
  have htype : e.eventType = "artifact_submitted" := of_decide_eq_true h
  simp [isClosing, closingTypes, htype]

theorem IsNote.not_submission {e : CardEvent} (h : e.IsNote) : e.isSubmission = false := by
  cases hsub : e.isSubmission with
  | false => rfl
  | true =>
    have hclosing := isClosing_of_isSubmission hsub
    rw [h.2] at hclosing
    cases hclosing

theorem IsNote.of_type {e : CardEvent} {type : String} (h : e.eventType = type)
    (htype : type ≠ "card_claimed" ∧ type ∉ closingTypes) : e.IsNote := by
  constructor
  · simp [isClaim, h, htype.1]
  · simp [isClosing, h, htype.2]

theorem IsNote.of_evidence {e : CardEvent} (h : evidenceType e.eventType = true) : e.IsNote := by
  have hother : ∀ type ∈ "card_claimed" :: closingTypes, evidenceType type = false := by decide
  have hnot : ∀ type ∈ "card_claimed" :: closingTypes, e.eventType ≠ type := by
    intro type hmem heq
    rw [heq, hother type hmem] at h
    cases h
  refine .of_type rfl ⟨hnot _ List.mem_cons_self, ?_⟩
  intro hmem
  exact hnot _ (List.mem_cons_of_mem _ hmem) rfl

end CardEvent

/-! ## What a call does to leases and histories -/

/-- One lease is closed, with its event. -/
structure Closing (s s' : InMemoryCardRuntime) (l : Lease) (t : Instant) (e : CardEvent) :
    Prop where
  stored : s.leases.get? l.id = some l
  unreleased : l.releasedAt = none
  leases : s'.leases = s.leases.set l.id { l with releasedAt := some t }
  events : s'.events = (s.putEvent e).events
  closing : e.isClosing = true
  card : e.cardId = l.cardId
  names : e.leaseId = some l.id.str

/-- A lease is closed without a submission. -/
def Lapses (s s' : InMemoryCardRuntime) : Prop :=
  ∃ l t e, Closing s s' l t e ∧ e.isSubmission = false

inductive LeaseStep (w : World) (m m' : Machine InMemoryCardRuntime) : Prop where
  | quiet (hleases : m'.store.leases = m.store.leases) (hevents : m'.store.events = m.store.events)
  | notes (e : CardEvent) (hnote : e.IsNote) (hleases : m'.store.leases = m.store.leases)
      (hevents : m'.store.events = (m.store.putEvent e).events)
  | claims {pipe worker key l e} (h : Claims w m m' pipe worker key l e)
  | renews {lease key l t e} (h : Renews w m m' lease key l t e)
  | submits {l t e} (h : Closing m.store m'.store l t e)
      (active : m.ticks < m'.ticks ∧ l.activeAt (w.clock m.ticks) = true)
  | lapses (h : Relation.ReflTransGen Lapses m.store m'.store)

section Writes
variable {s s' : InMemoryCardRuntime}

@[simp] theorem putKey_events (key : Option String) (v : Stored) :
    (s.putKey key v).events = s.events := by unfold putKey; split <;> rfl

theorem history_of_events (h : s'.events = s.events) (x : Uuid) : s'.history x = s.history x := by
  simp only [history, h]

theorem history_of_putEvent {e : CardEvent} (h : s'.events = (s.putEvent e).events) (x : Uuid) :
    s'.history x = if x = e.cardId then s.history x ++ [e] else s.history x := by
  rw [← putEvent_history]
  exact history_of_events h x

/-- The ids of the stored leases are pairwise different. -/
theorem WellKeyed.leases_nodup (hs : WellKeyed s) : (s.leases.values.map (·.id)).Nodup := by
  have hkeys : s.leases.values.map (·.id) = s.leases.keys := by
    simp only [Dict.values, Dict.keys, List.map_map]
    apply List.map_congr_left
    rintro ⟨id, l⟩ hmem
    exact hs.leases ((s.leases.get?_eq_some_iff id l).mpr hmem)
  rw [hkeys]
  exact s.leases.nodup

theorem WellKeyed.lease_get? (hs : WellKeyed s) {l : Lease} (hl : l ∈ s.leases.values) :
    s.leases.get? l.id = some l := by
  obtain ⟨id, hid⟩ := (Dict.mem_values_iff _ _).mp hl
  rwa [hs.leases hid]

/-- `expire_leases` closes one lease after the other, each as it was stored. -/
theorem InMemoryCardRuntime.Expires.lapses {t : Instant} {ls : List Lease} (h : Expires t ls s s')
    (hstored : ∀ l ∈ ls, s.leases.get? l.id = some l) (hnodup : (ls.map (·.id)).Nodup) :
    Relation.ReflTransGen Lapses s s' := by
  induction h with
  | done s => exact .refl
  | keep _ _ ih =>
    exact ih (fun l hl => hstored l (List.mem_cons_of_mem _ hl)) (List.nodup_cons.mp hnodup).2
  | @lapse l ls s s' e hlapsed hcard htype _ hpayload _ ih =>
    obtain ⟨hnotin, hrest⟩ := List.nodup_cons.mp hnodup
    have hfirst : Lapses s (s.released l t e) := by
      refine ⟨l, t, e, ⟨hstored l List.mem_cons_self, ?_, rfl, rfl, ?_, hcard, ?_⟩, ?_⟩
      · simp only [lapsedAt, Bool.and_eq_true, Option.isNone_iff_eq_none] at hlapsed
        exact hlapsed.1
      · simp [CardEvent.isClosing, closingTypes, htype]
      · simp [CardEvent.leaseId, hpayload, JsonObj.get?, Dict.lookupIn]
      · simp [CardEvent.isSubmission, htype]
    refine Relation.ReflTransGen.head hfirst (ih ?_ hrest)
    intro l' hl'
    have hne : l'.id ≠ l.id := fun heq => hnotin (List.mem_map.mpr ⟨l', hl', heq⟩)
    rw [show (s.released l t e).leases = s.leases.set l.id { l with releasedAt := some t } from rfl,
      Dict.get?_set_ne _ _ hne]
    exact hstored l' (List.mem_cons_of_mem _ hl')

end Writes

section Step
variable {w : World} {m m' : Machine InMemoryCardRuntime}

theorem InMemoryCardRuntime.Submits.closing {lease : Uuid} {pipe : String} {refs : List ArtifactReference}
    {key : Option String} {l : Lease} {c : Card} {d : String} {t : Instant} {e : CardEvent}
    (h : Submits w m m' lease pipe refs key l c d t e) (hkeyed : WellKeyed m.store) :
    Closing m.store m'.store l t e := by
  obtain ⟨p, hchecks⟩ := h.checks
  obtain ⟨hcard, htype, -, hpayload⟩ := h.event
  exact {
    stored := by
      rw [hkeyed.leases hchecks.lease]
      exact hchecks.lease
    unreleased := Lease.unreleased_of_activeAt h.active.2
    leases := by
      rw [h.store]
      simp [submitted]
    events := by
      rw [h.store]
      simp only [submitted, putKey_events]
      rfl
    closing := by simp [CardEvent.isClosing, closingTypes, htype]
    card := hcard.trans (hkeyed.cards hchecks.card)
    names := by simp [CardEvent.leaseId, hpayload, JsonObj.get?, Dict.lookupIn] }

theorem InMemoryCardRuntime.Releases.lapses {lease : Uuid} {actor key : Option String} {l : Lease}
    {t : Instant} {e : CardEvent} (h : Releases m m' lease actor key l t e) (hkeyed : WellKeyed m.store) :
    Lapses m.store m'.store := by
  obtain ⟨hcard, htype, -, hpayload⟩ := h.event
  refine ⟨l, t, e, ?_, by simp [CardEvent.isSubmission, htype]⟩
  exact {
    stored := by
      rw [hkeyed.leases h.lease]
      exact h.lease
    unreleased := h.unreleased
    leases := by
      rw [h.store]
      simp [released]
    events := by
      rw [h.store]
      simp only [released, putKey_events]
      rfl
    closing := by simp [CardEvent.isClosing, closingTypes, htype]
    card := hcard
    names := by simp [CardEvent.leaseId, hpayload, JsonObj.get?, Dict.lookupIn] }

theorem LeaseStep.of_same (h : m' = m) : LeaseStep w m m' := by
  rw [h]
  exact .quiet rfl rfl

/-- Every call takes one of these steps, if it records no event of a type of the runtime. -/
theorem RuntimeCall.step_lease (w : World) (m : Machine InMemoryCardRuntime) (call : RuntimeCall)
    (hcall : call.evidence = true) (hkeyed : WellKeyed m.store) : LeaseStep w m (call.step w m) := by
  cases call with
  | registerPatchPanel p =>
    have hrun : (InMemoryCardRuntime.registerPatchPanel p).run w m = (_, _) := rfl
    rcases registerPatchPanel_cases hrun with h | ⟨report, -, h⟩
    · exact .of_same h
    · exact .quiet (congrArg (·.store.leases) h) (congrArg (·.store.events) h)
  | listPatchPanels => exact .of_same rfl
  | createCard panel payload metadata key =>
    have hrun : (InMemoryCardRuntime.createCard panel payload metadata key).run w m = (_, _) := rfl
    rcases createCard_cases hrun with h | ⟨c, e, -, h⟩
    · exact .of_same h
    · have hstore := h.store
      exact .notes e (.of_type h.event.2.1 (by decide))
        ((congrArg leases hstore).trans (by simp [created]))
        ((congrArg events hstore).trans (putKey_events _ _))
  | listCards => exact .of_same rfl
  | listLeases => exact .of_same rfl
  | claimCard pipe worker seconds key =>
    have hrun : (InMemoryCardRuntime.claimCard pipe worker seconds key).run w m = (_, _) := rfl
    rcases claimCard_cases hrun with ⟨h, -⟩ | ⟨l, e, -, h⟩
    · exact .quiet (congrArg leases h.store) (congrArg events h.store)
    · exact .claims h
  | submitArtifact lease pipe refs key =>
    have hrun : (InMemoryCardRuntime.submitArtifact lease pipe refs key).run w m = (_, _) := rfl
    rcases submitArtifact_cases hrun with h | ⟨l, c, d, t, e, -, h⟩
    · exact .quiet (congrArg leases h.store) (congrArg events h.store)
    · exact .submits (h.closing hkeyed) h.active
  | renewLease lease seconds key =>
    have hrun : (InMemoryCardRuntime.renewLease lease seconds key).run w m = (_, _) := rfl
    rcases renewLease_cases hrun with h | ⟨l, t, e, -, h⟩
    · exact .quiet (congrArg leases h.store) (congrArg events h.store)
    · exact .renews h
  | releaseLease lease actor key =>
    have hrun : (InMemoryCardRuntime.releaseLease lease actor key).run w m = (_, _) := rfl
    rcases releaseLease_cases hrun with h | ⟨l, t, e, -, h⟩
    · exact .of_same h
    · exact .lapses (.single (h.lapses hkeyed))
  | expireLeases =>
    have hrun : InMemoryCardRuntime.expireLeases.run w m = (_, _) := rfl
    obtain ⟨hexp, -⟩ := expireLeases_cases hrun
    exact .lapses (hexp.lapses (fun l hl => hkeyed.lease_get? hl) hkeyed.leases_nodup)
  | validateCard card validator accepted reason pipe payload key =>
    have hrun : (InMemoryCardRuntime.validateCard card validator accepted reason pipe payload
      key).run w m = (_, _) := rfl
    rcases validateCard_cases hrun with h | ⟨c, route, e, -, h⟩
    · exact .of_same h
    · have hstore := h.store
      exact .notes e (.of_type h.event.2.1 (by decide))
        ((congrArg leases hstore).trans (by simp [validated]))
        ((congrArg events hstore).trans (by
          rw [validated, putKey_events]
          cases route <;> rfl))
  | moveCard card bucket actor reason key =>
    have hrun : (InMemoryCardRuntime.moveCard card bucket actor reason key).run w m = (_, _) := rfl
    rcases moveCard_cases hrun with h | ⟨c, e, -, h⟩
    · exact .of_same h
    · have hstore := h.store
      exact .notes e (.of_type h.event.2.1 (by decide))
        ((congrArg leases hstore).trans (by simp [moved]))
        ((congrArg events hstore).trans (putKey_events _ _))
  | cardHistory card =>
    have hrun : (InMemoryCardRuntime.cardHistory card).run w m = (_, _) := rfl
    exact .of_same (cardHistory_same hrun)
  | recordEvent card type actor payload key =>
    have hrun : (InMemoryCardRuntime.recordEvent card type actor payload key).run w m =
      (_, _) := rfl
    rcases recordEvent_cases hrun with h | ⟨e, -, h⟩
    · exact .of_same h
    · have hstore := h.store
      have hnote : e.IsNote := by
        apply CardEvent.IsNote.of_evidence
        rw [h.event.2.1]
        exact hcall
      exact .notes e hnote ((congrArg leases hstore).trans (by simp))
        ((congrArg events hstore).trans (putKey_events _ _))

end Step

/-! ## A lease is closed once -/

/-- The events of all histories that close the lease. -/
def InMemoryCardRuntime.closings (s : InMemoryCardRuntime) (id : Uuid) : Nat :=
  s.events.values.flatten.countP (·.closes id)

/-- The number of closing events that the lease table asks for. -/
def InMemoryCardRuntime.closed (s : InMemoryCardRuntime) (id : Uuid) : Nat :=
  if ((s.leases.get? id).bind (·.releasedAt)).isSome then 1 else 0

def ClosedOnce (s : InMemoryCardRuntime) : Prop := ∀ id, s.closings id = s.closed id

section Once
variable {s s' : InMemoryCardRuntime} {e : CardEvent}

theorem closings_putEvent (h : s'.events = (s.putEvent e).events) (id : Uuid) :
    s'.closings id = s.closings id + if e.closes id then 1 else 0 := by
  have hsum := Dict.sum_map_values_set (List.countP (·.closes id)) s.events e.cardId
    (s.history e.cardId ++ [e])
  have hold : ((s.events.get? e.cardId).map (List.countP (·.closes id))).getD 0 =
      (s.history e.cardId).countP (·.closes id) := by
    unfold history
    cases s.events.get? e.cardId <;> rfl
  have hnew : (s.history e.cardId ++ [e]).countP (·.closes id) =
      (s.history e.cardId).countP (·.closes id) + if e.closes id then 1 else 0 := by
    rw [List.countP_append, List.countP_singleton]
  rw [hold, hnew] at hsum
  simp only [closings, h, putEvent, List.countP_flatten]
  omega

/-- An event keeps the count when the lease table changes with it. -/
theorem ClosedOnce.putEvent (hs : ClosedOnce s) (hevents : s'.events = (s.putEvent e).events)
    (hclosed : ∀ id, s'.closed id = s.closed id + if e.closes id then 1 else 0) :
    ClosedOnce s' := by
  intro id
  rw [closings_putEvent hevents id, hs id, hclosed id]

theorem CardEvent.closes_false {e : CardEvent} (h : e.isClosing = false) (id : Uuid) :
    e.closes id = false := by
  simp only [CardEvent.closes, h, Bool.false_and]

theorem ClosedOnce.note (hs : ClosedOnce s) (hevents : s'.events = (s.putEvent e).events)
    (he : e.isClosing = false) (hclosed : ∀ id, s'.closed id = s.closed id) : ClosedOnce s' := by
  refine hs.putEvent hevents fun id => ?_
  rw [CardEvent.closes_false he id, hclosed id]
  rfl

/-- Writing a lease that is as released as the stored one keeps the table's count. -/
theorem closed_set {l : Lease} (h : s'.leases = s.leases.set l.id l)
    (hsame : l.releasedAt.isSome = ((s.leases.get? l.id).bind (·.releasedAt)).isSome) (id : Uuid) :
    s'.closed id = s.closed id := by
  simp only [closed, h, Dict.get?_set]
  split
  · rename_i hid
    rw [hid, Option.bind_some, hsame]
  · rfl

theorem Closing.closedOnce {l : Lease} {t : Instant} (h : Closing s s' l t e)
    (hs : ClosedOnce s) : ClosedOnce s' := by
  refine hs.putEvent h.events fun id => ?_
  simp only [closed, h.leases, Dict.get?_set]
  split
  · rename_i hid
    rw [hid, h.stored]
    simp [CardEvent.closes, h.closing, h.names, h.unreleased]
  · rename_i hid
    have hother : ¬ l.id.str = id.str := fun hstr => hid (Uuid.str_injective hstr).symm
    simp [CardEvent.closes, h.names, hother]

/-- A closed lease stays as it is. -/
def KeepsClosed (s s' : InMemoryCardRuntime) : Prop :=
  ∀ id l, s.leases.get? id = some l → l.releasedAt.isSome = true → s'.leases.get? id = some l

theorem KeepsClosed.set {l l' : Lease} (h : s'.leases = s.leases.set l.id l')
    (hopen : ∀ l₀, s.leases.get? l.id = some l₀ → l₀.releasedAt = none) : KeepsClosed s s' := by
  intro id l₁ hl₁ hreleased
  have hne : id ≠ l.id := by
    intro heq
    rw [hopen l₁ (heq ▸ hl₁)] at hreleased
    cases hreleased
  rw [h, Dict.get?_set_ne _ _ hne]
  exact hl₁

theorem KeepsClosed.trans {s₁ s₂ s₃ : InMemoryCardRuntime} (h : KeepsClosed s₁ s₂)
    (h' : KeepsClosed s₂ s₃) : KeepsClosed s₁ s₃ :=
  fun id l hl hreleased => h' id l (h id l hl hreleased) hreleased

theorem Closing.keepsClosed {l : Lease} {t : Instant} (h : Closing s s' l t e) :
    KeepsClosed s s' := by
  refine .set h.leases fun l₀ hl₀ => ?_
  rw [h.stored] at hl₀
  cases hl₀
  exact h.unreleased

theorem Lapses.both (h : Relation.ReflTransGen Lapses s s') :
    KeepsClosed s s' ∧ (ClosedOnce s → ClosedOnce s') := by
  induction h with
  | refl => exact ⟨fun _ _ hl _ => hl, id⟩
  | tail _ hstep ih =>
    obtain ⟨l, t, e, hclosing, -⟩ := hstep
    exact ⟨ih.1.trans hclosing.keepsClosed, fun hs => hclosing.closedOnce (ih.2 hs)⟩

end Once

section Step
variable {w : World} {m m' : Machine InMemoryCardRuntime}

theorem InMemoryCardRuntime.Claims.leases_eq {pipe worker : String} {key : Option String}
    {l : Lease} {e : CardEvent} (h : Claims w m m' pipe worker key l e) :
    m'.store.leases = m.store.leases.set l.id l := by
  rw [h.store]
  simp [claimed]

theorem InMemoryCardRuntime.Claims.events_eq {pipe worker : String} {key : Option String}
    {l : Lease} {e : CardEvent} (h : Claims w m m' pipe worker key l e) :
    m'.store.events = (m.store.putEvent e).events := by
  rw [h.store, claimed, putKey_events]
  rfl

theorem InMemoryCardRuntime.Renews.leases_eq {lease : Uuid} {key : Option String} {l : Lease}
    {t : Instant} {e : CardEvent} (h : Renews w m m' lease key l t e) :
    m'.store.leases = m.store.leases.set l.id { l with expiresAt := t } := by
  rw [h.store]
  simp [renewed]

theorem InMemoryCardRuntime.Renews.events_eq {lease : Uuid} {key : Option String} {l : Lease}
    {t : Instant} {e : CardEvent} (h : Renews w m m' lease key l t e) :
    m'.store.events = (m.store.putEvent e).events := by
  rw [h.store, renewed, putKey_events]
  rfl

theorem InMemoryCardRuntime.Renews.stored {lease : Uuid} {key : Option String} {l : Lease}
    {t : Instant} {e : CardEvent} (h : Renews w m m' lease key l t e)
    (hkeyed : WellKeyed m.store) : m.store.leases.get? l.id = some l := by
  rw [hkeyed.leases h.lease]
  exact h.lease

theorem LeaseStep.closedOnce (h : LeaseStep w m m') (hkeyed : WellKeyed m.store)
    (hdrawn : LeasesDrawn w m.draws m.store) (hm : ClosedOnce m.store) : ClosedOnce m'.store := by
  cases h with
  | quiet hleases hevents =>
    intro id
    simp only [closings, hevents, closed, hleases]
    exact hm id
  | notes e hnote hleases hevents =>
    exact hm.note hevents hnote.2 fun id => by simp only [closed, hleases]
  | @claims _ _ _ l e h =>
    have htype : e.isClosing = false := by
      simp [CardEvent.isClosing, closingTypes, h.event.2.1]
    refine hm.note h.events_eq htype (closed_set h.leases_eq ?_)
    rw [h.unreleased, h.unstored hdrawn]
    rfl
  | @renews _ _ l t e h =>
    have htype : e.isClosing = false := by
      simp [CardEvent.isClosing, closingTypes, h.event.2.1]
    refine hm.note h.events_eq htype (closed_set (l := { l with expiresAt := t }) h.leases_eq ?_)
    rw [h.stored hkeyed]
    rfl
  | submits h _ => exact h.closedOnce hm
  | lapses h => exact (Lapses.both h).2 hm

theorem LeaseStep.keepsClosed (h : LeaseStep w m m') (hkeyed : WellKeyed m.store)
    (hdrawn : LeasesDrawn w m.draws m.store) : KeepsClosed m.store m'.store := by
  cases h with
  | quiet hleases _ =>
    intro id l hl _
    rwa [hleases]
  | notes e _ hleases _ =>
    intro id l hl _
    rwa [hleases]
  | @claims _ _ _ l e h =>
    refine .set h.leases_eq fun l₀ hl₀ => ?_
    rw [h.unstored hdrawn] at hl₀
    cases hl₀
  | @renews _ _ l t e h =>
    refine .set h.leases_eq fun l₀ hl₀ => ?_
    rw [h.stored hkeyed] at hl₀
    cases hl₀
    exact Lease.unreleased_of_activeAt h.active.2
  | submits h _ => exact h.keepsClosed
  | lapses h => exact (Lapses.both h).1

end Step

section Run
variable {w : World}

/-- What the steps of a lease rest on, and the count of its closing events. -/
structure LeaseBook (w : World) (m : Machine InMemoryCardRuntime) : Prop where
  keyed : WellKeyed m.store
  drawn : LeasesDrawn w m.draws m.store
  once : ClosedOnce m.store

theorem LeaseBook.start (w : World) : LeaseBook w InMemoryCardRuntime.start where
  keyed := WellKeyed.init
  drawn a l h := by simp [InMemoryCardRuntime.start, InMemoryCardRuntime.init] at h
  once _ := rfl

theorem LeaseBook.step {m : Machine InMemoryCardRuntime} (hm : LeaseBook w m) {call : RuntimeCall}
    (hcall : call.evidence = true) : LeaseBook w (call.step w m) where
  keyed := hm.keyed.effect (call.step_effect w m)
  drawn := hm.drawn.effect hm.keyed (call.step_effect w m)
  once := (call.step_lease w m hcall hm.keyed).closedOnce hm.keyed hm.drawn hm.once

theorem LeaseBook.run {calls : List RuntimeCall} (hcalls : ∀ call ∈ calls, call.evidence = true)
    {m : Machine InMemoryCardRuntime} (hm : LeaseBook w m) :
    LeaseBook w (calls.foldl (RuntimeCall.step w) m) := by
  have hreach : Reaches (RuntimeCall.step w) (fun _ call => call.evidence = true) m
      (calls.foldl (RuntimeCall.step w) m) := (Permitted.of_forall_mem (fun _ => hcalls) m).reaches
  exact hreach.invariant hm fun m call hm hcall => hm.step hcall

theorem keepsClosed_run {calls : List RuntimeCall}
    (hcalls : ∀ call ∈ calls, call.evidence = true) {m : Machine InMemoryCardRuntime}
    (hm : LeaseBook w m) : KeepsClosed m.store (calls.foldl (RuntimeCall.step w) m).store := by
  induction calls generalizing m with
  | nil => exact fun _ _ hl _ => hl
  | cons call calls ih =>
    have hcall : call.evidence = true := hcalls call List.mem_cons_self
    have hstep : KeepsClosed m.store (call.step w m).store :=
      (call.step_lease w m hcall hm.keyed).keepsClosed hm.keyed hm.drawn
    exact hstep.trans (ih (fun c hc => hcalls c (List.mem_cons_of_mem _ hc)) (hm.step hcall))

/-- A stored lease is released if and only if one event closes it, an unreleased one
has none, and a released one stays as it is. -/
theorem lease_closed_once (w : World) (calls later : List RuntimeCall)
    (hcalls : ∀ call ∈ calls ++ later, call.evidence = true) {id : Uuid} {l : Lease}
    (hl : (runCalls w calls).store.leases.get? id = some l) :
    (l.releasedAt.isSome = true ↔ (runCalls w calls).store.closings l.id = 1) ∧
    (l.releasedAt = none → (runCalls w calls).store.closings l.id = 0) ∧
    (l.releasedAt.isSome = true →
      (runCalls w (calls ++ later)).store.leases.get? id = some l) := by
  have hbook : LeaseBook w (runCalls w calls) :=
    (LeaseBook.start w).run fun call hcall => hcalls call (List.mem_append_left _ hcall)
  have hcount : (runCalls w calls).store.closings l.id = if l.releasedAt.isSome then 1 else 0 := by
    rw [hbook.once, hbook.keyed.leases hl]
    simp only [closed, hl, Option.bind_some]
  refine ⟨?_, ?_, ?_⟩
  · rw [hcount]
    split <;> simp_all
  · intro hnone
    rw [hcount, hnone]
    rfl
  · intro hreleased
    have hlater : ∀ call ∈ later, call.evidence = true :=
      fun call hcall => hcalls call (List.mem_append_right _ hcall)
    have hkeeps := keepsClosed_run hlater hbook
    rw [runCalls, List.foldl_append]
    exact hkeeps id l hl hreleased

end Run

theorem lease_closed_once_reclaim :
    ∃ l, (runCalls .simple reclaimCalls).store.leases.get? ⟨2⟩ = some l ∧
      l.releasedAt.isSome = true ∧
      ((l.releasedAt.isSome = true ↔ (runCalls .simple reclaimCalls).store.closings l.id = 1) ∧
      (l.releasedAt = none → (runCalls .simple reclaimCalls).store.closings l.id = 0) ∧
      (l.releasedAt.isSome = true → (runCalls .simple (reclaimCalls ++
        [.recordEvent ⟨0⟩ "source_executed" none none none, .expireLeases])).store.leases.get? ⟨2⟩ =
          some l)) := by
  have hl : (runCalls .simple reclaimCalls).store.leases.get? ⟨2⟩ =
      some ⟨⟨2⟩, ⟨0⟩, "work", "w1", "work_in", 4, 300000003, some 6⟩ := by decide +kernel
  exact ⟨_, hl, rfl, lease_closed_once .simple reclaimCalls
    [.recordEvent ⟨0⟩ "source_executed" none none none, .expireLeases] (by decide +kernel) hl⟩

/-! ## Submissions follow the latest claim -/

/-- The lease of the latest claim in a history, until a submission. -/
def openClaim (h : List CardEvent) : Option String :=
  h.foldl (fun o e => if e.isClaim then e.leaseId else if e.isSubmission then none else o) none

/-- Each submission names the lease whose claim is open. -/
def Landed (h : List CardEvent) : Prop :=
  ∀ before e after, h = before ++ e :: after → e.isSubmission = true →
    ∃ id, openClaim before = some id ∧ e.leaseId = some id

section Histories
variable {h : List CardEvent} {e : CardEvent}

theorem openClaim_append (h : List CardEvent) (e : CardEvent) : openClaim (h ++ [e]) =
    if e.isClaim then e.leaseId else if e.isSubmission then none else openClaim h := by
  simp only [openClaim, List.foldl_append, List.foldl_cons, List.foldl_nil]

theorem openClaim_note (he : e.isClaim = false) (hsub : e.isSubmission = false) :
    openClaim (h ++ [e]) = openClaim h := by
  rw [openClaim_append, he, hsub]
  rfl

/-- An open claim is the latest one. -/
theorem openClaim_latest {id : String} (hopen : openClaim h = some id) :
    ∃ before c between, h = before ++ c :: between ∧ c.isClaim = true ∧ c.leaseId = some id ∧
      ∀ x ∈ between, x.isClaim = false := by
  induction h using List.reverseRecOn with
  | nil => cases hopen
  | append_singleton h e ih =>
    rw [openClaim_append] at hopen
    split at hopen
    · rename_i hclaim
      exact ⟨h, e, [], rfl, hclaim, hopen, fun x hx => (List.not_mem_nil hx).elim⟩
    · rename_i hclaim
      split at hopen
      · cases hopen
      · obtain ⟨before, c, between, hh, hc, hid, hbetween⟩ := ih hopen
        refine ⟨before, c, between ++ [e], by rw [hh]; simp, hc, hid, ?_⟩
        intro x hx
        rcases List.mem_append.mp hx with hx | hx
        · exact hbetween x hx
        · rw [List.mem_singleton.mp hx]
          exact eq_false_of_ne_true hclaim

theorem Landed.nil : Landed [] := by
  intro before e after hh
  cases before <;> cases hh

theorem Landed.of_append {h' : List CardEvent} (hl : Landed (h ++ h')) : Landed h := by
  intro before e after hh
  refine hl before e (after ++ h') ?_
  rw [hh]
  simp

/-- The step lemma of histories: one more event at the end. -/
theorem Landed.append (hl : Landed h)
    (he : e.isSubmission = true → ∃ id, openClaim h = some id ∧ e.leaseId = some id) :
    Landed (h ++ [e]) := by
  intro before x after hh hsub
  rcases List.eq_nil_or_concat' after with rfl | ⟨after', y, rfl⟩
  · obtain ⟨rfl, hx⟩ := List.append_inj' hh rfl
    cases hx
    exact he hsub
  · rw [← List.cons_append, ← List.append_assoc] at hh
    obtain ⟨hh, -⟩ := List.append_inj' hh rfl
    exact hl before x after' hh hsub

/-- Without a further claim at most one submission follows, and none if no claim is open. -/
theorem Landed.count_le {between : List CardEvent} (hl : Landed (h ++ between))
    (hbetween : ∀ x ∈ between, x.isClaim = false) :
    between.countP (·.isSubmission) ≤ if (openClaim h).isSome then 1 else 0 := by
  induction between generalizing h with
  | nil => exact Nat.zero_le _
  | cons x xs ih =>
    have hxs : ∀ y ∈ xs, y.isClaim = false := fun y hy => hbetween y (List.mem_cons_of_mem x hy)
    have hx : x.isClaim = false := hbetween x List.mem_cons_self
    have hrest : Landed ((h ++ [x]) ++ xs) := by
      rw [List.append_assoc]
      exact hl
    have hcount := ih hrest hxs
    cases hsub : x.isSubmission with
    | false =>
      rw [openClaim_note hx hsub] at hcount
      rw [List.countP_cons, hsub]
      exact hcount
    | true =>
      obtain ⟨id, hopen, -⟩ := hl h x xs rfl hsub
      rw [openClaim_append, hx, hsub] at hcount
      rw [List.countP_cons, hsub, hopen]
      exact Nat.succ_le_succ hcount

end Histories

/-- Whoever could still submit holds the open claim of the card, and all submissions
have landed. -/
structure ClaimBook (w : World) (m : Machine InMemoryCardRuntime) : Prop where
  holder : ∀ t, FromNowOn w m t → ∀ id l, m.store.leases.get? id = some l →
    l.activeAt t = true → openClaim (m.store.history l.cardId) = some l.id.str
  landed : ∀ x, Landed (m.store.history x)

section Book
variable {w : World} {m m' : Machine InMemoryCardRuntime}

theorem Closing.landed {l : Lease} {t : Instant} {e : CardEvent}
    (h : Closing m.store m'.store l t e) (hm : ∀ x, Landed (m.store.history x))
    (hopen : e.isSubmission = true → openClaim (m.store.history l.cardId) = some l.id.str) :
    ∀ x, Landed (m'.store.history x) := by
  intro x
  rw [history_of_putEvent h.events]
  split
  · rename_i hx
    refine (hm x).append fun hsub => ⟨l.id.str, ?_, h.names⟩
    rw [hx, h.card]
    exact hopen hsub
  · exact hm x

theorem landed_note {s s' : InMemoryCardRuntime} {e : CardEvent}
    (hevents : s'.events = (s.putEvent e).events) (he : e.isSubmission = false)
    (hs : ∀ x, Landed (s.history x)) : ∀ x, Landed (s'.history x) := by
  intro x
  rw [history_of_putEvent hevents]
  split
  · refine (hs x).append fun hsub => ?_
    rw [he] at hsub
    cases hsub
  · exact hs x

/-- An event that is neither a claim nor a submission moves no open claim. -/
theorem openClaim_putEvent {s s' : InMemoryCardRuntime} {e : CardEvent}
    (hevents : s'.events = (s.putEvent e).events) (hclaim : e.isClaim = false)
    (hsub : e.isSubmission = false) (x : Uuid) :
    openClaim (s'.history x) = openClaim (s.history x) := by
  rw [history_of_putEvent hevents]
  split
  · exact openClaim_note hclaim hsub
  · rfl

theorem CardEvent.isClaim_false_of_closing {e : CardEvent} (h : e.isClosing = true) :
    e.isClaim = false := by
  cases hclaim : e.isClaim with
  | false => rfl
  | true =>
    have htype : e.eventType = "card_claimed" := of_decide_eq_true hclaim
    simp [CardEvent.isClosing, closingTypes, htype] at h

theorem Lapses.claimBook {s s' : InMemoryCardRuntime} (h : Relation.ReflTransGen Lapses s s') :
    (∀ id l t, s'.leases.get? id = some l → l.activeAt t = true → s.leases.get? id = some l) ∧
    (∀ x, openClaim (s'.history x) = openClaim (s.history x)) ∧
    ((∀ x, Landed (s.history x)) → ∀ x, Landed (s'.history x)) := by
  induction h with
  | refl => exact ⟨fun _ _ _ hl _ => hl, fun _ => rfl, id⟩
  | tail _ hstep ih =>
    obtain ⟨l, r, e, hclosing, hsub⟩ := hstep
    have hclaim := CardEvent.isClaim_false_of_closing hclosing.closing
    refine ⟨?_, ?_, ?_⟩
    · intro id l' t hl' hact
      rw [hclosing.leases, Dict.get?_set] at hl'
      split at hl'
      · cases hl'
        rw [Lease.activeAt_released rfl] at hact
        cases hact
      · exact ih.1 id l' t hl' hact
    · intro x
      rw [openClaim_putEvent hclosing.events hclaim hsub, ih.2.1 x]
    · exact fun hs => landed_note hclosing.events hsub (ih.2.2 hs)

/-- A claim opens on a card that no active lease holds. -/
theorem ClaimBook.claims {pipe worker : String} {key : Option String} {l : Lease} {e : CardEvent}
    (h : Claims w m m' pipe worker key l e) (hm : ClaimBook w m) : ClaimBook w m' := by
  obtain ⟨hcard, htype, -, hpayload⟩ := h.event
  have hclaim : e.isClaim = true := by simp [CardEvent.isClaim, htype]
  have hsub : e.isSubmission = false := by simp [CardEvent.isSubmission, htype]
  have hnames : e.leaseId = some l.id.str := by
    simp [CardEvent.leaseId, hpayload, JsonObj.get?, Dict.lookupIn]
  refine ⟨?_, landed_note h.events_eq hsub hm.landed⟩
  intro t ht id l' hl' hact
  rw [h.leases_eq, Dict.get?_set] at hl'
  rw [history_of_putEvent h.events_eq, hcard]
  split at hl'
  · cases hl'
    rw [if_pos rfl, openClaim_append, if_pos hclaim]
    exact hnames
  · have hne : l'.cardId ≠ l.cardId := by
      intro heq
      obtain ⟨p, bucket, c, i, -, -, -, hi, hclaimable, hc, -⟩ := h.target
      have hfree := hclaimable.free l' (Dict.mem_values_of_get? hl') (heq.trans hc.symm)
      rw [Lease.activeAt_anti (ht i hi) hact] at hfree
      cases hfree
    rw [if_neg hne]
    exact hm.holder t (ht.of_later h.later) id l' hl' hact

theorem ClaimBook.renews (hclock : Monotone w.clock) {lease : Uuid} {key : Option String}
    {l : Lease} {r : Instant} {e : CardEvent} (h : Renews w m m' lease key l r e)
    (hkeyed : WellKeyed m.store) (hm : ClaimBook w m) : ClaimBook w m' := by
  have hclaim : e.isClaim = false := by simp [CardEvent.isClaim, h.event.2.1]
  have hsub : e.isSubmission = false := by simp [CardEvent.isSubmission, h.event.2.1]
  refine ⟨?_, landed_note h.events_eq hsub hm.landed⟩
  intro t ht id l' hl' hact
  rw [openClaim_putEvent h.events_eq hclaim hsub]
  rw [h.leases_eq, Dict.get?_set] at hl'
  split at hl'
  · cases hl'
    exact hm.holder _ (.first hclock) l.id l (h.stored hkeyed) h.active.2
  · exact hm.holder t (ht.of_later h.later) id l' hl' hact

/-- A submission closes the open claim, and no other lease of the card is active. -/
theorem ClaimBook.submits (hclock : Monotone w.clock) {l : Lease} {r : Instant} {e : CardEvent}
    (h : Closing m.store m'.store l r e)
    (hactive : m.ticks < m'.ticks ∧ l.activeAt (w.clock m.ticks) = true) (hlater : Later m m')
    (hkeyed : WellKeyed m.store) (hm : ClaimBook w m) : ClaimBook w m' := by
  have hopen : openClaim (m.store.history l.cardId) = some l.id.str :=
    hm.holder _ (.first hclock) l.id l h.stored hactive.2
  refine ⟨?_, h.landed hm.landed fun _ => hopen⟩
  intro t ht id l' hl' hact
  rw [h.leases, Dict.get?_set] at hl'
  split at hl'
  · cases hl'
    rw [Lease.activeAt_released rfl] at hact
    cases hact
  · rename_i hid
    have hne : l'.cardId ≠ l.cardId := by
      intro heq
      have hact' : l'.activeAt (w.clock m.ticks) = true :=
        Lease.activeAt_anti (ht _ hactive.1) hact
      have hother : openClaim (m.store.history l'.cardId) = some l'.id.str :=
        hm.holder _ (.first hclock) id l' hl' hact'
      rw [heq, hopen] at hother
      have hsame : l.id = l'.id := Uuid.str_injective (Option.some.inj hother)
      exact hid ((hkeyed.leases hl').symm.trans hsame.symm)
    rw [history_of_putEvent h.events, h.card, if_neg hne]
    exact hm.holder t (ht.of_later hlater) id l' hl' hact

theorem ClaimBook.step (hclock : Monotone w.clock) (h : LeaseStep w m m') (hlater : Later m m')
    (hkeyed : WellKeyed m.store) (hm : ClaimBook w m) : ClaimBook w m' := by
  cases h with
  | quiet hleases hevents =>
    refine ⟨?_, fun x => by rw [history_of_events hevents]; exact hm.landed x⟩
    intro t ht id l hl hact
    rw [hleases] at hl
    rw [history_of_events hevents]
    exact hm.holder t (ht.of_later hlater) id l hl hact
  | notes e hnote hleases hevents =>
    refine ⟨?_, landed_note hevents hnote.not_submission hm.landed⟩
    intro t ht id l hl hact
    rw [hleases] at hl
    rw [openClaim_putEvent hevents hnote.1 hnote.not_submission]
    exact hm.holder t (ht.of_later hlater) id l hl hact
  | claims h => exact hm.claims h
  | renews h => exact hm.renews hclock h hkeyed
  | submits h hactive => exact hm.submits hclock h hactive hlater hkeyed
  | lapses h =>
    obtain ⟨hactive, hopen, hlanded⟩ := Lapses.claimBook h
    refine ⟨?_, hlanded hm.landed⟩
    intro t ht id l hl hact
    rw [hopen]
    exact hm.holder t (ht.of_later hlater) id l (hactive id l t hl hact) hact

end Book

/-- What a history says about claims and submissions. -/
structure InClaimOrder (h : List CardEvent) : Prop where
  /-- A submission names the lease of the most recent claim before it. -/
  latest : ∀ before e after, h = before ++ e :: after → e.isSubmission = true →
    ∃ earlier c between id, before = earlier ++ c :: between ∧ c.isClaim = true ∧
      (∀ x ∈ between, x.isClaim = false) ∧ c.leaseId = some id ∧ e.leaseId = some id
  /-- Between two consecutive claims there is at most one submission. -/
  once : ∀ before c between c' after, h = before ++ c :: (between ++ c' :: after) →
    c.isClaim = true → c'.isClaim = true → (∀ x ∈ between, x.isClaim = false) →
    between.countP (·.isSubmission) ≤ 1

theorem Landed.inClaimOrder {h : List CardEvent} (hl : Landed h) : InClaimOrder h where
  latest before e after hh hsub := by
    obtain ⟨id, hopen, hid⟩ := hl before e after hh hsub
    obtain ⟨earlier, c, between, hbefore, hclaim, hc, hbetween⟩ := openClaim_latest hopen
    exact ⟨earlier, c, between, id, hbefore, hclaim, hbetween, hc, hid⟩
  once before c between c' after hh _ _ hbetween := by
    have hwhole : h = ((before ++ [c]) ++ between) ++ c' :: after := by
      rw [hh]
      simp
    have hprefix : Landed ((before ++ [c]) ++ between) := (hwhole ▸ hl).of_append
    have hcount := hprefix.count_le hbetween
    have hle : (if (openClaim (before ++ [c])).isSome then 1 else 0) ≤ 1 := by
      split <;> omega
    exact Nat.le_trans hcount hle

section Run
variable {w : World}

theorem ClaimBook.start (w : World) : ClaimBook w InMemoryCardRuntime.start where
  holder _ _ id l hl := by simp [InMemoryCardRuntime.start, InMemoryCardRuntime.init] at hl
  landed _ := Landed.nil

theorem ClaimBook.run (hclock : Monotone w.clock) {calls : List RuntimeCall}
    (hcalls : ∀ call ∈ calls, call.evidence = true) {m : Machine InMemoryCardRuntime}
    (hkeyed : WellKeyed m.store) (hm : ClaimBook w m) :
    ClaimBook w (calls.foldl (RuntimeCall.step w) m) := by
  induction calls generalizing m with
  | nil => exact hm
  | cons call calls ih =>
    have heffect := call.step_effect w m
    have hstep : ClaimBook w (call.step w m) :=
      hm.step hclock (call.step_lease w m (hcalls call List.mem_cons_self) hkeyed) heffect.later
        hkeyed
    exact ih (fun c hc => hcalls c (List.mem_cons_of_mem _ hc)) (hkeyed.effect heffect) hstep

/-- With a clock that does not go back only the latest claimant's work lands. -/
theorem latest_claimant_lands (w : World) (hclock : Monotone w.clock) (calls : List RuntimeCall)
    (hcalls : ∀ call ∈ calls, call.evidence = true) (cardId : Uuid) :
    InClaimOrder ((runCalls w calls).store.history cardId) := by
  have hbook : ClaimBook w (runCalls w calls) :=
    (ClaimBook.start w).run hclock hcalls WellKeyed.init
  exact (hbook.landed cardId).inClaimOrder

theorem latest_claimant_lands_reclaim :
    InClaimOrder ((runCalls .simple reclaimCalls).store.history ⟨0⟩) :=
  latest_claimant_lands .simple (fun _ _ h => Int.ofNat_le.mpr h) reclaimCalls
    (by decide +kernel) ⟨0⟩

end Run

end GhostMesh
