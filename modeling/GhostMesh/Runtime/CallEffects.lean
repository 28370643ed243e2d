import GhostMesh.Runtime.Calls

/-!
# What a call did, by its outcome

`CallEffect` ties the effects of a run to the call that had them: a call that
raises has none, and a call that returns has the one of its own kind, with the
arguments of the call. `Logged` is what nearly every effect amounts to for the
cards: one event on one card, and at most one card record.
-/

set_option autoImplicit false

namespace GhostMesh

open InMemoryCardRuntime Op

namespace RuntimeCall

/-- Whether a call returned, and else the exception it raised. -/
def result (w : World) (m : Machine InMemoryCardRuntime) : RuntimeCall → Except PyErr Unit
  | registerPatchPanel p => ((InMemoryCardRuntime.registerPatchPanel p).run w m).1.map fun _ => ()
  | listPatchPanels => (InMemoryCardRuntime.listPatchPanels.run w m).1.map fun _ => ()
  | createCard panel payload metadata key =>
    ((InMemoryCardRuntime.createCard panel payload metadata key).run w m).1.map fun _ => ()
  | listCards => (InMemoryCardRuntime.listCards.run w m).1.map fun _ => ()
  | listLeases => (InMemoryCardRuntime.listLeases.run w m).1.map fun _ => ()
  | claimCard pipe worker seconds key =>
    ((InMemoryCardRuntime.claimCard pipe worker seconds key).run w m).1.map fun _ => ()
  | submitArtifact lease pipe refs key =>
    ((InMemoryCardRuntime.submitArtifact lease pipe refs key).run w m).1.map fun _ => ()
  | renewLease lease seconds key =>
    ((InMemoryCardRuntime.renewLease lease seconds key).run w m).1.map fun _ => ()
  | releaseLease lease actor key =>
    ((InMemoryCardRuntime.releaseLease lease actor key).run w m).1.map fun _ => ()
  | expireLeases => (InMemoryCardRuntime.expireLeases.run w m).1.map fun _ => ()
  | validateCard card validator accepted reason pipe payload key =>
    ((InMemoryCardRuntime.validateCard card validator accepted reason pipe payload key).run w
      m).1.map fun _ => ()
  | moveCard card bucket actor reason key =>
    ((InMemoryCardRuntime.moveCard card bucket actor reason key).run w m).1.map fun _ => ()
  | cardHistory card => ((InMemoryCardRuntime.cardHistory card).run w m).1.map fun _ => ()
  | recordEvent card type actor payload key =>
    ((InMemoryCardRuntime.recordEvent card type actor payload key).run w m).1.map fun _ => ()

end RuntimeCall

/-- The effects of a call with its outcome: only a call that returned wrote. -/
inductive CallEffect (w : World) (m m' : Machine InMemoryCardRuntime) :
    RuntimeCall → Except PyErr Unit → Prop where
  | same {call : RuntimeCall} {r : Except PyErr Unit} (h : SameStore m m') :
      CallEffect w m m' call r
  | registers {p : PatchPanel} (report : GraphValidationReport)
      (valid : PatchPanelValidator.validate w p = .ok report)
      (h : m' = { m with store := m.store.putPanel p }) :
      CallEffect w m m' (.registerPatchPanel p) (.ok ())
  | creates {panel payload metadata key c e} (h : Creates w m m' panel payload metadata key c e) :
      CallEffect w m m' (.createCard panel payload metadata key) (.ok ())
  | claims {pipe worker seconds key l e} (h : Claims w m m' pipe worker key l e) :
      CallEffect w m m' (.claimCard pipe worker seconds key) (.ok ())
  | submits {lease pipe refs key l c destination t e}
      (h : Submits w m m' lease pipe refs key l c destination t e) :
      CallEffect w m m' (.submitArtifact lease pipe refs key) (.ok ())
  | renews {lease seconds key l t e} (h : Renews w m m' lease key l t e) :
      CallEffect w m m' (.renewLease lease seconds key) (.ok ())
  | releases {lease actor key l t e} (h : Releases m m' lease actor key l t e) :
      CallEffect w m m' (.releaseLease lease actor key) (.ok ())
  | expires (h : Expires (w.clock m.ticks) m.store.leases.values m.store m'.store)
      (later : Later m m') : CallEffect w m m' .expireLeases (.ok ())
  | validates {card validator accepted reason pipe payload key c route e}
      (h : Validates w m m' card validator accepted reason pipe payload key c route e) :
      CallEffect w m m' (.validateCard card validator accepted reason pipe payload key) (.ok ())
  | moves {card bucket actor reason key c e} (h : Moves m m' card bucket actor reason key c e) :
      CallEffect w m m' (.moveCard card bucket actor reason key) (.ok ())
  | records {card type actor payload key e} (h : Records m m' card type actor payload key e) :
      CallEffect w m m' (.recordEvent card type actor payload key) (.ok ())

section Cases
variable {w : World} {m m' : Machine InMemoryCardRuntime}

theorem CallEffect.of_eq {call : RuntimeCall} {r : Except PyErr Unit} (h : m' = m) :
    CallEffect w m m' call r := by
  subst h
  exact .same (.refl _)

theorem InMemoryCardRuntime.run_registerPatchPanel (p : PatchPanel) (w : World)
    (m : Machine InMemoryCardRuntime) : (registerPatchPanel p).run w m =
      match PatchPanelValidator.validate w p with
      | .error e => (.error e, m)
      | .ok _ => (.ok p, { m with store := m.store.putPanel p }) := by
  simp only [registerPatchPanel, Exec.run_bind, Op.run_world, Op.run_ofExcept]
  cases PatchPanelValidator.validate w p <;> rfl

/-- Inversion of a call: its outcome and its effect belong together. -/
theorem RuntimeCall.step_cases (w : World) (m : Machine InMemoryCardRuntime) (call : RuntimeCall) :
    CallEffect w m (call.step w m) call (call.result w m) := by
  cases call with
  | registerPatchPanel p =>
    simp only [step, result, run_registerPatchPanel]
    cases hv : PatchPanelValidator.validate w p with
    | error err => exact .same (.refl _)
    | ok report => exact .registers report hv rfl
  | listPatchPanels => exact .same (.refl _)
  | createCard panel payload metadata key =>
    simp only [step, result]
    rcases hrun : (InMemoryCardRuntime.createCard panel payload metadata key).run w m with ⟨r, m'⟩
    rcases createCard_cases hrun with h | ⟨c, e, hr, h⟩
    · exact .of_eq h
    · rw [hr]
      exact .creates h
  | listCards => exact .same (.refl _)
  | listLeases => exact .same (.refl _)
  | claimCard pipe worker seconds key =>
    simp only [step, result]
    rcases hrun : (InMemoryCardRuntime.claimCard pipe worker seconds key).run w m with ⟨r, m'⟩
    rcases claimCard_cases hrun with ⟨h, -⟩ | ⟨l, e, hr, h⟩
    · exact .same h
    · rw [hr]
      exact .claims h
  | submitArtifact lease pipe refs key =>
    simp only [step, result]
    rcases hrun : (InMemoryCardRuntime.submitArtifact lease pipe refs key).run w m with ⟨r, m'⟩
    rcases submitArtifact_cases hrun with h | ⟨l, c, d, t, e, hr, h⟩
    · exact .same h
    · rw [hr]
      exact .submits h
  | renewLease lease seconds key =>
    simp only [step, result]
    rcases hrun : (InMemoryCardRuntime.renewLease lease seconds key).run w m with ⟨r, m'⟩
    rcases renewLease_cases hrun with h | ⟨l, t, e, hr, h⟩
    · exact .same h
    · rw [hr]
      exact .renews h
  | releaseLease lease actor key =>
    simp only [step, result]
    rcases hrun : (InMemoryCardRuntime.releaseLease lease actor key).run w m with ⟨r, m'⟩
    rcases releaseLease_cases hrun with h | ⟨l, t, e, hr, h⟩
    · exact .of_eq h
    · rw [hr]
      exact .releases h
  | expireLeases =>
    simp only [step, result]
    rcases hrun : InMemoryCardRuntime.expireLeases.run w m with ⟨r, m'⟩
    obtain ⟨hexp, hlater⟩ := expireLeases_cases hrun
    simp only [InMemoryCardRuntime.expireLeases, Exec.run_bind, Op.run_now, Op.run_get] at hrun
    obtain ⟨-, -, hr⟩ := expireEach_cases hrun
    rw [hr]
    exact .expires hexp hlater
  | validateCard card validator accepted reason pipe payload key =>
    simp only [step, result]
    rcases hrun : (InMemoryCardRuntime.validateCard card validator accepted reason pipe payload
      key).run w m with ⟨r, m'⟩
    rcases validateCard_cases hrun with h | ⟨c, route, e, hr, h⟩
    · exact .of_eq h
    · rw [hr]
      exact .validates h
  | moveCard card bucket actor reason key =>
    simp only [step, result]
    rcases hrun : (InMemoryCardRuntime.moveCard card bucket actor reason key).run w m with ⟨r, m'⟩
    rcases moveCard_cases hrun with h | ⟨c, e, hr, h⟩
    · exact .of_eq h
    · rw [hr]
      exact .moves h
  | cardHistory card =>
    have hrun : (InMemoryCardRuntime.cardHistory card).run w m = (_, _) := rfl
    exact .of_eq (cardHistory_same hrun)
  | recordEvent card type actor payload key =>
    simp only [step, result]
    rcases hrun : (InMemoryCardRuntime.recordEvent card type actor payload key).run w m with ⟨r, m'⟩
    rcases recordEvent_cases hrun with h | ⟨e, hr, h⟩
    · exact .of_eq h
    · rw [hr]
      exact .records h

end Cases

/-! ## Cards and their evidence -/

namespace InMemoryCardRuntime

/-- The step appended the event, and stored the record when there is one. -/
structure Logged (s s' : InMemoryCardRuntime) (c : Option Card) (e : CardEvent) : Prop where
  cards : s'.cards = c.elim s.cards fun c => s.cards.set c.id c
  history : ∀ x, s'.history x = if x = e.cardId then s.history x ++ [e] else s.history x

/-- A note is an event that comes with no card record. -/
abbrev Noted (s s' : InMemoryCardRuntime) (e : CardEvent) : Prop := Logged s s' none e

section Logged
variable {s s' : InMemoryCardRuntime} {w : World} {m m' : Machine InMemoryCardRuntime}
  {c : Card} {l : Lease} {e : CardEvent} {key : Option String}

theorem Logged.of_writes {t : InMemoryCardRuntime} {c : Option Card} {v : Stored}
    (hcards : t.cards = c.elim s.cards fun c => s.cards.set c.id c)
    (hhistory : ∀ x, t.history x = s.history x) : Logged s ((t.putEvent e).putKey key v) c e := by
  refine ⟨by rw [putKey_cards, putEvent_cards, hcards], ?_⟩
  intro x
  rw [putKey_history, putEvent_history, hhistory]

theorem Creates.logged {panel : String} {payload : JsonObj} {metadata : Option JsonObj}
    (h : Creates w m m' panel payload metadata key c e) : Logged m.store m'.store (some c) e := by
  rw [h.store]
  exact .of_writes rfl fun _ => rfl

theorem Claims.noted {pipe worker : String} (h : Claims w m m' pipe worker key l e) :
    Noted m.store m'.store e := by
  rw [h.store]
  exact .of_writes rfl fun _ => rfl

theorem Submits.logged {lease : Uuid} {pipe : String} {refs : List ArtifactReference}
    {destination : String} {t : Instant} (h : Submits w m m' lease pipe refs key l c destination t e) :
    Logged m.store m'.store (some { c with currentBucket := destination }) e := by
  rw [h.store]
  exact .of_writes rfl fun _ => rfl

theorem Renews.noted {lease : Uuid} {t : Instant} (h : Renews w m m' lease key l t e) :
    Noted m.store m'.store e := by
  rw [h.store]
  exact .of_writes rfl fun _ => rfl

theorem Releases.noted {lease : Uuid} {actor : Option String} {t : Instant}
    (h : Releases m m' lease actor key l t e) : Noted m.store m'.store e := by
  rw [h.store]
  exact .of_writes rfl fun _ => rfl

theorem released_noted (s : InMemoryCardRuntime) (l : Lease) (t : Instant) (e : CardEvent) :
    Noted s (s.released l t e) e := ⟨rfl, fun x => putEvent_history _ e x⟩

/-- The record that a validation stores: none without a route. -/
def routedCard (c : Card) (route : Option (String × String)) : Option Card :=
  route.map fun r => { c with currentBucket := r.2 }

theorem Validates.logged {card : Uuid} {validator : String} {accepted : Bool}
    {reason pipe : Option String} {payload : Option JsonObj} {route : Option (String × String)}
    (h : Validates w m m' card validator accepted reason pipe payload key c route e) :
    Logged m.store m'.store (routedCard c route) e := by
  rw [h.store]
  refine .of_writes ?_ (routeCard_history _ _ _)
  cases route <;> rfl

theorem Moves.logged {card : Uuid} {bucket : String} {actor reason : Option String}
    (h : Moves m m' card bucket actor reason key c e) :
    Logged m.store m'.store (some { c with currentBucket := bucket }) e := by
  rw [h.store]
  exact .of_writes rfl fun _ => rfl

theorem Records.noted {card : Uuid} {type : String} {actor : Option String}
    {payload : Option JsonObj} (h : Records m m' card type actor payload key e) :
    Noted m.store m'.store e := by
  rw [h.store]
  exact .of_writes rfl fun _ => rfl

theorem Logged.card_isSome {c : Option Card} {id : Uuid} (h : Logged s s' c e)
    (hid : (s.cards.get? id).isSome = true) : (s'.cards.get? id).isSome = true := by
  rw [h.cards]
  cases c with
  | none => exact hid
  | some c =>
    simp only [Option.elim_some, Dict.get?_set]
    split
    · rfl
    · exact hid

/-- The history of a card only grows. -/
theorem Logged.grows {c : Option Card} (h : Logged s s' c e) (x : Uuid) :
    s.history x <+: s'.history x := by
  rw [h.history]
  split
  · exact List.prefix_append _ _
  · exact List.prefix_refl _

end Logged

end InMemoryCardRuntime

/-! ## Ids -/

/-- Card ids come from the id supply, and leases and events are about stored cards. -/
structure Issued (w : World) (m : Machine InMemoryCardRuntime) : Prop where
  cards : ∀ id c, m.store.cards.get? id = some c → Drawn w m.draws id
  leases : ∀ id l, m.store.leases.get? id = some l →
    (m.store.cards.get? l.cardId).isSome = true
  events : ∀ id, m.store.history id ≠ [] → (m.store.cards.get? id).isSome = true

namespace Issued

variable {w : World} {m m' : Machine InMemoryCardRuntime} {e : CardEvent}

theorem start (w : World) : Issued w InMemoryCardRuntime.start where
  cards id c h := by simp [InMemoryCardRuntime.start, InMemoryCardRuntime.init] at h
  leases id l h := by simp [InMemoryCardRuntime.start, InMemoryCardRuntime.init] at h
  events id h := by simp [InMemoryCardRuntime.start, InMemoryCardRuntime.init, history] at h

/-- A card under a new id has no evidence yet. -/
theorem history_nil (hm : Issued w m) {i : Nat} (hi : m.draws ≤ i) :
    m.store.history (w.uuid4 i) = [] := by
  by_contra hne
  obtain ⟨c, hc⟩ := Option.isSome_iff_exists.mp (hm.events _ hne)
  obtain ⟨j, hj, hij⟩ := hm.cards _ c hc
  have : i = j := w.uuid4_injective hij
  omega

theorem of_logged {c : Option Card} (hm : Issued w m) (h : Logged m.store m'.store c e)
    (hdraws : m.draws ≤ m'.draws) (hc : ∀ x, c = some x → Drawn w m'.draws x.id)
    (he : (m'.store.cards.get? e.cardId).isSome = true)
    (hl : ∀ id l, m'.store.leases.get? id = some l → (m.store.cards.get? l.cardId).isSome = true) :
    Issued w m' := by
  refine ⟨?_, fun id l hget => h.card_isSome (hl id l hget), ?_⟩
  · intro id x hget
    rw [h.cards] at hget
    cases c with
    | none => exact (hm.cards id x hget).mono hdraws
    | some c =>
      rw [Option.elim_some, Dict.get?_set] at hget
      split at hget
      · rename_i hid
        rw [hid]
        exact hc c rfl
      · exact (hm.cards id x hget).mono hdraws
  · intro id hne
    rw [h.history] at hne
    split at hne
    · rename_i hid
      rw [hid]
      exact he
    · exact h.card_isSome (hm.events id hne)

/-- A note leaves the cards alone. -/
theorem of_noted (hm : Issued w m) (h : Noted m.store m'.store e) (hdraws : m.draws ≤ m'.draws)
    (he : (m.store.cards.get? e.cardId).isSome = true)
    (hl : ∀ id l, m'.store.leases.get? id = some l → (m.store.cards.get? l.cardId).isSome = true) :
    Issued w m' :=
  hm.of_logged h hdraws (fun _ hx => by cases hx) (h.card_isSome he) hl

/-- A stored lease may be replaced by one of the same card. -/
theorem set_lease (hm : Issued w m) {leases : Dict Uuid Lease} {l : Lease}
    (hleases : leases = m.store.leases.set l.id l)
    (hl : (m.store.cards.get? l.cardId).isSome = true) :
    ∀ id (x : Lease), leases.get? id = some x →
      (m.store.cards.get? x.cardId).isSome = true := by
  rw [hleases]
  exact Dict.forall_values_set hm.leases hl

theorem expires {t : Instant} {ls : List Lease} {s' : InMemoryCardRuntime} {ticks draws : Nat}
    (hexp : Expires t ls m.store s') (hm : Issued w m) (hdraws : m.draws ≤ draws)
    (hls : ∀ l ∈ ls, (m.store.cards.get? l.cardId).isSome = true) :
    Issued w ⟨s', ticks, draws⟩ := by
  obtain ⟨s, n, d⟩ := m
  simp only at hexp hls hdraws
  induction hexp with
  | done s => exact ⟨fun id c h => (hm.cards id c h).mono hdraws, hm.leases, hm.events⟩
  | keep _ _ ih => exact ih hm fun l hl => hls l (List.mem_cons_of_mem _ hl)
  | @lapse l ls s s' e _ hcard _ _ _ _ ih =>
    have hstored : (s.cards.get? l.cardId).isSome = true := hls l List.mem_cons_self
    have hnext : Issued w ⟨s.released l t e, n, d⟩ :=
      hm.of_noted (released_noted s l t e) (Nat.le_refl _) (hcard ▸ hstored)
        (hm.set_lease (l := { l with releasedAt := some t }) rfl hstored)
    exact ih hnext fun x hx => hls x (List.mem_cons_of_mem _ hx)

theorem effect (hkeyed : WellKeyed m.store) (hm : Issued w m) (h : Effect w m m') :
    Issued w m' := by
  have hdraws : m.draws ≤ m'.draws := h.later.draws
  have hsame : m'.store = m.store → Issued w m' := by
    intro heq
    refine ⟨?_, ?_, ?_⟩
    · intro id c hget
      rw [heq] at hget
      exact (hm.cards id c hget).mono hdraws
    · rw [heq]
      exact hm.leases
    · rw [heq]
      exact hm.events
  have hstored : ∀ {id : Uuid} {c : Card}, m.store.cards.get? id = some c →
      (m.store.cards.get? c.id).isSome = true := by
    intro id c hget
    rw [hkeyed.cards hget, hget]
    rfl
  have hdrawn : ∀ {id : Uuid} {c : Card}, m.store.cards.get? id = some c →
      Drawn w m'.draws c.id := by
    intro id c hget
    rw [hkeyed.cards hget]
    exact (hm.cards id c hget).mono hdraws
  cases h with
  | same h => exact hsame h.store
  | registers p _ _ h =>
    subst h
    exact ⟨hm.cards, hm.leases, hm.events⟩
  | @creates _ _ _ _ c e h =>
    refine hm.of_logged h.logged hdraws ?_ ?_ ?_
    · intro x hx
      cases hx
      exact ⟨m.draws, h.fresh.2, h.fresh.1⟩
    · rw [h.logged.cards, h.event.1, Option.elim_some, Dict.get?_set_self]
      rfl
    · rw [h.store]
      simpa [created] using hm.leases
  | @claims _ _ _ l e h =>
    obtain ⟨_, _, c, _, -, -, -, -, hcl, hid, -⟩ := h.target
    obtain ⟨k, hk⟩ := (Dict.mem_values_iff _ _).mp hcl.stored
    have hcard : (m.store.cards.get? l.cardId).isSome = true := hid ▸ hstored hk
    refine hm.of_noted h.noted hdraws (h.event.1 ▸ hcard) (hm.set_lease ?_ hcard)
    rw [h.store]
    simp [claimed]
  | @submits _ _ _ _ l c d t e h =>
    obtain ⟨p, hok⟩ := h.checks
    have hlease : (m.store.cards.get? l.cardId).isSome = true := by
      rw [hok.card]
      rfl
    refine hm.of_logged h.logged hdraws ?_ ?_ ?_
    · intro x hx
      cases hx
      have hid : Drawn w m'.draws c.id := hdrawn hok.card
      exact hid
    · exact h.logged.card_isSome (h.event.1 ▸ hstored hok.card)
    · refine hm.set_lease (l := { l with releasedAt := some t }) ?_ hlease
      rw [h.store]
      simp [submitted]
  | @renews _ _ l t e h =>
    have hlease : (m.store.cards.get? l.cardId).isSome = true := hm.leases _ _ h.lease
    refine hm.of_noted h.noted hdraws (h.event.1 ▸ hlease)
      (hm.set_lease (l := { l with expiresAt := t }) ?_ hlease)
    rw [h.store]
    simp [renewed]
  | @releases _ _ _ l t e h =>
    have hlease : (m.store.cards.get? l.cardId).isSome = true := hm.leases _ _ h.lease
    refine hm.of_noted h.noted hdraws (h.event.1 ▸ hlease)
      (hm.set_lease (l := { l with releasedAt := some t }) ?_ hlease)
    rw [h.store]
    simp [InMemoryCardRuntime.released]
  | expires h hlater =>
    refine expires h hm hlater.draws ?_
    intro l hl
    obtain ⟨k, hk⟩ := (Dict.mem_values_iff _ _).mp hl
    exact hm.leases k l hk
  | @validates _ _ _ _ _ _ _ c route e h =>
    refine hm.of_logged h.logged hdraws ?_ ?_ ?_
    · intro x hx
      obtain ⟨r, -, rfl⟩ := Option.map_eq_some_iff.mp hx
      have hid : Drawn w m'.draws c.id := hdrawn h.card
      exact hid
    · exact h.logged.card_isSome (h.event.1 ▸ hstored h.card)
    · rw [h.store]
      simpa [validated] using hm.leases
  | @moves _ _ _ _ _ c e h =>
    refine hm.of_logged h.logged hdraws ?_ ?_ ?_
    · intro x hx
      cases hx
      have hid : Drawn w m'.draws c.id := hdrawn h.card
      exact hid
    · exact h.logged.card_isSome (h.event.1 ▸ hstored h.card)
    · rw [h.store]
      simpa [moved] using hm.leases
  | records h =>
    refine hm.of_noted h.noted hdraws (h.event.1 ▸ h.card) ?_
    rw [h.store]
    simpa using hm.leases

end Issued

end GhostMesh
