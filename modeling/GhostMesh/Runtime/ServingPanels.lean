import GhostMesh.Runtime.CallEffects
import GhostMesh.Runtime.ManyPanels

/-!
# Which panels decide a claim

A panel serves a pipe that one of its nodes has as an input, when a card can be claimed
in the bucket of the pipe. The scan asks the bindings instead: a pipe that is bound
without a direction counts as an input, whoever declares it.
-/

set_option autoImplicit false

namespace GhostMesh

open PatchPanelValidator (accepts)

namespace InMemoryCardRuntime

/-! ## Cards in the order of their creation -/

/-- The first id was drawn before the second, or they are the same. -/
def DrawnUpTo (w : World) (a b : Uuid) : Prop := ∃ i j, i ≤ j ∧ a = w.uuid4 i ∧ b = w.uuid4 j

/-- The cards lie in the order in which their ids were drawn. -/
structure InOrder (w : World) (m : Machine InMemoryCardRuntime) : Prop where
  drawn : ∀ id ∈ m.store.cards.keys, Drawn w m.draws id
  ordered : m.store.cards.keys.Pairwise (DrawnUpTo w)

section Order
variable {w : World} {m m' : Machine InMemoryCardRuntime}

theorem InOrder.of_keys (hm : InOrder w m) (hkeys : m'.store.cards.keys = m.store.cards.keys)
    (hdraws : m.draws ≤ m'.draws) : InOrder w m' := by
  constructor
  · rw [hkeys]
    exact fun id hid => (hm.drawn id hid).mono hdraws
  · rw [hkeys]
    exact hm.ordered

theorem InOrder.append (hm : InOrder w m) {i : Nat} (hi : m.draws ≤ i) (hi' : i < m'.draws)
    (hkeys : m'.store.cards.keys = m.store.cards.keys ++ [w.uuid4 i]) : InOrder w m' := by
  constructor
  · rw [hkeys]
    intro id hid
    rcases List.mem_append.mp hid with hid | hid
    · exact (hm.drawn id hid).mono (by omega)
    · rw [List.mem_singleton.mp hid]
      exact ⟨i, hi', rfl⟩
  · rw [hkeys, List.pairwise_append]
    refine ⟨hm.ordered, List.pairwise_singleton _ _, ?_⟩
    intro id hid id' hid'
    obtain ⟨j, hj, rfl⟩ := hm.drawn id hid
    exact ⟨j, i, by omega, rfl, List.mem_singleton.mp hid'⟩

theorem InOrder.of_cards (hm : InOrder w m) (hcards : m'.store.cards = m.store.cards)
    (hdraws : m.draws ≤ m'.draws) : InOrder w m' :=
  hm.of_keys (congrArg Dict.keys hcards) hdraws

/-- A stored card that is written again stays in its place. -/
theorem InOrder.rewritten (hkeyed : WellKeyed m.store) (hm : InOrder w m) {id : Uuid} {c : Card}
    {e : CardEvent} {bucket : String} (hc : m.store.cards.get? id = some c)
    (h : Logged m.store m'.store (some { c with currentBucket := bucket }) e)
    (hdraws : m.draws ≤ m'.draws) : InOrder w m' := by
  refine hm.of_keys ?_ hdraws
  rw [h.cards, Option.elim_some]
  have hstored : m.store.cards.get? c.id = some c := by
    rw [hkeyed.cards hc]
    exact hc
  exact Dict.keys_set_of_get? hstored

/-- The step lemma. -/
theorem InOrder.effect (hkeyed : WellKeyed m.store) (hm : InOrder w m) (h : Effect w m m') :
    InOrder w m' := by
  have hdraws : m.draws ≤ m'.draws := h.later.draws
  cases h with
  | same h => exact hm.of_cards (congrArg cards h.store) hdraws
  | registers p _ _ h =>
    subst h
    exact hm.of_cards rfl hdraws
  | @creates _ _ _ _ c e h =>
    obtain ⟨hid, hdrawn⟩ := h.fresh
    have hnew : m.store.cards.get? c.id = none := by
      rw [Dict.get?_eq_none_iff]
      intro hmem
      obtain ⟨i, hi, heq⟩ := hm.drawn _ hmem
      have hsame : m.draws = i := w.uuid4_injective (hid.symm.trans heq)
      omega
    refine hm.append (Nat.le_refl _) hdrawn ?_
    rw [h.logged.cards, Option.elim_some, Dict.keys_set_of_new hnew, hid]
  | claims h => exact hm.of_cards h.noted.cards hdraws
  | submits h =>
    obtain ⟨p, hok⟩ := h.checks
    exact hm.rewritten hkeyed hok.card h.logged hdraws
  | renews h => exact hm.of_cards h.noted.cards hdraws
  | releases h => exact hm.of_cards h.noted.cards hdraws
  | expires h _ => exact hm.of_cards h.cards hdraws
  | @validates _ _ _ _ _ _ _ c route e h =>
    cases route with
    | none => exact hm.of_cards h.logged.cards hdraws
    | some r => exact hm.rewritten hkeyed h.card h.logged hdraws
  | moves h => exact hm.rewritten hkeyed h.card h.logged hdraws
  | records h => exact hm.of_cards h.noted.cards hdraws

theorem runCalls_inOrder (w : World) (calls : List RuntimeCall) :
    WellKeyed (runCalls w calls).store ∧ InOrder w (runCalls w calls) := by
  refine runCalls_invariant (I := fun m => WellKeyed m.store ∧ InOrder w m)
    ⟨WellKeyed.init, ?_, List.Pairwise.nil⟩ ?_ calls
  · intro id hid
    cases hid
  · intro m m' hm h
    exact ⟨hm.1.effect h, hm.2.effect hm.1 h⟩

/-- Only panels that the validator accepts are registered. -/
theorem runCalls_accepted (w : World) (calls : List RuntimeCall) {p : PatchPanel}
    (hp : p ∈ (runCalls w calls).store.patchPanels.values) : accepts w p = true := by
  have hall : ∀ id p, (runCalls w calls).store.patchPanels.get? id = some p →
      accepts w p = true := by
    refine runCalls_invariant
      (I := fun m => ∀ id p, m.store.patchPanels.get? id = some p → accepts w p = true) ?_ ?_ calls
    · intro id p h
      cases h
    intro m m' hm h
    have hsame : m'.store.patchPanels = m.store.patchPanels →
        ∀ id p, m'.store.patchPanels.get? id = some p → accepts w p = true := by
      intro heq
      rw [heq]
      exact hm
    cases h with
    | registers p report hvalid h =>
      subst h
      exact Dict.forall_values_set hm (PatchPanelValidator.accepts_iff.mpr ⟨report, hvalid⟩)
    | same h => exact hsame (congrArg patchPanels h.store)
    | creates h => exact hsame (by rw [h.store]; simp [created])
    | claims h => exact hsame (by rw [h.store]; simp [claimed])
    | submits h => exact hsame (by rw [h.store]; simp [submitted])
    | renews h => exact hsame (by rw [h.store]; simp [renewed])
    | releases h => exact hsame (by rw [h.store]; simp [released])
    | expires h _ => exact hsame h.patchPanels
    | validates h => exact hsame (by rw [h.store]; simp [validated])
    | moves h => exact hsame (by rw [h.store]; simp [moved])
    | records h => exact hsame (by rw [h.store]; simp)
  obtain ⟨id, hid⟩ := (Dict.mem_values_iff _ _).mp hp
  exact hall id p hid

/-- The first card that a scan of the cards finds is the earliest. -/
theorem InOrder.find?_earliest (hkeyed : WellKeyed m.store) (hm : InOrder w m) {free : Card → Bool}
    {c d : Card} (hfind : m.store.cards.values.find? free = some c) (hd : d ∈ m.store.cards.values)
    (hfree : free d = true) : DrawnUpTo w c.id d.id := by
  have hids : m.store.cards.values.map (·.id) = m.store.cards.keys :=
    Dict.map_values_of_keyed fun _ _ => hkeyed.cards
  have hordered : m.store.cards.values.Pairwise fun c d => DrawnUpTo w c.id d.id := by
    have hkeys := hm.ordered
    rw [← hids, List.pairwise_map] at hkeys
    exact hkeys
  obtain ⟨-, before, after, hvalues, hskipped⟩ := List.find?_eq_some_iff_append.mp hfind
  rw [hvalues] at hordered hd
  rcases List.mem_append.mp hd with hmem | hmem
  · have hnot := hskipped d hmem
    rw [hfree] at hnot
    cases hnot
  rcases List.mem_cons.mp hmem with rfl | hmem
  · obtain ⟨i, -, hid⟩ := hm.drawn d.id (by
      rw [← hids, hvalues]
      exact List.mem_map_of_mem (List.mem_append_right _ List.mem_cons_self))
    exact ⟨i, i, Nat.le_refl i, hid, hid⟩
  · have hrest := (List.pairwise_append.mp hordered).2.1
    exact (List.pairwise_cons.mp hrest).1 d hmem

end Order

/-! ## What the scan makes of a panel -/

section Panels
variable (s : InMemoryCardRuntime) (t : Instant) (inputPipe : String) (p : PatchPanel)

/-- A node of the panel has the pipe as an input, and a card can be claimed in the bucket
that the pipe is bound to. -/
structure Serves : Prop where
  declares : ∃ n ∈ p.nodes, inputPipe ∈ n.inputPipes
  card : ∃ b c, p.pipeBindings.get? inputPipe = some b ∧ Claimable s t p b.bucket c

/-- The scan takes the pipe for an input of the panel, and finds a card. -/
def Offered : Prop :=
  ∃ bucket nodeId c, resolvePipeBucket p inputPipe .input = .ok (bucket, nodeId) ∧
    Claimable s t p bucket c

/-- The scan takes the pipe for an input and raises, because no node has it as one. -/
def Stops : Prop := ∃ message, resolvePipeBucket p inputPipe .input = .error (.notFound message)

end Panels

section Scan
variable {s : InMemoryCardRuntime} {t : Instant} {inputPipe : String} {p : PatchPanel}

/-- A panel that is bound to the pipe is skipped, or raises, or has the pipe's bucket. -/
theorem resolveInput_cases (p : PatchPanel) (inputPipe : String) :
    (∃ message, resolvePipeBucket p inputPipe .input = .error (.invalidOperation message)) ∨
      Stops inputPipe p ∨
      ∃ bucket nodeId, resolvePipeBucket p inputPipe .input = .ok (bucket, nodeId) := by
  unfold Stops
  cases hget : p.pipeBindings.get? inputPipe with
  | none =>
    simp only [resolvePipeBucket, hget]
    exact .inl ⟨_, rfl⟩
  | some b =>
    simp only [resolvePipeBucket, hget, bind, Except.bind]
    cases hdirection : ensureDirection inputPipe b.direction .input with
    | error e =>
      obtain ⟨message, rfl⟩ : ∃ message, e = .invalidOperation message := by
        unfold ensureDirection at hdirection
        split at hdirection
        · cases hdirection
        · split at hdirection
          · cases hdirection
          · cases hdirection
            exact ⟨_, rfl⟩
      exact .inl ⟨message, rfl⟩
    | ok u =>
      cases truthyStr b.node with
      | some node => exact .inr (.inr ⟨b.bucket, node, rfl⟩)
      | none =>
        simp only [findNodeForPipe]
        cases p.nodes.find? (fun n => inputPipe ∈ n.pipes .input) with
        | none => exact .inr (.inl ⟨_, rfl⟩)
        | some n => exact .inr (.inr ⟨b.bucket, n.id, rfl⟩)

theorem panelOffer_stops (h : Stops inputPipe p) :
    ∃ message, panelOffer s t inputPipe p = .error (.notFound message) := by
  obtain ⟨message, hres⟩ := h
  unfold panelOffer
  rw [hres]
  exact ⟨message, rfl⟩

theorem quiet_iff_not : Quiet s t inputPipe p ↔
    ¬ Stops inputPipe p ∧ ¬ Offered s t inputPipe p := by
  unfold Quiet Offered
  rcases resolveInput_cases p inputPipe with ⟨message, hres⟩ | hstops | ⟨bucket, nodeId, hres⟩
  · simp [Stops, hres]
  · obtain ⟨message, hres⟩ := hstops
    simp [Stops, hres]
  · simp [Stops, hres]

theorem cardOffer_isSome_iff : (cardOffer s t inputPipe p).isSome = true ↔
    Offered s t inputPipe p := by
  constructor
  · intro h
    obtain ⟨x, hx⟩ := Option.isSome_iff_exists.mp h
    obtain ⟨hres, c, -, hc⟩ := cardOffer_cases hx
    exact ⟨x.bucket, x.nodeId, c, hres, hc⟩
  · rintro ⟨bucket, nodeId, c, hres, hc⟩
    obtain ⟨x, hx, -⟩ := cardOffer_of hres hc
    rw [hx]
    rfl

/-- A panel at which the scan raises ends it. -/
theorem offers_stops {ps : List PatchPanel} (h : ∃ p ∈ ps, Stops inputPipe p) :
    ∃ message, offers s t inputPipe ps = .error (.notFound message) := by
  induction ps with
  | nil =>
    obtain ⟨p, hp, -⟩ := h
    cases hp
  | cons p ps ih =>
    by_cases hstops : Stops inputPipe p
    · obtain ⟨message, hp⟩ := panelOffer_stops (s := s) (t := t) hstops
      rw [offers, hp]
      exact ⟨message, rfl⟩
    · obtain ⟨q, hq, hqstops⟩ := h
      have hrest : ∃ q ∈ ps, Stops inputPipe q := by
        rcases List.mem_cons.mp hq with rfl | hq
        · exact absurd hqstops hstops
        · exact ⟨q, hq, hqstops⟩
      obtain ⟨message, hoffers⟩ := ih hrest
      unfold offers panelOffer
      rcases resolveInput_cases p inputPipe with ⟨_, hres⟩ | hp | ⟨bucket, nodeId, hres⟩
      · rw [hres]
        exact ⟨message, hoffers⟩
      · exact absurd hp hstops
      · rw [hres]
        simp only [bind, Except.bind, hoffers]
        exact ⟨message, rfl⟩

/-- Without such a panel the scan gets to its end. -/
theorem offers_ends {ps : List PatchPanel} (h : ∀ p ∈ ps, ¬ Stops inputPipe p) :
    ∃ found, offers s t inputPipe ps = .ok found ∧
      found.filter (·.card.isSome) = ps.filterMap (cardOffer s t inputPipe) := by
  have hall : ∀ p ∈ ps, ∃ o, panelOffer s t inputPipe p = .ok o := by
    intro p hp
    unfold panelOffer
    rcases resolveInput_cases p inputPipe with ⟨_, hres⟩ | hstops | ⟨bucket, nodeId, hres⟩
    · exact ⟨none, by rw [hres]⟩
    · exact absurd hstops (h p hp)
    · exact ⟨_, by rw [hres]⟩
  obtain ⟨found, hfound⟩ := offers_of hall
  exact ⟨found, hfound, (offers_ok hfound).2⟩

end Scan

/-! ## The outcome of a claim -/

section Outcome
variable {w : World} {t : Instant} {m : Machine InMemoryCardRuntime} {inputPipe workerId : String}
  {seconds : Int}

/-- What a claim without a key returns at one instant. -/
def claimResult (w : World) (t : Instant) (m : Machine InMemoryCardRuntime)
    (inputPipe workerId : String) (seconds : Int) : Except PyErr Lease :=
  ((claimCard inputPipe workerId seconds none).run (w.stopped t) m).1

theorem claimResult_eq : claimResult w t m inputPipe workerId seconds =
    ((offers m.store t inputPipe m.store.patchPanels.values).bind (chooseMatch inputPipe)).bind
      (claimFrom w m t inputPipe workerId seconds) :=
  claimCard_result rfl

theorem claim_stops (h : ∃ p ∈ m.store.patchPanels.values, Stops inputPipe p) :
    ∃ message, claimResult w t m inputPipe workerId seconds = .error (.notFound message) := by
  obtain ⟨message, hoffers⟩ := offers_stops (s := m.store) (t := t) h
  rw [claimResult_eq, hoffers]
  exact ⟨message, rfl⟩

theorem claim_none (hstops : ∀ p ∈ m.store.patchPanels.values, ¬ Stops inputPipe p)
    (hnone : ∀ p ∈ m.store.patchPanels.values, ¬ Offered m.store t inputPipe p) :
    ∃ message, claimResult w t m inputPipe workerId seconds = .error (.notFound message) := by
  obtain ⟨found, hfound, hfilter⟩ := offers_ends (s := m.store) (t := t) hstops
  have hempty : found.filter (·.card.isSome) = [] := by
    rw [hfilter, List.filterMap_eq_nil_iff]
    intro p hp
    by_contra hoffer
    exact hnone p hp (cardOffer_isSome_iff.mp (Option.isSome_iff_ne_none.mpr hoffer))
  rw [claimResult_eq, hfound]
  simp only [Except.bind, chooseMatch, hempty]
  cases found with
  | nil => exact ⟨_, rfl⟩
  | cons x rest =>
    cases rest with
    | nil =>
      have hcard : x.card = none := by
        cases hc : x.card with
        | none => rfl
        | some c => simp [hc] at hempty
      simp only [claimFrom, hcard]
      exact ⟨_, rfl⟩
    | cons y rest =>
      simp only [claimFrom]
      exact ⟨_, rfl⟩

theorem chooseMatch_several {found rest : List ClaimMatch} {x y : ClaimMatch}
    (h : found.filter (·.card.isSome) = x :: y :: rest) :
    ∃ message, chooseMatch inputPipe found = .error (.conflict message) := by
  unfold chooseMatch
  rw [h]
  cases found with
  | nil => cases h
  | cons a found =>
    cases found with
    | nil =>
      have hlength := congrArg List.length h
      have hle := List.length_filter_le (fun z : ClaimMatch => z.card.isSome) [a]
      simp only [List.length_cons, List.length_nil] at hlength hle
      omega
    | cons b found => exact ⟨_, rfl⟩

theorem claim_several (hnodup : m.store.patchPanels.values.Nodup)
    (hstops : ∀ p ∈ m.store.patchPanels.values, ¬ Stops inputPipe p) {p r : PatchPanel}
    (hp : p ∈ m.store.patchPanels.values) (hr : r ∈ m.store.patchPanels.values) (hne : p ≠ r)
    (hoffer : Offered m.store t inputPipe p) (hoffer' : Offered m.store t inputPipe r) :
    ∃ message, claimResult w t m inputPipe workerId seconds = .error (.conflict message) := by
  obtain ⟨found, hfound, hfilter⟩ := offers_ends (s := m.store) (t := t) hstops
  rw [claimResult_eq, hfound]
  cases hcards : found.filter (·.card.isSome) with
  | nil =>
    rw [hcards] at hfilter
    have hnone := List.filterMap_eq_nil_iff.mp hfilter.symm p hp
    have hsome := cardOffer_isSome_iff.mpr hoffer
    rw [hnone] at hsome
    cases hsome
  | cons x rest =>
    cases rest with
    | nil =>
      obtain ⟨q, -, -, hquiet⟩ := (offers_sole hnodup).mp ⟨found, hfound, hcards⟩
      -- One of the two is not the panel that has the only card.
      by_cases hpq : p = q
      · exact absurd hoffer' (quiet_iff_not.mp (hquiet r hr fun hrq => hne (hpq.trans hrq.symm))).2
      · exact absurd hoffer (quiet_iff_not.mp (hquiet p hp hpq)).2
    | cons y rest =>
      obtain ⟨message, hchoice⟩ : ∃ message,
          chooseMatch inputPipe found = .error (.conflict message) := chooseMatch_several hcards
      simp only [Except.bind, hchoice]
      exact ⟨message, rfl⟩

/-- The lease that a claim returns when one panel alone has a card. -/
theorem claim_sole (hnodup : m.store.patchPanels.values.Nodup) {x : PatchPanel}
    (hx : x ∈ m.store.patchPanels.values) {bucket nodeId : String} {c : Card}
    (hres : resolvePipeBucket x inputPipe .input = .ok (bucket, nodeId))
    (hc : m.store.cards.values.find? (isFree m.store t x bucket) = some c)
    (hquiet : ∀ r ∈ m.store.patchPanels.values, r ≠ x →
      ¬ Stops inputPipe r ∧ ¬ Offered m.store t inputPipe r) :
    claimResult w t m inputPipe workerId seconds =
      claimFrom w m t inputPipe workerId seconds ⟨x, bucket, nodeId, some c⟩ := by
  have hoffer : cardOffer m.store t inputPipe x = some ⟨x, bucket, nodeId, some c⟩ := by
    simp only [cardOffer, panelOffer, hres, hc, Option.isSome_some, if_true]
  obtain ⟨found, hfound, hfilter⟩ := (offers_sole hnodup).mpr
    ⟨x, hx, hoffer, fun r hr hne => quiet_iff_not.mpr (hquiet r hr hne)⟩
  have hchoice : chooseMatch inputPipe found = .ok ⟨x, bucket, nodeId, some c⟩ :=
    (chooseMatch_card rfl).mpr hfilter
  rw [claimResult_eq, hfound]
  simp only [Except.bind, hchoice]

/-- The scan raises, or finds cards in no panel, in several or in one alone. -/
theorem scan_cases (ps : List PatchPanel) (s : InMemoryCardRuntime) (t : Instant)
    (inputPipe : String) : (∃ p ∈ ps, Stops inputPipe p) ∨
      (∀ p ∈ ps, ¬ Stops inputPipe p) ∧ ((∀ p ∈ ps, ¬ Offered s t inputPipe p) ∨
        (∃ p ∈ ps, ∃ r ∈ ps, p ≠ r ∧ Offered s t inputPipe p ∧ Offered s t inputPipe r) ∨
        ∃ p ∈ ps, Offered s t inputPipe p ∧ ∀ r ∈ ps, r ≠ p → ¬ Offered s t inputPipe r) := by
  by_cases hstops : ∃ p ∈ ps, Stops inputPipe p
  · exact .inl hstops
  refine .inr ⟨fun p hp hp' => hstops ⟨p, hp, hp'⟩, ?_⟩
  by_cases hnone : ∀ p ∈ ps, ¬ Offered s t inputPipe p
  · exact .inl hnone
  push Not at hnone
  obtain ⟨p, hp, hoffer⟩ := hnone
  by_cases hsole : ∀ r ∈ ps, r ≠ p → ¬ Offered s t inputPipe r
  · exact .inr (.inr ⟨p, hp, hoffer, hsole⟩)
  push Not at hsole
  obtain ⟨r, hr, hne, hoffer'⟩ := hsole
  exact .inr (.inl ⟨p, hp, r, hr, hne.symm, hoffer, hoffer'⟩)

/-- A claim from one panel alone raises no lookup error and no conflict. -/
theorem claimFrom_some {x : ClaimMatch} {c : Card} (hc : x.card = some c) (message : String) :
    claimFrom w m t inputPipe workerId seconds x ≠ .error (.notFound message) ∧
      claimFrom w m t inputPipe workerId seconds x ≠ .error (.conflict message) := by
  unfold claimFrom
  rw [hc]
  cases t.addSeconds seconds <;> simp

theorem Offered.found {x : PatchPanel} (h : Offered m.store t inputPipe x) :
    ∃ bucket nodeId c, resolvePipeBucket x inputPipe .input = .ok (bucket, nodeId) ∧
      m.store.cards.values.find? (isFree m.store t x bucket) = some c := by
  obtain ⟨bucket, nodeId, d, hres, hd⟩ := h
  have hfind : (m.store.cards.values.find? (isFree m.store t x bucket)).isSome = true :=
    List.find?_isSome.mpr ⟨d, hd.stored, (isFree_iff hd.stored).mpr hd⟩
  obtain ⟨c, hc⟩ := Option.isSome_iff_exists.mp hfind
  exact ⟨bucket, nodeId, c, hres, hc⟩

/-- When no panel but one has a card, the result is neither of the two errors. -/
theorem claim_sole_ne (hnodup : m.store.patchPanels.values.Nodup) {x : PatchPanel}
    (hx : x ∈ m.store.patchPanels.values) (hoffer : Offered m.store t inputPipe x)
    (hstops : ∀ p ∈ m.store.patchPanels.values, ¬ Stops inputPipe p)
    (hsole : ∀ r ∈ m.store.patchPanels.values, r ≠ x → ¬ Offered m.store t inputPipe r)
    (message : String) :
    claimResult w t m inputPipe workerId seconds ≠ .error (.notFound message) ∧
      claimResult w t m inputPipe workerId seconds ≠ .error (.conflict message) := by
  obtain ⟨bucket, nodeId, c, hres, hc⟩ := hoffer.found
  rw [claim_sole hnodup hx hres hc fun r hr hne => ⟨hstops r hr, hsole r hr hne⟩]
  exact claimFrom_some rfl message

/-- The claim does not find a card exactly if the scan raises or there is none. -/
theorem claim_notFound_iff (hnodup : m.store.patchPanels.values.Nodup) :
    (∃ message, claimResult w t m inputPipe workerId seconds = .error (.notFound message)) ↔
      (∃ p ∈ m.store.patchPanels.values, Stops inputPipe p) ∨
        ∀ p ∈ m.store.patchPanels.values, ¬ Offered m.store t inputPipe p := by
  constructor
  · rintro ⟨message, hresult⟩
    rcases scan_cases m.store.patchPanels.values m.store t inputPipe with
      hstops | ⟨hstops, hnone | ⟨p, hp, r, hr, hne, hoffer, hoffer'⟩ | ⟨x, hx, hoffer, hsole⟩⟩
    · exact .inl hstops
    · exact .inr hnone
    · have hseveral : ∃ message, claimResult w t m inputPipe workerId seconds =
          .error (.conflict message) := claim_several hnodup hstops hp hr hne hoffer hoffer'
      obtain ⟨message', hconflict⟩ := hseveral
      rw [hresult] at hconflict
      cases hconflict
    · exact absurd hresult (claim_sole_ne hnodup hx hoffer hstops hsole message).1
  · rintro (hstops | hnone)
    · exact claim_stops hstops
    · by_cases hstops : ∃ p ∈ m.store.patchPanels.values, Stops inputPipe p
      · exact claim_stops hstops
      · exact claim_none (fun p hp hp' => hstops ⟨p, hp, hp'⟩) hnone

/-- It conflicts exactly if the scan gets to its end with the cards of several panels. -/
theorem claim_conflict_iff (hnodup : m.store.patchPanels.values.Nodup) :
    (∃ message, claimResult w t m inputPipe workerId seconds = .error (.conflict message)) ↔
      (∀ p ∈ m.store.patchPanels.values, ¬ Stops inputPipe p) ∧
        ∃ p ∈ m.store.patchPanels.values, ∃ r ∈ m.store.patchPanels.values, p ≠ r ∧
          Offered m.store t inputPipe p ∧ Offered m.store t inputPipe r := by
  constructor
  · rintro ⟨message, hresult⟩
    have hfound : ∀ message',
        claimResult w t m inputPipe workerId seconds ≠ .error (.notFound message') := by
      rw [hresult]
      simp
    rcases scan_cases m.store.patchPanels.values m.store t inputPipe with
      hstops | ⟨hstops, hnone | hseveral | ⟨x, hx, hoffer, hsole⟩⟩
    · obtain ⟨message', hnotFound⟩ := claim_stops hstops
      exact absurd hnotFound (hfound message')
    · obtain ⟨message', hnotFound⟩ := claim_none hstops hnone
      exact absurd hnotFound (hfound message')
    · exact ⟨hstops, hseveral⟩
    · exact absurd hresult (claim_sole_ne hnodup hx hoffer hstops hsole message).2
  · rintro ⟨hstops, p, hp, r, hr, hne, hoffer, hoffer'⟩
    exact claim_several hnodup hstops hp hr hne hoffer hoffer'

end Outcome

/-! ## The decision -/

section Decision
variable (w : World) (t : Instant) (m : Machine InMemoryCardRuntime) (inputPipe workerId : String)
  (seconds : Int)

/-- A lease on the earliest of the cards that the panel serves, for the node of the panel
that has the pipe as an input. -/
def LeasesEarliest (p : PatchPanel) (r : Except PyErr Lease) : Prop :=
  ∃ l b c n, r = .ok l ∧ p.pipeBindings.get? inputPipe = some b ∧
    Claimable m.store t p b.bucket c ∧ l.cardId = c.id ∧
    (∀ d, Claimable m.store t p b.bucket d → DrawnUpTo w c.id d.id) ∧
    n ∈ p.nodes ∧ inputPipe ∈ n.inputPipes ∧ l.nodeId = n.id

/-- The panels that serve the pipe decide the claim: the card of the only one is leased,
without one there is nothing to be found, and several conflict. -/
structure DecidedByServers : Prop where
  sole : ∀ p ∈ m.store.patchPanels.values, Serves m.store t inputPipe p →
    (∀ r ∈ m.store.patchPanels.values, Serves m.store t inputPipe r → r = p) →
      LeasesEarliest w t m inputPipe p (claimResult w t m inputPipe workerId seconds)
  none : (∀ p ∈ m.store.patchPanels.values, ¬ Serves m.store t inputPipe p) →
    ∃ message, claimResult w t m inputPipe workerId seconds = .error (.notFound message)
  several : ∀ p ∈ m.store.patchPanels.values, ∀ r ∈ m.store.patchPanels.values, p ≠ r →
    Serves m.store t inputPipe p → Serves m.store t inputPipe r →
      ∃ message, claimResult w t m inputPipe workerId seconds = .error (.conflict message)

/-- The scan gets the card of the panel: a panel with the same version string, the panel
itself unless versions collide, routes the pipe to the bucket under a node that has it as
an input; no other raises or has a card, and the lease ends within the calendar. -/
structure ScannedAlone (p : PatchPanel) : Prop where
  routed : ∃ x ∈ m.store.patchPanels.values, x.workflowVersion = p.workflowVersion ∧
    (∃ b, p.pipeBindings.get? inputPipe = some b ∧ ∃ n ∈ p.nodes, inputPipe ∈ n.inputPipes ∧
      resolvePipeBucket x inputPipe .input = .ok (b.bucket, n.id)) ∧
    ∀ r ∈ m.store.patchPanels.values, r ≠ x →
      ¬ Stops inputPipe r ∧ ¬ Offered m.store t inputPipe r
  ends : (t.addSeconds seconds).isSome = true

/-- What the scan makes of the panels agrees with what they serve. -/
structure ScanAgrees : Prop where
  sole : ∀ p ∈ m.store.patchPanels.values, Serves m.store t inputPipe p →
    (∀ r ∈ m.store.patchPanels.values, Serves m.store t inputPipe r → r = p) →
      ScannedAlone t m inputPipe seconds p
  none : (∀ p ∈ m.store.patchPanels.values, ¬ Serves m.store t inputPipe p) →
    (∃ p ∈ m.store.patchPanels.values, Stops inputPipe p) ∨
      ∀ p ∈ m.store.patchPanels.values, ¬ Offered m.store t inputPipe p
  several : ∀ p ∈ m.store.patchPanels.values, ∀ r ∈ m.store.patchPanels.values, p ≠ r →
    Serves m.store t inputPipe p → Serves m.store t inputPipe r →
      (∀ x ∈ m.store.patchPanels.values, ¬ Stops inputPipe x) ∧
        ∃ x ∈ m.store.patchPanels.values, ∃ y ∈ m.store.patchPanels.values, x ≠ y ∧
          Offered m.store t inputPipe x ∧ Offered m.store t inputPipe y

variable {w t m inputPipe workerId seconds}

theorem leasesEarliest_iff (hkeyed : WellKeyed m.store) (horder : InOrder w m)
    (hnodup : m.store.patchPanels.values.Nodup) {p : PatchPanel}
    (hserves : Serves m.store t inputPipe p) :
    LeasesEarliest w t m inputPipe p (claimResult w t m inputPipe workerId seconds) ↔
      ScannedAlone t m inputPipe seconds p := by
  constructor
  · rintro ⟨l, b, c, n, hl, hb, hc, hid, -, hn, hpipe, hnode⟩
    obtain ⟨found, x, c', e, hfound, hfilter, hx, he, rfl⟩ := (claimCard_ok_iff rfl).mp hl
    obtain ⟨q, hq, hoffer, hquiet⟩ := (offers_sole hnodup).mp ⟨found, hfound, hfilter⟩
    obtain ⟨hres, c'', hx', hclaim⟩ := cardOffer_cases hoffer
    rw [hx] at hx'
    cases hx'
    have hcard : c' = c :=
      Dict.eq_of_keyed (fun _ _ => hkeyed.cards) hclaim.stored hc.stored hid
    subst hcard
    refine ⟨⟨q, hq, hclaim.version.symm.trans hc.version, ⟨b, hb, n, hn, hpipe, ?_⟩, ?_⟩, ?_⟩
    · rw [hres, ← hclaim.bucket, hc.bucket]
      exact congrArg (fun id => Except.ok (b.bucket, id)) hnode
    · exact fun r hr hne => quiet_iff_not.mp (hquiet r hr hne)
    · rw [he]
      rfl
  · rintro ⟨⟨x, hx, hver, ⟨b, hb, n, hn, hpipe, hres⟩, hquiet⟩, hends⟩
    obtain ⟨e, he⟩ := Option.isSome_iff_exists.mp hends
    have hsame : ∀ d, Claimable m.store t p b.bucket d ↔ Claimable m.store t x b.bucket d := by
      intro d
      constructor
      · exact fun h => ⟨h.stored, hver ▸ h.version, h.bucket, h.free⟩
      · exact fun h => ⟨h.stored, h.version.trans hver, h.bucket, h.free⟩
    obtain ⟨b', d, hb', hd⟩ := hserves.card
    obtain rfl : b' = b := Option.some.inj (hb'.symm.trans hb)
    obtain ⟨bucket, nodeId, c, hres', hc⟩ :=
      Offered.found ⟨b'.bucket, n.id, d, hres, (hsame d).mp hd⟩
    rw [hres] at hres'
    cases hres'
    have hclaim : Claimable m.store t x b'.bucket c :=
      (isFree_iff (List.mem_of_find?_eq_some hc)).mp (List.find?_some hc)
    refine ⟨⟨w.uuid4 m.draws, c.id, n.id, workerId, inputPipe, t, e, none⟩, b', c, n, ?_, hb,
      (hsame c).mpr hclaim, rfl, ?_, hn, hpipe, rfl⟩
    · rw [claim_sole hnodup hx hres hc hquiet]
      simp only [claimFrom, he]
    · intro d hd
      exact horder.find?_earliest hkeyed hc hd.stored ((isFree_iff hd.stored).mpr ((hsame d).mp hd))

/-- Where the cards stand in the order of their ids, the panels that serve a pipe decide its
claims exactly if the scan agrees with them. -/
theorem decided_iff_scanAgrees (hkeyed : WellKeyed m.store) (horder : InOrder w m) :
    DecidedByServers w t m inputPipe workerId seconds ↔ ScanAgrees t m inputPipe seconds := by
  have hnodup := hkeyed.panels_nodup
  constructor
  · intro h
    refine ⟨fun p hp hserves honly => ?_, fun hnone => ?_, fun p hp r hr hne hserves hserves' => ?_⟩
    · exact (leasesEarliest_iff hkeyed horder hnodup hserves).mp (h.sole p hp hserves honly)
    · exact (claim_notFound_iff hnodup).mp (h.none hnone)
    · exact (claim_conflict_iff hnodup).mp (h.several p hp r hr hne hserves hserves')
  · intro h
    refine ⟨fun p hp hserves honly => ?_, fun hnone => ?_, fun p hp r hr hne hserves hserves' => ?_⟩
    · exact (leasesEarliest_iff hkeyed horder hnodup hserves).mpr (h.sole p hp hserves honly)
    · exact (claim_notFound_iff hnodup).mpr (h.none hnone)
    · exact (claim_conflict_iff hnodup).mpr (h.several p hp r hr hne hserves hserves')

/-- In every state of a run the panels that serve a pipe decide its claims exactly if the
scan agrees with them. -/
theorem decidedByServers_iff (w : World) (calls : List RuntimeCall) (t : Instant)
    (inputPipe workerId : String) (seconds : Int) :
    DecidedByServers w t (runCalls w calls) inputPipe workerId seconds ↔
      ScanAgrees t (runCalls w calls) inputPipe seconds := by
  obtain ⟨hkeyed, horder⟩ := runCalls_inOrder w calls
  exact decided_iff_scanAgrees hkeyed horder

end Decision

/-! ## Plain pipes -/

section Plain
variable {s : InMemoryCardRuntime} {t : Instant} {inputPipe : String} {p : PatchPanel} {w : World}

/-- The panel has the pipe in one direction, and an output says so in its binding. -/
structure PlainPipe (inputPipe : String) (p : PatchPanel) : Prop where
  oneWay : ∀ n ∈ p.nodes, ∀ n' ∈ p.nodes, inputPipe ∈ n.inputPipes → inputPipe ∉ n'.outputPipes
  directed : ∀ b, p.pipeBindings.get? inputPipe = some b → b.direction = none →
    ∃ n ∈ p.nodes, inputPipe ∈ n.inputPipes

/-- On an accepted panel a plain pipe that is not directed as an output is an input. -/
theorem PlainPipe.takes (hplain : PlainPipe inputPipe p) (haccepted : accepts w p = true)
    {b : PipeBinding} (hb : p.pipeBindings.get? inputPipe = some b)
    (hdirection : b.direction ≠ some .output) : ∃ n ∈ p.nodes, inputPipe ∈ n.inputPipes := by
  obtain ⟨n, d, hbound⟩ := PatchPanelValidator.accepts_binding haccepted hb
  cases hdir : b.direction with
  | none => exact hplain.directed b hb hdir
  | some d' =>
    obtain rfl : d' = d := hbound.direction d' hdir
    cases d' with
    | input => exact ⟨n, hbound.node, hbound.declares⟩
    | output => exact absurd hdir hdirection

/-- It routes to a node that has it as an input. -/
theorem PlainPipe.routes (hplain : PlainPipe inputPipe p) (haccepted : accepts w p = true)
    {b : PipeBinding} (hb : p.pipeBindings.get? inputPipe = some b)
    (htakes : ∃ n ∈ p.nodes, inputPipe ∈ n.inputPipes) :
    ∃ n ∈ p.nodes, inputPipe ∈ n.inputPipes ∧
      resolvePipeBucket p inputPipe .input = .ok (b.bucket, n.id) := by
  obtain ⟨n₀, hn₀, hpipe₀⟩ := htakes
  obtain ⟨n, d, hbound⟩ := PatchPanelValidator.accepts_binding haccepted hb
  have hinput : d = .input ∧ inputPipe ∈ n.inputPipes := by
    cases d with
    | input => exact ⟨rfl, hbound.declares⟩
    | output => exact absurd hbound.declares (hplain.oneWay n₀ hn₀ n hbound.node hpipe₀)
  have hdirection : ∀ d', b.direction = some d' → d' = .input :=
    fun d' hd' => (hbound.direction d' hd').trans hinput.1
  cases hnode : truthyStr b.node with
  | some node =>
    refine ⟨n, hbound.node, hinput.2, resolvePipeBucket_of hb hdirection ?_⟩
    rw [hnode]
    exact hbound.owner node hnode
  | none =>
    have hfind : (p.nodes.find? fun n => inputPipe ∈ n.pipes .input).isSome = true :=
      List.find?_isSome.mpr ⟨n₀, hn₀, decide_eq_true hpipe₀⟩
    obtain ⟨n', hn'⟩ := Option.isSome_iff_exists.mp hfind
    have hfound := List.find?_some hn'
    have hpipe' : inputPipe ∈ n'.pipes .input := of_decide_eq_true hfound
    refine ⟨n', List.mem_of_find?_eq_some hn', hpipe', resolvePipeBucket_of hb hdirection ?_⟩
    rw [hnode]
    simp only [findNodeForPipe, hn']

theorem PlainPipe.not_stops (hplain : PlainPipe inputPipe p) (haccepted : accepts w p = true) :
    ¬ Stops inputPipe p := by
  rintro ⟨message, hres⟩
  cases hb : p.pipeBindings.get? inputPipe with
  | none =>
    simp only [resolvePipeBucket, hb] at hres
    cases hres
  | some b =>
    have hdirection : b.direction ≠ some .output := by
      intro hdir
      simp only [resolvePipeBucket, hb, hdir, ensureDirection, bind, Except.bind] at hres
      cases hres
    obtain ⟨n, -, -, hok⟩ := hplain.routes haccepted hb (hplain.takes haccepted hb hdirection)
    rw [hres] at hok
    cases hok

/-- What the scan offers of it is what the panel serves. -/
theorem PlainPipe.offered_iff (hplain : PlainPipe inputPipe p) (haccepted : accepts w p = true) :
    Offered s t inputPipe p ↔ Serves s t inputPipe p := by
  constructor
  · rintro ⟨bucket, nodeId, c, hres, hc⟩
    cases hb : p.pipeBindings.get? inputPipe with
    | none =>
      simp only [resolvePipeBucket, hb] at hres
      cases hres
    | some b =>
      obtain ⟨rfl, hdirection, -⟩ := resolvePipeBucket_cases hb hres
      refine ⟨hplain.takes haccepted hb ?_, b, c, hb, hc⟩
      intro hdir
      cases hdirection _ hdir
  · rintro ⟨htakes, b, c, hb, hc⟩
    obtain ⟨n, -, -, hres⟩ := hplain.routes haccepted hb htakes
    exact ⟨b.bucket, n.id, c, hres, hc⟩

/-- Where every panel has the pipe in one direction, and says so of outputs, the panels
that serve it decide every claim whose lease ends within the calendar. -/
theorem decidedByServers_of_plain (w : World) (calls : List RuntimeCall) (t : Instant)
    (inputPipe workerId : String) {seconds : Int} (hends : (t.addSeconds seconds).isSome = true)
    (hplain : ∀ p ∈ (runCalls w calls).store.patchPanels.values, PlainPipe inputPipe p) :
    DecidedByServers w t (runCalls w calls) inputPipe workerId seconds := by
  have hstops : ∀ p ∈ (runCalls w calls).store.patchPanels.values, ¬ Stops inputPipe p :=
    fun p hp => (hplain p hp).not_stops (runCalls_accepted w calls hp)
  have hoffered : ∀ p ∈ (runCalls w calls).store.patchPanels.values,
      (Offered (runCalls w calls).store t inputPipe p ↔
        Serves (runCalls w calls).store t inputPipe p) :=
    fun p hp => (hplain p hp).offered_iff (runCalls_accepted w calls hp)
  obtain ⟨hkeyed, horder⟩ := runCalls_inOrder w calls
  refine (decided_iff_scanAgrees hkeyed horder).mpr ⟨?_, ?_, ?_⟩
  · intro p hp hserves honly
    obtain ⟨b, c, hb, -⟩ := hserves.card
    have hroutes := (hplain p hp).routes (runCalls_accepted w calls hp) hb hserves.declares
    refine ⟨⟨p, hp, rfl, ⟨b, hb, hroutes⟩, fun r hr hne => ⟨hstops r hr, fun hoffer => ?_⟩⟩, hends⟩
    exact hne (honly r hr ((hoffered r hr).mp hoffer))
  · intro hnone
    exact .inr fun p hp hoffer => hnone p hp ((hoffered p hp).mp hoffer)
  · intro p hp r hr hne hserves hserves'
    exact ⟨hstops, p, hp, r, hr, hne, (hoffered p hp).mpr hserves, (hoffered r hr).mpr hserves'⟩

end Plain

/-- A line whose source feeds the pipe that others work on, bound to a bucket alone. -/
def feederPanel : PatchPanel where
  id := "billing"
  version := "1"
  description := none
  buckets := [⟨"inbox", none, [], [], none, false⟩]
  nodes := [⟨"intake", .source, none, none, [], ["work_in"], none, []⟩,
    ⟨"done", .sink, none, none, ["done_in"], [], none, []⟩]
  edges := [⟨"intake", "done", "default", none⟩]
  pipeBindings := ⟨[("work_in", ⟨"inbox", none, none⟩),
    ("done_in", ⟨"inbox", some "done", some .input⟩)], by decide⟩
  acceptanceContracts := []
  metadata := []
  uniqueBuckets := by decide
  uniqueNodes := by decide
  uniqueContracts := List.nodup_nil

/-- A card waits for the worker of its line while the feeder is registered. -/
def feederCalls : List RuntimeCall :=
  [.registerPatchPanel (PatchPanelValidator.linePanel "orders" "1"),
    .registerPatchPanel feederPanel, .createCard "orders" [] none none]

/-- The line alone serves the pipe, and its card is not leased. -/
theorem feeder_hides_card :
    ¬ DecidedByServers .simple 0 (runCalls .simple feederCalls) "work_in" "w1" 300 := by
  intro h
  have hpanels : (runCalls .simple feederCalls).store.patchPanels.values =
      [PatchPanelValidator.linePanel "orders" "1", feederPanel] := rfl
  have hserves : Serves (runCalls .simple feederCalls).store 0 "work_in"
      (PatchPanelValidator.linePanel "orders" "1") := by
    refine ⟨by decide, ⟨"inbox", some "work", some .input⟩,
      ⟨⟨0⟩, "orders:1", "inbox", [], [], 0⟩, rfl, ⟨.head _, rfl, rfl, fun l hl => ?_⟩⟩
    cases hl
  have honly : ∀ r ∈ (runCalls .simple feederCalls).store.patchPanels.values,
      Serves (runCalls .simple feederCalls).store 0 "work_in" r →
        r = PatchPanelValidator.linePanel "orders" "1" := by
    rw [hpanels]
    intro r hr hserves
    rcases List.mem_cons.mp hr with rfl | hr
    · rfl
    · have hfeeder : ¬ ∃ n ∈ feederPanel.nodes, "work_in" ∈ n.inputPipes := by decide
      rw [List.mem_singleton.mp hr] at hserves
      exact absurd hserves.declares hfeeder
  obtain ⟨l, b, c, n, hl, -⟩ := h.sole _ (by rw [hpanels]; exact .head _) hserves honly
  have hraises : claimResult .simple 0 (runCalls .simple feederCalls) "work_in" "w1" 300 =
      .error (.notFound "pipe 'work_in' is not declared by any node") := rfl
  rw [hraises] at hl
  cases hl

end InMemoryCardRuntime

end GhostMesh
