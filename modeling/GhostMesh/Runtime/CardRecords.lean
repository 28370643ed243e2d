import GhostMesh.Runtime.CallEffects

/-!
# What stays of a card

No operation deletes a card, and what an operation writes over a stored card is the
bucket alone: version, payload, metadata and creation time are those of its creation.
-/

set_option autoImplicit false

namespace GhostMesh

open InMemoryCardRuntime Op

namespace InMemoryCardRuntime

/-- Every stored card is still stored, the same but for its bucket. -/
def CardsKept (s s' : InMemoryCardRuntime) : Prop :=
  ∀ id c, s.cards.get? id = some c →
    ∃ bucket, s'.cards.get? id = some { c with currentBucket := bucket }

section CardsKept
variable {s s' s'' : InMemoryCardRuntime} {e : CardEvent}

theorem CardsKept.of_same (h : s'.cards = s.cards) : CardsKept s s' := by
  intro id c hc
  rw [h]
  exact ⟨c.currentBucket, hc⟩

theorem CardsKept.trans (h : CardsKept s s') (h' : CardsKept s' s'') : CardsKept s s'' := by
  intro id c hc
  obtain ⟨bucket, hbucket⟩ := h id c hc
  obtain ⟨bucket', hbucket'⟩ := h' id _ hbucket
  exact ⟨bucket', hbucket'⟩

theorem CardsKept.of_noted (h : Noted s s' e) : CardsKept s s' := .of_same h.cards

/-- A stored card that is written again with another bucket. -/
theorem CardsKept.of_moved {c : Card} {bucket : String} (hc : s.cards.get? c.id = some c)
    (h : Logged s s' (some { c with currentBucket := bucket }) e) : CardsKept s s' := by
  intro id old hold
  rw [h.cards, Option.elim_some, Dict.get?_set]
  split
  · rename_i hid
    change id = c.id at hid
    rw [hid, hc] at hold
    cases hold
    exact ⟨bucket, rfl⟩
  · exact ⟨old.currentBucket, hold⟩

/-- A card under an id that was not in use. -/
theorem CardsKept.of_created {c : Card} (hc : s.cards.get? c.id = none)
    (h : Logged s s' (some c) e) : CardsKept s s' := by
  intro id old hold
  rw [h.cards, Option.elim_some, Dict.get?_set]
  split
  · rename_i hid
    rw [hid, hc] at hold
    cases hold
  · exact ⟨old.currentBucket, hold⟩

theorem CardsKept.of_expires {t : Instant} {ls : List Lease} (h : Expires t ls s s') :
    CardsKept s s' := .of_same h.cards

end CardsKept

/-- The card that a creation stores. -/
def newCard (w : World) (m : Machine InMemoryCardRuntime) (p : PatchPanel) (bucket : String)
    (payload : JsonObj) (metadata : Option JsonObj) : Card :=
  ⟨w.uuid4 m.draws, p.workflowVersion, bucket, payload, metadata.getD [], w.clock m.ticks⟩

section Creation
variable {w : World} {m : Machine InMemoryCardRuntime} {panel : String} {key : Option String}

/-- A creation under a new key, on a panel that has an initial bucket. -/
theorem createCard_run (payload : JsonObj) (metadata : Option JsonObj) {p : PatchPanel}
    {bucket : String} (hkey : m.store.cached key = none)
    (hp : m.store.patchPanels.get? panel = some p) (hbucket : resolveInitialBucket p = .ok bucket) :
    ∃ e : CardEvent, e.cardId = w.uuid4 m.draws ∧ e.eventType = "card_created" ∧
      (createCard panel payload metadata key).run w m =
      (.ok (newCard w m p bucket payload metadata),
        ⟨m.store.created key (newCard w m p bucket payload metadata) e, m.ticks + 2,
          m.draws + 2⟩) := by
  unfold createCard
  rw [run_idempotent, hkey]
  dsimp only
  rw [Exec.run_bind, run_getPatchPanel, hp]
  dsimp only
  rw [Exec.run_bind, Op.run_ofExcept, hbucket]
  exact ⟨⟨w.uuid4 (m.draws + 1), w.uuid4 m.draws, "card_created", none,
    [("patch_panel_id", .str p.id), ("version", .str p.version), ("bucket", .str bucket)],
    w.clock (m.ticks + 1)⟩, rfl, rfl, rfl⟩

/-- A creation answers with the card recorded under its key, or creates one. -/
theorem createCard_returns_iff (payload : JsonObj) (metadata : Option JsonObj) {c : Card} :
    ((createCard panel payload metadata key).run w m).1 = .ok c ↔
    m.store.cached key = some (.card c) ∨ m.store.cached key = none ∧
      ∃ p bucket, m.store.patchPanels.get? panel = some p ∧ resolveInitialBucket p = .ok bucket ∧
        c = newCard w m p bucket payload metadata := by
  cases hkey : m.store.cached key with
  | some v =>
    unfold createCard
    rw [run_idempotent, hkey]
    cases v <;> simp [Stored.card?]
  | none =>
    cases hp : m.store.patchPanels.get? panel with
    | none =>
      unfold createCard
      rw [run_idempotent, hkey]
      dsimp only
      rw [Exec.run_bind, run_getPatchPanel, hp]
      simp
    | some p =>
      cases hbucket : resolveInitialBucket p with
      | error e =>
        unfold createCard
        rw [run_idempotent, hkey]
        dsimp only
        rw [Exec.run_bind, run_getPatchPanel, hp]
        dsimp only
        rw [Exec.run_bind, Op.run_ofExcept, hbucket]
        simp [hbucket]
      | ok bucket =>
        obtain ⟨e, -, -, hrun⟩ := createCard_run (w := w) payload metadata hkey hp hbucket
        rw [hrun]
        simp [hbucket, eq_comm]

end Creation

end InMemoryCardRuntime

section Effects
variable {w : World} {m m' : Machine InMemoryCardRuntime}

/-- The id that is drawn next is not in use. -/
theorem Issued.unused (hm : Issued w m) : m.store.cards.get? (w.uuid4 m.draws) = none := by
  cases hc : m.store.cards.get? (w.uuid4 m.draws) with
  | none => rfl
  | some c =>
    obtain ⟨i, hi, hid⟩ := hm.cards _ c hc
    have heq : m.draws = i := w.uuid4_injective hid
    omega

/-- The step lemma, one case for each kind of effect. -/
theorem Effect.cardsKept (hkeyed : WellKeyed m.store) (hissued : Issued w m)
    (h : Effect w m m') : CardsKept m.store m'.store := by
  have hstored : ∀ {id c}, m.store.cards.get? id = some c → m.store.cards.get? c.id = some c := by
    intro id c hc
    rw [hkeyed.cards hc]
    exact hc
  cases h with
  | same h => exact .of_same (by rw [h.store])
  | registers _ _ _ h => exact .of_same (by rw [h]; rfl)
  | creates h =>
    refine .of_created ?_ h.logged
    rw [h.fresh.1]
    exact hissued.unused
  | claims h => exact .of_noted h.noted
  | submits h =>
    obtain ⟨p, hok⟩ := h.checks
    exact .of_moved (hstored hok.card) h.logged
  | renews h => exact .of_noted h.noted
  | releases h => exact .of_noted h.noted
  | expires h _ => exact .of_expires h
  | @validates _ _ _ _ _ _ _ c route e h =>
    cases route with
    | none => exact .of_noted h.logged
    | some found => exact .of_moved (hstored h.card) h.logged
  | moves h => exact .of_moved (hstored h.card) h.logged
  | records h => exact .of_noted h.noted

/-- The invariants that a run carries along for its cards. -/
structure CardsSound (w : World) (m : Machine InMemoryCardRuntime) : Prop where
  keyed : WellKeyed m.store
  issued : Issued w m

theorem CardsSound.effect (hm : CardsSound w m) (h : Effect w m m') : CardsSound w m' :=
  ⟨hm.keyed.effect h, Issued.effect hm.keyed hm.issued h⟩

/-- Nothing was written; the id supply may have moved on. -/
theorem CardsSound.of_same (hm : CardsSound w m) (hstore : m'.store = m.store)
    (hdraws : m.draws ≤ m'.draws) : CardsSound w m' := by
  obtain ⟨hkeyed, hcards, hleases, hevents⟩ := hm
  refine ⟨hstore ▸ hkeyed, ?_, hstore ▸ hleases, hstore ▸ hevents⟩
  rw [hstore]
  exact fun id c hc => (hcards id c hc).mono hdraws

/-- The run lemma: over any sequence of effects. -/
theorem effects_cardsKept (hm : CardsSound w m) (h : Relation.ReflTransGen (Effect w) m m') :
    CardsKept m.store m'.store ∧ CardsSound w m' := by
  induction h with
  | refl => exact ⟨.of_same rfl, hm⟩
  | tail _ heffect ih =>
    obtain ⟨hkept, hsound⟩ := ih
    exact ⟨hkept.trans (Effect.cardsKept hsound.keyed hsound.issued heffect),
      hsound.effect heffect⟩

end Effects

end GhostMesh
