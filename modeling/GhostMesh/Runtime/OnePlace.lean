import GhostMesh.Runtime.KeyOnce

/-!
# One place for each card

Where a card is stands in `cards.current_bucket` and in the rows of `card_locations`. A
move locks neither before it reads: it exits the active rows that its UPDATE still finds,
inserts another row and writes the bucket. What is proved is that moves whose UPDATE lost
no row to another transaction keep every card in one place.
-/

set_option autoImplicit false

namespace GhostMesh

open ReadCommitted PostgresCardRuntime

/-! ## Places in the tables -/

namespace Tables

/-- The card has one active location, in its current bucket, and has left all others. -/
def InOnePlace (d : Tables) (c : Card) : Prop :=
  ∃ id row, d.cardLocations.get? id = some row ∧ activeLocationOf c.id row = true ∧
    row.bucket = c.currentBucket ∧ ∀ id' row', d.cardLocations.get? id' = some row' →
      row'.cardId = c.id → id' ≠ id → row'.status = "exited" ∧ row'.exitedAt.isSome = true

/-- Rows under their primary keys, locations of stored cards, and each card in one place. -/
structure Placed (d : Tables) : Prop where
  cardKeys : ∀ id c, d.cards.get? id = some c → c.id = id
  locationKeys : ∀ id row, d.cardLocations.get? id = some row → row.id = id
  owners : ∀ id row, d.cardLocations.get? id = some row → d.cards.contains row.cardId = true
  places : ∀ id c, d.cards.get? id = some c → d.InOnePlace c

/-- No card and no location goes away. -/
structure PlacesStay (d d' : Tables) : Prop where
  cards : ∀ id, d.cards.contains id = true → d'.cards.contains id = true
  locations : ∀ id, d.cardLocations.contains id = true → d'.cardLocations.contains id = true

def activeAt (d : Tables) (cardId id : Uuid) : Bool :=
  (d.cardLocations.get? id).any (activeLocationOf cardId)

theorem activeAt_iff {d : Tables} {cardId id : Uuid} : d.activeAt cardId id = true ↔
    ∃ row, d.cardLocations.get? id = some row ∧ row.cardId = cardId ∧ row.status = "active" := by
  simp only [activeAt, Option.any_eq_true, activeLocationOf, Bool.and_eq_true, decide_eq_true_eq]

/-- The only place of a card is where it is found active. -/
theorem InOnePlace.of_activeAt {d : Tables} {c : Card} {id : Uuid} (h : d.InOnePlace c)
    (hid : d.activeAt c.id id = true) : ∃ row, d.cardLocations.get? id = some row ∧
      row.bucket = c.currentBucket ∧ ∀ id' row', d.cardLocations.get? id' = some row' →
        row'.cardId = c.id → id' ≠ id → row'.status = "exited" ∧ row'.exitedAt.isSome = true := by
  obtain ⟨id₀, row₀, hrow₀, -, hbucket, hothers⟩ := h
  obtain ⟨row, hrow, hcard, hstatus⟩ := activeAt_iff.mp hid
  have hsame : id = id₀ := by
    by_contra hne
    have hexited := (hothers id row hrow hcard hne).1
    rw [hstatus] at hexited
    exact absurd hexited (by decide)
  rw [hsame] at hrow ⊢
  exact ⟨row₀, hrow₀, hbucket, hothers⟩

/-- A card stays where it is when its own locations do. -/
theorem InOnePlace.frame {d d' : Tables} {c : Card} (h : d.InOnePlace c)
    (hsame : ∀ id row, row.cardId = c.id →
      (d'.cardLocations.get? id = some row ↔ d.cardLocations.get? id = some row)) :
    d'.InOnePlace c := by
  obtain ⟨id, row, hrow, hactive, hbucket, hothers⟩ := h
  have howner : row.cardId = c.id := by
    simp only [activeLocationOf, Bool.and_eq_true, decide_eq_true_eq] at hactive
    exact hactive.1
  refine ⟨id, row, (hsame id row howner).mpr hrow, hactive, hbucket, fun id' row' hrow' hcard => ?_⟩
  exact hothers id' row' ((hsame id' row' hcard).mp hrow') hcard

section Changes
variable {d d' : Tables} (h : d.Placed) {row : CardLocation}
include h

/-- A new card enters a new location. -/
theorem Placed.creates {c : Card} (hcards : d'.cards = d.cards.set c.id c)
    (hlocations : d'.cardLocations = d.cardLocations.set row.id row)
    (hcard : ¬ d.cards.contains c.id = true) (hrow : ¬ d.cardLocations.contains row.id = true)
    (howner : row.cardId = c.id) (hbucket : row.bucket = c.currentBucket)
    (hactive : row.status = "active") : d'.Placed := by
  have hget : ∀ id row', d'.cardLocations.get? id = some row' ↔
      (id = row.id ∧ row' = row) ∨ (id ≠ row.id ∧ d.cardLocations.get? id = some row') := by
    intro id row'
    rw [hlocations, Dict.get?_set]
    split
    · rename_i hid
      simp [hid, eq_comm]
    · rename_i hid
      simp [hid]
  -- There are no locations of the new card yet.
  have hothers : ∀ id row', d.cardLocations.get? id = some row' → row'.cardId ≠ c.id := by
    intro id row' hrow' heq
    exact hcard (heq ▸ h.owners id row' hrow')
  refine ⟨?_, ?_, ?_, ?_⟩
  · rw [hcards]
    exact Dict.forall_values_set h.cardKeys rfl
  · rw [hlocations]
    exact Dict.forall_values_set h.locationKeys rfl
  · intro id row' hrow'
    rw [hcards, Dict.contains_set]
    rcases (hget id row').mp hrow' with ⟨-, rfl⟩ | ⟨-, hold⟩
    · exact .inl howner
    · exact .inr (h.owners id row' hold)
  · intro id c' hc'
    rw [hcards, Dict.get?_set] at hc'
    split at hc'
    · cases hc'
      refine ⟨row.id, row, (hget _ _).mpr (.inl ⟨rfl, rfl⟩), ?_, hbucket, fun id' row' hrow' => ?_⟩
      · simp [activeLocationOf, howner, hactive]
      · intro hcard' hne
        rcases (hget id' row').mp hrow' with ⟨hid, -⟩ | ⟨-, hold⟩
        · exact (hne hid).elim
        · exact (hothers id' row' hold hcard').elim
    · rename_i hid
      have hc'id : c'.id = id := h.cardKeys id c' hc'
      refine (h.places id c' hc').frame fun id' row' hcard' => ?_
      rw [hget]
      constructor
      · rintro (⟨-, rfl⟩ | ⟨-, hold⟩)
        · rw [howner] at hcard'
          exact (hid (by rw [← hc'id, hcard'])).elim
        · exact hold
      · intro hold
        refine .inr ⟨fun heq => hrow ?_, hold⟩
        rw [← heq]
        exact Dict.contains_of_get? hold

/-- A card leaves its active location for a new one. -/
theorem Placed.moves {cardId id : Uuid} {t : Instant}
    (hcards : d'.cards = d.cards.modify cardId fun c => { c with currentBucket := row.bucket })
    (hlocations : d'.cardLocations = (d.cardLocations.modify id fun old =>
      { old with status := "exited", exitedAt := some t }).set row.id row)
    (hleft : d.activeAt cardId id = true) (hrow : ¬ d.cardLocations.contains row.id = true)
    (howner : row.cardId = cardId) (hactive : row.status = "active") : d'.Placed := by
  obtain ⟨old, hold, holdCard, -⟩ := activeAt_iff.mp hleft
  have hne : id ≠ row.id := by
    intro heq
    rw [← heq] at hrow
    exact hrow (Dict.contains_of_get? hold)
  have hget : ∀ id' row', d'.cardLocations.get? id' = some row' ↔
      (id' = row.id ∧ row' = row) ∨
      (id' = id ∧ row' = { old with status := "exited", exitedAt := some t }) ∨
      (id' ≠ row.id ∧ id' ≠ id ∧ d.cardLocations.get? id' = some row') := by
    intro id' row'
    rw [hlocations, Dict.get?_set, Dict.get?_modify]
    split
    · rename_i hid
      simp [hid, hne.symm, eq_comm]
    · rename_i hid
      split
      · rename_i hid'
        simp [hid', hne, hold, eq_comm]
      · rename_i hid'
        simp [hid, hid']
  have hcontains : ∀ id', d'.cards.contains id' = d.cards.contains id' := by
    intro id'
    rw [hcards, Dict.contains_modify]
  have hcard : d.cards.contains cardId = true := holdCard ▸ h.owners id old hold
  refine ⟨?_, ?_, ?_, ?_⟩
  · intro id' c hc
    rw [hcards, Dict.get?_modify] at hc
    split at hc
    · rename_i hid
      obtain ⟨c₀, hc₀, rfl⟩ := Option.map_eq_some_iff.mp hc
      rw [hid]
      exact h.cardKeys cardId c₀ hc₀
    · exact h.cardKeys id' c hc
  · intro id' row' hrow'
    rcases (hget id' row').mp hrow' with ⟨rfl, rfl⟩ | ⟨rfl, rfl⟩ | ⟨-, -, hrow'⟩
    · rfl
    · exact h.locationKeys id' old hold
    · exact h.locationKeys id' row' hrow'
  · intro id' row' hrow'
    rw [hcontains]
    rcases (hget id' row').mp hrow' with ⟨-, rfl⟩ | ⟨-, rfl⟩ | ⟨-, -, hrow'⟩
    · rwa [howner]
    · exact h.owners id old hold
    · exact h.owners id' row' hrow'
  · intro id' c hc
    rw [hcards, Dict.get?_modify] at hc
    split at hc
    · -- The card that moves.
      obtain ⟨c₀, hc₀, rfl⟩ := Option.map_eq_some_iff.mp hc
      have hc₀id : c₀.id = cardId := h.cardKeys cardId c₀ hc₀
      obtain ⟨-, -, -, hothers⟩ := (h.places cardId c₀ hc₀).of_activeAt (hc₀id ▸ hleft)
      refine ⟨row.id, row, (hget _ _).mpr (.inl ⟨rfl, rfl⟩), ?_, rfl, fun id₁ row₁ hrow₁ => ?_⟩
      · simp [activeLocationOf, howner, hactive, hc₀id]
      · intro hcard₁ hne₁
        rcases (hget id₁ row₁).mp hrow₁ with ⟨hid, -⟩ | ⟨-, rfl⟩ | ⟨-, hne₂, hrow₁⟩
        · exact (hne₁ hid).elim
        · exact ⟨rfl, rfl⟩
        · exact hothers id₁ row₁ hrow₁ hcard₁ hne₂
    · -- Another card, whose locations are none of the two.
      rename_i hid
      have hcid : c.id = id' := h.cardKeys id' c hc
      refine (h.places id' c hc).frame fun id₁ row₁ hcard₁ => ?_
      have hother : row₁.cardId ≠ cardId := fun heq => hid (by rw [← hcid, ← hcard₁, heq])
      rw [hget]
      constructor
      · rintro (⟨-, rfl⟩ | ⟨-, rfl⟩ | ⟨-, -, hrow₁⟩)
        · exact (hother howner).elim
        · exact (hother holdCard).elim
        · exact hrow₁
      · intro hrow₁
        refine .inr (.inr ⟨fun heq => hrow ?_, fun heq => hother ?_, hrow₁⟩)
        · rw [← heq]
          exact Dict.contains_of_get? hrow₁
        · rw [heq, hold] at hrow₁
          rw [← Option.some.inj hrow₁]
          exact holdCard

end Changes

end Tables

/-- The row of `cards` or `card_locations` that is written. -/
def RowWrite.placeLock : RowWrite → Option RowLock
  | card c => some (.card c.id)
  | cardBucket id _ => some (.card id)
  | cardLocation row => some (.cardLocation row.id)
  | locationExited id _ => some (.cardLocation id)
  | _ => none

def RowWrite.places (x : RowWrite) : Bool := x.placeLock.isSome

/-- A write to neither of them. -/
def OffPlaces (x : RowWrite) : Prop := x.placeLock = none

theorem RowWrite.cards_contains (x : RowWrite) (d : Tables) (id : Uuid) :
    (x.apply d).cards.contains id = true ↔
      (∃ c, x = .card c ∧ c.id = id) ∨ d.cards.contains id = true := by
  cases x with
  | card c =>
    simp only [RowWrite.apply, Dict.contains_set, RowWrite.card.injEq, exists_eq_left']
    exact ⟨.imp_left Eq.symm, .imp_left Eq.symm⟩
  | cardBucket id' bucket => simp [RowWrite.apply, Dict.contains_modify]
  | _ => simp [RowWrite.apply]

theorem RowWrite.locations_contains (x : RowWrite) (d : Tables) (id : Uuid) :
    (x.apply d).cardLocations.contains id = true ↔
      (∃ row, x = .cardLocation row ∧ row.id = id) ∨ d.cardLocations.contains id = true := by
  cases x with
  | cardLocation row =>
    simp only [RowWrite.apply, Dict.contains_set, RowWrite.cardLocation.injEq, exists_eq_left']
    exact ⟨.imp_left Eq.symm, .imp_left Eq.symm⟩
  | locationExited id' t => simp [RowWrite.apply, Dict.contains_modify]
  | _ => simp [RowWrite.apply]

theorem places_growth : Growth postgres (fun _ => True) Tables.PlacesStay where
  refl _ := ⟨fun _ h => h, fun _ h => h⟩
  trans h h' := ⟨fun id hid => h'.cards id (h.cards id hid),
    fun id hid => h'.locations id (h.locations id hid)⟩
  apply x d _ := ⟨fun id hid => (x.cards_contains d id).mpr (.inr hid),
    fun id hid => (x.locations_contains d id).mpr (.inr hid)⟩
  mono x d d' h := by
    refine ⟨fun id hid => ?_, fun id hid => ?_⟩
    · rw [RowWrite.cards_contains] at hid ⊢
      exact hid.imp_right (h.cards id)
    · rw [RowWrite.locations_contains] at hid ⊢
      exact hid.imp_right (h.locations id)
  keeps _ _ _ := trivial

theorem RowWrite.offPlaces_apply {x : RowWrite} (hx : OffPlaces x) (d : Tables) :
    (x.apply d).cards = d.cards ∧ (x.apply d).cardLocations = d.cardLocations := by
  cases x with
  | card c => cases hx
  | cardBucket id bucket => cases hx
  | cardLocation row => cases hx
  | locationExited id t => cases hx
  | _ => exact ⟨rfl, rfl⟩

/-! ## The places in a log -/

/-- The writes of the log to cards and locations. -/
def placements (log : Log postgres) : List RowWrite := log.writesOn RowWrite.places

theorem placements_wrote (x : RowWrite) (log : Log postgres) :
    placements (.wrote x :: log) =
      if x.places then x :: placements log else placements log :=
  Log.writesOn_wrote (S := postgres) RowWrite.places x log

theorem placements_keep {o : Obs postgres} (ho : o.Within OffPlaces) (log : Log postgres) :
    placements (o :: log) = placements log := by
  apply Log.writesOn_keep
  cases o with
  | wrote x => exact Option.isSome_eq_false_iff.mpr (Option.isNone_iff_eq_none.mpr ho)
  | _ => trivial

/-- What a log makes of cards and locations, it makes by its placements. -/
theorem view_places (log : Log postgres) (d : Tables) :
    (log.view d).cards = ((placements log).foldr postgres.apply d).cards ∧
      (log.view d).cardLocations = ((placements log).foldr postgres.apply d).cardLocations := by
  refine Prod.mk.inj (Log.view_writesOn (S := postgres) (p := RowWrite.places)
    (fun d : Tables => (d.cards, d.cardLocations)) (fun x d hx => ?_) (fun x d d' h => ?_) log d)
  · have hoff := RowWrite.offPlaces_apply
      (Option.not_isSome_iff_eq_none.mp (ne_true_of_eq_false hx)) d
    exact Prod.ext hoff.1 hoff.2
  · obtain ⟨hcards, hlocations⟩ := Prod.mk.inj h
    cases x <;> simp only [RowWrite.apply, hcards, hlocations]

/-- The transaction has not touched cards and locations yet. -/
def Unmoved (log : Log postgres) : Prop := placements log = []

/-- What a transaction relies on until its commit. -/
inductive PlaceFact where
  | activeLocation (id cardId : Uuid)
  | newLocation (id : Uuid)
  | newCard (id : Uuid)

def placeFacts : LockFacts postgres PlaceFact where
  lock
    | .activeLocation id _ | .newLocation id => .cardLocation id
    | .newCard id => .card id
  fact d
    | .activeLocation id cardId => d.activeAt cardId id = true
    | .newLocation id => ¬ d.cardLocations.contains id = true
    | .newCard id => ¬ d.cards.contains id = true
  clean log
    | .activeLocation _ _ => Unmoved log
    | _ => True

/-- An UPDATE has waited for a location that its snapshot showed active, and found that
the card had left it. -/
def lostLocation (log : Log postgres) : Obs postgres → Bool
  | .locked (.cardLocation id) d => log.any fun
    | .saw (.activeLocations cardId) seen => seen.activeAt cardId id && !d.activeAt cardId id
    | _ => false
  | _ => false

/-- What a transaction has done to the places at its end. -/
inductive PlaceDone (log : Log postgres) : Prop where
  | unmoved (h : Unmoved log)
  | created (c : Card) (row : CardLocation) (h : placements log = [.cardLocation row, .card c])
      (hcard : placeFacts.Holds log (.newCard c.id))
      (hrow : placeFacts.Holds log (.newLocation row.id)) (howner : row.cardId = c.id)
      (hbucket : row.bucket = c.currentBucket) (hactive : row.status = "active")
  | moved (cardId id : Uuid) (t : Instant) (row : CardLocation)
      (h : placements log = [.cardBucket cardId row.bucket, .cardLocation row, .locationExited id t])
      (hleft : placeFacts.Holds log (.activeLocation id cardId))
      (hrow : placeFacts.Holds log (.newLocation row.id)) (howner : row.cardId = cardId)
      (hactive : row.status = "active")

/-- A statement of the log has seen the card. -/
def SawCard (cardId : Uuid) (log : Log postgres) : Prop :=
  ∃ o ∈ log, ∃ d, o.data = some d ∧ d.cards.contains cardId = true

structure Sees (cardId : Uuid) (log : Log postgres) : Prop where
  unmoved : Unmoved log
  card : SawCard cardId log

/-- What a statement sees when no UPDATE has lost a location: the committed places, as
long as the transaction has not changed them itself. -/
abbrev PlaceFits : Log postgres → Obs postgres → Prop := fun log o =>
  o.Follows (fun _ => True) Tables.PlacesStay log ∧ (Unmoved log → ∀ d, o.data = some d → d.Placed)

abbrev NoLoss : Log postgres → Obs postgres → Prop := fun log o =>
  PlaceFits log o ∧ lostLocation log o = false

/-- The card has left its location. -/
structure LeftPlace (cardId : Uuid) (t : Instant) (log : Log postgres) : Prop where
  card : SawCard cardId log
  left : ∃ id, placements log = [.locationExited id t] ∧
    placeFacts.Holds log (.activeLocation id cardId)

/-- A new card without a place. -/
structure NewCard (c : Card) (log : Log postgres) : Prop where
  placed : placements log = [.card c]
  fresh : placeFacts.Holds log (.newCard c.id)

section Logs
variable {log : Log postgres} {cardId : Uuid}

theorem Unmoved.keep : Log.Kept OffPlaces Unmoved := fun _ log ho h => (placements_keep ho log).trans h

theorem SawCard.keep (h : SawCard cardId log) (o : Obs postgres) : SawCard cardId (o :: log) := by
  obtain ⟨o', ho', hd⟩ := h
  exact ⟨o', List.mem_cons_of_mem _ ho', hd⟩

theorem Sees.keep : Log.Kept OffPlaces (Sees cardId) :=
  fun o log ho h => ⟨Unmoved.keep o log ho h.unmoved, h.card.keep o⟩

theorem LeftPlace.keep {t : Instant} : Log.Kept OffPlaces (LeftPlace cardId t) := by
  intro o log ho h
  obtain ⟨id, hplaced, hholds⟩ := h.left
  exact ⟨h.card.keep o, id, (placements_keep ho log).trans hplaced, hholds.keep o⟩

theorem NewCard.keep {c : Card} : Log.Kept OffPlaces (NewCard c) :=
  fun o log ho h => ⟨(placements_keep ho log).trans h.placed, h.fresh.keep o⟩

/-- A new card enters its first location. -/
theorem NewCard.located {c : Card} {row : CardLocation} {d : Tables} (h : NewCard c log)
    (hrow : placeFacts.Holds (.locked (.cardLocation row.id) d :: log) (.newLocation row.id))
    (howner : row.cardId = c.id) (hbucket : row.bucket = c.currentBucket)
    (hactive : row.status = "active") :
    PlaceDone (.wrote (.cardLocation row) :: .locked (.cardLocation row.id) d :: log) := by
  refine .created c row ?_ ((h.fresh.keep _).keep _) (hrow.keep _) howner hbucket hactive
  rw [placements_wrote]
  change _ :: placements log = _
  rw [h.placed]

theorem PlaceDone.keep : Log.Kept OffPlaces PlaceDone := by
  intro o log ho h
  have hsame := placements_keep ho log
  cases h with
  | unmoved h => exact .unmoved (hsame.trans h)
  | created c row h hcard hrow howner hbucket hactive =>
    exact .created c row (hsame.trans h) (hcard.keep o) (hrow.keep o) howner hbucket hactive
  | moved cardId id t row h hleft hrow howner hactive =>
    exact .moved cardId id t row (hsame.trans h) (hleft.keep o) (hrow.keep o) howner hactive

end Logs

namespace PostgresCardRuntime

/-- The active rows of a card in one place. -/
theorem activeLocations_eq (engine : Engine) {d : Tables} (hd : d.Placed) {cardId : Uuid}
    (hcard : d.cards.contains cardId = true) : ∃ id, d.activeAt cardId id = true ∧
      (engine.rows d (d.cardLocations.values.filter (activeLocationOf cardId))).map (·.id) = [id] := by
  obtain ⟨c, hc⟩ := Option.isSome_iff_exists.mp hcard
  obtain ⟨id, row, hrow, hactive, -, hothers⟩ := hd.places cardId c hc
  rw [hd.cardKeys cardId c hc] at hactive hothers
  have hmem : ∀ row', row' ∈ d.cardLocations.values.filter (activeLocationOf cardId) →
      row'.id = id := by
    intro row' hrow'
    obtain ⟨hvalue, hactive'⟩ := List.mem_filter.mp hrow'
    obtain ⟨id', hid'⟩ := (Dict.mem_values_iff _ _).mp hvalue
    rw [hd.locationKeys id' row' hid']
    by_contra hne
    simp only [activeLocationOf, Bool.and_eq_true, decide_eq_true_eq] at hactive'
    have hexited := (hothers id' row' hid' hactive'.1 hne).1
    rw [hactive'.2] at hexited
    exact absurd hexited (by decide)
  have hnodup : ((d.cardLocations.values.filter (activeLocationOf cardId)).map (·.id)).Nodup := by
    have hkeys : (d.cardLocations.values.map (·.id)).Nodup := by
      rw [Dict.map_values_of_keyed hd.locationKeys]
      exact d.cardLocations.nodup
    exact hkeys.sublist (List.filter_sublist.map _)
  have hperm := (engine.rows_perm d (d.cardLocations.values.filter
    (activeLocationOf cardId))).map (·.id)
  refine ⟨id, Tables.activeAt_iff.mpr ⟨row, hrow, ?_⟩, ?_⟩
  · simpa only [activeLocationOf, Bool.and_eq_true, decide_eq_true_eq] using hactive
  · have hfound : row ∈ d.cardLocations.values.filter (activeLocationOf cardId) :=
      List.mem_filter.mpr ⟨Dict.mem_values_of_get? hrow, hactive⟩
    have hsingle : (d.cardLocations.values.filter (activeLocationOf cardId)).map (·.id) = [id] := by
      by_contra hne
      rcases (hnodup.ne_singleton_iff id).mp hne with hnil | ⟨id', hid', hne'⟩
      · rw [List.map_eq_nil_iff.mp hnil] at hfound
        exact List.not_mem_nil hfound
      · obtain ⟨row', hrow', heq⟩ := List.mem_map.mp hid'
        exact hne' (heq ▸ hmem row' hrow')
    rw [hsingle] at hperm
    exact List.perm_singleton.mp hperm

section Bodies
variable {log : Log postgres} {cardId : Uuid}

variable (engine : Engine)

/-- The exit of a card's locations finds the one that the card is in. -/
theorem exitLocations_spec (t : Instant) (hlog : Sees cardId log) :
    (exitLocations engine cardId t).Spec NoLoss Always (fun _ => LeftPlace cardId t) log := by
  unfold exitLocations Txn.update
  refine (Txn.Spec.query (Q := fun (d : Tables) log' => log' = .saw (.activeLocations cardId) d ::
    log ∧ d.Placed ∧ d.cards.contains cardId = true) trivial fun d hd => ?_).bind ?_
  · obtain ⟨o, ho, d', hd', hcontains⟩ := hlog.card
    exact ⟨trivial, rfl, hd.1.2 hlog.unmoved d rfl,
      ((hd.1.1 d rfl).2 o ho d' hd').cards cardId hcontains⟩
  rintro d log' - ⟨rfl, hplaced, hcontains⟩
  obtain ⟨id, hactive, hids⟩ := activeLocations_eq engine hplaced hcontains
  have hsees := Sees.keep (.saw (.activeLocations cardId) d) log trivial hlog
  simp only [hids, Txn.forEach, Txn.updateRow]
  refine Txn.Spec.bind (Q := fun _ => LeftPlace cardId t) ?_ fun _ _ _ hleft => ⟨trivial, hleft⟩
  refine (Txn.Spec.lockRow (Q := fun (d' : Tables) log' => log' = .locked (.cardLocation id) d' ::
    .saw (.activeLocations cardId) d :: log ∧ d'.activeAt cardId id = true) trivial
      fun d' hd' => ⟨trivial, rfl, ?_⟩).bind ?_
  · have hkept := hd'.2
    simp only [lostLocation, List.any_cons, hactive, Bool.true_and, Bool.or_eq_false_iff,
      Bool.not_eq_false'] at hkept
    exact hkept.1
  rintro d' log' - ⟨rfl, hactive'⟩
  have hlocked := Sees.keep (.locked (.cardLocation id) d') _ trivial hsees
  rw [if_pos (show (d'.cardLocations.get? id).any (activeLocationOf cardId) = true from hactive')]
  refine .put trivial trivial ⟨hlocked.card.keep _, id, ?_, ?_⟩
  · have hnone : placements _ = [] := hlocked.unmoved
    rw [placements_wrote, hnone]
    rfl
  · have hnow := LockFacts.Holds.now (F := placeFacts) (r := .activeLocation id cardId)
      hsees.unmoved hactive'
    exact hnow.keep _

/-- What the log has seen of a card, the next statement sees as well. -/
theorem contains_of_saw {o : Obs postgres} {d : Tables} (hlog : SawCard cardId log)
    (ho : NoLoss log o) (hd : o.data = some d) : d.cards.contains cardId = true := by
  obtain ⟨o', ho', d', hd', hcontains⟩ := hlog
  exact ((ho.1.1 d hd).2 o' ho' d' hd').cards cardId hcontains

/-- A card that has left its location and entered another one gets its bucket. -/
theorem updateCardBucket_spec {id : Uuid} {t : Instant} {row : CardLocation} {bucket : String}
    (hsaw : SawCard cardId log)
    (hplaced : placements log = [.cardLocation row, .locationExited id t])
    (hleft : placeFacts.Holds log (.activeLocation id cardId))
    (hrow : placeFacts.Holds log (.newLocation row.id)) (howner : row.cardId = cardId)
    (hactive : row.status = "active") (hbucket : row.bucket = bucket) :
    (updateCardBucket cardId bucket).Spec NoLoss Always (fun _ => PlaceDone) log := by
  unfold updateCardBucket Txn.update
  refine (Txn.Spec.query (Q := fun (d : Tables) log' => log' = .saw (.card cardId) d :: log ∧
    d.cards.contains cardId = true) trivial fun d hd =>
      ⟨trivial, rfl, contains_of_saw hsaw hd rfl⟩).bind ?_
  rintro d log' - ⟨rfl, hcontains⟩
  simp only [hcontains, if_true, Txn.forEach, Txn.updateRow]
  refine Txn.Spec.bind (Q := fun _ => PlaceDone) ?_ fun _ _ _ hdone => ⟨trivial, hdone⟩
  refine (Txn.Spec.lockRow (Q := fun (d' : Tables) log' => log' = .locked (.card cardId) d' ::
    .saw (.card cardId) d :: log ∧ d'.cards.contains cardId = true) trivial fun d' hd' =>
      ⟨trivial, rfl, contains_of_saw (hsaw.keep _) hd' rfl⟩).bind ?_
  rintro d' log' - ⟨rfl, hcontains'⟩
  rw [if_pos hcontains']
  refine .put trivial trivial (.moved cardId id t row ?_ (((hleft.keep _).keep _).keep _)
    (((hrow.keep _).keep _).keep _) howner hactive)
  rw [placements_wrote, hbucket]
  change _ :: placements log = _
  rw [hplaced]

/-- An insertion finds no row under the key of its own. -/
theorem insertLocation_spec (row : CardLocation) :
    (insertLocation engine row).Spec NoLoss Always (fun _ log' => ∃ d,
      log' = .wrote (.cardLocation row) :: .locked (.cardLocation row.id) d :: log ∧
      placeFacts.Holds (.locked (.cardLocation row.id) d :: log) (.newLocation row.id)) log :=
  .insert trivial (fun _ => trivial) fun d _ hfree => ⟨trivial, d, rfl,
    LockFacts.Holds.now (F := placeFacts) (r := .newLocation row.id) trivial
      (ne_true_of_eq_false hfree)⟩

theorem insertCard_spec {c : Card} (hlog : Unmoved log) :
    (insertCard engine c).Spec NoLoss Always (fun _ => NewCard c) log := by
  refine .insert trivial (fun _ => trivial) fun d _ hfree => ⟨trivial, ?_, ?_⟩
  · rw [placements_wrote]
    change _ :: placements log = _
    rw [show placements log = [] from hlog]
  · exact (LockFacts.Holds.now (F := placeFacts) (r := .newCard c.id) trivial
      (ne_true_of_eq_false hfree)).keep _

/-- The move of a card that the transaction has read. -/
theorem moveCardRow_place (card : Card) (toBucket : String) (actorId reason : Option String)
    (emitEvent : Bool) (hlog : Sees card.id log) :
    (moveCardRow engine card toBucket actorId reason emitEvent).Spec NoLoss Always
      (fun _ => PlaceDone) log := by
  refine .after_kept (W := OffPlaces) Sees.keep .now hlog fun now log hlog => ?_
  refine (exitLocations_spec engine now hlog).bind fun _ log _ hlog => ?_
  refine .after_kept (W := OffPlaces) LeftPlace.keep .fresh hlog fun id log hlog => ?_
  obtain ⟨hsaw, old, hplaced, hleft⟩ := hlog
  refine (insertLocation_spec engine _).bind ?_
  rintro _ _ - ⟨d, rfl, hrow⟩
  have hplaced' : placements (.wrote (.cardLocation ⟨id, card.id, toBucket, "active", now,
      some now, none⟩) :: .locked (RowLock.cardLocation id) d :: log) =
        [.cardLocation ⟨id, card.id, toBucket, "active", now, some now, none⟩,
          .locationExited old now] := by
    rw [placements_wrote]
    change _ :: placements log = _
    rw [hplaced]
  refine (updateCardBucket_spec ((hsaw.keep _).keep _) hplaced' ((hleft.keep _).keep _)
    (hrow.keep _) rfl rfl rfl).bind fun _ log _ hdone => ?_
  split
  · refine .after_kept (W := OffPlaces) PlaceDone.keep (newEvent_writes _ _ _ _) hdone
      fun event log hdone => ?_
    refine .after_kept (W := OffPlaces) PlaceDone.keep (insertEvent_writes engine rfl) hdone
      fun _ log hdone => ?_
    exact ⟨trivial, hdone⟩
  · exact ⟨trivial, hdone⟩

theorem createCard_place (panel : String) (payload : JsonObj) (metadata : Option JsonObj)
    (key : Option String) (hlog : Unmoved log) :
    (createCard engine panel payload metadata key).Spec NoLoss Always (fun _ => PlaceDone) log := by
  refine idempotent_kept Unmoved.keep PlaceDone.keep cachedCard_writes
    (fun _ => .unmoved) (fun log hlog => ?_) hlog
  refine .after_kept (W := OffPlaces) Unmoved.keep (getActivePatchPanel_writes engine panel)
    hlog fun p log hlog => ?_
  refine .after_kept (W := OffPlaces) Unmoved.keep (.ofExcept _) hlog fun bucket log hlog => ?_
  refine .after_kept (W := OffPlaces) Unmoved.keep .fresh hlog fun id log hlog => ?_
  refine .after_kept (W := OffPlaces) Unmoved.keep .now hlog fun createdAt log hlog => ?_
  refine (insertCard_spec engine hlog).bind fun _ log _ hlog => ?_
  refine .after_kept (W := OffPlaces) NewCard.keep .fresh hlog fun locationId log hlog => ?_
  refine (insertLocation_spec engine _).bind ?_
  rintro _ _ - ⟨d, rfl, hrow⟩
  have hdone := hlog.located hrow rfl rfl rfl
  refine .after_kept (W := OffPlaces) PlaceDone.keep (newEvent_writes _ _ _ _) hdone
    fun event log hdone => ?_
  refine .after_kept (W := OffPlaces) PlaceDone.keep (insertEvent_writes engine rfl) hdone
    fun _ log hdone => ?_
  refine .after_kept (W := OffPlaces) PlaceDone.keep
    (storeIdempotency_writes key _ _ fun _ _ => rfl) hdone fun _ log hdone => ?_
  exact ⟨trivial, hdone⟩

theorem getCard_place (id : Uuid) (hlog : Unmoved log) :
    (getCard id).Spec NoLoss Always (fun c => Sees c.id) log := by
  unfold getCard
  refine (Txn.Spec.query (Q := fun (d : Tables) log' => log' = .saw (.card id) d :: log ∧ d.Placed)
    trivial fun d hd => ⟨trivial, rfl, hd.1.2 hlog d rfl⟩).bind ?_
  rintro d log' - ⟨rfl, hplaced⟩
  cases hget : d.cards.get? id with
  | none => trivial
  | some c =>
    have hid : c.id = id := hplaced.cardKeys id c hget
    refine ⟨trivial, Unmoved.keep _ _ trivial hlog, _, List.mem_cons_self, d, rfl, ?_⟩
    rw [hid]
    exact Dict.contains_of_get? hget

theorem submitArtifact_place (w : World) (leaseId : Uuid) (pipe : String)
    (refs : List ArtifactReference) (key : Option String) (hlog : Unmoved log) :
    (submitArtifact engine w leaseId pipe refs key).Spec NoLoss Always (fun _ => PlaceDone)
      log := by
  refine idempotent_kept Unmoved.keep PlaceDone.keep cachedArtifacts_writes
    (fun _ => .unmoved) (fun log hlog => ?_) hlog
  refine .after_kept (W := OffPlaces) Unmoved.keep (getLease_writes leaseId) hlog fun lease log hlog => ?_
  refine .after_kept (W := OffPlaces) Unmoved.keep (ensureActiveLease_writes lease) hlog fun _ log hlog => ?_
  refine (getCard_place lease.cardId hlog).bind fun card log _ hlog => ?_
  refine .after_kept (W := OffPlaces) Sees.keep (getPatchPanelForCard_writes card) hlog fun p log hlog => ?_
  refine .after_kept (W := OffPlaces) Sees.keep (.ofExcept _) hlog fun target log hlog => ?_
  refine .after_kept (W := OffPlaces) Sees.keep (.ofExcept _) hlog fun _ log hlog => ?_
  refine .after_kept (W := OffPlaces) Sees.keep (.ofExcept _) hlog fun _ log hlog => ?_
  refine .after_kept (W := OffPlaces) Sees.keep (.ensure _ _) hlog fun _ log hlog => ?_
  refine (moveCardRow_place engine card _ _ _ _ hlog).bind fun _ log _ hdone => ?_
  refine .after_kept (W := OffPlaces) PlaceDone.keep .now hdone fun releasedAt log hdone => ?_
  refine .after_kept (W := OffPlaces) PlaceDone.keep (updateLease_writes lease.id rfl) hdone
    fun _ log hdone => ?_
  refine .after_kept (W := OffPlaces) PlaceDone.keep (newEvent_writes _ _ _ _) hdone fun event log hdone => ?_
  refine .after_kept (W := OffPlaces) PlaceDone.keep (insertEvent_writes engine rfl) hdone fun _ log hdone => ?_
  refine .after_kept (W := OffPlaces) PlaceDone.keep (.forEach (fun ref => insertArtifact_writes
    (W := OffPlaces) engine rfl) _) hdone fun _ log hdone => ?_
  refine .after_kept (W := OffPlaces) PlaceDone.keep (storeIdempotency_writes key _ _ fun _ _ => rfl) hdone
    fun _ log hdone => ?_
  exact ⟨trivial, hdone⟩

/-- Along its output pipe a verdict moves the card at most once. -/
theorem validationRoute_place (card : Card) (validatorId : String) (outputPipe : Option String)
    (hlog : Sees card.id log) : (validationRoute engine card validatorId outputPipe).Spec NoLoss
      Always (fun _ => PlaceDone) log := by
  unfold validationRoute
  split
  · exact ⟨trivial, .unmoved hlog.unmoved⟩
  · refine .after_kept (W := OffPlaces) Sees.keep (getPatchPanelForCard_writes card) hlog fun p log hlog => ?_
    refine .after_kept (W := OffPlaces) Sees.keep (.ofExcept _) hlog fun target log hlog => ?_
    exact (moveCardRow_place engine card _ _ _ _ hlog).bind fun _ _ _ hdone => ⟨trivial, hdone⟩

theorem validateCard_place (cardId : Uuid) (validatorId : String) (accepted : Bool)
    (reason outputPipe : Option String) (payload : Option JsonObj) (key : Option String)
    (hlog : Unmoved log) :
    (validateCard engine cardId validatorId accepted reason outputPipe payload key).Spec NoLoss
      Always (fun _ => PlaceDone) log := by
  refine idempotent_kept Unmoved.keep PlaceDone.keep cachedEvent_writes
    (fun _ => .unmoved) (fun log hlog => ?_) hlog
  refine (getCard_place cardId hlog).bind fun card log _ hlog => ?_
  refine .after_kept (W := OffPlaces) Sees.keep .fresh hlog fun id log hlog => ?_
  refine .after_kept (W := OffPlaces) Sees.keep .now hlog fun createdAt log hlog => ?_
  refine .after_kept (W := OffPlaces) Sees.keep (insertValidationResult_writes engine rfl) hlog
    fun _ log hlog => ?_
  refine (validationRoute_place engine card _ _ hlog).bind fun route log _ hdone => ?_
  refine .after_kept (W := OffPlaces) PlaceDone.keep (newEvent_writes _ _ _ _) hdone fun event log hdone => ?_
  refine .after_kept (W := OffPlaces) PlaceDone.keep (insertEvent_writes engine rfl) hdone fun _ log hdone => ?_
  refine .after_kept (W := OffPlaces) PlaceDone.keep (storeIdempotency_writes key _ _ fun _ _ => rfl) hdone
    fun _ log hdone => ?_
  exact ⟨trivial, hdone⟩

theorem moveCard_place (cardId : Uuid) (toBucket : String) (actorId reason key : Option String)
    (hlog : Unmoved log) : (moveCard engine cardId toBucket actorId reason key).Spec NoLoss Always
      (fun _ => PlaceDone) log := by
  refine idempotent_kept Unmoved.keep PlaceDone.keep cachedCard_writes
    (fun _ => .unmoved) (fun log hlog => ?_) hlog
  refine (getCard_place cardId hlog).bind fun card log _ hlog => ?_
  refine .after_kept (W := OffPlaces) Sees.keep (getPatchPanelForCard_writes card) hlog fun p log hlog => ?_
  refine .after_kept (W := OffPlaces) Sees.keep (.ofExcept _) hlog fun _ log hlog => ?_
  refine (moveCardRow_place engine card _ _ _ _ hlog).bind fun moved log _ hdone => ?_
  refine .after_kept (W := OffPlaces) PlaceDone.keep (storeIdempotency_writes key _ _ fun _ _ => rfl) hdone
    fun _ log hdone => ?_
  exact ⟨trivial, hdone⟩

end Bodies

end PostgresCardRuntime

/-- The transactions that place cards. -/
def Transaction.placesCards : Transaction → Bool
  | keyed (.createCard _ _ _) _ | keyed (.submitArtifact _ _ _) _ | keyed (.moveCard _ _ _ _) _
  | keyed (.validateCard _ _ _ _ _ _) _ => true
  | _ => false

theorem Transaction.place_spec (engine : Engine) (w : World) {c : Transaction}
    (hc : c.placesCards = true) : (c.program engine w).Spec PlaceFits
      (fun log => log.met lostLocation = true ∨ True)
      (fun _ log => log.met lostLocation = true ∨ PlaceDone log) [] := by
  apply Txn.Spec.met_or
  have hreturn : ∀ {α : Type} {x : Tx α} {log : Log postgres},
      x.Spec NoLoss (fun _ => True) (fun _ => PlaceDone) log →
      (x >>= fun _ => pure ()).Spec NoLoss (fun _ => True) (fun _ => PlaceDone) log :=
    fun hx => hx.bind fun _ _ hlog' hdone => ⟨hlog', hdone⟩
  cases c with
  | registerPatchPanel p => cases hc
  | expireLeases => cases hc
  | keyed call key =>
    cases call with
    | createCard panel payload metadata =>
      exact hreturn (PostgresCardRuntime.createCard_place engine panel payload metadata key rfl)
    | submitArtifact lease pipe refs =>
      exact hreturn (PostgresCardRuntime.submitArtifact_place engine w lease pipe refs key rfl)
    | moveCard card bucket actor reason =>
      exact hreturn (PostgresCardRuntime.moveCard_place engine card bucket actor reason key rfl)
    | validateCard card validator accepted reason pipe payload =>
      exact hreturn (PostgresCardRuntime.validateCard_place engine card validator accepted reason
        pipe payload key rfl)
    | _ => cases hc

/-! ## Runs -/

section Commit
variable {log : Log postgres} {d : Tables}

/-- At its commit a transaction keeps every card in one place, if what it relies on holds. -/
theorem PlaceDone.placed (h : PlaceDone log) (hd : d.Placed)
    (hfacts : ∀ r, placeFacts.Holds log r → placeFacts.fact d r) :
    Tables.Placed (log.view d) := by
  obtain ⟨hcards, hlocations⟩ := view_places log d
  cases h with
  | unmoved h =>
    have hnone : placements log = [] := h
    rw [hnone] at hcards hlocations
    exact ⟨hcards ▸ hd.cardKeys, hlocations ▸ hd.locationKeys,
      fun id row hrow => hcards ▸ hd.owners id row (hlocations ▸ hrow),
      fun id c hc => (hd.places id c (hcards ▸ hc)).frame fun _ _ _ => by rw [hlocations]; rfl⟩
  | created c row h hcard hrow howner hbucket hactive =>
    rw [h] at hcards hlocations
    exact hd.creates hcards hlocations (hfacts _ hcard) (hfacts _ hrow) howner hbucket hactive
  | moved cardId id t row h hleft hrow howner hactive =>
    rw [h] at hcards hlocations
    exact hd.moves hcards hlocations (hfacts _ hleft) (hfacts _ hrow) howner hactive

/-- What others rely on under locks that the transaction does not have. -/
theorem PlaceDone.keeps (h : PlaceDone log) {r : PlaceFact} (hlock : placeFacts.lock r ∉ log.locks)
    (hfact : placeFacts.fact d r) : placeFacts.fact (log.view d) r := by
  obtain ⟨hcards, hlocations⟩ := view_places log d
  -- Only rows whose locks the transaction holds have changed.
  have hlocation : ∀ id, .cardLocation id ∉ log.locks →
      (log.view d).cardLocations.get? id = d.cardLocations.get? id := by
    intro id hid
    rw [hlocations]
    cases h with
    | unmoved h => rw [show placements log = [] from h]; rfl
    | created c row h _ hrow =>
      have hne : id ≠ row.id := fun heq => hid (by rw [heq]; exact hrow.mem_locks)
      rw [h]
      exact Dict.get?_set_ne _ _ hne
    | moved cardId old t row h hleft hrow =>
      have hne : id ≠ row.id := fun heq => hid (by rw [heq]; exact hrow.mem_locks)
      have hne' : id ≠ old := fun heq => hid (by rw [heq]; exact hleft.mem_locks)
      rw [h]
      change ((d.cardLocations.modify old _).set row.id row).get? id = _
      rw [Dict.get?_set_ne _ _ hne, Dict.get?_modify]
      exact if_neg hne'
  have hcard : ∀ id, .card id ∉ log.locks →
      (log.view d).cards.contains id = d.cards.contains id := by
    intro id hid
    rw [hcards]
    cases h with
    | unmoved h => rw [show placements log = [] from h]; rfl
    | created c row h hcard =>
      have hne : id ≠ c.id := fun heq => hid (by rw [heq]; exact hcard.mem_locks)
      rw [h]
      change (d.cards.set c.id c).contains id = _
      unfold Dict.contains
      rw [Dict.get?_set_ne _ _ hne]
    | moved cardId old t row h =>
      rw [h]
      exact Dict.contains_modify _ _ _ _
  cases r with
  | activeLocation id cardId =>
    simp only [placeFacts, Tables.activeAt, hlocation id hlock] at hfact ⊢
    exact hfact
  | newLocation id =>
    simp only [placeFacts, Dict.contains, hlocation id hlock] at hfact ⊢
    exact hfact
  | newCard id =>
    simp only [placeFacts, hcard id hlock] at hfact ⊢
    exact hfact

/-- What is seen of the places from a clean log is committed. -/
theorem placeFacts_seen {r : PlaceFact} (hclean : placeFacts.clean log r)
    (hfact : placeFacts.fact (log.view d) r) : placeFacts.fact d r := by
  have hgrows := places_growth.view log (d := d) trivial
  cases r with
  | activeLocation id cardId =>
    have hnone : placements log = [] := hclean
    obtain ⟨-, hlocations⟩ := view_places log d
    rw [hnone] at hlocations
    change Tables.activeAt (log.view d) cardId id = true at hfact
    rw [Tables.activeAt, hlocations] at hfact
    exact hfact
  | newLocation id => exact fun hcontains => hfact (hgrows.locations id hcontains)
  | newCard id => exact fun hcontains => hfact (hgrows.cards id hcontains)

end Commit

/-- At a commit, no UPDATE of the transaction has lost a location to another one. -/
def PgSystem.movesFromSight (σ : PgSystem) : Action Transaction → Bool
  | .advance i => match σ.sessions[i]? with
    | some s => !(s.status = .opened && s.rest.returns) || !s.log.met lostLocation
    | none => true
  | _ => true

section Runs
variable {engine : Engine} {w : World} {σ σ' : PgSystem}

theorem PgSystem.met_of_commits {a : Action Transaction} {i : Nat} {s : PgSession}
    (ha : σ.movesFromSight a = true) (h : Commits σ (σ.step engine w a) i s) :
    s.log.met lostLocation = false := by
  have haction : a = .advance i := Commits.action h
  rw [haction] at ha
  simpa only [movesFromSight, h.session, h.opened, h.returns, decide_true, Bool.and_self,
    Bool.not_true, Bool.false_or, Bool.not_eq_true'] using ha

/-- What a run of placing transactions keeps. -/
structure PlacingState (σ : PgSystem) : Prop where
  calls : ∀ s ∈ σ.sessions, s.call.placesCards = true
  grown : σ.Grown (fun _ => True) Tables.PlacesStay
  orderly : σ.Orderly PlaceFits (fun _ log => log.met lostLocation = true ∨ True)
    (fun _ log => log.met lostLocation = true ∨ PlaceDone log)
  facts : placeFacts.State σ
  placed : σ.data.Placed

theorem PlacingState.start {d : Tables} (hd : d.Placed) : PlacingState (PgSystem.init d) where
  calls s hs := by cases hs
  grown := .start trivial rfl
  orderly := .start rfl
  facts := .start rfl
  placed := hd

theorem PlacingState.step {a : Action Transaction} (h : PlacingState σ)
    (hcall : ∀ call, a = .begin call → call.placesCards = true)
    (ha : σ.movesFromSight a = true) : PlacingState (σ.step engine w a) := by
  have hmove : Move w.supply (Transaction.program engine w) σ (σ.step engine w a) :=
    System.step_move w.supply (Transaction.program engine w) σ a
  have hcalls : ∀ s ∈ (σ.step engine w a).sessions, s.call.placesCards = true :=
    System.step_calls h.calls hcall
  have hdone : ∀ {i : Nat} {s : PgSession}, Commits σ (σ.step engine w a) i s → PlaceDone s.log := by
    intro i s hcommits
    obtain ⟨b, hrest⟩ := hcommits.rest
    rcases h.orderly.result hcommits.session hrest with hmet | hdone
    · rw [PgSystem.met_of_commits ha hcommits] at hmet
      cases hmet
    · exact hdone
  refine ⟨hcalls, h.grown.moves places_growth hmove, ?_, ?_, ?_⟩
  · refine h.orderly.moves (fun i n s o rest hs hopen ho => ?_) (fun s hs => ?_) hmove
    · refine ⟨h.grown.follows places_growth hs hopen ho, fun hunmoved d hd => ?_⟩
      rw [ho.data_eq hd]
      exact (PlaceDone.unmoved hunmoved).placed h.placed fun r hr => h.facts i s r hs hopen hr
    · exact Transaction.place_spec engine w (hcalls s hs)
  · refine h.facts.moves h.orderly.apart ?_ ?_ hmove
    · intro i s r _ _ hclean hfact
      exact placeFacts_seen hclean hfact
    · intro i s r hcommits hlock hfact
      have hkept := (hdone hcommits).keeps hlock hfact
      rwa [← hcommits.data] at hkept
  · rcases hmove.data with hdata | ⟨i, s, hcommits⟩
    · exact hdata ▸ h.placed
    · rw [hcommits.data]
      exact (hdone hcommits).placed h.placed fun r hr =>
        h.facts i s r hcommits.session hcommits.opened hr

end Runs

/-- Creations, submissions, moves and verdicts in any interleaving, where no commit has
lost a location to another: every card is in one place in every committed state. -/
theorem card_in_one_place (engine : Engine) (w : World) (d : Tables) (hd : d.Placed)
    (actions : List (Action Transaction))
    (hcalls : ∀ call, .begin call ∈ actions → call.placesCards = true)
    (hok : Permitted (PgSystem.step engine w) (fun σ a => σ.movesFromSight a = true)
      (PgSystem.init d) actions) {id : Uuid} {c : Card}
    (hc : (PgSystem.run engine w d actions).data.cards.get? id = some c) :
    (PgSystem.run engine w d actions).data.InOnePlace c := by
  have hcalls' : ∀ a ∈ actions, ∀ call, a = .begin call → call.placesCards = true :=
    fun a ha call heq => hcalls call (heq ▸ ha)
  have hstate : PlacingState (PgSystem.run engine w d actions) :=
    (hok.and_of_mem hcalls').reaches.invariant (.start hd) fun σ a hσ ha => hσ.step ha.2 ha.1
  exact hstate.placed.places id c hc

/-! Two moves of one card. -/

theorem Tables.line_placed : Tables.line.Placed := by
  have hcards : ∀ id c, Tables.line.cards.get? id = some c →
      id = ⟨100⟩ ∧ c = ⟨⟨100⟩, "orders:1", "inbox", [], [], 0⟩ := by
    intro id c hc
    simp only [Tables.line, Dict.get?_set, Dict.get?_empty, Option.ite_none_right_eq_some,
      Option.some.injEq] at hc
    exact ⟨hc.1, hc.2.symm⟩
  have hlocations : ∀ id row, Tables.line.cardLocations.get? id = some row →
      id = ⟨101⟩ ∧ row = ⟨⟨101⟩, ⟨100⟩, "inbox", "active", 0, some 0, none⟩ := by
    intro id row hrow
    simp only [Tables.line, Dict.get?_set, Dict.get?_empty, Option.ite_none_right_eq_some,
      Option.some.injEq] at hrow
    exact ⟨hrow.1, hrow.2.symm⟩
  refine ⟨fun id c hc => ?_, fun id row hrow => ?_, fun id row hrow => ?_, fun id c hc => ?_⟩
  · obtain ⟨rfl, rfl⟩ := hcards id c hc
    rfl
  · obtain ⟨rfl, rfl⟩ := hlocations id row hrow
    rfl
  · obtain ⟨rfl, rfl⟩ := hlocations id row hrow
    decide +kernel
  · obtain ⟨rfl, rfl⟩ := hcards id c hc
    refine ⟨⟨101⟩, ⟨⟨101⟩, ⟨100⟩, "inbox", "active", 0, some 0, none⟩, rfl, by decide, rfl, ?_⟩
    intro id' row' hrow' _ hne
    exact (hne (hlocations id' row' hrow').1).elim

/-- Two active locations are two places. -/
theorem Tables.not_inOnePlace {d : Tables} {c : Card} {id id' : Uuid}
    (hid : d.activeAt c.id id = true) (hid' : d.activeAt c.id id' = true) (hne : id' ≠ id) :
    ¬ d.InOnePlace c := by
  intro h
  obtain ⟨-, -, -, hothers⟩ := h.of_activeAt hid
  obtain ⟨row', hrow', hcard', hstatus'⟩ := Tables.activeAt_iff.mp hid'
  have hexited := (hothers id' row' hrow' hcard' hne).1
  rw [hstatus'] at hexited
  exact absurd hexited (by decide)

def moveOfLine (bucket : String) : Transaction := .keyed (.moveCard ⟨100⟩ bucket none none) none

/-- The second move has looked for the active location before the first commits. -/
def racingMoves : List (Action Transaction) :=
  [.begin (moveOfLine "outbox"), .begin (moveOfLine "outbox")] ++
    List.replicate 4 (.advance 1) ++ List.replicate 20 (.advance 0) ++
    List.replicate 20 (.advance 1)

theorem racingMoves_two_places : Tables.line.Placed ∧
    (∀ call, .begin call ∈ racingMoves → call.placesCards = true) ∧
    ∃ c, (PgSystem.run .simple .simple .line racingMoves).data.cards.get? ⟨100⟩ = some c ∧
      ¬ (PgSystem.run .simple .simple .line racingMoves).data.InOnePlace c := by
  refine ⟨Tables.line_placed, Action.forall_begin (by decide +kernel), ?_⟩
  have hcard : ((PgSystem.run .simple .simple .line racingMoves).data.cards.get? ⟨100⟩).map
      (·.id) = some ⟨100⟩ := by decide +kernel
  have hfirst : (PgSystem.run .simple .simple .line racingMoves).data.activeAt ⟨100⟩ ⟨0⟩ = true := by
    decide +kernel
  have hsecond : (PgSystem.run .simple .simple .line racingMoves).data.activeAt ⟨100⟩ ⟨2⟩ =
      true := by decide +kernel
  obtain ⟨c, hc, hid⟩ := Option.map_eq_some_iff.mp hcard
  refine ⟨c, hc, Tables.not_inOnePlace ?_ ?_ (show (⟨2⟩ : Uuid) ≠ ⟨0⟩ by decide)⟩
  · rw [hid]
    exact hfirst
  · rw [hid]
    exact hsecond

/-- One move after the other. -/
def serialMoves : List (Action Transaction) :=
  .begin (moveOfLine "outbox") :: List.replicate 20 (.advance 0) ++
    .begin (moveOfLine "inbox") :: List.replicate 20 (.advance 1)

theorem card_in_one_place_serial :
    ∃ c, (PgSystem.run .simple .simple .line serialMoves).data.cards.get? ⟨100⟩ = some c ∧
      (PgSystem.run .simple .simple .line serialMoves).data.InOnePlace c := by
  obtain ⟨c, hc⟩ := Option.isSome_iff_exists.mp (show ((PgSystem.run .simple .simple .line
    serialMoves).data.cards.get? ⟨100⟩).isSome = true by decide +kernel)
  have hcalls : ∀ call, .begin call ∈ serialMoves → call.placesCards = true :=
    Action.forall_begin (by decide +kernel)
  exact ⟨c, hc, card_in_one_place .simple .simple .line Tables.line_placed serialMoves hcalls
    (by decide +kernel) hc⟩

end GhostMesh
