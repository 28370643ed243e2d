import GhostMesh.Lib.Lockstep
import GhostMesh.Runtime.MemorySteps
import GhostMesh.Runtime.PostgresSteps
import Mathlib.Data.List.Perm.Basic

/-!
# One ledger in two stores

When the tables and the in-memory store hold the same panel, cards, leases and evidence.
Each write of one runtime is paired with the write of the other that keeps them so.
-/

set_option autoImplicit false

namespace GhostMesh

open PostgresCardRuntime (activeDefinitions)

/-! ## Evidence -/

namespace JsonObj

/-- `o` without the key. -/
def erase (o : JsonObj) (key : String) : JsonObj := o.filter fun field => field.1 ≠ key

theorem erase_cons (field : String × Json) (o : JsonObj) (key : String) :
    erase (field :: o) key = if field.1 = key then o.erase key else field :: o.erase key := by
  by_cases h : field.1 = key <;> simp [erase, h]

theorem erase_set (o : JsonObj) (key key' : String) (value : Json) :
    (o.set key' value).erase key =
      if key' = key then o.erase key else (o.erase key).set key' value := by
  unfold set
  induction o with
  | nil =>
    simp only [Dict.insertIn, erase_cons]
    split <;> rfl
  | cons field o ih =>
    obtain ⟨k, v⟩ := field
    simp only [Dict.insertIn]
    by_cases hk : k = key'
    · subst hk
      by_cases h : k = key <;> simp [erase_cons, Dict.insertIn, h]
    · rw [if_neg hk, erase_cons, ih, erase_cons]
      by_cases h : key' = key
      · simp [h]
      · by_cases h' : k = key <;> simp [Dict.insertIn, h, h', hk]

theorem erase_update (o other : JsonObj) (key : String) :
    (o.update other).erase key = (o.erase key).update (other.erase key) := by
  unfold update
  induction other generalizing o with
  | nil => rfl
  | cons field other ih =>
    rw [List.foldl_cons, ih, erase_set, erase_cons]
    split <;> rfl

end JsonObj

/-- What an event says, apart from its id and the id of a validation result. -/
structure Evidence where
  cardId : Uuid
  eventType : String
  actorId : Option String
  payload : JsonObj
  occurredAt : Instant

def CardEvent.evidence (e : CardEvent) : Evidence :=
  ⟨e.cardId, e.eventType, e.actorId, e.payload.erase "validation_result_id", e.occurredAt⟩

/-- A movement along the output pipe of a verdict. -/
structure Evidence.OfVerdict (e : Evidence) : Prop where
  type : e.eventType = "card_moved"
  reason : e.payload.get? "reason" = some (.str "validator_output")

/-- The rows of a card in the event table. -/
def Tables.evidence (d : Tables) (cardId : Uuid) : List Evidence :=
  (d.cardEvents.values.filter fun e => e.cardId = cardId).map CardEvent.evidence

def InMemoryCardRuntime.evidence (s : InMemoryCardRuntime) (cardId : Uuid) : List Evidence :=
  (s.history cardId).map CardEvent.evidence

/-! ## The relation -/

/-- The same cards and leases, and the same evidence up to its order and the movements
that the tables record along with a verdict. -/
structure Agrees (d : Tables) (s : InMemoryCardRuntime) : Prop where
  cards : ∀ id, d.cards.get? id = s.cards.get? id
  leases : ∀ id, d.leases.get? id = s.leases.get? id
  events : ∀ id, ∃ moves : List Evidence, (∀ e ∈ moves, e.OfVerdict) ∧
    (d.evidence id).Perm (s.evidence id ++ moves)

/-- Both stores hold the panel alone, and agree. -/
structure SameLedger (p : PatchPanel) (d : Tables) (s : InMemoryCardRuntime) : Prop
    extends Agrees d s where
  panelRow : ∃ now, d.patchPanels.entries = [((p.id, p.version), ⟨p, now⟩)]
  versionRow : ∃ now,
    d.workflowVersions.entries = [(p.workflowVersion, ⟨p.id, p.version, true, now⟩)]
  panel : s.patchPanels.entries = [(p.id, p)]
  cardKeys : ∀ id c, s.cards.get? id = some c → c.id = id ∧ c.workflowVersion = p.workflowVersion
  leaseKeys : ∀ id l, s.leases.get? id = some l → l.id = id

/-- None of these identifiers is in a table that draws its own. -/
structure Unseen (spare : Uuid → Prop) (d : Tables) : Prop where
  cards : ∀ a, spare a → d.cards.contains a = false
  locations : ∀ a, spare a → d.cardLocations.contains a = false
  leases : ∀ a, spare a → d.leases.contains a = false
  events : ∀ a, spare a → d.cardEvents.contains a = false
  results : ∀ a, spare a → d.validationResults.contains a = false

/-- The identifiers of later calls, and those that this call has still to draw. -/
def Spare (w : World) (later : Uuid → Prop) (n : Nat) (a : Uuid) : Prop :=
  later a ∨ ∃ i, n ≤ i ∧ a = w.uuid4 i

/-- The stores in the middle of a call that has drawn `n` identifiers. -/
structure Paired (w : World) (later : Uuid → Prop) (p : PatchPanel) (d : Tables) (n : Nat)
    (s : InMemoryCardRuntime) : Prop where
  ledger : SameLedger p d s
  unseen : Unseen (Spare w later n) d

/-- The store with another card first in the order of the scan. -/
def InMemoryCardRuntime.prefer (s : InMemoryCardRuntime) (cardId : Uuid) : InMemoryCardRuntime :=
  { s with cards := s.cards.toFront cardId }

/-! ## Reading -/

namespace SameLedger

variable {p : PatchPanel} {d : Tables} {s : InMemoryCardRuntime} (h : SameLedger p d s)
include h

theorem panelAt (id : String) : s.patchPanels.get? id = if id = p.id then some p else none := by
  rw [Dict.get?, h.panel]
  simp only [Dict.lookupIn, eq_comm]

theorem panelValues : s.patchPanels.values = [p] := by
  rw [Dict.values, h.panel]
  rfl

theorem panelRowAt : ∃ row, d.patchPanels.get? (p.id, p.version) = some row ∧ row.definition = p := by
  obtain ⟨now, hrow⟩ := h.panelRow
  refine ⟨⟨p, now⟩, ?_, rfl⟩
  rw [Dict.get?, hrow]
  exact if_pos rfl

theorem panelRows : ∃ row, d.patchPanels.values = [row] ∧ row.definition = p := by
  obtain ⟨now, hrow⟩ := h.panelRow
  refine ⟨⟨p, now⟩, ?_, rfl⟩
  rw [Dict.values, hrow]
  rfl

theorem activeDefinitions_eq (id : String) :
    activeDefinitions d id = if id = p.id then [p] else [] := by
  obtain ⟨now, hrow⟩ := h.panelRow
  obtain ⟨now', hversion⟩ := h.versionRow
  unfold activeDefinitions
  rw [Dict.values, Dict.values, hrow, hversion]
  by_cases hid : id = p.id
  · simp [hid]
  · simp [hid, Ne.symm hid]

theorem cardRow {id : Uuid} {c : Card} (hc : d.cards.get? id = some c) :
    c.id = id ∧ c.workflowVersion = p.workflowVersion :=
  h.cardKeys id c (h.cards id ▸ hc)

theorem cardValues (c : Card) : c ∈ d.cards.values ↔ c ∈ s.cards.values := by
  rw [Dict.mem_values_iff, Dict.mem_values_iff]
  simp only [h.cards]

theorem leaseValues (l : Lease) : l ∈ d.leases.values ↔ l ∈ s.leases.values := by
  rw [Dict.mem_values_iff, Dict.mem_values_iff]
  simp only [h.leases]

theorem prefer (cardId : Uuid) : SameLedger p d (s.prefer cardId) :=
  { h with
    cards := fun id => by
      change d.cards.get? id = (s.cards.toFront cardId).get? id
      rw [Dict.get?_toFront, h.cards]
    cardKeys := fun id c => by
      change (s.cards.toFront cardId).get? id = some c → _
      rw [Dict.get?_toFront]
      exact h.cardKeys id c }

end SameLedger

/-! ## Writing -/

section Evidence
variable {d : Tables} {s : InMemoryCardRuntime} {e : CardEvent}

theorem evidence_cardEvent (hnew : d.cardEvents.contains e.id = false) (id : Uuid) :
    (RowWrite.apply d (.cardEvent e)).evidence id =
      if e.cardId = id then d.evidence id ++ [e.evidence] else d.evidence id := by
  have hget : d.cardEvents.get? e.id = none := by
    rw [Dict.contains, Option.isSome_eq_false_iff, Option.isNone_iff_eq_none] at hnew
    exact hnew
  unfold Tables.evidence RowWrite.apply
  simp only [Dict.values_set_of_new hget, List.filter_append, List.map_append]
  split
  · rename_i hid
    simp [hid]
  · rename_i hid
    simp [hid]

theorem evidence_putEvent (id : Uuid) : (s.putEvent e).evidence id =
    if e.cardId = id then s.evidence id ++ [e.evidence] else s.evidence id := by
  unfold InMemoryCardRuntime.evidence
  rw [InMemoryCardRuntime.putEvent_history]
  by_cases hid : e.cardId = id
  · simp [hid]
  · simp [hid, Ne.symm hid]

end Evidence

section Writes
variable {w : World} {later : Uuid → Prop} {p : PatchPanel} {d : Tables} {n : Nat}
  {s : InMemoryCardRuntime}

theorem Spare.mono {n' : Nat} {a : Uuid} (h : Spare w later n' a) (hn : n ≤ n') :
    Spare w later n a := by
  rcases h with h | ⟨i, hi, ha⟩
  · exact .inl h
  · exact .inr ⟨i, Nat.le_trans hn hi, ha⟩

theorem Spare.own (n : Nat) : Spare w later n (w.uuid4 n) := .inr ⟨n, Nat.le_refl n, rfl⟩

theorem Unseen.mono {spare spare' : Uuid → Prop} (h : Unseen spare d)
    (himp : ∀ a, spare' a → spare a) : Unseen spare' d :=
  ⟨fun a ha => h.cards a (himp a ha), fun a ha => h.locations a (himp a ha),
    fun a ha => h.leases a (himp a ha), fun a ha => h.events a (himp a ha),
    fun a ha => h.results a (himp a ha)⟩

theorem Paired.mono {n' : Nat} (h : Paired w later p d n s) (hn : n ≤ n') :
    Paired w later p d n' s :=
  ⟨h.ledger, h.unseen.mono fun _ ha => ha.mono hn⟩

section Kept
variable (h : Paired w later p d n s)
include h

theorem Paired.moved {c : Card} (hc : d.cards.get? c.id = some c) (bucket : String) :
    Paired w later p (RowWrite.apply d (.cardBucket c.id bucket)) n
      (s.putCard { c with currentBucket := bucket }) where
  ledger := { h.ledger with
    cards := fun id => by
      change (d.cards.modify c.id fun c => { c with currentBucket := bucket }).get? id =
        (s.cards.set c.id { c with currentBucket := bucket }).get? id
      rw [Dict.get?_modify, Dict.get?_set, hc, h.ledger.cards]
      rfl
    cardKeys := Dict.forall_values_set h.ledger.cardKeys ⟨rfl, (h.ledger.cardRow hc).2⟩ }
  unseen := { h.unseen with
    cards := fun a ha => by
      change (d.cards.modify c.id _).contains a = false
      rw [Dict.contains_modify]
      exact h.unseen.cards a ha }

theorem Paired.leaseChanged {l : Lease} (hl : d.leases.get? l.id = some l) {f : Lease → Lease}
    (hf : (f l).id = l.id) :
    Paired w later p { d with leases := d.leases.modify l.id f } n (s.putLease (f l)) where
  ledger := { h.ledger with
    leases := fun id => by
      change (d.leases.modify l.id f).get? id = (s.leases.set (f l).id (f l)).get? id
      rw [Dict.get?_modify, Dict.get?_set, hl, hf, h.ledger.leases]
      rfl
    leaseKeys := Dict.forall_values_set h.ledger.leaseKeys rfl }
  unseen := { h.unseen with
    leases := fun a ha => by
      change (d.leases.modify l.id f).contains a = false
      rw [Dict.contains_modify]
      exact h.unseen.leases a ha }

theorem Paired.locations {table : Dict Uuid CardLocation}
    (hkept : ∀ k, table.contains k = d.cardLocations.contains k) :
    Paired w later p { d with cardLocations := table } n s where
  ledger := { h.ledger with }
  unseen := { h.unseen with locations := fun a ha => (hkept a).trans (h.unseen.locations a ha) }

theorem Paired.artifacts (table : Dict Uuid ArtifactReference) (refs : List ArtifactReference) :
    Paired w later p { d with artifacts := table } n (s.putArtifacts refs) where
  ledger := { h.ledger with }
  unseen := { h.unseen with }

end Kept

variable (hlater : ∀ a, later a → ∀ i, a ≠ w.uuid4 i)
include hlater

theorem Spare.ne {a : Uuid} (h : Spare w later (n + 1) a) : a ≠ w.uuid4 n := by
  rcases h with h | ⟨i, hi, rfl⟩
  · exact hlater a h n
  · intro heq
    have := w.uuid4_injective heq
    omega

/-- A drawn identifier is used up. -/
theorem unseen_set {α : Type} {table : Dict Uuid α} {x : α} {k : Uuid} (hk : k = w.uuid4 n)
    (h : ∀ a, Spare w later n a → table.contains a = false) :
    ∀ a, Spare w later (n + 1) a → (table.set k x).contains a = false := by
  intro a ha
  have hne : a ≠ k := by
    rw [hk]
    exact ha.ne hlater
  rw [Dict.contains, Dict.get?_set_ne _ _ hne]
  exact h a (ha.mono (Nat.le_succ n))

variable (h : Paired w later p d n s)
include h

theorem Paired.card {c : Card} (hid : c.id = w.uuid4 n)
    (hversion : c.workflowVersion = p.workflowVersion) :
    Paired w later p (RowWrite.apply d (.card c)) (n + 1) (s.putCard c) where
  ledger := { h.ledger with
    cards := fun id => by
      change (d.cards.set c.id c).get? id = (s.cards.set c.id c).get? id
      rw [Dict.get?_set, Dict.get?_set, h.ledger.cards]
    cardKeys := Dict.forall_values_set h.ledger.cardKeys ⟨rfl, hversion⟩ }
  unseen := { h.unseen.mono fun _ ha => ha.mono (Nat.le_succ n) with
    cards := unseen_set hlater hid h.unseen.cards }

theorem Paired.location {row : CardLocation} (hid : row.id = w.uuid4 n) :
    Paired w later p (RowWrite.apply d (.cardLocation row)) (n + 1) s where
  ledger := { h.ledger with }
  unseen := { h.unseen.mono fun _ ha => ha.mono (Nat.le_succ n) with
    locations := unseen_set hlater hid h.unseen.locations }

theorem Paired.result {row : ValidationResult} (hid : row.id = w.uuid4 n) :
    Paired w later p (RowWrite.apply d (.validationResult row)) (n + 1) s where
  ledger := { h.ledger with }
  unseen := { h.unseen.mono fun _ ha => ha.mono (Nat.le_succ n) with
    results := unseen_set hlater hid h.unseen.results }

theorem Paired.lease {l : Lease} (hid : l.id = w.uuid4 n) :
    Paired w later p (RowWrite.apply d (.lease l)) (n + 1) (s.putLease l) where
  ledger := { h.ledger with
    leases := fun id => by
      change (d.leases.set l.id l).get? id = (s.leases.set l.id l).get? id
      rw [Dict.get?_set, Dict.get?_set, h.ledger.leases]
    leaseKeys := Dict.forall_values_set h.ledger.leaseKeys rfl }
  unseen := { h.unseen.mono fun _ ha => ha.mono (Nat.le_succ n) with
    leases := unseen_set hlater hid h.unseen.leases }

theorem Paired.event {e e' : CardEvent} (hid : e.id = w.uuid4 n)
    (hsame : e.evidence = e'.evidence) :
    Paired w later p (RowWrite.apply d (.cardEvent e)) (n + 1) (s.putEvent e') where
  ledger := { h.ledger with
    events := fun id => by
      have hnew : d.cardEvents.contains e.id = false := h.unseen.events _ (hid ▸ Spare.own n)
      have hcard : e.cardId = e'.cardId := congrArg Evidence.cardId hsame
      obtain ⟨moves, hmoves, hperm⟩ := h.ledger.events id
      refine ⟨moves, hmoves, ?_⟩
      rw [evidence_cardEvent hnew, evidence_putEvent, ← hcard, ← hsame]
      split
      · rw [List.append_assoc]
        exact (hperm.append_right _).trans (by
          rw [List.append_assoc]
          exact List.perm_append_comm.append_left _)
      · exact hperm }
  unseen := { h.unseen.mono fun _ ha => ha.mono (Nat.le_succ n) with
    events := unseen_set hlater hid h.unseen.events }

/-- The movement that only the tables record. -/
theorem Paired.move {e : CardEvent} (hid : e.id = w.uuid4 n) (hverdict : e.evidence.OfVerdict) :
    Paired w later p (RowWrite.apply d (.cardEvent e)) (n + 1) s where
  ledger := { h.ledger with
    events := fun id => by
      have hnew : d.cardEvents.contains e.id = false := h.unseen.events _ (hid ▸ Spare.own n)
      obtain ⟨moves, hmoves, hperm⟩ := h.ledger.events id
      rw [evidence_cardEvent hnew]
      split
      · refine ⟨moves ++ [e.evidence], ?_, ?_⟩
        · intro x hx
          rcases List.mem_append.mp hx with hx | hx
          · exact hmoves x hx
          · rw [List.mem_singleton.mp hx]
            exact hverdict
        · rw [← List.append_assoc]
          exact hperm.append_right _
      · exact ⟨moves, hmoves, hperm⟩ }
  unseen := { h.unseen.mono fun _ ha => ha.mono (Nat.le_succ n) with
    events := unseen_set hlater hid h.unseen.events }

end Writes

end GhostMesh
