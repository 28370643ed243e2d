import GhostMesh.Lib.Run
import GhostMesh.Runtime.MemorySteps

/-!
# Runs of the in-memory runtime

A run is any sequence of calls with any arguments. `Effect` gathers what a call
can do to the store, and `WellKeyed` is the invariant that ties every stored
record to its dictionary key.
-/

set_option autoImplicit false

namespace GhostMesh

open InMemoryCardRuntime Op

/-- One call of the runtime with its arguments. -/
inductive RuntimeCall where
  | registerPatchPanel (p : PatchPanel)
  | listPatchPanels
  | createCard (patchPanelId : String) (payload : JsonObj) (metadata : Option JsonObj)
      (idempotencyKey : Option String)
  | listCards
  | listLeases
  | claimCard (inputPipe workerId : String) (leaseSeconds : Int) (idempotencyKey : Option String)
  | submitArtifact (leaseId : Uuid) (outputPipe : String) (refs : List ArtifactReference)
      (idempotencyKey : Option String)
  | renewLease (leaseId : Uuid) (leaseSeconds : Int) (idempotencyKey : Option String)
  | releaseLease (leaseId : Uuid) (actorId idempotencyKey : Option String)
  | expireLeases
  | validateCard (cardId : Uuid) (validatorId : String) (accepted : Bool)
      (reason outputPipe : Option String) (payload : Option JsonObj)
      (idempotencyKey : Option String)
  | moveCard (cardId : Uuid) (toBucket : String) (actorId reason idempotencyKey : Option String)
  | cardHistory (cardId : Uuid)
  | recordEvent (cardId : Uuid) (eventType : String) (actorId : Option String)
      (payload : Option JsonObj) (idempotencyKey : Option String)

namespace RuntimeCall

/-- The machine after a call, whether it returned or raised. -/
def step (w : World) (m : Machine InMemoryCardRuntime) :
    RuntimeCall → Machine InMemoryCardRuntime
  | registerPatchPanel p => ((InMemoryCardRuntime.registerPatchPanel p).run w m).2
  | listPatchPanels => (InMemoryCardRuntime.listPatchPanels.run w m).2
  | createCard panel payload metadata key =>
    ((InMemoryCardRuntime.createCard panel payload metadata key).run w m).2
  | listCards => (InMemoryCardRuntime.listCards.run w m).2
  | listLeases => (InMemoryCardRuntime.listLeases.run w m).2
  | claimCard pipe worker seconds key =>
    ((InMemoryCardRuntime.claimCard pipe worker seconds key).run w m).2
  | submitArtifact lease pipe refs key =>
    ((InMemoryCardRuntime.submitArtifact lease pipe refs key).run w m).2
  | renewLease lease seconds key => ((InMemoryCardRuntime.renewLease lease seconds key).run w m).2
  | releaseLease lease actor key => ((InMemoryCardRuntime.releaseLease lease actor key).run w m).2
  | expireLeases => (InMemoryCardRuntime.expireLeases.run w m).2
  | validateCard card validator accepted reason pipe payload key =>
    ((InMemoryCardRuntime.validateCard card validator accepted reason pipe payload key).run w m).2
  | moveCard card bucket actor reason key =>
    ((InMemoryCardRuntime.moveCard card bucket actor reason key).run w m).2
  | cardHistory card => ((InMemoryCardRuntime.cardHistory card).run w m).2
  | recordEvent card type actor payload key =>
    ((InMemoryCardRuntime.recordEvent card type actor payload key).run w m).2

end RuntimeCall

/-- The machine of a fresh runtime. -/
def InMemoryCardRuntime.start : Machine InMemoryCardRuntime := ⟨InMemoryCardRuntime.init, 0, 0⟩

/-- The machine after a sequence of calls on a fresh runtime. -/
def runCalls (w : World) (calls : List RuntimeCall) : Machine InMemoryCardRuntime :=
  calls.foldl (RuntimeCall.step w) InMemoryCardRuntime.start

/-! ## What a call can do -/

/-- Every way in which a call can change the machine. -/
inductive Effect (w : World) (m m' : Machine InMemoryCardRuntime) : Prop where
  | same (h : SameStore m m')
  | registers (p : PatchPanel) (report : GraphValidationReport)
      (valid : PatchPanelValidator.validate w p = .ok report)
      (h : m' = { m with store := m.store.putPanel p })
  | creates {panel payload metadata key c e}
      (h : Creates w m m' panel payload metadata key c e)
  | claims {pipe worker key l e} (h : Claims w m m' pipe worker key l e)
  | submits {lease pipe refs key l c destination t e}
      (h : Submits w m m' lease pipe refs key l c destination t e)
  | renews {lease key l t e} (h : Renews w m m' lease key l t e)
  | releases {lease actor key l t e} (h : Releases m m' lease actor key l t e)
  | expires (h : Expires (w.clock m.ticks) m.store.leases.values m.store m'.store)
      (later : Later m m')
  | validates {card validator accepted reason pipe payload key c route e}
      (h : Validates w m m' card validator accepted reason pipe payload key c route e)
  | moves {card bucket actor reason key c e} (h : Moves m m' card bucket actor reason key c e)
  | records {card type actor payload key e} (h : Records m m' card type actor payload key e)

section Step
variable {w : World} {m m' : Machine InMemoryCardRuntime}

theorem Effect.of_same (h : m' = m) : Effect w m m' := by
  subst h
  exact .same (.refl _)

theorem cardHistory_same {card : Uuid} {r : Except PyErr (List CardEvent)}
    (h : (InMemoryCardRuntime.cardHistory card).run w m = (r, m')) : m' = m := by
  rcases getCard_bind h with rfl | ⟨c, -, h⟩
  · rfl
  · cases h
    rfl

/-- Every call has one of the effects. -/
theorem RuntimeCall.step_effect (w : World) (m : Machine InMemoryCardRuntime) (call : RuntimeCall) :
    Effect w m (call.step w m) := by
  cases call with
  | registerPatchPanel p =>
    have hrun : (InMemoryCardRuntime.registerPatchPanel p).run w m = (_, _) := rfl
    rcases registerPatchPanel_cases hrun with h | ⟨report, hvalid, h⟩
    · exact .of_same h
    · exact .registers p report hvalid h
  | listPatchPanels => exact .of_same rfl
  | createCard panel payload metadata key =>
    have hrun : (InMemoryCardRuntime.createCard panel payload metadata key).run w m = (_, _) := rfl
    rcases createCard_cases hrun with h | ⟨c, e, -, h⟩
    · exact .of_same h
    · exact .creates h
  | listCards => exact .of_same rfl
  | listLeases => exact .of_same rfl
  | claimCard pipe worker seconds key =>
    have hrun : (InMemoryCardRuntime.claimCard pipe worker seconds key).run w m = (_, _) := rfl
    rcases claimCard_cases hrun with ⟨h, -⟩ | ⟨l, e, -, h⟩
    · exact .same h
    · exact .claims h
  | submitArtifact lease pipe refs key =>
    have hrun : (InMemoryCardRuntime.submitArtifact lease pipe refs key).run w m = (_, _) := rfl
    rcases submitArtifact_cases hrun with h | ⟨l, c, d, t, e, -, h⟩
    · exact .same h
    · exact .submits h
  | renewLease lease seconds key =>
    have hrun : (InMemoryCardRuntime.renewLease lease seconds key).run w m = (_, _) := rfl
    rcases renewLease_cases hrun with h | ⟨l, t, e, -, h⟩
    · exact .same h
    · exact .renews h
  | releaseLease lease actor key =>
    have hrun : (InMemoryCardRuntime.releaseLease lease actor key).run w m = (_, _) := rfl
    rcases releaseLease_cases hrun with h | ⟨l, t, e, -, h⟩
    · exact .of_same h
    · exact .releases h
  | expireLeases =>
    have hrun : InMemoryCardRuntime.expireLeases.run w m = (_, _) := rfl
    obtain ⟨hexp, hlater⟩ := expireLeases_cases hrun
    exact .expires hexp hlater
  | validateCard card validator accepted reason pipe payload key =>
    have hrun : (InMemoryCardRuntime.validateCard card validator accepted reason pipe payload
      key).run w m = (_, _) := rfl
    rcases validateCard_cases hrun with h | ⟨c, route, e, -, h⟩
    · exact .of_same h
    · exact .validates h
  | moveCard card bucket actor reason key =>
    have hrun : (InMemoryCardRuntime.moveCard card bucket actor reason key).run w m = (_, _) := rfl
    rcases moveCard_cases hrun with h | ⟨c, e, -, h⟩
    · exact .of_same h
    · exact .moves h
  | cardHistory card =>
    have hrun : (InMemoryCardRuntime.cardHistory card).run w m = (_, _) := rfl
    exact .of_same (cardHistory_same hrun)
  | recordEvent card type actor payload key =>
    have hrun : (InMemoryCardRuntime.recordEvent card type actor payload key).run w m =
      (_, _) := rfl
    rcases recordEvent_cases hrun with h | ⟨e, -, h⟩
    · exact .of_same h
    · exact .records h

end Step

/-! ## Keys -/

/-- Every record lies under its own id. -/
structure WellKeyed (s : InMemoryCardRuntime) : Prop where
  panels : ∀ {id p}, s.patchPanels.get? id = some p → p.id = id
  cards : ∀ {id c}, s.cards.get? id = some c → c.id = id
  leases : ∀ {id l}, s.leases.get? id = some l → l.id = id
  history : ∀ {id e}, e ∈ s.history id → e.cardId = id

namespace WellKeyed

theorem init : WellKeyed InMemoryCardRuntime.init where
  panels h := by simp [InMemoryCardRuntime.init] at h
  cards h := by simp [InMemoryCardRuntime.init] at h
  leases h := by simp [InMemoryCardRuntime.init] at h
  history h := by simp [InMemoryCardRuntime.init, InMemoryCardRuntime.history] at h

/-- Writing a record under its own id keeps a dictionary keyed by ids. -/
theorem set {κ α : Type} [DecidableEq κ] {d : Dict κ α} {key : α → κ}
    (hd : ∀ {id a}, d.get? id = some a → key a = id) (b : α) :
    ∀ {id a}, (d.set (key b) b).get? id = some a → key a = id := by
  intro id a h
  rw [Dict.get?_set] at h
  split at h
  · rename_i hid
    cases h
    exact hid.symm
  · exact hd h

variable {s : InMemoryCardRuntime} (hs : WellKeyed s)
include hs

theorem panels_nodup : s.patchPanels.values.Nodup :=
  Dict.values_nodup_of_keyed fun _ _ => hs.panels

theorem putPanel (p : PatchPanel) : WellKeyed (s.putPanel p) :=
  ⟨set hs.panels p, hs.cards, hs.leases, hs.history⟩

theorem putCard (c : Card) : WellKeyed (s.putCard c) :=
  ⟨hs.panels, set hs.cards c, hs.leases, hs.history⟩

theorem putLease (l : Lease) : WellKeyed (s.putLease l) :=
  ⟨hs.panels, hs.cards, set hs.leases l, hs.history⟩

theorem putArtifacts (refs : List ArtifactReference) : WellKeyed (s.putArtifacts refs) :=
  ⟨hs.panels, hs.cards, hs.leases, hs.history⟩

theorem putEvent (e : CardEvent) : WellKeyed (s.putEvent e) := by
  refine ⟨hs.panels, hs.cards, hs.leases, ?_⟩
  intro id e' h
  rw [putEvent_history] at h
  split at h
  · rename_i hid
    rcases List.mem_append.mp h with h | h
    · exact hs.history h
    · rw [List.mem_singleton.mp h, hid]
  · exact hs.history h

theorem putKey (key : Option String) (v : Stored) : WellKeyed (s.putKey key v) := by
  unfold InMemoryCardRuntime.putKey
  split
  · exact ⟨hs.panels, hs.cards, hs.leases, hs.history⟩
  · exact hs

theorem routeCard (c : Card) (route : Option (String × String)) :
    WellKeyed (s.routeCard c route) := by
  cases route with
  | none => exact hs
  | some r => exact hs.putCard _

theorem released (l : Lease) (t : Instant) (e : CardEvent) : WellKeyed (s.released l t e) :=
  (hs.putLease _).putEvent e

theorem expires {t : Instant} {ls : List Lease} {s' : InMemoryCardRuntime}
    (h : Expires t ls s s') : WellKeyed s' :=
  h.invariant (fun _ _ _ _ hs => hs.released _ _ _) hs

end WellKeyed

theorem WellKeyed.effect {w : World} {m m' : Machine InMemoryCardRuntime}
    (hm : WellKeyed m.store) (h : Effect w m m') : WellKeyed m'.store := by
  cases h with
  | same h => rw [h.store]; exact hm
  | registers p _ _ h => subst h; exact hm.putPanel p
  | creates h => rw [h.store]; exact ((hm.putCard _).putEvent _).putKey _ _
  | claims h => rw [h.store]; exact ((hm.putLease _).putEvent _).putKey _ _
  | submits h =>
    rw [h.store]
    exact ((((hm.putCard _).putLease _).putArtifacts _).putEvent _).putKey _ _
  | renews h => rw [h.store]; exact ((hm.putLease _).putEvent _).putKey _ _
  | releases h => rw [h.store]; exact (hm.released _ _ _).putKey _ _
  | expires h _ => exact hm.expires h
  | validates h => rw [h.store]; exact ((hm.routeCard _ _).putEvent _).putKey _ _
  | moves h => rw [h.store]; exact ((hm.putCard _).putEvent _).putKey _ _
  | records h => rw [h.store]; exact (hm.putEvent _).putKey _ _

theorem Effect.later {w : World} {m m' : Machine InMemoryCardRuntime} (h : Effect w m m') :
    Later m m' := by
  cases h with
  | same h => exact ⟨h.ticks, h.draws⟩
  | registers p _ _ h => subst h; exact ⟨Nat.le_refl _, Nat.le_refl _⟩
  | expires _ h => exact h
  | creates h => exact h.later
  | claims h => exact h.later
  | submits h => exact h.later
  | renews h => exact h.later
  | releases h => exact h.later
  | validates h => exact h.later
  | moves h => exact h.later
  | records h => exact h.later

/-- The run lemma: what the start has and every effect keeps holds after any calls. -/
theorem runCalls_invariant {w : World} {I : Machine InMemoryCardRuntime → Prop}
    (h0 : I InMemoryCardRuntime.start)
    (hstep : ∀ m m', I m → Effect w m m' → I m') (calls : List RuntimeCall) :
    I (runCalls w calls) := by
  have hreach : Reaches (RuntimeCall.step w) (fun _ _ => True) InMemoryCardRuntime.start
      (runCalls w calls) := .of_foldl _ _ calls
  refine hreach.invariant h0 ?_
  intro m call hm _
  exact hstep m _ hm (call.step_effect w m)

theorem runCalls_wellKeyed (w : World) (calls : List RuntimeCall) :
    WellKeyed (runCalls w calls).store :=
  runCalls_invariant (I := fun m => WellKeyed m.store) WellKeyed.init
    (fun _ _ hm h => hm.effect h) calls

/-! ## Lease ids -/

/-- The id is one of the first `n` that the world supplies. -/
def Drawn (w : World) (n : Nat) (a : Uuid) : Prop := ∃ i, i < n ∧ a = w.uuid4 i

theorem Drawn.mono {w : World} {n n' : Nat} {a : Uuid} (h : Drawn w n a) (hn : n ≤ n') :
    Drawn w n' a := by
  obtain ⟨i, hi, ha⟩ := h
  exact ⟨i, Nat.lt_of_lt_of_le hi hn, ha⟩

/-- The id of every stored lease has been drawn. -/
def LeasesDrawn (w : World) (n : Nat) (s : InMemoryCardRuntime) : Prop :=
  ∀ a l, s.leases.get? a = some l → Drawn w n a

namespace LeasesDrawn

variable {w : World} {n : Nat} {s s' : InMemoryCardRuntime}

theorem of_leases_eq (h : LeasesDrawn w n s) (heq : s'.leases = s.leases) : LeasesDrawn w n s' := by
  intro a l
  rw [heq]
  exact h a l

theorem putLease {l : Lease} (h : LeasesDrawn w n s) (hl : Drawn w n l.id) :
    LeasesDrawn w n (s.putLease l) :=
  Dict.forall_values_set h hl

theorem expires {t : Instant} {ls : List Lease} (hexp : Expires t ls s s')
    (h : LeasesDrawn w n s) (hls : ∀ l ∈ ls, Drawn w n l.id) : LeasesDrawn w n s' := by
  induction hexp with
  | done s => exact h
  | keep _ _ ih => exact ih h fun l hl => hls l (List.mem_cons_of_mem _ hl)
  | @lapse l _ _ _ _ _ _ _ _ _ _ ih =>
    have hput : LeasesDrawn w n (InMemoryCardRuntime.putLease _ { l with releasedAt := some t }) :=
      h.putLease (hls l List.mem_cons_self)
    exact ih (hput.of_leases_eq rfl) fun l hl => hls l (List.mem_cons_of_mem _ hl)

theorem effect {m m' : Machine InMemoryCardRuntime} (hkeyed : WellKeyed m.store)
    (hm : LeasesDrawn w m.draws m.store) (h : Effect w m m') :
    LeasesDrawn w m'.draws m'.store := by
  have hdrawn : LeasesDrawn w m'.draws m.store :=
    fun a l hl => (hm a l hl).mono h.later.draws
  have hown : ∀ {a : Uuid} {l : Lease}, m.store.leases.get? a = some l → Drawn w m'.draws l.id :=
    fun hl => hkeyed.leases hl ▸ hdrawn _ _ hl
  cases h with
  | claims h =>
    obtain ⟨i, -, hi, hid⟩ := h.fresh
    rw [h.store]
    exact (hdrawn.putLease ⟨i, hi, hid⟩).of_leases_eq (by simp [claimed])
  | @renews _ _ l t _ h =>
    have hput : LeasesDrawn w m'.draws (m.store.putLease { l with expiresAt := t }) :=
      hdrawn.putLease (show Drawn w m'.draws l.id from hown h.lease)
    exact hput.of_leases_eq (by rw [h.store]; simp [renewed])
  | @submits _ _ _ _ l _ _ t _ h =>
    obtain ⟨p, hchecks⟩ := h.checks
    have hput : LeasesDrawn w m'.draws (m.store.putLease { l with releasedAt := some t }) :=
      hdrawn.putLease (show Drawn w m'.draws l.id from hown hchecks.lease)
    exact hput.of_leases_eq (by rw [h.store]; simp [submitted])
  | @releases _ _ _ l t _ h =>
    have hput : LeasesDrawn w m'.draws (m.store.putLease { l with releasedAt := some t }) :=
      hdrawn.putLease (show Drawn w m'.draws l.id from hown h.lease)
    exact hput.of_leases_eq (by rw [h.store]; simp [InMemoryCardRuntime.released])
  | expires h _ =>
    refine expires h hdrawn fun l hl => ?_
    obtain ⟨a, ha⟩ := (Dict.mem_values_iff _ _).mp hl
    exact hown ha
  | same h => exact hdrawn.of_leases_eq (by rw [h.store])
  | registers p _ _ h => exact hdrawn.of_leases_eq (by rw [h]; rfl)
  | creates h => exact hdrawn.of_leases_eq (by rw [h.store]; simp [created])
  | validates h => exact hdrawn.of_leases_eq (by rw [h.store]; simp [validated])
  | moves h => exact hdrawn.of_leases_eq (by rw [h.store]; simp [moved])
  | records h => exact hdrawn.of_leases_eq (by rw [h.store]; simp)

end LeasesDrawn

/-- A claim writes under an id that no lease had. -/
theorem InMemoryCardRuntime.Claims.unstored {w : World} {m m' : Machine InMemoryCardRuntime}
    {pipe worker : String} {key : Option String} {l : Lease} {e : CardEvent}
    (h : Claims w m m' pipe worker key l e)
    (hdrawn : LeasesDrawn w m.draws m.store) : m.store.leases.get? l.id = none := by
  obtain ⟨i, hlo, -, hid⟩ := h.fresh
  cases hget : m.store.leases.get? l.id with
  | none => rfl
  | some l' =>
    obtain ⟨j, hj, hid'⟩ := hdrawn _ _ hget
    have hij : i = j := w.uuid4_injective (hid.symm.trans hid')
    omega

end GhostMesh
