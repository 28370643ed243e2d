import GhostMesh.Lib.Lockstep
import GhostMesh.Runtime.ClaimScan
import GhostMesh.Runtime.Idempotency

/-!
# Sweeping expired leases

`expire_leases` closes the leases whose time is over. The claim scan and the checks of
submissions and renewals take such a lease for a closed one anyway, so that a run goes
the same way whether or not it began with a sweep.
-/

set_option autoImplicit false

namespace GhostMesh

open InMemoryCardRuntime Op
open Exec (Respects)

/-! ## A store and the swept one -/

/-- A lease of the store, and what the swept store has under the same id. -/
inductive SweptLease (t : Instant) : Option Lease → Option Lease → Prop where
  | same (o : Option Lease) : SweptLease t o o
  | lapsed {l : Lease} (h : lapsedAt l t = true) :
      SweptLease t (some l) (some { l with releasedAt := some t })

/-- The stores differ in the histories and in leases that were over at `t`. -/
structure Swept (t : Instant) (s s' : InMemoryCardRuntime) : Prop where
  patchPanels : s'.patchPanels = s.patchPanels
  cards : s'.cards = s.cards
  idempotency : s'.idempotency = s.idempotency
  leases : ∀ id, SweptLease t (s.leases.get? id) (s'.leases.get? id)

namespace SweptLease

variable {t now : Instant} {o o' : Option Lease}

/-- From `t` on the same leases are active. -/
theorem active_iff (h : SweptLease t o o') (hnow : t ≤ now) (cardId : Uuid) :
    (∃ l, o = some l ∧ l.cardId = cardId ∧ l.activeAt now = true) ↔
      ∃ l, o' = some l ∧ l.cardId = cardId ∧ l.activeAt now = true := by
  cases h with
  | same => exact Iff.rfl
  | @lapsed l hlapsed =>
    simp only [lapsedAt, Bool.and_eq_true, decide_eq_true_eq] at hlapsed
    have hover : ¬ now < l.expiresAt := not_lt.mpr (le_trans hlapsed.2 hnow)
    constructor
    · rintro ⟨_, heq, -, hactive⟩
      cases heq
      simp only [Lease.activeAt, Bool.and_eq_true, decide_eq_true_eq] at hactive
      exact (hover hactive.2).elim
    · rintro ⟨_, heq, -, hactive⟩
      cases heq
      cases hactive

end SweptLease

namespace Swept

variable {t now : Instant} {s s' : InMemoryCardRuntime}

theorem refl (s : InMemoryCardRuntime) : Swept t s s := ⟨rfl, rfl, rfl, fun _ => .same _⟩

theorem cached (h : Swept t s s') (key : Option String) : s'.cached key = s.cached key := by
  unfold InMemoryCardRuntime.cached
  rw [h.idempotency]

theorem leasedAt (h : Swept t s s') (hnow : t ≤ now) (cardId : Uuid) :
    s'.leasedAt now cardId = s.leasedAt now cardId := by
  have hiff : ∀ x : InMemoryCardRuntime, x.leasedAt now cardId = true ↔
      ∃ id l, x.leases.get? id = some l ∧ l.cardId = cardId ∧ l.activeAt now = true := by
    intro x
    simp only [InMemoryCardRuntime.leasedAt, List.any_eq_true, Dict.mem_values_iff,
      Bool.and_eq_true, decide_eq_true_eq]
    constructor
    · rintro ⟨l, ⟨id, hl⟩, hactive⟩
      exact ⟨id, l, hl, hactive⟩
    · rintro ⟨id, l, hl, hactive⟩
      exact ⟨l, ⟨id, hl⟩, hactive⟩
  rw [Bool.eq_iff_iff, hiff, hiff]
  exact exists_congr fun id => ((h.leases id).active_iff hnow cardId).symm

/-! The writes of the operations. -/

theorem putCard (h : Swept t s s') (c : Card) : Swept t (s.putCard c) (s'.putCard c) :=
  ⟨h.patchPanels, congrArg (·.set c.id c) h.cards, h.idempotency, h.leases⟩

theorem putEvent (h : Swept t s s') (e : CardEvent) : Swept t (s.putEvent e) (s'.putEvent e) :=
  ⟨h.patchPanels, h.cards, h.idempotency, h.leases⟩

theorem putArtifacts (h : Swept t s s') (refs : List ArtifactReference) :
    Swept t (s.putArtifacts refs) (s'.putArtifacts refs) :=
  ⟨h.patchPanels, h.cards, h.idempotency, h.leases⟩

theorem putKey (h : Swept t s s') (key : Option String) (v : Stored) :
    Swept t (s.putKey key v) (s'.putKey key v) := by
  unfold InMemoryCardRuntime.putKey
  split
  · rename_i k _
    exact ⟨h.patchPanels, h.cards, congrArg (·.set k v) h.idempotency, h.leases⟩
  · exact h

theorem routeCard (h : Swept t s s') (c : Card) (route : Option (String × String)) :
    Swept t (s.routeCard c route) (s'.routeCard c route) := by
  cases route with
  | none => exact h
  | some r => exact h.putCard _

theorem putLease (h : Swept t s s') (l : Lease) : Swept t (s.putLease l) (s'.putLease l) := by
  refine ⟨h.patchPanels, h.cards, h.idempotency, fun id => ?_⟩
  simp only [putLease_leases, Dict.get?_set]
  split
  · exact .same _
  · exact h.leases id

end Swept

/-- The sweep itself: it closes leases that were stored, and over, at its start. -/
theorem InMemoryCardRuntime.Expires.swept {t : Instant} {ls : List Lease}
    {s₀ s s' : InMemoryCardRuntime} (h : Expires t ls s s')
    (hstored : ∀ l ∈ ls, s₀.leases.get? l.id = some l) (hs : Swept t s₀ s) : Swept t s₀ s' := by
  induction h with
  | done s => exact hs
  | keep _ _ ih => exact ih (fun l hl => hstored l (List.mem_cons_of_mem _ hl)) hs
  | @lapse l ls s s' e hlapsed _ _ _ _ _ ih =>
    refine ih (fun x hx => hstored x (List.mem_cons_of_mem _ hx))
      ⟨hs.patchPanels, hs.cards, hs.idempotency, fun id => ?_⟩
    change SweptLease t _ ((s.leases.set l.id { l with releasedAt := some t }).get? id)
    rw [Dict.get?_set]
    split
    · rename_i hid
      rw [hid, hstored l List.mem_cons_self]
      exact .lapsed hlapsed
    · exact hs.leases id

/-! ## The operations -/

/-- The machines of the two runs: the identifiers to come are the same. -/
structure InStride (t : Instant) (m m' : Machine InMemoryCardRuntime) : Prop where
  store : Swept t m.store m'.store
  draws : m'.draws = m.draws

namespace InMemoryCardRuntime

section Steps
variable {w : World} {t now : Instant} {α : Type}

theorem now_respects : Respects (InStride t) (w.stopped now) (Op.now : Rt Instant) :=
  fun _ _ h => ⟨rfl, h.store, h.draws⟩

theorem uuid4_respects : Respects (InStride t) (w.stopped now) (Op.uuid4 : Rt Uuid) := by
  intro m m' h
  refine ⟨?_, h.store, congrArg (· + 1) h.draws⟩
  rw [h.draws]

theorem world_respects : Respects (InStride t) w (Op.world : Rt World) := fun _ _ h => ⟨rfl, h⟩

theorem modify_respects {f : InMemoryCardRuntime → InMemoryCardRuntime}
    (hf : ∀ s s', Swept t s s' → Swept t (f s) (f s')) :
    Respects (InStride t) w (Op.modify f : Rt Unit) := fun _ _ h => ⟨rfl, hf _ _ h.store, h.draws⟩

theorem newEvent_respects (cardId : Uuid) (type : String) (actor : Option String)
    (payload : JsonObj) :
    Respects (InStride t) (w.stopped now) (newEvent cardId type actor payload : Rt CardEvent) :=
  uuid4_respects.bind fun _ => now_respects.bind fun _ => .pure _

theorem recordCardEvent_respects (e : CardEvent) : Respects (InStride t) w (recordCardEvent e) :=
  modify_respects fun _ _ h => h.putEvent e

theorem storeIdempotent_respects (key : Option String) (v : Stored) :
    Respects (InStride t) w (storeIdempotent key v) := modify_respects fun _ _ h => h.putKey key v

/-- A lookup in a part of the store that no sweep changes. -/
theorem lookup_respects {x : Rt α}
    (h : ∀ m m', InStride t m m' → ∃ r, x.run w m = (r, m) ∧ x.run w m' = (r, m')) :
    Respects (InStride t) w x := by
  intro m m' hm
  obtain ⟨r, hrun, hrun'⟩ := h m m' hm
  rw [hrun, hrun']
  cases r with
  | ok a => exact ⟨rfl, hm⟩
  | error e => exact hm

theorem getCard_respects (id : Uuid) : Respects (InStride t) w (getCard id) :=
  lookup_respects fun m m' h => ⟨_, run_getCard w m id, by rw [run_getCard, h.store.cards]⟩

theorem getPatchPanel_respects (id : String) : Respects (InStride t) w (getPatchPanel id) :=
  lookup_respects fun m m' h =>
    ⟨_, run_getPatchPanel w m id, by rw [run_getPatchPanel, h.store.patchPanels]⟩

theorem idempotent_respects {key : Option String} {ofStored : Stored → Option α} {body : Rt α}
    (hbody : Respects (InStride t) w body) :
    Respects (InStride t) w (idempotent key ofStored body) := by
  intro m m' h
  rw [run_idempotent, run_idempotent, h.store.cached]
  cases m.store.cached key with
  | none => exact hbody m m' h
  | some v =>
    dsimp only
    cases ofStored v with
    | none => exact h
    | some a => exact ⟨rfl, h⟩

theorem expiryAfter_respects (seconds : Int) :
    Respects (InStride t) (w.stopped now) (expiryAfter seconds : Rt Instant) := by
  refine now_respects.bind fun t' => ?_
  split
  · exact .pure _
  · exact .raise _

theorem newLease_respects (c : Card) (nodeId workerId inputPipe : String) (seconds : Int) :
    Respects (InStride t) (w.stopped now)
      (newLease c nodeId workerId inputPipe seconds : Rt Lease) :=
  (expiryAfter_respects seconds).bind fun _ => uuid4_respects.bind fun _ =>
    now_respects.bind fun _ => .pure _

/-- A lease that was over at `t` fails the check whether it has been closed or not. -/
theorem withActiveLease_respects (hnow : t ≤ now) (leaseId : Uuid) {f : Lease → Rt α}
    (hf : ∀ l, Respects (InStride t) (w.stopped now) (f l)) :
    Respects (InStride t) (w.stopped now)
      (getLease leaseId >>= fun l => ensureActiveLease l >>= fun _ => f l) := by
  intro m m' h
  rw [Exec.run_bind, Exec.run_bind, run_getLease, run_getLease]
  have hlease := h.store.leases leaseId
  revert hlease
  generalize m.store.leases.get? leaseId = o
  generalize m'.store.leases.get? leaseId = o'
  intro hlease
  cases hlease with
  | same =>
    cases o with
    | none => exact h
    | some l =>
      have hcheck : Respects (InStride t) (w.stopped now) (ensureActiveLease l : Rt Unit) := by
        unfold ensureActiveLease
        exact (Respects.ensure _ _).bind fun _ => now_respects.bind fun _ => .ensure _ _
      exact (hcheck.bind fun _ => hf l) m m' h
  | @lapsed l hlapsed =>
    simp only [lapsedAt, Bool.and_eq_true, decide_eq_true_eq] at hlapsed
    have hover : ¬ now < l.expiresAt := not_lt.mpr (le_trans hlapsed.2 hnow)
    simp only [Exec.run_bind, run_ensureActiveLease, hlapsed.1, hover, World.stopped_clock,
      if_true, if_false, Option.isNone_some, Bool.false_eq_true]
    exact ⟨h.store, h.draws⟩

/-! ### The claim scan -/

theorem firstFree_swept {s s' : InMemoryCardRuntime} (h : Swept t s s') (hnow : t ≤ now)
    (p : PatchPanel) (bucket : String) (cs : List Card) (i j : Nat) :
    (s'.firstFree (fun _ => now) p bucket cs j).1 =
      (s.firstFree (fun _ => now) p bucket cs i).1 := by
  induction cs generalizing i j with
  | nil => rfl
  | cons c cs ih =>
    simp only [firstFree, h.leasedAt hnow]
    split
    · split
      · exact ih _ _
      · rfl
    · exact ih _ _

theorem inputMatches_swept {s s' : InMemoryCardRuntime} (h : Swept t s s') (hnow : t ≤ now)
    (inputPipe : String) (ps : List PatchPanel) (i j : Nat) :
    (s'.inputMatches (fun _ => now) inputPipe ps j).1 =
      (s.inputMatches (fun _ => now) inputPipe ps i).1 := by
  induction ps generalizing i j with
  | nil => rfl
  | cons p ps ih =>
    simp only [inputMatches]
    cases hres : resolvePipeBucket p inputPipe .input with
    | error e =>
      cases e
      case invalidOperation message => exact ih i j
      all_goals rfl
    | ok found =>
      simp only [h.cards, firstFree_swept h hnow p found.1 s.cards.values i j]
      rw [ih]

theorem claimTarget_respects (hnow : t ≤ now) (inputPipe : String) :
    Respects (InStride t) (w.stopped now) (claimTarget inputPipe) := by
  intro m m' h
  have hpick : (m'.store.pick (fun _ => now) inputPipe m'.ticks).1 =
      (m.store.pick (fun _ => now) inputPipe m.ticks).1 := by
    simp only [pick, h.store.patchPanels]
    rw [inputMatches_swept h.store hnow]
  rw [run_claimTarget_at, run_claimTarget_at]
  change Exec.Lockstep _ _ ((m.store.pick (fun _ => now) inputPipe m.ticks).1, _)
    ((m'.store.pick (fun _ => now) inputPipe m'.ticks).1, _)
  rw [hpick]
  cases (m.store.pick (fun _ => now) inputPipe m.ticks).1 with
  | ok x => exact ⟨rfl, h.store, h.draws⟩
  | error e => exact ⟨h.store, h.draws⟩

end Steps

section Calls
variable {w : World} {t now : Instant} (hnow : t ≤ now) (key : Option String)

theorem createCard_respects (panel : String) (payload : JsonObj) (metadata : Option JsonObj) :
    Respects (InStride t) (w.stopped now) (createCard panel payload metadata key) := by
  refine idempotent_respects ((getPatchPanel_respects panel).bind fun p => ?_)
  refine (Respects.ofExcept _).bind fun bucket => uuid4_respects.bind fun id =>
    now_respects.bind fun createdAt => ?_
  refine (modify_respects fun _ _ h => h.putCard _).bind fun _ => ?_
  refine (newEvent_respects _ _ _ _).bind fun e => (recordCardEvent_respects e).bind fun _ => ?_
  exact (storeIdempotent_respects _ _).bind fun _ => .pure _

theorem validationRoute_respects (card : Card) (outputPipe : Option String) :
    Respects (InStride t) (w.stopped now) (validationRoute card outputPipe) := by
  unfold validationRoute
  split
  · exact .pure _
  · exact (getPatchPanel_respects _).bind fun p => (Respects.ofExcept _).bind fun found => .pure _

theorem validateCard_respects (cardId : Uuid) (validatorId : String) (accepted : Bool)
    (reason outputPipe : Option String) (payload : Option JsonObj) :
    Respects (InStride t) (w.stopped now)
      (validateCard cardId validatorId accepted reason outputPipe payload key) := by
  refine idempotent_respects ((getCard_respects cardId).bind fun card => ?_)
  refine (validationRoute_respects card outputPipe).bind fun route => ?_
  refine (modify_respects fun _ _ h => h.routeCard card route).bind fun _ => ?_
  refine (newEvent_respects _ _ _ _).bind fun e => (recordCardEvent_respects e).bind fun _ => ?_
  exact (storeIdempotent_respects _ _).bind fun _ => .pure _

theorem moveCard_respects (cardId : Uuid) (toBucket : String) (actorId reason : Option String) :
    Respects (InStride t) (w.stopped now) (moveCard cardId toBucket actorId reason key) := by
  refine idempotent_respects ((getCard_respects cardId).bind fun card => ?_)
  refine (getPatchPanel_respects _).bind fun p => (Respects.ofExcept _).bind fun _ => ?_
  refine (modify_respects fun _ _ h => h.putCard _).bind fun _ => ?_
  refine (newEvent_respects _ _ _ _).bind fun e => (recordCardEvent_respects e).bind fun _ => ?_
  exact (storeIdempotent_respects _ _).bind fun _ => .pure _

theorem recordEvent_respects (cardId : Uuid) (type : String) (actorId : Option String)
    (payload : Option JsonObj) :
    Respects (InStride t) (w.stopped now) (recordEvent cardId type actorId payload key) := by
  refine idempotent_respects ((getCard_respects cardId).bind fun _ => ?_)
  refine (newEvent_respects _ _ _ _).bind fun e => (recordCardEvent_respects e).bind fun _ => ?_
  exact (storeIdempotent_respects _ _).bind fun _ => .pure _

include hnow

theorem claimCard_respects (inputPipe workerId : String) (seconds : Int) :
    Respects (InStride t) (w.stopped now) (claimCard inputPipe workerId seconds key) := by
  refine idempotent_respects ((claimTarget_respects hnow inputPipe).bind fun target => ?_)
  split
  · exact .raise _
  · refine (newLease_respects _ _ _ _ _).bind fun l => ?_
    refine (modify_respects fun _ _ h => h.putLease l).bind fun _ => ?_
    refine (newEvent_respects _ _ _ _).bind fun e => (recordCardEvent_respects e).bind fun _ => ?_
    exact (storeIdempotent_respects _ _).bind fun _ => .pure _

theorem renewLease_respects (leaseId : Uuid) (seconds : Int) :
    Respects (InStride t) (w.stopped now) (renewLease leaseId seconds key) := by
  refine idempotent_respects (withActiveLease_respects hnow leaseId fun l => ?_)
  refine (expiryAfter_respects seconds).bind fun expiresAt => ?_
  refine (modify_respects fun _ _ h => h.putLease _).bind fun _ => ?_
  refine (newEvent_respects _ _ _ _).bind fun e => (recordCardEvent_respects e).bind fun _ => ?_
  exact (storeIdempotent_respects _ _).bind fun _ => .pure _

theorem submitArtifact_respects (leaseId : Uuid) (outputPipe : String)
    (refs : List ArtifactReference) :
    Respects (InStride t) (w.stopped now) (submitArtifact leaseId outputPipe refs key) := by
  refine idempotent_respects (withActiveLease_respects hnow leaseId fun l => ?_)
  refine (getCard_respects _).bind fun card => (getPatchPanel_respects _).bind fun p => ?_
  refine (Respects.ofExcept _).bind fun target => (Respects.ofExcept _).bind fun _ => ?_
  refine world_respects.bind fun v => (Respects.ofExcept _).bind fun _ => ?_
  refine (Respects.ensure _ _).bind fun _ => ?_
  refine (modify_respects fun _ _ h => h.putCard _).bind fun _ => now_respects.bind fun at_ => ?_
  refine (modify_respects fun _ _ h => h.putLease _).bind fun _ => ?_
  refine (newEvent_respects _ _ _ _).bind fun e => ?_
  refine (modify_respects fun _ _ h => h.putArtifacts _).bind fun _ => ?_
  exact (recordCardEvent_respects e).bind fun _ => (storeIdempotent_respects _ _).bind fun _ =>
    .pure _

end Calls

end InMemoryCardRuntime

/-! ## Whole runs -/

/-- A call at one instant, with the identifiers that it draws. -/
structure TimedCall where
  call : KeyedCall
  idempotencyKey : Option String
  now : Instant
  world : World

/-- `release_lease` alone tells a lease that has been closed from one that is over. -/
def KeyedCall.isRelease : KeyedCall → Bool
  | releaseLease _ _ => true
  | _ => false

namespace TimedCall

/-- What the call returns on a store, nothing where it raises, and the store after it. -/
def on (c : TimedCall) (s : InMemoryCardRuntime) : Option Stored × InMemoryCardRuntime :=
  let r := (c.call.run c.idempotencyKey).run (c.world.stopped c.now) ⟨s, 0, 0⟩
  (r.1.toOption, r.2.store)

end TimedCall

/-- From both stores every call returns the same or raises, and leaves the same cards. -/
def SameCourse : InMemoryCardRuntime → InMemoryCardRuntime → List TimedCall → Prop
  | _, _, [] => True
  | s, s', c :: cs => (c.on s').1 = (c.on s).1 ∧ (c.on s').2.cards = (c.on s).2.cards ∧
    SameCourse (c.on s).2 (c.on s').2 cs

/-- The store after `expire_leases` at `t`. -/
def InMemoryCardRuntime.sweptAt (s : InMemoryCardRuntime) (w : World) (t : Instant) :
    InMemoryCardRuntime :=
  (expireLeases.run (w.stopped t) ⟨s, 0, 0⟩).2.store

theorem KeyedCall.run_respects {w : World} {t now : Instant} (hnow : t ≤ now) (call : KeyedCall)
    (key : Option String) (hcall : call.isRelease = false) :
    Respects (InStride t) (w.stopped now) (call.run key) := by
  cases call with
  | createCard panel payload metadata =>
    exact (createCard_respects key panel payload metadata).bind fun _ => .pure _
  | claimCard pipe worker seconds =>
    exact (claimCard_respects hnow key pipe worker seconds).bind fun _ => .pure _
  | submitArtifact lease pipe refs =>
    exact (submitArtifact_respects hnow key lease pipe refs).bind fun _ => .pure _
  | renewLease lease seconds =>
    exact (renewLease_respects hnow key lease seconds).bind fun _ => .pure _
  | releaseLease lease actor => cases hcall
  | validateCard card validator accepted reason pipe payload =>
    exact (validateCard_respects key card validator accepted reason pipe payload).bind fun _ =>
      .pure _
  | moveCard card bucket actor reason =>
    exact (moveCard_respects key card bucket actor reason).bind fun _ => .pure _
  | recordEvent card type actor payload =>
    exact (recordEvent_respects key card type actor payload).bind fun _ => .pure _

theorem Swept.sameCourse {t : Instant} {later : List TimedCall}
    (hcalls : ∀ c ∈ later, c.call.isRelease = false) (hnow : ∀ c ∈ later, t ≤ c.now)
    {s s' : InMemoryCardRuntime} (h : Swept t s s') : SameCourse s s' later := by
  induction later generalizing s s' with
  | nil => trivial
  | cons c cs ih =>
    have hrespects : Respects (InStride t) (c.world.stopped c.now) (c.call.run c.idempotencyKey) :=
      c.call.run_respects (hnow c List.mem_cons_self) c.idempotencyKey
        (hcalls c List.mem_cons_self)
    have hstart : InStride t ⟨s, 0, 0⟩ ⟨s', 0, 0⟩ := ⟨h, rfl⟩
    obtain ⟨hsame, hafter⟩ := hrespects.observed hstart
    refine ⟨hsame.symm, hafter.store.cards, ?_⟩
    exact ih (fun x hx => hcalls x (List.mem_cons_of_mem _ hx))
      (fun x hx => hnow x (List.mem_cons_of_mem _ hx)) hafter.store

theorem InMemoryCardRuntime.swept_sweptAt {s : InMemoryCardRuntime} (hkeyed : WellKeyed s)
    (w : World) (t : Instant) : Swept t s (s.sweptAt w t) := by
  have hrun : expireLeases.run (w.stopped t) ⟨s, 0, 0⟩ = (_, _) := rfl
  refine (expireLeases_cases hrun).1.swept (fun l hl => ?_) (.refl s)
  exact Dict.get?_of_keyed (fun _ _ => hkeyed.leases) hl

/-- In every reached state a sweep at `t` makes no difference to later calls: each returns
the same or raises as well, claims pick the same cards, and every card is in the same bucket
after each call. -/
theorem sweep_neutral (w v : World) (calls : List RuntimeCall) (t : Instant)
    (later : List TimedCall) (hcalls : ∀ c ∈ later, c.call.isRelease = false)
    (hnow : ∀ c ∈ later, t ≤ c.now) :
    SameCourse (runCalls w calls).store ((runCalls w calls).store.sweptAt v t) later :=
  (swept_sweptAt (runCalls_wellKeyed w calls) v t).sameCourse hcalls hnow

/-- A card whose lease is over at the instant at which it was claimed. -/
def lapsedCalls : List RuntimeCall :=
  [.registerPatchPanel (PatchPanelValidator.linePanel "orders" "1"),
    .createCard "orders" [] none none, .claimCard "work_in" "w1" 0 none]

/-- The lease is renewed, in vain, and the card is claimed again. -/
def reclaimingCalls : List TimedCall :=
  [⟨.renewLease ⟨2⟩ 300, none, 10, .simple⟩, ⟨.claimCard "work_in" "w2" 300, none, 10, .simple⟩]

theorem sweep_neutral_reclaiming :
    ((runCalls .simple lapsedCalls).store.leases.get? ⟨2⟩).any (lapsedAt · 10) = true ∧
    SameCourse (runCalls .simple lapsedCalls).store
      ((runCalls .simple lapsedCalls).store.sweptAt .simple 10) reclaimingCalls :=
  ⟨by decide +kernel, sweep_neutral .simple .simple lapsedCalls 10 reclaimingCalls
    (by decide) (by decide)⟩

end GhostMesh
