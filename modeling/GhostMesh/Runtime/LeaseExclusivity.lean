import Mathlib
import GhostMesh.Runtime.Calls

/-!
# Lease exclusivity

No card has two leases that are active together, now or later. The invariant
speaks about every instant from the last clock reading on, because a lease that
is inactive at a reading stays inactive until it is renewed, and only an active
lease can be renewed.
-/

set_option autoImplicit false

namespace GhostMesh

open InMemoryCardRuntime Op

theorem Lease.activeAt_anti {l : Lease} {t t' : Instant} (h : t ≤ t')
    (hact : l.activeAt t' = true) : l.activeAt t = true := by
  simp only [Lease.activeAt, Bool.and_eq_true, decide_eq_true_eq] at hact ⊢
  exact ⟨hact.1, lt_of_le_of_lt h hact.2⟩

theorem Lease.activeAt_released {l : Lease} {t : Instant} {r : Instant}
    (h : l.releasedAt = some r) : l.activeAt t = false := by
  simp [Lease.activeAt, h]

theorem Lease.unreleased_of_activeAt {l : Lease} {t : Instant} (h : l.activeAt t = true) :
    l.releasedAt = none := by
  simp only [Lease.activeAt, Bool.and_eq_true, Option.isNone_iff_eq_none] at h
  exact h.1

/-- At most one lease of each card is active at `t`. -/
def Exclusive (s : InMemoryCardRuntime) (t : Instant) : Prop :=
  ∀ (a b : Uuid) (l₁ l₂ : Lease), s.leases.get? a = some l₁ → s.leases.get? b = some l₂ →
    l₁.cardId = l₂.cardId → l₁.activeAt t = true → l₂.activeAt t = true → a = b

namespace Exclusive

variable {s s' : InMemoryCardRuntime} {t : Instant}

theorem of_leases_eq (h : s'.leases = s.leases) (hs : Exclusive s t) : Exclusive s' t := by
  intro a b l₁ l₂
  rw [h]
  exact hs a b l₁ l₂

/-- A lease may be written when, if it is active, no other lease of its card is. -/
theorem putLease {l : Lease} (hs : Exclusive s t)
    (hfree : l.activeAt t = true → ∀ b l', s.leases.get? b = some l' → b ≠ l.id →
      l'.cardId = l.cardId → l'.activeAt t = false) : Exclusive (s.putLease l) t := by
  intro a b l₁ l₂ h1 h2 hcard hact1 hact2
  rw [putLease_leases, Dict.get?_set] at h1 h2
  split at h1 <;> split at h2
  · rename_i ha hb
    rw [ha, hb]
  · rename_i ha hb
    cases h1
    rw [hfree hact1 b l₂ h2 hb hcard.symm] at hact2
    cases hact2
  · rename_i ha hb
    cases h2
    rw [hfree hact2 a l₁ h1 ha hcard] at hact1
    cases hact1
  · exact hs a b l₁ l₂ h1 h2 hcard hact1 hact2

theorem released {l : Lease} {r : Instant} {e : CardEvent} (hs : Exclusive s t) :
    Exclusive (s.released l r e) t := by
  refine of_leases_eq rfl (putLease (l := { l with releasedAt := some r }) hs ?_)
  intro hact
  rw [Lease.activeAt_released rfl] at hact
  cases hact

theorem expires {r : Instant} {ls : List Lease} (h : Expires r ls s s') (hs : Exclusive s t) :
    Exclusive s' t :=
  h.invariant (P := fun s => Exclusive s t) (fun _ _ _ _ hs => hs.released) hs

end Exclusive

/-- `t` is not before any reading that the run has made. -/
def FromNowOn (w : World) (m : Machine InMemoryCardRuntime) (t : Instant) : Prop :=
  ∀ i, i < m.ticks → w.clock i ≤ t

theorem FromNowOn.of_later {w : World} {m m' : Machine InMemoryCardRuntime} {t : Instant}
    (h : Later m m') (ht : FromNowOn w m' t) : FromNowOn w m t :=
  fun i hi => ht i (Nat.lt_of_lt_of_le hi h.ticks)

/-- The reading that a call makes first is not before the readings of earlier calls. -/
theorem FromNowOn.first {w : World} {m : Machine InMemoryCardRuntime}
    (hclock : Monotone w.clock) :
    FromNowOn w m (w.clock m.ticks) :=
  fun _ hi => hclock (Nat.le_of_lt hi)

def LeaseExclusive (w : World) (m : Machine InMemoryCardRuntime) : Prop :=
  ∀ t, FromNowOn w m t → Exclusive m.store t

section Step
variable {w : World} {m m' : Machine InMemoryCardRuntime}

/-- A claim saw no active lease on its card at one of its own readings. -/
theorem claims_exclusive {pipe worker : String} {key : Option String} {l : Lease} {e : CardEvent}
    (h : Claims w m m' pipe worker key l e) (hm : LeaseExclusive w m) : LeaseExclusive w m' := by
  intro t ht
  obtain ⟨p, bucket, c, i, -, -, -, hi, hclaim, hcard, -⟩ := h.target
  have hs : Exclusive m.store t := hm t (ht.of_later h.later)
  have hput : Exclusive (m.store.putLease l) t := by
    refine hs.putLease ?_
    intro _ b l' hl' _ hsame
    have hinactive := hclaim.free l' (Dict.mem_values_of_get? hl') (hsame.trans hcard.symm)
    by_contra hact
    have := Lease.activeAt_anti (ht i hi) (eq_true_of_ne_false hact)
    rw [hinactive] at this
    cases this
  refine hput.of_leases_eq ?_
  rw [h.store]
  simp [claimed]

/-- A renewal keeps exclusivity because the renewed lease was active when it was
checked: the others were inactive then, and the clock has not gone back since. -/
theorem renews_exclusive (hclock : Monotone w.clock) {lease : Uuid} {key : Option String}
    {l : Lease} {r : Instant} {e : CardEvent} (h : Renews w m m' lease key l r e)
    (hkeyed : WellKeyed m.store) (hm : LeaseExclusive w m) : LeaseExclusive w m' := by
  intro t ht
  have hnow : FromNowOn w m (w.clock m.ticks) := .first hclock
  have hs : Exclusive m.store t := hm t (ht.of_later h.later)
  have hput : Exclusive (m.store.putLease { l with expiresAt := r }) t := by
    refine hs.putLease ?_
    intro _ b l' hl' hne hsame
    by_contra hact
    have hact' : l'.activeAt (w.clock m.ticks) = true :=
      Lease.activeAt_anti (ht _ h.active.1) (eq_true_of_ne_false hact)
    have hb : b = lease := hm _ hnow b lease l' l hl' h.lease hsame hact' h.active.2
    exact hne (hb.trans (hkeyed.leases h.lease).symm)
  refine hput.of_leases_eq ?_
  rw [h.store]
  simp [renewed]

theorem submits_exclusive {lease : Uuid} {pipe : String} {refs : List ArtifactReference}
    {key : Option String} {l : Lease} {c : Card} {d : String} {r : Instant} {e : CardEvent}
    (h : Submits w m m' lease pipe refs key l c d r e) (hm : LeaseExclusive w m) :
    LeaseExclusive w m' := by
  intro t ht
  have hs : Exclusive m.store t := hm t (ht.of_later h.later)
  have hreleased : Exclusive (m.store.released l r e) t := hs.released
  refine hreleased.of_leases_eq ?_
  rw [h.store]
  simp [submitted, InMemoryCardRuntime.released]

theorem LeaseExclusive.of_leases_eq (hm : LeaseExclusive w m) (hlater : Later m m')
    (h : m'.store.leases = m.store.leases) : LeaseExclusive w m' :=
  fun t ht => (hm t (ht.of_later hlater)).of_leases_eq h

theorem LeaseExclusive.effect (hclock : Monotone w.clock) (hkeyed : WellKeyed m.store)
    (hm : LeaseExclusive w m) (h : Effect w m m') : LeaseExclusive w m' := by
  have hlater := h.later
  cases h with
  | claims h => exact claims_exclusive h hm
  | renews h => exact renews_exclusive hclock h hkeyed hm
  | submits h => exact submits_exclusive h hm
  | releases h =>
    intro t ht
    have hs : Exclusive m.store t := hm t (ht.of_later hlater)
    rw [h.store]
    exact Exclusive.of_leases_eq (putKey_leases _ _ _) hs.released
  | expires h _ => exact fun t ht => Exclusive.expires h (hm t (ht.of_later hlater))
  | same h => exact hm.of_leases_eq hlater (by rw [h.store])
  | registers p _ _ h => exact hm.of_leases_eq hlater (by rw [h]; rfl)
  | creates h => exact hm.of_leases_eq hlater (by rw [h.store]; simp [created])
  | validates h => exact hm.of_leases_eq hlater (by rw [h.store]; simp [validated])
  | moves h => exact hm.of_leases_eq hlater (by rw [h.store]; simp [moved])
  | records h => exact hm.of_leases_eq hlater (by rw [h.store]; simp)

end Step

theorem runCalls_leaseExclusive (w : World) (hclock : Monotone w.clock)
    (calls : List RuntimeCall) : LeaseExclusive w (runCalls w calls) := by
  have hboth := runCalls_invariant (w := w)
    (I := fun m => WellKeyed m.store ∧ LeaseExclusive w m)
    ⟨WellKeyed.init, fun t _ a b l₁ l₂ h => by simp [start, InMemoryCardRuntime.init] at h⟩
    (fun m m' hm h => ⟨hm.1.effect h, hm.2.effect hclock hm.1 h⟩) calls
  exact hboth.2

/-- In every run with a clock that does not go back, from the current instant on a
card has at most one active lease, and so at most one of its leases passes the
check that precedes a submission or a renewal. -/
theorem at_most_one_active_lease (w : World) (hclock : Monotone w.clock)
    (calls : List RuntimeCall) {a b : Uuid} {l₁ l₂ : Lease}
    (h1 : (runCalls w calls).store.leases.get? a = some l₁)
    (h2 : (runCalls w calls).store.leases.get? b = some l₂) (hcard : l₁.cardId = l₂.cardId) :
    (∀ t, (∀ i, i < (runCalls w calls).ticks → w.clock i ≤ t) →
      l₁.activeAt t = true → l₂.activeAt t = true → a = b) ∧
    (∀ i, (runCalls w calls).ticks ≤ i → ∀ draws : Nat,
      ((ensureActiveLease l₁).run w ⟨(runCalls w calls).store, i, draws⟩).1 = .ok () →
      ((ensureActiveLease l₂).run w ⟨(runCalls w calls).store, i, draws⟩).1 = .ok () →
      a = b) := by
  have hexcl := runCalls_leaseExclusive w hclock calls
  refine ⟨fun t ht => hexcl t ht a b l₁ l₂ h1 h2 hcard, ?_⟩
  intro i hi draws hp1 hp2
  have hnow : FromNowOn w (runCalls w calls) (w.clock i) :=
    fun j hj => hclock (Nat.le_trans (Nat.le_of_lt hj) hi)
  have hact1 := (ensureActiveLease_cases (l := l₁) (Prod.ext hp1 rfl)).2 rfl
  have hact2 := (ensureActiveLease_cases (l := l₂) (Prod.ext hp2 rfl)).2 rfl
  exact hexcl _ hnow a b l₁ l₂ h1 h2 hcard hact1.2 hact2.2

/-- A card claimed, released and claimed again: two leases, one of them active. -/
def reclaimCalls : List RuntimeCall :=
  [.registerPatchPanel (PatchPanelValidator.linePanel "orders" "1"),
    .createCard "orders" [] none none, .claimCard "work_in" "w1" 300 none,
    .releaseLease ⟨2⟩ none none, .claimCard "work_in" "w2" 300 none]

theorem at_most_one_active_lease_reclaim :
    ∃ l₁ l₂, (runCalls .simple reclaimCalls).store.leases.get? ⟨2⟩ = some l₁ ∧
      (runCalls .simple reclaimCalls).store.leases.get? ⟨5⟩ = some l₂ ∧
      l₁.cardId = l₂.cardId ∧ l₂.activeAt 20 = true ∧
      ((∀ t, (∀ i, i < (runCalls .simple reclaimCalls).ticks → World.simple.clock i ≤ t) →
        l₁.activeAt t = true → l₂.activeAt t = true → (⟨2⟩ : Uuid) = ⟨5⟩) ∧
      (∀ i, (runCalls .simple reclaimCalls).ticks ≤ i → ∀ draws : Nat,
        ((ensureActiveLease l₁).run .simple ⟨(runCalls .simple reclaimCalls).store, i, draws⟩).1 =
          .ok () →
        ((ensureActiveLease l₂).run .simple ⟨(runCalls .simple reclaimCalls).store, i, draws⟩).1 =
          .ok () →
        (⟨2⟩ : Uuid) = ⟨5⟩)) := by
  have h1 : (runCalls .simple reclaimCalls).store.leases.get? ⟨2⟩ =
      some ⟨⟨2⟩, ⟨0⟩, "work", "w1", "work_in", 4, 300000003, some 6⟩ := by decide +kernel
  have h2 : (runCalls .simple reclaimCalls).store.leases.get? ⟨5⟩ =
      some ⟨⟨5⟩, ⟨0⟩, "work", "w2", "work_in", 10, 300000009, none⟩ := by decide +kernel
  exact ⟨_, _, h1, h2, rfl, by decide +kernel,
    at_most_one_active_lease .simple (fun _ _ h => Int.ofNat_le.mpr h) reclaimCalls h1 h2 rfl⟩

end GhostMesh
