import GhostMesh.Runtime.CardRecords
import GhostMesh.Runtime.Idempotency
import GhostMesh.Runtime.LeaseLife

/-!
# Leases under idempotency keys

A lease that answers a key is the lease as it was when the key was used. The lease table
may have renewed or closed it since, but it still has a lease with that id, for the card
that the answer names.
-/

set_option autoImplicit false

namespace GhostMesh

open InMemoryCardRuntime

/-- Every lease is still there, for the same card. -/
def LeasesKept (s s' : InMemoryCardRuntime) : Prop :=
  ∀ id l, s.leases.get? id = some l → ∃ l', s'.leases.get? id = some l' ∧ l'.cardId = l.cardId

namespace LeasesKept

variable {s s' s'' : InMemoryCardRuntime}

theorem of_eq (h : s'.leases = s.leases) : LeasesKept s s' := by
  intro id l hl
  rw [h]
  exact ⟨l, hl, rfl⟩

theorem trans (h : LeasesKept s s') (h' : LeasesKept s' s'') : LeasesKept s s'' := by
  intro id l hl
  obtain ⟨l', hl', hcard⟩ := h id l hl
  obtain ⟨l'', hl'', hcard'⟩ := h' id l' hl'
  exact ⟨l'', hl'', hcard'.trans hcard⟩

/-- One lease is written, under its id and for the card that it had there before. -/
theorem set {l : Lease} (h : s'.leases = s.leases.set l.id l)
    (hold : ∀ l₀, s.leases.get? l.id = some l₀ → l.cardId = l₀.cardId) : LeasesKept s s' := by
  intro id l₀ hl₀
  rw [h, Dict.get?_set]
  split
  · rename_i hid
    subst hid
    exact ⟨l, rfl, hold l₀ hl₀⟩
  · exact ⟨l₀, hl₀, rfl⟩

theorem closing {l : Lease} {t : Instant} {e : CardEvent} (h : Closing s s' l t e) :
    LeasesKept s s' := by
  refine set (l := { l with releasedAt := some t }) h.leases fun l₀ hl₀ => ?_
  change s.leases.get? l.id = some l₀ at hl₀
  rw [h.stored] at hl₀
  cases hl₀
  rfl

theorem lapses (h : Relation.ReflTransGen Lapses s s') : LeasesKept s s' := by
  induction h with
  | refl => exact of_eq rfl
  | tail _ hstep ih =>
    obtain ⟨l, t, e, hclosing, -⟩ := hstep
    exact ih.trans (closing hclosing)

end LeasesKept

/-- The lease that answers a key is still stored, for the same card. -/
def KeyedLeases (s : InMemoryCardRuntime) : Prop :=
  ∀ key v l, s.cached key = some v → v.lease? = some l →
    ∃ l', s.leases.get? l.id = some l' ∧ l'.cardId = l.cardId

section Steps
variable {w : World} {m m' : Machine InMemoryCardRuntime}

theorem Effect.leasesKept (hkeyed : WellKeyed m.store) (hdrawn : LeasesDrawn w m.draws m.store)
    (h : Effect w m m') : LeasesKept m.store m'.store := by
  cases h with
  | same h => exact .of_eq (by rw [h.store])
  | registers p _ _ h => exact .of_eq (by rw [h]; rfl)
  | creates h => exact .of_eq (by rw [h.store]; simp [created])
  | @claims _ _ _ l e h =>
    refine .set h.leases_eq fun l₀ hl₀ => ?_
    rw [h.unstored hdrawn] at hl₀
    cases hl₀
  | submits h => exact .closing (h.closing hkeyed)
  | @renews _ _ l t e h =>
    refine .set (l := { l with expiresAt := t }) h.leases_eq fun l₀ hl₀ => ?_
    rw [h.stored hkeyed] at hl₀
    cases hl₀
    rfl
  | releases h => exact .lapses (.single (h.lapses hkeyed))
  | expires h _ =>
    exact .lapses (h.lapses (fun l hl => hkeyed.lease_get? hl) hkeyed.leases_nodup)
  | validates h => exact .of_eq (by rw [h.store]; simp [validated])
  | moves h => exact .of_eq (by rw [h.store]; simp [moved])
  | records h => exact .of_eq (by rw [h.store]; simp)

/-- An answer that is a lease is an old one, or the lease that was just written. -/
theorem Effect.cached_lease (h : Effect w m m') {key : Option String} {v : Stored} {l : Lease}
    (hv : m'.store.cached key = some v) (hl : v.lease? = some l) :
    m.store.cached key = some v ∨ m'.store.leases.get? l.id = some l := by
  have hother : ∀ {v' : Stored} {s : InMemoryCardRuntime} {key' : Option String},
      (s.putKey key' v').cached key = some v → v'.lease? = none → s.cached key = some v := by
    intro v' s key' hcached hnone
    rcases cached_putKey_cases hcached with hold | rfl
    · exact hold
    · rw [hnone] at hl
      cases hl
  have hwritten : ∀ {l' : Lease} {s : InMemoryCardRuntime} {key' : Option String},
      (s.putKey key' (.lease l')).cached key = some v →
      m'.store.leases = m.store.leases.set l'.id l' →
      s.cached key = some v ∨ m'.store.leases.get? l.id = some l := by
    intro l' s key' hcached hleases
    rcases cached_putKey_cases hcached with hold | rfl
    · exact .inl hold
    · cases hl
      rw [hleases]
      exact .inr (Dict.get?_set_self _ _ _)
  cases h with
  | same h =>
    rw [h.store] at hv
    exact .inl hv
  | registers p _ _ h =>
    rw [h] at hv
    exact .inl hv
  | creates h =>
    rw [h.store] at hv
    have hold := hother hv rfl
    exact .inl hold
  | @claims _ _ _ l' e h =>
    rw [h.store] at hv
    have hnew := hwritten hv h.leases_eq
    exact hnew
  | submits h =>
    rw [h.store] at hv
    have hold := hother hv rfl
    exact .inl hold
  | @renews _ _ l' t e h =>
    rw [h.store] at hv
    have hnew := hwritten hv h.leases_eq
    exact hnew
  | @releases _ _ _ l' t e h =>
    have hleases : m'.store.leases = m.store.leases.set l'.id { l' with releasedAt := some t } := by
      rw [h.store]
      simp [released]
    rw [h.store] at hv
    have hnew := hwritten hv hleases
    exact hnew
  | expires h _ =>
    rw [cached_expires h] at hv
    exact .inl hv
  | validates h =>
    rw [h.store] at hv
    have hold := hother hv rfl
    rw [cached_putEvent, cached_routeCard] at hold
    exact .inl hold
  | moves h =>
    rw [h.store] at hv
    have hold := hother hv rfl
    exact .inl hold
  | records h =>
    rw [h.store] at hv
    have hold := hother hv rfl
    exact .inl hold

/-- What the answers of a run rest on. -/
structure LeaseAnswers (w : World) (m : Machine InMemoryCardRuntime) : Prop where
  keyed : WellKeyed m.store
  drawn : LeasesDrawn w m.draws m.store
  issued : Issued w m
  answers : KeyedLeases m.store

theorem LeaseAnswers.start (w : World) : LeaseAnswers w InMemoryCardRuntime.start where
  keyed := WellKeyed.init
  drawn a l h := by simp [InMemoryCardRuntime.start, InMemoryCardRuntime.init] at h
  issued := Issued.start w
  answers key v l h := by
    cases hkey : truthyStr key <;>
      simp [InMemoryCardRuntime.start, InMemoryCardRuntime.init, cached, hkey] at h

theorem LeaseAnswers.effect (hm : LeaseAnswers w m) (h : Effect w m m') : LeaseAnswers w m' where
  keyed := hm.keyed.effect h
  drawn := hm.drawn.effect hm.keyed h
  issued := Issued.effect hm.keyed hm.issued h
  answers key v l hv hl := by
    rcases h.cached_lease hv hl with hold | hstored
    · obtain ⟨l', hl', hcard⟩ := hm.answers key v l hold hl
      obtain ⟨l'', hl'', hcard'⟩ := h.leasesKept hm.keyed hm.drawn l.id l' hl'
      exact ⟨l'', hl'', hcard'.trans hcard⟩
    · exact ⟨l, hstored, rfl⟩

/-- The run lemma. -/
theorem LeaseAnswers.run (hm : LeaseAnswers w m) (calls : List RuntimeCall) :
    LeaseAnswers w (calls.foldl (RuntimeCall.step w) m) := by
  induction calls generalizing m with
  | nil => exact hm
  | cons call calls ih => exact ih (hm.effect (call.step_effect w m))

end Steps

theorem runCalls_leaseAnswers (w : World) (calls : List RuntimeCall) :
    LeaseAnswers w (runCalls w calls) := (LeaseAnswers.start w).run calls

end GhostMesh
