import GhostMesh.Lib.Dict

/-!
# Records under a second key

A store of records and an index from a second key of the records to the key they are
stored under, written together. No two records have the same second key.
-/

set_option autoImplicit false

universe u v w

namespace Dict

variable {κ : Type u} {α : Type v} {ι : Type w} [DecidableEq κ] [DecidableEq ι]
  {f : α → ι} {d : Dict κ α} {index : Dict ι κ}

/-- The index leads to exactly the records that are stored. -/
def IndexedBy (f : α → ι) (d : Dict κ α) (index : Dict ι κ) : Prop :=
  ∀ i k, index.get? i = some k ↔ ∃ a, d.get? k = some a ∧ f a = i

theorem IndexedBy.empty : IndexedBy f (Dict.empty : Dict κ α) Dict.empty := by
  intro i k
  constructor
  · intro h
    cases h
  · rintro ⟨a, ha, -⟩
    cases ha

theorem IndexedBy.stored (h : IndexedBy f d index) {i : ι} {k : κ} (hi : index.get? i = some k) :
    ∃ a, d.get? k = some a ∧ f a = i := (h i k).mp hi

theorem IndexedBy.found (h : IndexedBy f d index) {k : κ} {a : α} (ha : d.get? k = some a) :
    index.get? (f a) = some k := (h (f a) k).mpr ⟨a, ha, rfl⟩

/-- Records with the same second key are stored under the same key. -/
theorem IndexedBy.injective (h : IndexedBy f d index) {k k' : κ} {a a' : α}
    (ha : d.get? k = some a) (ha' : d.get? k' = some a') (hf : f a = f a') : k = k' := by
  have hfound := h.found ha
  rw [hf, h.found ha'] at hfound
  exact (Option.some.inj hfound).symm

/-- A record whose keys are both new. -/
theorem IndexedBy.insert (h : IndexedBy f d index) {k : κ} {a : α} (hk : d.get? k = none)
    (hi : index.get? (f a) = none) : IndexedBy f (d.set k a) (index.set (f a) k) := by
  intro i k'
  rw [get?_set, get?_set]
  by_cases hsame : i = f a
  · rw [if_pos hsame]
    constructor
    · intro hk'
      cases hk'
      exact ⟨a, if_pos rfl, hsame.symm⟩
    · rintro ⟨b, hb, hbi⟩
      split at hb
      · rename_i hkey
        rw [hkey]
      · have hfound := h.found hb
        rw [hbi, hsame, hi] at hfound
        cases hfound
  · rw [if_neg hsame, h i k']
    constructor
    · rintro ⟨b, hb, hbi⟩
      refine ⟨b, ?_, hbi⟩
      rw [if_neg]
      · exact hb
      · rintro rfl
        rw [hk] at hb
        cases hb
    · rintro ⟨b, hb, hbi⟩
      split at hb
      · cases hb
        exact absurd hbi.symm hsame
      · exact ⟨b, hb, hbi⟩

/-- A record that is written again with the same second key. -/
theorem IndexedBy.replace (h : IndexedBy f d index) {k : κ} {old new : α}
    (hold : d.get? k = some old) (hf : f new = f old) : IndexedBy f (d.set k new) index := by
  intro i k'
  rw [h i k', get?_set]
  by_cases hkey : k' = k
  · rw [if_pos hkey, hkey, hold]
    constructor
    · rintro ⟨b, hb, hbi⟩
      cases hb
      exact ⟨new, rfl, hf.trans hbi⟩
    · rintro ⟨b, hb, hbi⟩
      cases hb
      exact ⟨old, rfl, hf.symm.trans hbi⟩
  · rw [if_neg hkey]

end Dict
