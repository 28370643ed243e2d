import Mathlib.Algebra.GroupWithZero.Nat
import Mathlib.Data.List.Nodup
import Mathlib.Data.List.Perm.Subperm

/-!
# Insertion-ordered dictionaries

A `Dict` is an association list whose keys are pairwise different; the proof
travels with the list. Overwriting keeps the position of the key, a new key goes
to the end, so that the order of `values` is the order of first insertion.
-/

set_option autoImplicit false

universe u v

structure Dict (κ : Type u) (α : Type v) where
  entries : List (κ × α)
  nodup : (entries.map Prod.fst).Nodup

namespace Dict

variable {κ : Type u} {α : Type v}

def empty : Dict κ α := ⟨[], List.nodup_nil⟩

instance : Inhabited (Dict κ α) := ⟨empty⟩

def keys (d : Dict κ α) : List κ := d.entries.map Prod.fst

def values (d : Dict κ α) : List α := d.entries.map Prod.snd

def size (d : Dict κ α) : Nat := d.entries.length

section Lookup
variable [DecidableEq κ]

def lookupIn (k : κ) : List (κ × α) → Option α
  | [] => none
  | (k', a) :: rest => if k' = k then some a else lookupIn k rest

def get? (d : Dict κ α) (k : κ) : Option α := lookupIn k d.entries

def contains (d : Dict κ α) (k : κ) : Bool := (d.get? k).isSome

def insertIn (k : κ) (a : α) : List (κ × α) → List (κ × α)
  | [] => [(k, a)]
  | (k', a') :: rest => if k' = k then (k, a) :: rest else (k', a') :: insertIn k a rest

theorem mem_keys_insertIn (k x : κ) (a : α) (es : List (κ × α)) :
    x ∈ (insertIn k a es).map Prod.fst ↔ x = k ∨ x ∈ es.map Prod.fst := by
  induction es with
  | nil => simp [insertIn]
  | cons e rest ih =>
    obtain ⟨k', a'⟩ := e
    by_cases h : k' = k
    · subst h
      simp [insertIn]
    · simp only [insertIn, if_neg h, List.map_cons, List.mem_cons, ih]
      exact or_left_comm

theorem nodup_keys_insertIn (k : κ) (a : α) {es : List (κ × α)}
    (h : (es.map Prod.fst).Nodup) : ((insertIn k a es).map Prod.fst).Nodup := by
  induction es with
  | nil => simp [insertIn]
  | cons e rest ih =>
    obtain ⟨k', a'⟩ := e
    rw [List.map_cons, List.nodup_cons] at h
    by_cases hk : k' = k
    · subst hk
      simpa [insertIn] using h
    · simp only [insertIn, if_neg hk, List.map_cons, List.nodup_cons]
      refine ⟨?_, ih h.2⟩
      intro hm
      rcases (mem_keys_insertIn k k' a rest).mp hm with he | hr
      · exact hk he
      · exact h.1 hr

def set (d : Dict κ α) (k : κ) (a : α) : Dict κ α :=
  ⟨insertIn k a d.entries, nodup_keys_insertIn k a d.nodup⟩

theorem lookupIn_insertIn (k x : κ) (a : α) (es : List (κ × α)) :
    lookupIn x (insertIn k a es) = if x = k then some a else lookupIn x es := by
  induction es with
  | nil =>
    by_cases h : x = k
    · simp [insertIn, lookupIn, h]
    · simp [insertIn, lookupIn, h, Ne.symm h]
  | cons e rest ih =>
    obtain ⟨k', a'⟩ := e
    by_cases hk : k' = k
    · subst hk
      by_cases hx : x = k'
      · simp [insertIn, lookupIn, hx]
      · simp [insertIn, lookupIn, hx, Ne.symm hx]
    · simp only [insertIn, if_neg hk, lookupIn, ih]
      by_cases hx : x = k
      · subst hx
        simp [hk]
      · simp [hx]

/-- Change the value under a key; a dictionary without the key stays as it is. -/
def modify (d : Dict κ α) (k : κ) (f : α → α) : Dict κ α :=
  match d.get? k with
  | some a => d.set k (f a)
  | none => d

@[simp] theorem get?_empty (k : κ) : (empty : Dict κ α).get? k = none := rfl

@[simp] theorem get?_set_self (d : Dict κ α) (k : κ) (a : α) : (d.set k a).get? k = some a := by
  simp [get?, set, lookupIn_insertIn]

theorem get?_set (d : Dict κ α) (k x : κ) (a : α) :
    (d.set k a).get? x = if x = k then some a else d.get? x :=
  lookupIn_insertIn k x a d.entries

theorem get?_set_ne (d : Dict κ α) {k x : κ} (a : α) (h : x ≠ k) :
    (d.set k a).get? x = d.get? x := by
  simp [get?_set, h]

theorem insertIn_of_lookupIn {k : κ} {a : α} {es : List (κ × α)} (h : lookupIn k es = some a) :
    insertIn k a es = es := by
  induction es with
  | nil => cases h
  | cons e rest ih =>
    obtain ⟨k', a'⟩ := e
    by_cases hk : k' = k
    · subst hk
      simp only [lookupIn, if_true, Option.some.injEq] at h
      simp [insertIn, h]
    · simp only [lookupIn, if_neg hk] at h
      simp only [insertIn, if_neg hk, ih h]

/-- Writing what is there changes nothing. -/
theorem set_of_get? {d : Dict κ α} {k : κ} {a : α} (h : d.get? k = some a) : d.set k a = d := by
  unfold set
  congr 1
  exact insertIn_of_lookupIn h

theorem get?_modify (d : Dict κ α) (k x : κ) (f : α → α) :
    (d.modify k f).get? x = if x = k then (d.get? k).map f else d.get? x := by
  unfold modify
  cases hk : d.get? k with
  | some a => simp only [get?_set, Option.map_some]
  | none =>
    by_cases hx : x = k
    · rw [if_pos hx, hx, Option.map_none]
      exact hk
    · rw [if_neg hx]

theorem contains_set (d : Dict κ α) (k x : κ) (a : α) :
    (d.set k a).contains x = true ↔ x = k ∨ d.contains x = true := by
  unfold contains
  rw [get?_set]
  split
  · rename_i hk
    simp [hk]
  · rename_i hk
    simp [hk]

theorem contains_modify (d : Dict κ α) (k x : κ) (f : α → α) :
    (d.modify k f).contains x = d.contains x := by
  unfold contains
  rw [get?_modify]
  split
  · rename_i hx
    rw [hx, Option.isSome_map]
  · rfl

theorem contains_of_get? {d : Dict κ α} {k : κ} {a : α} (h : d.get? k = some a) :
    d.contains k = true := by
  rw [contains, h]
  rfl

theorem lookupIn_eq_some_iff {es : List (κ × α)} (h : (es.map Prod.fst).Nodup) (k : κ) (a : α) :
    lookupIn k es = some a ↔ (k, a) ∈ es := by
  induction es with
  | nil => simp [lookupIn]
  | cons e rest ih =>
    obtain ⟨k', a'⟩ := e
    rw [List.map_cons, List.nodup_cons] at h
    by_cases hk : k' = k
    · subst hk
      have hfresh : (k', a) ∉ rest := fun hm => h.1 (List.mem_map.mpr ⟨(k', a), hm, rfl⟩)
      simp [lookupIn, hfresh, eq_comm]
    · simp [lookupIn, hk, Ne.symm hk, ih h.2]

theorem get?_eq_some_iff (d : Dict κ α) (k : κ) (a : α) :
    d.get? k = some a ↔ (k, a) ∈ d.entries :=
  lookupIn_eq_some_iff d.nodup k a

theorem get?_eq_none_iff (d : Dict κ α) (k : κ) : d.get? k = none ↔ k ∉ d.keys := by
  constructor
  · intro h hk
    obtain ⟨⟨k', a⟩, hm, rfl⟩ := List.mem_map.mp hk
    have hs := (d.get?_eq_some_iff k' a).mpr hm
    simp [h] at hs
  · intro h
    cases hg : d.get? k with
    | none => rfl
    | some a => exact absurd (List.mem_map.mpr ⟨(k, a), (d.get?_eq_some_iff k a).mp hg, rfl⟩) h

theorem mem_values_iff (d : Dict κ α) (a : α) : a ∈ d.values ↔ ∃ k, d.get? k = some a := by
  simp [values, get?_eq_some_iff]

theorem mem_values_of_get? {d : Dict κ α} {k : κ} {a : α} (h : d.get? k = some a) :
    a ∈ d.values :=
  (d.mem_values_iff a).mpr ⟨k, h⟩

theorem forall_of_entries {P : κ → α → Prop} {d : Dict κ α} (h : ∀ e ∈ d.entries, P e.1 e.2) :
    ∀ k a, d.get? k = some a → P k a :=
  fun k a hget => h (k, a) ((get?_eq_some_iff d k a).mp hget)

/-- Values that know their keys are as different as these. -/
theorem map_values_of_keyed {f : α → κ} {d : Dict κ α} (h : ∀ k a, d.get? k = some a → f a = k) :
    d.values.map f = d.keys := by
  unfold values keys
  rw [List.map_map]
  exact List.map_congr_left fun e he => h e.1 e.2 ((d.get?_eq_some_iff e.1 e.2).mpr he)

/-- Records that hold their own key are stored once each. -/
theorem values_nodup_of_keyed {f : α → κ} {d : Dict κ α}
    (h : ∀ k a, d.get? k = some a → f a = k) : d.values.Nodup := by
  apply List.Nodup.of_map f
  rw [map_values_of_keyed h]
  exact d.nodup

theorem insertIn_of_new {k : κ} {a : α} {es : List (κ × α)} (h : lookupIn k es = none) :
    insertIn k a es = es ++ [(k, a)] := by
  induction es with
  | nil => rfl
  | cons e es ih =>
    obtain ⟨x, b⟩ := e
    simp only [lookupIn] at h
    split at h
    · cases h
    · rename_i hne
      simp only [insertIn, if_neg hne, ih h, List.cons_append]

/-- A new key comes last. -/
theorem values_set_of_new {d : Dict κ α} {k : κ} {a : α} (h : d.get? k = none) :
    (d.set k a).values = d.values ++ [a] := by
  change (insertIn k a d.entries).map Prod.snd = _
  rw [insertIn_of_new h, List.map_append]
  rfl

theorem keys_set_of_new {d : Dict κ α} {k : κ} {a : α} (h : d.get? k = none) :
    (d.set k a).keys = d.keys ++ [k] := by
  change (insertIn k a d.entries).map Prod.fst = _
  rw [insertIn_of_new h, List.map_append]
  rfl

theorem map_fst_insertIn {k : κ} {a b : α} {es : List (κ × α)} (h : lookupIn k es = some b) :
    (insertIn k a es).map Prod.fst = es.map Prod.fst := by
  induction es with
  | nil => cases h
  | cons e es ih =>
    obtain ⟨x, c⟩ := e
    simp only [lookupIn] at h
    split at h
    · rename_i heq
      subst heq
      simp only [insertIn, if_true, List.map_cons]
    · rename_i hne
      simp only [insertIn, if_neg hne, List.map_cons, ih h]

/-- Writing under a key that is there keeps the order of the keys. -/
theorem keys_set_of_get? {d : Dict κ α} {k : κ} {a b : α} (h : d.get? k = some b) :
    (d.set k a).keys = d.keys :=
  map_fst_insertIn h

/-- Two keys are two values. -/
theorem two_values {d : Dict κ α} {k k' : κ} (h : d.contains k = true) (h' : d.contains k' = true)
    (hne : k ≠ k') : 2 ≤ d.values.length := by
  have hmem : ∀ {x : κ}, d.contains x = true → x ∈ d.keys := by
    intro x hx
    by_contra hnot
    rw [contains, (get?_eq_none_iff d x).mpr hnot] at hx
    cases hx
  have hsub : [k, k'] ⊆ d.keys := by
    intro x hx
    rcases List.mem_cons.mp hx with rfl | hx
    · exact hmem h
    · rw [List.mem_singleton.mp hx]
      exact hmem h'
  have hlength := (List.subperm_of_subset (by simpa using hne) hsub).length_le
  simpa [keys, values] using hlength

/-- The entry under the key goes to the front. -/
def toFront (d : Dict κ α) (k : κ) : Dict κ α where
  entries := d.entries.filter (fun e => e.1 = k) ++ d.entries.filter (fun e => !decide (e.1 = k))
  nodup := ((List.filter_append_perm _ _).map _).nodup_iff.mpr d.nodup

@[simp] theorem get?_toFront (d : Dict κ α) (k x : κ) : (d.toFront k).get? x = d.get? x := by
  apply Option.ext
  intro a
  rw [get?_eq_some_iff, get?_eq_some_iff]
  exact (List.filter_append_perm _ _).mem_iff

theorem values_toFront {d : Dict κ α} {k : κ} {a : α} (h : d.get? k = some a) :
    ∃ rest, (d.toFront k).values = a :: rest := by
  have hmem : (k, a) ∈ d.entries.filter (fun e => e.1 = k) :=
    List.mem_filter.mpr ⟨(get?_eq_some_iff d k a).mp h, by simp⟩
  change ∃ rest, (d.entries.filter (fun e => e.1 = k) ++ _).map Prod.snd = a :: rest
  cases hfilter : d.entries.filter (fun e => e.1 = k) with
  | nil =>
    rw [hfilter] at hmem
    cases hmem
  | cons e es =>
    have he : e ∈ d.entries.filter (fun e => e.1 = k) := by
      rw [hfilter]
      exact List.mem_cons_self
    rw [List.mem_filter, decide_eq_true_eq] at he
    have hget : d.get? e.1 = some e.2 := (get?_eq_some_iff d e.1 e.2).mpr he.1
    rw [he.2, h] at hget
    exact ⟨_, by rw [List.cons_append, List.map_cons, ← Option.some.inj hget]⟩

/-- Values under their own keys are found there. -/
theorem get?_of_keyed {f : α → κ} {d : Dict κ α} (h : ∀ k a, d.get? k = some a → f a = k) {a : α}
    (ha : a ∈ d.values) : d.get? (f a) = some a := by
  obtain ⟨k, hk⟩ := (mem_values_iff d a).mp ha
  rw [h k a hk]
  exact hk

/-- Under their own keys the values are determined by their keys. -/
theorem eq_of_keyed {f : α → κ} {d : Dict κ α} (h : ∀ k a, d.get? k = some a → f a = k) {a b : α}
    (ha : a ∈ d.values) (hb : b ∈ d.values) (heq : f a = f b) : a = b := by
  have hget := get?_of_keyed h ha
  rw [heq, get?_of_keyed h hb] at hget
  exact (Option.some.inj hget).symm

/-- A property of every stored value survives a `set` to a value that has it. -/
theorem forall_values_set {P : κ → α → Prop} {d : Dict κ α} {k : κ} {a : α}
    (hd : ∀ x b, d.get? x = some b → P x b) (ha : P k a) :
    ∀ x b, (d.set k a).get? x = some b → P x b := by
  intro x b hx
  rw [get?_set] at hx
  split at hx
  · rename_i he
    subst he
    cases hx
    exact ha
  · exact hd x b hx

/-- After a series of writes, a key holds one of the written values or its old one. -/
theorem get?_foldl_set {es : List (κ × α)} {d : Dict κ α} {k : κ} {a : α}
    (h : (es.foldl (fun d e => d.set e.1 e.2) d).get? k = some a) :
    (k, a) ∈ es ∨ d.get? k = some a := by
  induction es generalizing d with
  | nil => exact .inr h
  | cons e es ih =>
    rcases ih h with hmem | hget
    · exact .inl (List.mem_cons_of_mem e hmem)
    · rw [get?_set] at hget
      split at hget
      · rename_i hk
        cases hget
        left
        rw [hk]
        exact List.mem_cons_self
      · exact .inr hget

/-- A key that was written, or held a value before, holds a value. -/
theorem isSome_foldl_set {es : List (κ × α)} {d : Dict κ α} {k : κ}
    (h : (∃ a, (k, a) ∈ es) ∨ (d.get? k).isSome = true) :
    ((es.foldl (fun d e => d.set e.1 e.2) d).get? k).isSome = true := by
  induction es generalizing d with
  | nil =>
    rcases h with ⟨a, ha⟩ | h
    · cases ha
    · exact h
  | cons e es ih =>
    apply ih
    by_cases hk : k = e.1
    · right
      rw [get?_set, if_pos hk]
      rfl
    · rcases h with ⟨a, ha⟩ | h
      · rcases List.mem_cons.mp ha with he | ha
        · exact absurd (congrArg Prod.fst he) hk
        · exact .inl ⟨a, ha⟩
      · right
        rw [get?_set_ne _ _ hk]
        exact h

/-- A sum over the values changes by what was added and what was overwritten. -/
theorem sum_map_values_set (f : α → Nat) (d : Dict κ α) (k : κ) (a : α) :
    ((d.set k a).values.map f).sum + ((d.get? k).map f).getD 0 = (d.values.map f).sum + f a := by
  have hin : ∀ es : List (κ × α), (((insertIn k a es).map Prod.snd).map f).sum +
      ((lookupIn k es).map f).getD 0 = ((es.map Prod.snd).map f).sum + f a := by
    intro es
    induction es with
    | nil => simp [insertIn, lookupIn]
    | cons e rest ih =>
      obtain ⟨k', a'⟩ := e
      by_cases hk : k' = k
      · simp only [insertIn, lookupIn, if_pos hk, List.map_cons, List.sum_cons, Option.map_some,
          Option.getD_some]
        omega
      · simp only [insertIn, lookupIn, if_neg hk, List.map_cons, List.sum_cons]
        omega
  exact hin d.entries

end Lookup

/-! ## Other values under the same keys -/

section MapValues
variable {β : Type v}

/-- The same keys in the same order, each with the image of its value. -/
def mapValues (f : α → β) (d : Dict κ α) : Dict κ β where
  entries := d.entries.map fun e => (e.1, f e.2)
  nodup := by
    rw [List.map_map]
    exact d.nodup

theorem values_mapValues (f : α → β) (d : Dict κ α) :
    (d.mapValues f).values = d.values.map f := by
  unfold values mapValues
  rw [List.map_map, List.map_map]
  rfl

variable [DecidableEq κ]

theorem lookupIn_map (f : α → β) (k : κ) (es : List (κ × α)) :
    lookupIn k (es.map fun e => (e.1, f e.2)) = (lookupIn k es).map f := by
  induction es with
  | nil => rfl
  | cons e rest ih =>
    rw [List.map_cons, lookupIn, lookupIn, ih]
    split <;> rfl

theorem insertIn_map (f : α → β) (k : κ) (a : α) (es : List (κ × α)) :
    insertIn k (f a) (es.map fun e => (e.1, f e.2)) =
      (insertIn k a es).map fun e => (e.1, f e.2) := by
  induction es with
  | nil => rfl
  | cons e rest ih =>
    rw [List.map_cons, insertIn, insertIn, ih]
    split <;> rfl

@[simp] theorem get?_mapValues (f : α → β) (d : Dict κ α) (k : κ) :
    (d.mapValues f).get? k = (d.get? k).map f :=
  lookupIn_map f k d.entries

@[simp] theorem contains_mapValues (f : α → β) (d : Dict κ α) (k : κ) :
    (d.mapValues f).contains k = d.contains k := by
  rw [contains, get?_mapValues, Option.isSome_map]
  rfl

theorem mapValues_set (f : α → β) (d : Dict κ α) (k : κ) (a : α) :
    (d.set k a).mapValues f = (d.mapValues f).set k (f a) := by
  unfold mapValues set
  congr 1
  exact (insertIn_map f k a d.entries).symm

theorem modify_of_get? {d : Dict κ α} {k : κ} {a : α} (f : α → α) (h : d.get? k = some a) :
    d.modify k f = d.set k (f a) := by
  simp only [modify, h]

end MapValues

end Dict
