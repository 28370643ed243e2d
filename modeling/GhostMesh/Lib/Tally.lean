import GhostMesh.Lib.Dict

/-!
# Counting and grouping

Dictionaries that are filled one element after the other. What they say of a key is what
a filter of the elements would say, and together they account for every element once.
-/

set_option autoImplicit false

universe u v w

namespace Dict

variable {κ : Type u} {α : Type v} {β : Type w} [DecidableEq κ]

/-- `d[k] += 1` on a `Counter`. -/
def bump (d : Dict κ Nat) (k : κ) : Dict κ Nat := d.set k ((d.get? k).getD 0 + 1)

/-- `Counter(ks)`. -/
def tally (ks : List κ) : Dict κ Nat := ks.foldl bump empty

/-- `d[k].append(a)` on a `defaultdict(list)`. -/
def append (d : Dict κ (List α)) (k : κ) (a : α) : Dict κ (List α) :=
  d.set k ((d.get? k).getD [] ++ [a])

def groupBy (key : α → κ) (as : List α) : Dict κ (List α) :=
  as.foldl (fun d a => d.append (key a) a) empty

/-- `{k: f(a) for k, a in sorted(d.items(), key=...)}`. -/
def mapSorted (le : κ → κ → Bool) (f : α → β) (d : Dict κ α) : Dict κ β where
  entries := (d.entries.mergeSort fun x y => le x.1 y.1).map fun e => (e.1, f e.2)
  nodup := by
    rw [List.map_map]
    exact ((List.mergeSort_perm d.entries _).map Prod.fst).nodup_iff.mpr d.nodup

/-! ## Counting -/

theorem get?_bump (d : Dict κ Nat) (k x : κ) :
    ((d.bump k).get? x).getD 0 = (d.get? x).getD 0 + if x = k then 1 else 0 := by
  unfold bump
  rw [get?_set]
  split
  · rename_i hx
    rw [hx]
    rfl
  · rfl

theorem get?_foldl_bump (ks : List κ) (d : Dict κ Nat) (x : κ) :
    ((ks.foldl bump d).get? x).getD 0 = (d.get? x).getD 0 + ks.countP (fun k => x = k) := by
  induction ks generalizing d with
  | nil => rfl
  | cons k ks ih =>
    rw [List.foldl_cons, ih, get?_bump, List.countP_cons]
    simp only [decide_eq_true_eq]
    omega

theorem get?_tally (ks : List κ) (x : κ) :
    ((tally ks).get? x).getD 0 = ks.countP (fun k => x = k) := by
  rw [tally, get?_foldl_bump]
  exact Nat.zero_add _

/-! ## Grouping -/

theorem get?_append (d : Dict κ (List α)) (k x : κ) (a : α) :
    ((d.append k a).get? x).getD [] =
      (d.get? x).getD [] ++ if x = k then [a] else [] := by
  unfold append
  rw [get?_set]
  split
  · rename_i hx
    rw [hx]
    rfl
  · rw [List.append_nil]

theorem get?_groupBy (key : α → κ) (as : List α) (x : κ) :
    ((groupBy key as).get? x).getD [] = as.filter (fun a => x = key a) := by
  have hfold : ∀ d : Dict κ (List α),
      ((as.foldl (fun d a => d.append (key a) a) d).get? x).getD [] =
        (d.get? x).getD [] ++ as.filter (fun a => x = key a) := by
    induction as with
    | nil => exact fun d => (List.append_nil _).symm
    | cons a as ih =>
      intro d
      rw [List.foldl_cons, ih, get?_append, List.append_assoc, List.filter_cons]
      by_cases hx : x = key a <;> simp [hx]
  exact (hfold empty).trans (List.nil_append _)

theorem sum_length_append (d : Dict κ (List α)) (k : κ) (a : α) :
    ((d.append k a).values.map List.length).sum = (d.values.map List.length).sum + 1 := by
  have hset := sum_map_values_set List.length d k ((d.get? k).getD [] ++ [a])
  rw [List.length_append, List.length_singleton] at hset
  have hold : ((d.get? k).map List.length).getD 0 = ((d.get? k).getD []).length := by
    cases d.get? k <;> rfl
  unfold append
  omega

/-- Every element is in one group. -/
theorem sum_length_groupBy (key : α → κ) (as : List α) :
    ((groupBy key as).values.map List.length).sum = as.length := by
  have hfold : ∀ d : Dict κ (List α),
      ((as.foldl (fun d a => d.append (key a) a) d).values.map List.length).sum =
        (d.values.map List.length).sum + as.length := by
    induction as with
    | nil => exact fun d => rfl
    | cons a as ih =>
      intro d
      rw [List.foldl_cons, ih, sum_length_append, List.length_cons]
      omega
  exact (hfold empty).trans (Nat.zero_add _)

/-! ## Sorted views -/

theorem get?_mapSorted (le : κ → κ → Bool) (f : α → β) (d : Dict κ α) (k : κ) :
    (d.mapSorted le f).get? k = (d.get? k).map f := by
  have hmem : ∀ b, (d.mapSorted le f).get? k = some b ↔ (d.get? k).map f = some b := by
    intro b
    rw [get?_eq_some_iff, Option.map_eq_some_iff]
    simp only [mapSorted, List.mem_map, Prod.mk.injEq, List.mem_mergeSort]
    constructor
    · rintro ⟨⟨x, a⟩, hxa, rfl, rfl⟩
      exact ⟨a, (get?_eq_some_iff d x a).mpr hxa, rfl⟩
    · rintro ⟨a, ha, rfl⟩
      exact ⟨(k, a), (get?_eq_some_iff d k a).mp ha, rfl, rfl⟩
  exact Option.ext fun b => hmem b

omit [DecidableEq κ] in
theorem values_mapSorted (le : κ → κ → Bool) (f : α → β) (d : Dict κ α) :
    (d.mapSorted le f).values.Perm (d.values.map f) := by
  have hperm := (List.mergeSort_perm d.entries fun x y => le x.1 y.1).map fun e => f e.2
  simpa only [values, mapSorted, List.map_map, Function.comp_def] using hperm

/-! ## Sums over the values -/

omit [DecidableEq κ] in
theorem countP_or {p q : α → Bool} (hdisjoint : ∀ a, p a = true → q a = false) (as : List α) :
    as.countP (fun a => p a || q a) = as.countP p + as.countP q := by
  induction as with
  | nil => rfl
  | cons a as ih =>
    rw [List.countP_cons, List.countP_cons, List.countP_cons, ih]
    cases hp : p a with
    | false =>
      simp only [Bool.false_or, Bool.false_eq_true, if_false]
      omega
    | true =>
      simp only [hdisjoint a hp, Bool.or_false, Bool.false_eq_true, if_true, if_false]
      omega

/-- Counting by different keys adds up. -/
theorem sum_countP_keys (key : α → κ) (as : List α) {ks : List κ} (hks : ks.Nodup) :
    (ks.map fun k => as.countP fun a => k = key a).sum = as.countP fun a => key a ∈ ks := by
  induction ks with
  | nil => simp
  | cons k ks ih =>
    obtain ⟨hk, hks⟩ := List.nodup_cons.mp hks
    have hsplit : as.countP (fun a => key a ∈ k :: ks) =
        as.countP fun a => decide (k = key a) || decide (key a ∈ ks) := by
      congr 1
      funext a
      simp only [List.mem_cons, Bool.decide_or, eq_comm]
    rw [List.map_cons, List.sum_cons, ih hks, hsplit, countP_or]
    intro a ha
    have hka : k = key a := of_decide_eq_true ha
    exact decide_eq_false (hka ▸ hk)

theorem sum_map_values_set_of_new (f : α → Nat) {d : Dict κ α} {k : κ} (a : α)
    (h : d.get? k = none) :
    ((d.set k a).values.map f).sum = (d.values.map f).sum + f a := by
  have hset := sum_map_values_set f d k a
  rw [h] at hset
  exact hset

theorem sum_map_values_set_of_get? (f : α → Nat) {d : Dict κ α} {k : κ} (a : α) {b : α}
    (h : d.get? k = some b) :
    ((d.set k a).values.map f).sum + f b = (d.values.map f).sum + f a := by
  have hset := sum_map_values_set f d k a
  rw [h] at hset
  exact hset

omit [DecidableEq κ] in
theorem countP_eq_sum (p : α → Bool) (as : List α) :
    as.countP p = (as.map fun a => if p a then 1 else 0).sum := by
  induction as with
  | nil => rfl
  | cons a as ih =>
    rw [List.countP_cons, ih, List.map_cons, List.sum_cons, Nat.add_comm]

theorem countP_values_set_of_new (p : α → Bool) {d : Dict κ α} {k : κ} (a : α)
    (h : d.get? k = none) :
    (d.set k a).values.countP p = d.values.countP p + if p a then 1 else 0 := by
  rw [countP_eq_sum, countP_eq_sum]
  exact sum_map_values_set_of_new _ a h

theorem countP_values_set_of_get? (p : α → Bool) {d : Dict κ α} {k : κ} (a : α) {b : α}
    (h : d.get? k = some b) :
    (d.set k a).values.countP p + (if p b then 1 else 0) =
      d.values.countP p + if p a then 1 else 0 := by
  rw [countP_eq_sum, countP_eq_sum]
  exact sum_map_values_set_of_get? _ a h

omit [DecidableEq κ] in
theorem length_keys (d : Dict κ α) : d.keys.length = d.values.length := by
  rw [keys, values, List.length_map, List.length_map]

theorem keys_set (d : Dict κ α) (k : κ) (a : α) :
    (d.set k a).keys = if k ∈ d.keys then d.keys else d.keys ++ [k] := by
  split
  · rename_i hk
    cases hget : d.get? k with
    | none => exact absurd hk ((get?_eq_none_iff d k).mp hget)
    | some b => exact keys_set_of_get? hget
  · rename_i hk
    exact keys_set_of_new ((get?_eq_none_iff d k).mpr hk)

theorem keys_modify (d : Dict κ α) (k : κ) (f : α → α) : (d.modify k f).keys = d.keys := by
  unfold modify
  cases hget : d.get? k with
  | none => rfl
  | some b => exact keys_set_of_get? hget

theorem length_values_set_of_get? {d : Dict κ α} {k : κ} (a : α) {b : α}
    (h : d.get? k = some b) : (d.set k a).values.length = d.values.length := by
  rw [← length_keys, keys_set_of_get? h, length_keys]

/-- A sum over the values may be taken over any keys that miss no value that counts. -/
theorem sum_map_values_eq (f : Option α → Nat) (hnone : f none = 0) {d : Dict κ α} {ks : List κ}
    (hks : ks.Nodup) (hmiss : ∀ k, f (d.get? k) ≠ 0 → k ∈ ks) :
    (d.values.map fun a => f (some a)).sum = (ks.map fun k => f (d.get? k)).sum := by
  have hvalues : (d.values.map fun a => f (some a)) = d.keys.map fun k => f (d.get? k) := by
    simp only [values, keys, List.map_map]
    apply List.map_congr_left
    rintro ⟨k, a⟩ hmem
    exact congrArg f ((get?_eq_some_iff d k a).mpr hmem).symm
  have hfilter : ∀ xs : List κ, (xs.map fun k => f (d.get? k)).sum =
      ((xs.filter fun k => f (d.get? k) ≠ 0).map fun k => f (d.get? k)).sum := by
    intro xs
    induction xs with
    | nil => rfl
    | cons x xs ih =>
      by_cases hx : f (d.get? x) = 0 <;> simp [hx, ih]
  have hperm : (d.keys.filter fun k => f (d.get? k) ≠ 0).Perm
      (ks.filter fun k => f (d.get? k) ≠ 0) := by
    apply (List.perm_ext_iff_of_nodup (d.nodup.filter _) (hks.filter _)).mpr
    intro k
    simp only [List.mem_filter, decide_eq_true_eq]
    constructor
    · rintro ⟨-, hk⟩
      exact ⟨hmiss k hk, hk⟩
    · rintro ⟨-, hk⟩
      refine ⟨?_, hk⟩
      by_contra hnot
      rw [(get?_eq_none_iff d k).mpr hnot] at hk
      exact hk hnone
  rw [hvalues, hfilter, hfilter ks]
  exact (hperm.map _).sum_nat

end Dict
