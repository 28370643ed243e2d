import Mathlib.Data.List.Nodup
import Mathlib.Data.List.Perm.Basic

/-!
# Scans by several tests

A list is scanned once for each of several tests, and what a scan finds is appended unless
it was found before. What comes out is ranked: by the first test that an element passes,
and then by its place in the list. A test that everything passes spoils the ranks behind it.
-/

set_option autoImplicit false

namespace Scans

universe u v

variable {α : Type u} {κ : Type v}

/-- The number of the first test that `a` passes, or of all tests if it passes none. -/
def rank (cs : List (α → Bool)) (a : α) : Nat := cs.findIdx fun c => c a

section Code
variable [DecidableEq κ] (key : α → κ)

/-- Append what is not there yet. -/
def appendNew (found more : List α) : List α :=
  more.foldl (fun acc a => if key a ∈ acc.map key then acc else acc ++ [a]) found

/-- One scan for each test. -/
def scans (xs : List α) : List (α → Bool) → List α → List α
  | [], found => found
  | c :: cs, found => scans xs cs (appendNew key found (xs.filter c))

end Code

/-- `ys` is what the scans of `xs` should find, in the order in which they should. -/
structure Ranked (xs : List α) (cs : List (α → Bool)) (ys : List α) : Prop where
  once : ys.Nodup
  mem_iff : ∀ a, a ∈ ys ↔ a ∈ xs ∧ ∃ c ∈ cs, c a = true
  ordered : ys.Pairwise fun a b =>
    rank cs a < rank cs b ∨ rank cs a = rank cs b ∧ [a, b].Sublist xs

/-! ## Ranks -/

section Rank
variable {cs : List (α → Bool)} {c : α → Bool} {a : α}

theorem rank_lt_iff : rank cs a < cs.length ↔ ∃ c ∈ cs, c a = true := List.findIdx_lt_length

theorem rank_append_of_lt (ds : List (α → Bool)) (h : ∃ c ∈ cs, c a = true) :
    rank (cs ++ ds) a = rank cs a := by
  unfold rank
  rw [List.findIdx_append]
  exact if_pos (rank_lt_iff.mpr h)

theorem rank_append_of_not (ds : List (α → Bool)) (h : ¬ ∃ c ∈ cs, c a = true) :
    rank (cs ++ ds) a = rank ds a + cs.length := by
  unfold rank
  rw [List.findIdx_append]
  exact if_neg (mt rank_lt_iff.mp h)

theorem rank_last (h : ¬ ∃ c ∈ cs, c a = true) (hc : c a = true) :
    rank (cs ++ [c]) a = cs.length := by
  rw [rank_append_of_not [c] h, rank, List.findIdx_singleton, if_pos hc, Nat.zero_add]

/-- The first of two kinds of element is found where the first of either kind is. -/
theorem findIdx_or {β : Type v} (p q : β → Bool) (bs : List β) :
    bs.findIdx (fun b => p b || q b) = min (bs.findIdx p) (bs.findIdx q) := by
  induction bs with
  | nil => rfl
  | cons b bs ih =>
    simp only [List.findIdx_cons, ih]
    cases p b <;> cases q b <;> simp [Nat.succ_min_succ]

end Rank

/-! ## Order in a list -/

section Order
variable {xs : List α} {a b : α}

/-- Two elements of a list stand in one order or the other. -/
theorem sublist_or_sublist (ha : a ∈ xs) (hb : b ∈ xs) (hne : a ≠ b) :
    [a, b].Sublist xs ∨ [b, a].Sublist xs := by
  induction xs with
  | nil => cases ha
  | cons x xs ih =>
    rcases List.mem_cons.mp ha with rfl | ha'
    · have hb' : b ∈ xs := (List.mem_cons.mp hb).resolve_left hne.symm
      exact .inl ((List.singleton_sublist.mpr hb').cons_cons a)
    · rcases List.mem_cons.mp hb with rfl | hb'
      · exact .inr ((List.singleton_sublist.mpr ha').cons_cons b)
      · exact (ih ha' hb').imp (List.Sublist.cons x) (List.Sublist.cons x)

/-- In a list without repetitions not both. -/
theorem not_sublist_swap (hxs : xs.Nodup) (h : [a, b].Sublist xs) : ¬ [b, a].Sublist xs := by
  induction xs with
  | nil => cases h
  | cons x xs ih =>
    obtain ⟨hx, hxs⟩ := List.nodup_cons.mp hxs
    intro h'
    cases h with
    | cons _ h =>
      cases h' with
      | cons _ h' => exact ih hxs h h'
      | cons_cons _ h' => exact hx (h.subset (by simp))
    | cons_cons _ h =>
      cases h' with
      | cons _ h' => exact hx (h'.subset (by simp))
      | cons_cons _ h' => exact hx (List.singleton_sublist.mp h)

end Order

/-! ## What scans find -/

section Scans
variable [DecidableEq κ] {key : α → κ} {xs ys : List α} {cs : List (α → Bool)} {c : α → Bool}

theorem appendNew_eq {found more : List α} (hmore : (more.map key).Nodup) :
    appendNew key found more = found ++ more.filter fun a => key a ∉ found.map key := by
  induction more generalizing found with
  | nil => exact (List.append_nil found).symm
  | cons a more ih =>
    obtain ⟨ha, hmore⟩ := List.nodup_cons.mp hmore
    have hcons : appendNew key found (a :: more) = appendNew key
        (if key a ∈ found.map key then found else found ++ [a]) more := rfl
    rw [hcons, ih hmore]
    by_cases hfound : key a ∈ found.map key
    · rw [if_pos hfound, List.filter_cons_of_neg (by simpa using hfound)]
    · rw [if_neg hfound, List.filter_cons_of_pos (by simpa using hfound), List.append_assoc,
        List.singleton_append]
      congr 2
      apply List.filter_congr
      intro b hb
      have hne : key b ≠ key a := fun heq => ha (heq ▸ List.mem_map_of_mem hb)
      simp only [List.map_append, List.map_singleton, List.mem_append, List.mem_singleton, hne,
        or_false]

/-- The step lemma: one more scan. -/
theorem Ranked.scan (h : Ranked xs cs ys) (hkeys : (xs.map key).Nodup) (c : α → Bool) :
    Ranked xs (cs ++ [c]) (appendNew key ys (xs.filter c)) := by
  have hfilter : ((xs.filter c).map key).Nodup := hkeys.sublist (List.filter_sublist.map key)
  rw [appendNew_eq hfilter]
  have hseen : ∀ a ∈ xs, key a ∈ ys.map key ↔ ∃ c ∈ cs, c a = true := by
    intro a ha
    constructor
    · intro hkey
      obtain ⟨b, hb, heq⟩ := List.mem_map.mp hkey
      obtain ⟨hb, hpassed⟩ := (h.mem_iff b).mp hb
      exact List.inj_on_of_nodup_map hkeys hb ha heq ▸ hpassed
    · intro hpassed
      exact List.mem_map_of_mem ((h.mem_iff a).mpr ⟨ha, hpassed⟩)
  have hnew : ∀ a, a ∈ (xs.filter c).filter (fun a => key a ∉ ys.map key) ↔
      a ∈ xs ∧ c a = true ∧ ¬ ∃ c ∈ cs, c a = true := by
    intro a
    rw [List.mem_filter, List.mem_filter, decide_eq_true_eq]
    constructor
    · intro ha
      exact ⟨ha.1.1, ha.1.2, mt (hseen a ha.1.1).mpr ha.2⟩
    · intro ha
      exact ⟨⟨ha.1, ha.2.1⟩, mt (hseen a ha.1).mp ha.2.2⟩
  constructor
  · apply List.Nodup.append h.once ((hfilter.of_map _).filter _)
    intro a ha hmore
    exact ((hnew a).mp hmore).2.2 ((h.mem_iff a).mp ha).2
  · intro a
    rw [List.mem_append, h.mem_iff, hnew]
    by_cases hpassed : ∃ c ∈ cs, c a = true
    · obtain ⟨c', hc', ha⟩ := hpassed
      constructor
      · intro hor
        exact ⟨hor.elim And.left And.left, c', List.mem_append_left _ hc', ha⟩
      · intro hand
        exact .inl ⟨hand.1, c', hc', ha⟩
    · constructor
      · intro hor
        have hand := hor.resolve_left fun hand => hpassed hand.2
        exact ⟨hand.1, c, List.mem_append_right _ (List.mem_singleton.mpr rfl), hand.2.1⟩
      · intro hand
        obtain ⟨hxs, c', hc', ha⟩ := hand
        rcases List.mem_append.mp hc' with hc' | hc'
        · exact absurd ⟨c', hc', ha⟩ hpassed
        · cases List.mem_singleton.mp hc'
          exact .inr ⟨hxs, ha, hpassed⟩
  · apply List.pairwise_append.mpr
    refine ⟨?_, ?_, ?_⟩
    · refine h.ordered.imp_of_mem ?_
      intro a b ha hb hab
      rw [rank_append_of_lt [c] ((h.mem_iff a).mp ha).2,
        rank_append_of_lt [c] ((h.mem_iff b).mp hb).2]
      exact hab
    · apply List.pairwise_of_forall_sublist
      intro a b hab
      obtain ⟨-, hca, ha⟩ := (hnew a).mp (hab.subset (by simp))
      obtain ⟨-, hcb, hb⟩ := (hnew b).mp (hab.subset (by simp))
      right
      rw [rank_last ha hca, rank_last hb hcb]
      exact ⟨rfl, hab.trans (List.filter_sublist.trans List.filter_sublist)⟩
    · intro a ha b hb
      obtain ⟨-, hcb, hb⟩ := (hnew b).mp hb
      have hpassed := ((h.mem_iff a).mp ha).2
      left
      rw [rank_append_of_lt [c] hpassed, rank_last hb hcb]
      exact rank_lt_iff.mpr hpassed

/-- All scans, after those of `cs`. -/
theorem Ranked.scans (hkeys : (xs.map key).Nodup) (ds : List (α → Bool)) {cs : List (α → Bool)}
    {ys : List α} (h : Ranked xs cs ys) : Ranked xs (cs ++ ds) (scans key xs ds ys) := by
  induction ds generalizing cs ys with
  | nil => rwa [List.append_nil]
  | cons d ds ih =>
    have hnext := ih (h.scan hkeys d)
    rwa [List.append_assoc] at hnext

theorem scans_ranked (hkeys : (xs.map key).Nodup) (cs : List (α → Bool)) :
    Ranked xs cs (Scans.scans key xs cs []) := by
  have hnone : Ranked xs [] [] := by
    refine ⟨List.nodup_nil, ?_, List.Pairwise.nil⟩
    intro a
    simp
  exact hnone.scans hkeys cs

/-! ## Other tests than those scanned for -/

/-- A last test that was left out. -/
theorem Ranked.left_out_iff (h : Ranked xs cs ys) (c : α → Bool) :
    Ranked xs (cs ++ [c]) ys ↔ ∀ a ∈ xs, c a = true → ∃ c' ∈ cs, c' a = true := by
  constructor
  · intro hmore a ha hc
    exact ((h.mem_iff a).mp ((hmore.mem_iff a).mpr
      ⟨ha, c, List.mem_append_right _ (List.mem_singleton.mpr rfl), hc⟩)).2
  · intro hall
    refine ⟨h.once, ?_, ?_⟩
    · intro a
      rw [h.mem_iff]
      constructor
      · intro hand
        obtain ⟨ha, c', hc', hpassed⟩ := hand
        exact ⟨ha, c', List.mem_append_left _ hc', hpassed⟩
      · intro hand
        obtain ⟨ha, c', hc', hpassed⟩ := hand
        rcases List.mem_append.mp hc' with hc' | hc'
        · exact ⟨ha, c', hc', hpassed⟩
        · cases List.mem_singleton.mp hc'
          exact ⟨ha, hall a ha hpassed⟩
    · refine h.ordered.imp_of_mem ?_
      intro a b ha hb hab
      rw [rank_append_of_lt [c] ((h.mem_iff a).mp ha).2,
        rank_append_of_lt [c] ((h.mem_iff b).mp hb).2]
      exact hab

/-- Scans of which the one numbered `i` let everything pass: the elements that pass no test
before it come in the order of the list, whatever they pass later. -/
theorem Ranked.let_through_iff {fs : List (α → Bool)} (h : Ranked xs fs ys) (hxs : xs.Nodup)
    {i : Nat} (hi : i < fs.length) (hrank : ∀ a ∈ xs, rank fs a = min (rank cs a) i) :
    Ranked xs cs ys ↔ (∀ a ∈ xs, ∃ c ∈ cs, c a = true) ∧
      (xs.filter fun a => i ≤ rank cs a).Pairwise fun a b => rank cs a ≤ rank cs b := by
  have hmem : ∀ a, a ∈ ys ↔ a ∈ xs := by
    intro a
    rw [h.mem_iff]
    constructor
    · exact And.left
    · intro ha
      refine ⟨ha, rank_lt_iff.mp ?_⟩
      rw [hrank a ha]
      exact Nat.lt_of_le_of_lt (Nat.min_le_right _ _) hi
  constructor
  · intro hranked
    refine ⟨fun a ha => ((hranked.mem_iff a).mp ((hmem a).mpr ha)).2, ?_⟩
    apply List.pairwise_of_forall_sublist
    intro a b hab
    have ha := List.mem_filter.mp (hab.subset (show a ∈ [a, b] by simp))
    have hb := List.mem_filter.mp (hab.subset (show b ∈ [a, b] by simp))
    have hia : i ≤ rank cs a := of_decide_eq_true ha.2
    have hib : i ≤ rank cs b := of_decide_eq_true hb.2
    have hab : [a, b].Sublist xs := hab.trans List.filter_sublist
    have hne : a ≠ b := by
      rintro rfl
      exact not_sublist_swap hxs hab hab
    rcases sublist_or_sublist ((hmem a).mpr ha.1) ((hmem b).mpr hb.1) hne with hys | hys
    · rcases hranked.ordered.forall_sublist hys with hlt | ⟨heq, -⟩
      · exact Nat.le_of_lt hlt
      · exact Nat.le_of_eq heq
    · -- the scans found both at `i`, so `b` came first only if it stands first
      rcases h.ordered.forall_sublist hys with hlt | ⟨-, hba⟩
      · rw [hrank a ha.1, hrank b hb.1] at hlt
        omega
      · exact absurd hba (not_sublist_swap hxs hab)
  · intro hcond
    obtain ⟨hall, hpairs⟩ := hcond
    refine ⟨h.once, ?_, ?_⟩
    · intro a
      rw [hmem]
      exact ⟨fun ha => ⟨ha, hall a ha⟩, And.left⟩
    · refine h.ordered.imp_of_mem ?_
      intro a b ha hb hab
      replace ha := (hmem a).mp ha
      replace hb := (hmem b).mp hb
      rw [hrank a ha, hrank b hb] at hab
      rcases hab with hlt | ⟨heq, hsub⟩
      · left
        omega
      · by_cases hia : i ≤ rank cs a
        · have hib : i ≤ rank cs b := by omega
          have hfilter : [a, b].Sublist (xs.filter fun a => i ≤ rank cs a) := by
            have hboth := hsub.filter fun a => decide (i ≤ rank cs a)
            rwa [List.filter_cons_of_pos (by simpa using hia),
              List.filter_cons_of_pos (by simpa using hib), List.filter_nil] at hboth
          rcases Nat.lt_or_eq_of_le (hpairs.forall_sublist hfilter) with hlt | heq'
          · exact .inl hlt
          · exact .inr ⟨heq', hsub⟩
        · right
          exact ⟨by omega, hsub⟩

end Scans

end Scans
