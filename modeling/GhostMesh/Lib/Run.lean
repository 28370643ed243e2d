import Mathlib.Data.List.Basic

/-!
# Guarded runs

A system is a total step function on states. `Reaches step ok s₀ s` says that `s`
is reached from `s₀` by finitely many steps, each of which satisfied `ok` in the
state it was taken from; `ok` is where a result restricts the callers.
-/

set_option autoImplicit false

universe u v w

inductive Reaches {S : Type u} {A : Type v} (step : S → A → S) (ok : S → A → Prop) (s₀ : S) :
    S → Prop where
  | refl : Reaches step ok s₀ s₀
  | step {s : S} {a : A} : Reaches step ok s₀ s → ok s a → Reaches step ok s₀ (step s a)

namespace Reaches

variable {S : Type u} {A : Type v} {step : S → A → S} {ok ok' : S → A → Prop} {s₀ s : S}

/-- Every reached state has an invariant that holds at the start and that each
permitted step preserves. -/
theorem invariant {I : S → Prop} (h0 : I s₀) (hstep : ∀ s a, I s → ok s a → I (step s a))
    (h : Reaches step ok s₀ s) : I s := by
  induction h with
  | refl => exact h0
  | step _ hok ih => exact hstep _ _ ih hok

theorem mono (himp : ∀ s a, ok s a → ok' s a) (h : Reaches step ok s₀ s) :
    Reaches step ok' s₀ s := by
  induction h with
  | refl => exact .refl
  | step _ hok ih => exact .step ih (himp _ _ hok)

theorem trans {t : S} (hs : Reaches step ok s₀ s) (ht : Reaches step ok s t) :
    Reaches step ok s₀ t := by
  induction ht with
  | refl => exact hs
  | step _ hok ih => exact .step ih hok

end Reaches

/-- Every action of the list is permitted in the state it is taken from. -/
def Permitted {S : Type u} {A : Type v} (step : S → A → S) (ok : S → A → Prop) :
    S → List A → Prop
  | _, [] => True
  | s, a :: as => ok s a ∧ Permitted step ok (step s a) as

namespace Permitted

variable {S : Type u} {A : Type v} {step : S → A → S} {ok : S → A → Prop}

instance decidable [∀ s a, Decidable (ok s a)] :
    ∀ (s : S) (as : List A), Decidable (Permitted step ok s as)
  | _, [] => isTrue trivial
  | s, a :: as => @instDecidableAnd (ok s a) _ inferInstance (decidable (step s a) as)

theorem of_forall (h : ∀ s a, ok s a) (s : S) (as : List A) : Permitted step ok s as := by
  induction as generalizing s with
  | nil => trivial
  | cons a as ih => exact ⟨h s a, ih (step s a)⟩

theorem of_forall_mem {as : List A} (h : ∀ s, ∀ a ∈ as, ok s a) (s : S) :
    Permitted step ok s as := by
  induction as generalizing s with
  | nil => trivial
  | cons a as ih =>
    have htail : ∀ s, ∀ b ∈ as, ok s b := fun s b hb => h s b (List.mem_cons_of_mem a hb)
    exact ⟨h s a List.mem_cons_self, ih htail (step s a)⟩

/-- A guard together with what holds of every action of the list. -/
theorem and_of_mem {Q : A → Prop} {s : S} {as : List A} (h : Permitted step ok s as)
    (hmem : ∀ a ∈ as, Q a) : Permitted step (fun s a => ok s a ∧ Q a) s as := by
  induction as generalizing s with
  | nil => trivial
  | cons a as ih =>
    have htail : ∀ b ∈ as, Q b := fun b hb => hmem b (List.mem_cons_of_mem a hb)
    exact ⟨⟨h.1, hmem a List.mem_cons_self⟩, ih h.2 htail⟩

theorem append_iff {s : S} {as bs : List A} : Permitted step ok s (as ++ bs) ↔
    Permitted step ok s as ∧ Permitted step ok (as.foldl step s) bs := by
  induction as generalizing s with
  | nil => simp [Permitted]
  | cons a as ih => simp only [List.cons_append, Permitted, ih, List.foldl_cons, and_assoc]

/-- The guard at every step of the list. -/
theorem iff_steps {s : S} {as : List A} : Permitted step ok s as ↔
    ∀ before a after, as = before ++ a :: after → ok (before.foldl step s) a := by
  constructor
  · rintro h before a after rfl
    exact (append_iff.mp h).2.1
  · intro h
    induction as generalizing s with
    | nil => trivial
    | cons a as ih =>
      refine ⟨h [] a as rfl, ih fun before b after has => ?_⟩
      exact h (a :: before) b after (congrArg (a :: ·) has)

/-- An invariant of all steps may be used to pass from one guard to another. -/
theorem of_invariant {ok' : S → A → Prop} {I : S → Prop}
    (hstep : ∀ s a, I s → I (step s a)) (himp : ∀ s a, I s → ok s a → ok' s a) {s : S}
    {as : List A} (hs : I s) (h : Permitted step ok s as) : Permitted step ok' s as := by
  induction as generalizing s with
  | nil => trivial
  | cons a as ih => exact ⟨himp s a hs h.1, ih (hstep s a hs) h.2⟩

/-- A guard that is exact for an invariant, from states with a further one, is exact for
whole runs. -/
theorem iff_invariant {I J : S → Prop} (hJ : ∀ s a, J s → J (step s a))
    (hexact : ∀ s a, J s → I s → (I (step s a) ↔ ok s a)) {s : S} {as : List A} (hs : J s)
    (hI : I s) : Permitted step ok s as ↔
      ∀ before after, as = before ++ after → I (before.foldl step s) := by
  induction as generalizing s with
  | nil =>
    refine ⟨fun _ before after h => ?_, fun _ => trivial⟩
    rw [(List.append_eq_nil_iff.mp h.symm).1]
    exact hI
  | cons a as ih =>
    constructor
    · intro h before after has
      cases before with
      | nil => exact hI
      | cons b before =>
        obtain ⟨rfl, has'⟩ := List.cons.inj has
        exact (ih (hJ s a hs) ((hexact s a hs hI).mpr h.1)).mp h.2 before after has'
    · intro h
      have hfirst : I (step s a) := h [a] as rfl
      refine ⟨(hexact s a hs hI).mp hfirst, (ih (hJ s a hs) hfirst).mpr ?_⟩
      intro before after has
      exact h (a :: before) after (congrArg (a :: ·) has)

/-- The same for a relation between earlier and later states of a run. -/
theorem iff_related {R : S → S → Prop} {J : S → Prop} (hrefl : ∀ s, R s s)
    (htrans : ∀ {s t u}, R s t → R t u → R s u) (hJ : ∀ s a, J s → J (step s a))
    (hexact : ∀ s a, J s → (R s (step s a) ↔ ok s a)) {s : S} {as : List A} (hs : J s) :
    Permitted step ok s as ↔ ∀ before between after, as = before ++ (between ++ after) →
      R (before.foldl step s) (between.foldl step (before.foldl step s)) := by
  have hrun : ∀ {s : S} {as : List A}, J s → Permitted step ok s as → R s (as.foldl step s) := by
    intro s as hs h
    induction as generalizing s with
    | nil => exact hrefl s
    | cons a as ih => exact htrans ((hexact s a hs).mpr h.1) (ih (hJ s a hs) h.2)
  induction as generalizing s with
  | nil =>
    refine ⟨fun _ before between after h => ?_, fun _ => trivial⟩
    obtain ⟨hbefore, hrest⟩ := List.append_eq_nil_iff.mp h.symm
    rw [hbefore, (List.append_eq_nil_iff.mp hrest).1]
    exact hrefl s
  | cons a as ih =>
    constructor
    · intro h before between after has
      cases before with
      | nil =>
        have hsplit : Permitted step ok s (between ++ after) := has ▸ h
        exact hrun hs (append_iff.mp hsplit).1
      | cons b before =>
        obtain ⟨rfl, has'⟩ := List.cons.inj has
        exact (ih (hJ s a hs)).mp h.2 before between after has'
    · intro h
      refine ⟨(hexact s a hs).mp (h [] [a] as rfl), (ih (hJ s a hs)).mpr ?_⟩
      intro before between after has
      exact h (a :: before) between after (congrArg (a :: ·) has)

theorem reaches {s : S} {as : List A} (h : Permitted step ok s as) :
    Reaches step ok s (as.foldl step s) := by
  induction as generalizing s with
  | nil => exact .refl
  | cons a as ih =>
    have hhead : Reaches step ok s (step s a) := .step .refl h.1
    exact hhead.trans (ih h.2)

end Permitted

/-- The end of a run without a guard. -/
theorem Reaches.of_foldl {S : Type u} {A : Type v} (step : S → A → S) (s : S) (as : List A) :
    Reaches step (fun _ _ => True) s (as.foldl step s) :=
  (Permitted.of_forall (fun _ _ => trivial) s as).reaches

/-! ## Cells that are written once -/

section Cells
variable {S : Type u} {A : Type v} {V : Type w} {step : S → A → S} {f : S → Option V}

/-- No step changes a value of the cell or takes it away. -/
def WrittenOnce (step : S → A → S) (f : S → Option V) : Prop :=
  ∀ s a v, f s = some v → f (step s a) = some v

theorem WrittenOnce.foldl (h : WrittenOnce step f) {s : S} {v : V} (as : List A)
    (hs : f s = some v) : f (as.foldl step s) = some v := by
  induction as generalizing s with
  | nil => exact hs
  | cons a as ih => exact ih (h s a v hs)

/-- A value at the end of a run was written by one of its steps. -/
theorem WrittenOnce.exists_write (h : WrittenOnce step f) {s : S} {v : V} {as : List A}
    (hs : f s = none) (hend : f (as.foldl step s) = some v) :
    ∃ before a after, as = before ++ a :: after ∧ f (before.foldl step s) = none ∧
      f (step (before.foldl step s) a) = some v := by
  induction as generalizing s with
  | nil =>
    rw [List.foldl_nil, hs] at hend
    cases hend
  | cons a as ih =>
    cases ha : f (step s a) with
    | none =>
      obtain ⟨before, b, after, rfl, hnone, hsome⟩ := ih ha hend
      exact ⟨a :: before, b, after, rfl, hnone, hsome⟩
    | some v' =>
      have hkept : f (as.foldl step (step s a)) = some v' := h.foldl as ha
      have hsame : v' = v := Option.some.inj (hkept.symm.trans hend)
      exact ⟨[], a, as, rfl, hs, hsame ▸ ha⟩

/-- What one of the steps writes is there at the end. -/
theorem WrittenOnce.write_eq (h : WrittenOnce step f) {s : S} {v v' : V} {before after : List A}
    {a : A} (hwrite : f (step (before.foldl step s) a) = some v')
    (hend : f ((before ++ a :: after).foldl step s) = some v) : v' = v := by
  rw [List.foldl_append, List.foldl_cons, h.foldl after hwrite] at hend
  exact Option.some.inj hend

end Cells
