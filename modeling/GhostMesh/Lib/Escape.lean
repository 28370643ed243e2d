import Mathlib.Data.Set.Card
import Mathlib.Order.CompletePartialOrder
import Mathlib.Logic.Relation

/-!
# Leaving cycles

A step relation `r` in which finitely many points can be reached from a point. A walk
that meets no final point has to come back to where it was, so all that can keep it
from a final point is a cycle that it cannot leave.
-/

set_option autoImplicit false

universe u

open Relation (ReflTransGen TransGen)

/-- The point lies on a cycle. -/
def OnCycle {α : Type u} (r : α → α → Prop) (a : α) : Prop := TransGen r a a

/-- No step leaves the point. -/
def Final {α : Type u} (r : α → α → Prop) (a : α) : Prop := ∀ b, ¬ r a b

namespace OnCycle

variable {α : Type u} {r : α → α → Prop} {a b : α}

theorem not_final (h : OnCycle r a) : ¬ Final r a := by
  intro hfinal
  obtain ⟨b, hab, -⟩ := TransGen.head'_iff.mp h
  exact hfinal b hab

/-- What can be reached from a step onward is less, off the cycles. -/
theorem reach_ssubset (hab : ReflTransGen r a b) (hback : ¬ ReflTransGen r b a) :
    {c | ReflTransGen r b c} ⊂ {c | ReflTransGen r a c} := by
  refine ⟨fun c hbc => hab.trans hbc, ?_⟩
  intro hsub
  exact hback (hsub (show ReflTransGen r a a from .refl))

/-- From a point whose cycles can all be left, a final point can be reached. -/
theorem reaches_final (hfinite : {b | ReflTransGen r a b}.Finite)
    (hleave : ∀ b, ReflTransGen r a b → OnCycle r b →
      ∃ c, ReflTransGen r b c ∧ ¬ OnCycle r c) :
    ∃ b, ReflTransGen r a b ∧ Final r b := by
  -- The induction is on the number of points that can be reached.
  induction hn : {b | ReflTransGen r a b}.ncard using Nat.strong_induction_on generalizing a with
  | _ n ih =>
    have hnext : ∀ b, ReflTransGen r a b → ¬ ReflTransGen r b a →
        ∃ c, ReflTransGen r a c ∧ Final r c := by
      intro b hab hback
      have hless := reach_ssubset hab hback
      have hcard : {c | ReflTransGen r b c}.ncard < n := hn ▸ Set.ncard_lt_ncard hless hfinite
      obtain ⟨c, hbc, hfinal⟩ := ih _ hcard (hfinite.subset hless.subset)
        (fun c hbc => hleave c (hab.trans hbc)) rfl
      exact ⟨c, hab.trans hbc, hfinal⟩
    by_cases hcycle : OnCycle r a
    · obtain ⟨b, hab, hoff⟩ := hleave a .refl hcycle
      refine hnext b hab ?_
      intro hback
      exact hoff ((TransGen.trans_right hback hcycle).trans_left hab)
    · by_cases hfinal : Final r a
      · exact ⟨a, .refl, hfinal⟩
      · obtain ⟨b, hab⟩ := not_forall_not.mp hfinal
        refine hnext b (.single hab) ?_
        intro hback
        exact hcycle (.head' hab hback)

/-- Every reachable point can reach a final one exactly if every reachable cycle can be
left. -/
theorem all_reach_final_iff (hfinite : {b | ReflTransGen r a b}.Finite) :
    (∀ b, ReflTransGen r a b → ∃ c, ReflTransGen r b c ∧ Final r c) ↔
      ∀ b, ReflTransGen r a b → OnCycle r b → ∃ c, ReflTransGen r b c ∧ ¬ OnCycle r c := by
  constructor
  · intro h b hab _
    obtain ⟨c, hbc, hfinal⟩ := h b hab
    exact ⟨c, hbc, fun hcycle => hcycle.not_final hfinal⟩
  · intro h b hab
    have hsub : {c | ReflTransGen r b c} ⊆ {c | ReflTransGen r a c} := fun c hbc => hab.trans hbc
    exact reaches_final (hfinite.subset hsub) fun c hbc => h c (hab.trans hbc)

end OnCycle
