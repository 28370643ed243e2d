import GhostMesh.Lib.Exec

/-!
# Two computations in lockstep

Two computations on different stores succeed together or fail together. The rules
follow the binds of both: a step that both make, or a step of one side only that is
known to return.
-/

set_option autoImplicit false

namespace Exec

section Lockstep
variable {W E S T α β γ δ : Type}

/-- Both return and `Φ` relates what they return, or both raise and leave stores
related by `F`. -/
def Lockstep (Φ : α → β → S → T → Prop) (F : S → T → Prop) :
    Except E α × S → Except E β × T → Prop
  | (.ok a, s), (.ok b, t) => Φ a b s t
  | (.error _, s), (.error _, t) => F s t
  | _, _ => False

variable {Φ Φ' : α → β → S → T → Prop} {Ψ : γ → δ → S → T → Prop} {F : S → T → Prop}
  {w : W} {s s' : S} {t t' : T}

theorem Lockstep.mono {X : Except E α × S} {Y : Except E β × T} (h : Lockstep Φ F X Y)
    (himp : ∀ a b s t, Φ a b s t → Φ' a b s t) : Lockstep Φ' F X Y := by
  match X, Y, h with
  | (.ok a, s), (.ok b, t), h => exact himp a b s t h
  | (.error _, s), (.error _, t), h => exact h

theorem Lockstep.bind {x : Exec W E S α} {y : Exec W E T β} {f : α → Exec W E S γ}
    {g : β → Exec W E T δ} (h : Lockstep Φ F (x.run w s) (y.run w t))
    (hrest : ∀ a b s' t', Φ a b s' t' → Lockstep Ψ F ((f a).run w s') ((g b).run w t')) :
    Lockstep Ψ F ((x >>= f).run w s) ((y >>= g).run w t) := by
  rw [run_bind, run_bind]
  match x.run w s, y.run w t, h with
  | (.ok a, s'), (.ok b, t'), h => exact hrest a b s' t' h
  | (.error _, s'), (.error _, t'), h => exact h

/-- Both sides compute the same value and go on with it, or fail with it. -/
theorem Lockstep.both {x : Exec W E S α} {y : Exec W E T α} {f : α → Exec W E S γ}
    {g : α → Exec W E T δ} {v : Except E α} (hx : x.run w s = (v, s')) (hy : y.run w t = (v, t'))
    (hfail : F s' t')
    (hrest : ∀ a, v = .ok a → Lockstep Ψ F ((f a).run w s') ((g a).run w t')) :
    Lockstep Ψ F ((x >>= f).run w s) ((y >>= g).run w t) := by
  rw [run_bind, run_bind, hx, hy]
  cases v with
  | ok a => exact hrest a rfl
  | error e => exact hfail

theorem Lockstep.left {x : Exec W E S α} {f : α → Exec W E S γ} {a : α} {Y : Except E δ × T}
    (hx : x.run w s = (.ok a, s')) (hrest : Lockstep Ψ F ((f a).run w s') Y) :
    Lockstep Ψ F ((x >>= f).run w s) Y := by
  rw [run_bind_ok hx]
  exact hrest

theorem Lockstep.right {y : Exec W E T β} {g : β → Exec W E T δ} {b : β} {X : Except E γ × S}
    (hy : y.run w t = (.ok b, t')) (hrest : Lockstep Ψ F X ((g b).run w t')) :
    Lockstep Ψ F X ((y >>= g).run w t) := by
  rw [run_bind_ok hy]
  exact hrest

end Lockstep

/-! ## One computation on related stores -/

section Respects
variable {W E S α β : Type} {R : S → S → Prop} {w : W}

/-- Started on stores related by `R`, the computation returns one value on both or raises
on both, and leaves stores related by `R`. -/
def Respects (R : S → S → Prop) (w : W) (x : Exec W E S α) : Prop :=
  ∀ s t, R s t → Lockstep (fun a b s' t' => a = b ∧ R s' t') R (x.run w s) (x.run w t)

theorem Respects.pure (a : α) : Respects R w (Pure.pure a : Exec W E S α) :=
  fun _ _ h => ⟨rfl, h⟩

theorem Respects.raise (e : E) : Respects R w (Exec.raise e : Exec W E S α) :=
  fun _ _ h => h

theorem Respects.ofExcept (x : Except E α) : Respects R w (Exec.ofExcept x : Exec W E S α) := by
  intro s t h
  cases x with
  | ok a => exact ⟨rfl, h⟩
  | error e => exact h

theorem Respects.ensure (c : Bool) (e : E) : Respects R w (Exec.ensure c e : Exec W E S Unit) := by
  unfold Exec.ensure
  split
  · exact Respects.pure ()
  · exact Respects.raise e

theorem Respects.bind {x : Exec W E S α} {f : α → Exec W E S β} (hx : Respects R w x)
    (hf : ∀ a, Respects R w (f a)) : Respects R w (x >>= f) := by
  intro s t h
  refine (hx s t h).bind fun a b s' t' hab => ?_
  obtain ⟨rfl, hrest⟩ := hab
  exact hf a s' t' hrest

/-- What is seen of the two runs: the same answer, and related stores. -/
theorem Respects.observed {x : Exec W E S α} (hx : Respects R w x) {s t : S} (h : R s t) :
    (x.run w s).1.toOption = (x.run w t).1.toOption ∧ R (x.run w s).2 (x.run w t).2 := by
  have hrun := hx s t h
  match x.run w s, x.run w t, hrun with
  | (.ok a, s'), (.ok b, t'), hrun => exact ⟨congrArg some hrun.1, hrun.2⟩
  | (.error _, s'), (.error _, t'), hrun => exact ⟨rfl, hrun⟩

end Respects

end Exec
