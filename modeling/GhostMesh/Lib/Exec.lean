import Mathlib.Logic.Relation

/-!
# Imperative computations

`Exec W E S α` runs in a world `W` that it can only read, on a store `S` that it
can read and write, and returns a value or raises an exception of type `E`. An
exception does not undo the writes made before it: the store is returned in both
cases. The rules below take a run apart at its binds and lift a reflexive and
transitive relation between stores from the primitives to whole computations.
-/

set_option autoImplicit false

/-- A component `S` of a store `T`, with the lens laws. -/
structure Component (T S : Type) where
  get : T → S
  put : S → T → T
  get_put : ∀ s t, get (put s t) = s
  put_get : ∀ t, put (get t) t = t
  put_put : ∀ s s' t, put s' (put s t) = put s' t

structure Exec (W E S α : Type) where
  run : W → S → Except E α × S

namespace Exec

variable {W E S T α β : Type}

instance : Monad (Exec W E S) where
  pure a := ⟨fun _ s => (.ok a, s)⟩
  bind x f := ⟨fun w s => match x.run w s with
    | (.ok a, s') => (f a).run w s'
    | (.error e, s') => (.error e, s')⟩

def raise (e : E) : Exec W E S α := ⟨fun _ s => (.error e, s)⟩

def read : Exec W E S S := ⟨fun _ s => (.ok s, s)⟩

def modify (f : S → S) : Exec W E S Unit := ⟨fun _ s => (.ok (), f s)⟩

def ofExcept (x : Except E α) : Exec W E S α := ⟨fun _ s => (x, s)⟩

/-- Raise unless the condition holds. -/
def ensure (c : Bool) (e : E) : Exec W E S Unit := if c then pure () else raise e

/-- Run a computation on a component of a larger store. -/
def zoom (c : Component T S) (x : Exec W E S α) : Exec W E T α :=
  ⟨fun w t => match x.run w (c.get t) with
    | (r, s) => (r, c.put s t)⟩

def forEach (f : β → Exec W E S Unit) : List β → Exec W E S Unit
  | [] => pure ()
  | b :: bs => do f b; forEach f bs

@[simp] theorem run_pure (a : α) (w : W) (s : S) :
    (pure a : Exec W E S α).run w s = (.ok a, s) := rfl

theorem run_bind (x : Exec W E S α) (f : α → Exec W E S β) (w : W) (s : S) :
    (x >>= f).run w s = match x.run w s with
      | (.ok a, s') => (f a).run w s'
      | (.error e, s') => (.error e, s') := rfl

@[simp] theorem run_raise (e : E) (w : W) (s : S) :
    (raise e : Exec W E S α).run w s = (.error e, s) := rfl

@[simp] theorem run_read (w : W) (s : S) : (read : Exec W E S S).run w s = (.ok s, s) := rfl

@[simp] theorem run_modify (f : S → S) (w : W) (s : S) :
    (modify f : Exec W E S Unit).run w s = (.ok (), f s) := rfl

@[simp] theorem run_ofExcept (x : Except E α) (w : W) (s : S) :
    (ofExcept x : Exec W E S α).run w s = (x, s) := rfl

@[simp] theorem run_ensure (c : Bool) (e : E) (w : W) (s : S) :
    (ensure c e : Exec W E S Unit).run w s = (if c then .ok () else .error e, s) := by
  cases c <;> rfl

theorem run_zoom (c : Component T S) (x : Exec W E S α) (w : W) (t : T) :
    (zoom c x).run w t = ((x.run w (c.get t)).1, c.put (x.run w (c.get t)).2 t) := rfl

/-- Executing a bind whose first part is known to return. -/
theorem run_bind_ok {x : Exec W E S α} {f : α → Exec W E S β} {w : W} {s t : S} {a : α}
    (h : x.run w s = (.ok a, t)) : (x >>= f).run w s = (f a).run w t := by
  rw [run_bind, h]

theorem run_bind_error {x : Exec W E S α} {f : α → Exec W E S β} {w : W} {s s' : S} {e : E}
    (h : x.run w s = (.error e, s')) : (x >>= f).run w s = (.error e, s') := by
  rw [run_bind, h]

/-- Only the run of its first part matters to a bind. -/
theorem run_bind_congr {x y : Exec W E S α} {f : α → Exec W E S β} {w : W} {s : S}
    (h : x.run w s = y.run w s) : (x >>= f).run w s = (y >>= f).run w s := by
  rw [run_bind, run_bind, h]

/-- A run that is seen to return something returns a value. -/
theorem run_ok_of_toOption {x : Exec W E S α} {w : W} {s : S} {f : α → β} {b : β}
    (h : (x.run w s).1.toOption.map f = some b) :
    ∃ a, x.run w s = (.ok a, (x.run w s).2) ∧ f a = b := by
  obtain ⟨a, ha, rfl⟩ := Option.map_eq_some_iff.mp h
  refine ⟨a, ?_, rfl⟩
  cases hr : (x.run w s).1 with
  | error e =>
    rw [hr] at ha
    cases ha
  | ok a' =>
    rw [hr] at ha
    cases ha
    rw [← hr]

/-- A bind stops at the exception of its first part or continues with its value. -/
theorem bind_cases {x : Exec W E S α} {f : α → Exec W E S β} {w : W} {s s'' : S}
    {r : Except E β} (h : (x >>= f).run w s = (r, s'')) :
    (∃ e, x.run w s = (.error e, s'') ∧ r = .error e) ∨
      ∃ a s', x.run w s = (.ok a, s') ∧ (f a).run w s' = (r, s'') := by
  rw [run_bind] at h
  split at h
  · rename_i a s' hx
    exact .inr ⟨a, s', hx, h⟩
  · rename_i e s' hx
    cases h
    exact .inl ⟨e, hx, rfl⟩

/-- A bind that returned went through its first part. -/
theorem bind_ok {x : Exec W E S α} {f : α → Exec W E S β} {w : W} {s s'' : S} {b : β}
    (h : (x >>= f).run w s = (.ok b, s'')) :
    ∃ a s', x.run w s = (.ok a, s') ∧ (f a).run w s' = (.ok b, s'') := by
  rcases bind_cases h with ⟨e, -, he⟩ | hrest
  · cases he
  · exact hrest

/-- The same for a first part that leaves the store alone. -/
theorem bind_same {x : Exec W E S α} {f : α → Exec W E S β} {w : W} {s s' : S}
    {v : Except E α} {r : Except E β} (hx : x.run w s = (v, s))
    (h : (x >>= f).run w s = (r, s')) :
    (s' = s ∧ ∃ e, v = .error e ∧ r = .error e) ∨ ∃ a, v = .ok a ∧ (f a).run w s = (r, s') := by
  rw [run_bind, hx] at h
  cases v with
  | ok a => exact .inr ⟨a, rfl, h⟩
  | error e =>
    cases h
    exact .inl ⟨rfl, e, rfl, rfl⟩

/-- The same for a lookup, which raises where nothing is found. -/
theorem bind_lookup {x : Exec W E S α} {f : α → Exec W E S β} {w : W} {s s' : S} {o : Option α}
    {r : Except E β} (hsome : ∀ a, o = some a → x.run w s = (.ok a, s))
    (hnone : o = none → ∃ e, x.run w s = (.error e, s)) (h : (x >>= f).run w s = (r, s')) :
    (s' = s ∧ o = none ∧ ∃ e, r = .error e) ∨ ∃ a, o = some a ∧ (f a).run w s = (r, s') := by
  cases ho : o with
  | none =>
    obtain ⟨e, hx⟩ := hnone ho
    rw [run_bind_error hx] at h
    cases h
    exact .inl ⟨rfl, rfl, e, rfl⟩
  | some a =>
    rw [run_bind_ok (hsome a ho)] at h
    exact .inr ⟨a, rfl, h⟩

/-- The same for a condition that is raised on. -/
theorem ensure_bind {c : Bool} {e : E} {f : Unit → Exec W E S β} {w : W} {s s' : S}
    {r : Except E β} (h : (ensure c e >>= f).run w s = (r, s')) :
    (c = false ∧ s' = s ∧ r = .error e) ∨ (c = true ∧ (f ()).run w s = (r, s')) := by
  rw [run_bind, run_ensure] at h
  cases c with
  | true => exact .inr ⟨rfl, h⟩
  | false =>
    cases h
    exact .inl ⟨rfl, rfl, rfl⟩

/-- A pure computation that returned went through its first part. -/
theorem ok_of_bind {x : Except E α} {f : α → Except E β} {b : β} (h : x >>= f = .ok b) :
    ∃ a, x = .ok a ∧ f a = .ok b := by
  cases x with
  | error e => cases h
  | ok a => exact ⟨a, rfl, h⟩

theorem error_of_bind {x : Except E α} {f : α → Except E β} {e : E} (h : x >>= f = .error e) :
    x = .error e ∨ ∃ a, x = .ok a ∧ f a = .error e := by
  cases x with
  | error e' =>
    cases h
    exact .inl rfl
  | ok a => exact .inr ⟨a, rfl, h⟩

/-- `Within R w x`: whatever the outcome, the store moves along `R`. -/
def Within (R : S → S → Prop) (w : W) (x : Exec W E S α) : Prop :=
  ∀ s, R s (x.run w s).2

section Rules
variable {R : S → S → Prop} {w : W}

theorem Within.pure (hrefl : ∀ s, R s s) (a : α) :
    Within R w (Pure.pure a : Exec W E S α) := fun s => hrefl s

theorem Within.raise (hrefl : ∀ s, R s s) (e : E) :
    Within R w (Exec.raise e : Exec W E S α) := fun s => hrefl s

theorem Within.ofExcept (hrefl : ∀ s, R s s) (x : Except E α) :
    Within R w (Exec.ofExcept x : Exec W E S α) := fun s => hrefl s

theorem Within.read (hrefl : ∀ s, R s s) : Within R w (Exec.read : Exec W E S S) :=
  fun s => hrefl s

theorem Within.ensure (hrefl : ∀ s, R s s) (c : Bool) (e : E) :
    Within R w (Exec.ensure c e : Exec W E S Unit) := by
  intro s
  rw [run_ensure]
  exact hrefl s

theorem Within.modify {f : S → S} (h : ∀ s, R s (f s)) :
    Within R w (Exec.modify f : Exec W E S Unit) := h

/-- The continuation is only asked about on the values and stores its prefix can
return. -/
theorem Within.bind_of (htrans : ∀ {a b c}, R a b → R b c → R a c)
    {x : Exec W E S α} {f : α → Exec W E S β} (hx : Within R w x)
    (hf : ∀ s a s', x.run w s = (.ok a, s') → R s' ((f a).run w s').2) :
    Within R w (x >>= f) := by
  intro s
  have h1 := hx s
  rw [run_bind]
  split
  · rename_i a s' hr
    rw [hr] at h1
    exact htrans h1 (hf s a s' hr)
  · rename_i e s' hr
    rwa [hr] at h1

theorem Within.bind (htrans : ∀ {a b c}, R a b → R b c → R a c)
    {x : Exec W E S α} {f : α → Exec W E S β} (hx : Within R w x)
    (hf : ∀ a, Within R w (f a)) : Within R w (x >>= f) :=
  Within.bind_of @htrans hx fun _ a s' _ => hf a s'

theorem Within.forEach (hrefl : ∀ s, R s s) (htrans : ∀ {a b c}, R a b → R b c → R a c)
    {f : β → Exec W E S Unit} (hf : ∀ b, Within R w (f b)) (bs : List β) :
    Within R w (Exec.forEach f bs) := by
  induction bs with
  | nil => exact Within.pure hrefl ()
  | cons b bs ih => exact Within.bind @htrans (hf b) fun _ => ih

theorem Within.zoom {Q : T → T → Prop} {c : Component T S} {x : Exec W E S α}
    (hx : Within R w x) (hlift : ∀ t s, R (c.get t) s → Q t (c.put s t)) :
    Within Q w (Exec.zoom c x) := fun t => hlift t _ (hx (c.get t))

end Rules

/-- `Raises P w x`: every exception of the computation satisfies `P`. -/
def Raises (P : E → Prop) (w : W) (x : Exec W E S α) : Prop :=
  ∀ s e s', x.run w s = (.error e, s') → P e

section Exceptions
variable {P : E → Prop} {w : W}

/-- A computation that always returns raises nothing. -/
theorem Raises.of_ok {x : Exec W E S α} (h : ∀ s, ∃ a s', x.run w s = (.ok a, s')) :
    Raises P w x := by
  intro s e s' hr
  obtain ⟨a, s'', ha⟩ := h s
  rw [hr] at ha
  cases ha

theorem Raises.pure (a : α) : Raises P w (Pure.pure a : Exec W E S α) :=
  Raises.of_ok fun s => ⟨a, s, rfl⟩

theorem Raises.raise {e : E} (h : P e) : Raises P w (Exec.raise e : Exec W E S α) := by
  intro s e' s' hr
  cases hr
  exact h

theorem Raises.ofExcept {x : Except E α} (h : ∀ e, x = .error e → P e) :
    Raises P w (Exec.ofExcept x : Exec W E S α) :=
  fun _ e _ hr => h e (congrArg Prod.fst hr)

theorem Raises.ensure {c : Bool} {e : E} (h : P e) :
    Raises P w (Exec.ensure c e : Exec W E S Unit) := by
  unfold Exec.ensure
  split
  · exact Raises.pure ()
  · exact Raises.raise h

theorem Raises.bind {x : Exec W E S α} {f : α → Exec W E S β} (hx : Raises P w x)
    (hf : ∀ a, Raises P w (f a)) : Raises P w (x >>= f) := by
  intro s e s' h
  rcases bind_cases h with ⟨e', hraised, he⟩ | ⟨a, s₁, -, hrest⟩
  · cases he
    exact hx s e s' hraised
  · exact hf a s₁ e s' hrest

theorem Raises.zoom {c : Component T S} {x : Exec W E S α} (hx : Raises P w x) :
    Raises P w (Exec.zoom c x) := by
  intro t e t' h
  rw [run_zoom] at h
  obtain ⟨hr, -⟩ := Prod.mk.inj h
  exact hx (c.get t) e _ (Prod.ext hr rfl)

end Exceptions

end Exec
