import GhostMesh.Lib.Exec
import GhostMesh.Python.Json
import GhostMesh.Python.Time

/-!
# The world of a computation

Wall clock, `uuid4`, and the library functions whose text or order the program
only passes on. Stores are written through `Op`; a `Machine` counts how many
clock readings and identifiers have been drawn, so that the n-th reading of a run
is `clock n`.
-/

set_option autoImplicit false

namespace GhostMesh

structure Uuid where
  int : Nat
deriving DecidableEq

/-- `str(uuid)`: 32 hexadecimal digits in groups of 8, 4, 4, 4 and 12. -/
def Uuid.str (u : Uuid) : String :=
  let digits := Nat.toDigits 16 u.int
  let hex := List.replicate (32 - digits.length) '0' ++ digits
  String.ofList (hex.take 8 ++ '-' :: (hex.drop 8).take 4 ++ '-' :: (hex.drop 12).take 4 ++
    '-' :: (hex.drop 16).take 4 ++ '-' :: hex.drop 20)

/-! The text of an identifier determines it. -/

/-- The value of a hexadecimal digit. -/
def hexValue (c : Char) : Nat := if c.isDigit then c.toNat - 48 else c.toNat - 87

theorem hexValue_digitChar {d : Nat} (hd : d < 16) : hexValue d.digitChar = d := by
  have hall : ∀ i : Fin 16, hexValue (i : Nat).digitChar = i := by decide
  exact hall ⟨d, hd⟩

def hexNumber (cs : List Char) : Nat := cs.foldl (fun n c => n * 16 + hexValue c) 0

theorem hexNumber_toDigits (n : Nat) : hexNumber (Nat.toDigits 16 n) = n := by
  induction n using Nat.strongRecOn with
  | ind n ih =>
    rw [Nat.toDigits_eq_if (by decide)]
    split
    · rename_i hn
      exact (Nat.zero_add _).trans (hexValue_digitChar hn)
    · rename_i hn
      have hdiv : hexNumber (Nat.toDigits 16 (n / 16)) = n / 16 := ih (n / 16) (by omega)
      simp only [hexNumber, List.foldl_append, List.foldl_cons, List.foldl_nil] at hdiv ⊢
      rw [hdiv, hexValue_digitChar (Nat.mod_lt n (by decide))]
      omega

theorem hexNumber_zeros (n : Nat) (cs : List Char) :
    hexNumber (List.replicate n '0' ++ cs) = hexNumber cs := by
  induction n with
  | zero => rfl
  | succ n ih => exact ih

/-- The groups of a long enough text determine it. -/
theorem groups_injective {as bs : List Char} (ha : 20 ≤ as.length) (hb : 20 ≤ bs.length)
    (h : as.take 8 ++ '-' :: (as.drop 8).take 4 ++ '-' :: (as.drop 12).take 4 ++
        '-' :: (as.drop 16).take 4 ++ '-' :: as.drop 20 =
      bs.take 8 ++ '-' :: (bs.drop 8).take 4 ++ '-' :: (bs.drop 12).take 4 ++
        '-' :: (bs.drop 16).take 4 ++ '-' :: bs.drop 20) : as = bs := by
  have hsplit : ∀ cs : List Char, cs = cs.take 8 ++ ((cs.drop 8).take 4 ++ ((cs.drop 12).take 4 ++
      ((cs.drop 16).take 4 ++ cs.drop 20))) := by
    intro cs
    have hdrop : ∀ n, (cs.drop n).take 4 ++ cs.drop (n + 4) = cs.drop n := by
      intro n
      have h4 := List.take_append_drop 4 (cs.drop n)
      rwa [List.drop_drop] at h4
    rw [hdrop 16, hdrop 12, hdrop 8, List.take_append_drop]
  simp only [List.append_assoc, List.cons_append] at h
  obtain ⟨h1, h⟩ := List.append_inj h (by simp only [List.length_take]; omega)
  obtain ⟨h2, h⟩ := List.append_inj (List.cons.inj h).2
    (by simp only [List.length_take, List.length_drop]; omega)
  obtain ⟨h3, h⟩ := List.append_inj (List.cons.inj h).2
    (by simp only [List.length_take, List.length_drop]; omega)
  obtain ⟨h4, h⟩ := List.append_inj (List.cons.inj h).2
    (by simp only [List.length_take, List.length_drop]; omega)
  rw [hsplit as, hsplit bs, h1, h2, h3, h4, (List.cons.inj h).2]

theorem Uuid.str_injective : Function.Injective Uuid.str := by
  intro u v h
  have hlist := congrArg String.toList h
  simp only [Uuid.str, String.toList_ofList] at hlist
  have hlength : ∀ n, 20 ≤ (List.replicate (32 - (Nat.toDigits 16 n).length) '0' ++
      Nat.toDigits 16 n).length := by
    intro n
    simp only [List.length_append, List.length_replicate]
    omega
  have hhex := groups_injective (hlength u.int) (hlength v.int) hlist
  have hnumber := congrArg hexNumber hhex
  rw [hexNumber_zeros, hexNumber_zeros, hexNumber_toDigits, hexNumber_toDigits] at hnumber
  cases u
  cases v
  exact congrArg Uuid.mk hnumber

/-- The exceptions that the code under study raises or lets through. -/
inductive PyErr where
  | notFound (message : String)
  | conflict (message : String)
  | invalidOperation (message : String)
  | validation (errors : List String)
  | value (message : String)
  | type (message : String)
  | key (message : String)
  | index (message : String)
  /-- A violated constraint, with the driver's text. -/
  | integrity (message : String)
  | overflow
  | http (status : Nat) (detail : String)
deriving DecidableEq

/-- What `except ValueError` catches. -/
def PyErr.isValueError : PyErr → Bool
  | .notFound _ | .conflict _ | .invalidOperation _ | .validation _ | .value _ => true
  | _ => false

/-- `str(exc)`. -/
def PyErr.message : PyErr → String
  | .notFound m | .conflict m | .invalidOperation m | .value m | .type m | .key m
  | .index m | .integrity m => m
  | .validation errors => "\n".intercalate errors
  | .overflow => "date value out of range"
  | .http _ detail => detail

structure World where
  clock : Nat → Instant
  uuid4 : Nat → Uuid
  uuid4_injective : Function.Injective uuid4
  /-- `repr` of a float. -/
  floatRepr : PyFloat → String
  /-- `str.isprintable` of one character. -/
  isPrintable : Char → Bool
  /-- `str.isspace` of one character. -/
  isSpace : Char → Bool
  /-- The value of a decimal digit, in any script. -/
  decimal : Char → Option Nat
  /-- `networkx.simple_cycles` of a directed graph, in the order it yields them. -/
  simpleCycles : List String → List (String × String) → List (List String)
  /-- How pydantic reads a `datetime` field. -/
  parseDatetime : Json → Option Instant
  /-- The text of the pydantic error for a value that is no instance of the named model. -/
  schemaError : String → Json → String
  /-- A replacement field of `str.format` that is more than a plain name. -/
  formatField : String → List (String × String) → Except PyErr String

/-- A world to evaluate the model in: the n-th reading is n microseconds, the n-th
identifier is n, and the library functions know only what ASCII needs. -/
def World.simple : World where
  clock n := n
  uuid4 n := ⟨n⟩
  uuid4_injective _ _ h := Uuid.mk.inj h
  floatRepr _ := "0.0"
  isPrintable c := 32 ≤ c.toNat && c.toNat < 127
  isSpace c := c = ' '
  decimal c := if c.isDigit then some (c.toNat - 48) else none
  simpleCycles _ _ := []
  parseDatetime _ := none
  schemaError model _ := s!"validation error for {model}"
  formatField field _ := .error (.value field)

/-- The world during one instant: every reading of the clock is `t`. -/
def World.stopped (w : World) (t : Instant) : World := { w with clock := fun _ => t }

@[simp] theorem World.stopped_clock (w : World) (t : Instant) (n : Nat) :
    (w.stopped t).clock n = t := rfl

@[simp] theorem World.stopped_uuid4 (w : World) (t : Instant) : (w.stopped t).uuid4 = w.uuid4 := rfl

structure Machine (σ : Type) where
  store : σ
  ticks : Nat
  draws : Nat

abbrev Op (σ α : Type) := Exec World PyErr (Machine σ) α

namespace Op

variable {σ τ α : Type}

/-- `datetime.now(UTC)`. -/
def now : Op σ Instant := ⟨fun w m => (.ok (w.clock m.ticks), { m with ticks := m.ticks + 1 })⟩

def uuid4 : Op σ Uuid := ⟨fun w m => (.ok (w.uuid4 m.draws), { m with draws := m.draws + 1 })⟩

def get : Op σ σ := ⟨fun _ m => (.ok m.store, m)⟩

def modify (f : σ → σ) : Op σ Unit := ⟨fun _ m => (.ok (), { m with store := f m.store })⟩

def raise (e : PyErr) : Op σ α := Exec.raise e

def world : Op σ World := ⟨fun w m => (.ok w, m)⟩

def ofExcept (x : Except PyErr α) : Op σ α := Exec.ofExcept x

def ensure (c : Bool) (e : PyErr) : Op σ Unit := Exec.ensure c e

/-- The component with the counters of the machine. -/
def machine (c : Component τ σ) : Component (Machine τ) (Machine σ) where
  get m := ⟨c.get m.store, m.ticks, m.draws⟩
  put t m := ⟨c.put t.store m.store, t.ticks, t.draws⟩
  get_put t m := by simp [c.get_put]
  put_get m := by simp [c.put_get]
  put_put t t' m := by simp [c.put_put]

/-- Run an operation of one component on the store that contains it. -/
def on (c : Component τ σ) (x : Op σ α) : Op τ α := Exec.zoom (machine c) x

@[simp] theorem run_now (w : World) (m : Machine σ) :
    (now : Op σ Instant).run w m = (.ok (w.clock m.ticks), { m with ticks := m.ticks + 1 }) := rfl

@[simp] theorem run_uuid4 (w : World) (m : Machine σ) :
    (uuid4 : Op σ Uuid).run w m = (.ok (w.uuid4 m.draws), { m with draws := m.draws + 1 }) := rfl

@[simp] theorem run_get (w : World) (m : Machine σ) :
    (get : Op σ σ).run w m = (.ok m.store, m) := rfl

@[simp] theorem run_modify (f : σ → σ) (w : World) (m : Machine σ) :
    (modify f).run w m = (.ok (), { m with store := f m.store }) := rfl

@[simp] theorem run_raise (e : PyErr) (w : World) (m : Machine σ) :
    (raise e : Op σ α).run w m = (.error e, m) := rfl

@[simp] theorem run_world (w : World) (m : Machine σ) :
    (world : Op σ World).run w m = (.ok w, m) := rfl

@[simp] theorem run_ofExcept (x : Except PyErr α) (w : World) (m : Machine σ) :
    (ofExcept x : Op σ α).run w m = (x, m) := rfl

@[simp] theorem run_ensure (c : Bool) (e : PyErr) (w : World) (m : Machine σ) :
    (ensure c e : Op σ Unit).run w m = (if c then .ok () else .error e, m) :=
  Exec.run_ensure c e w m

/-- Nothing was written; the clock and the id supply may have moved on. -/
structure SameStore (m m' : Machine σ) : Prop where
  store : m'.store = m.store
  ticks : m.ticks ≤ m'.ticks
  draws : m.draws ≤ m'.draws

theorem SameStore.refl (m : Machine σ) : SameStore m m := ⟨rfl, Nat.le_refl _, Nat.le_refl _⟩

theorem SameStore.trans {a b c : Machine σ} (hab : SameStore a b) (hbc : SameStore b c) :
    SameStore a c :=
  ⟨hbc.store.trans hab.store, Nat.le_trans hab.ticks hbc.ticks, Nat.le_trans hab.draws hbc.draws⟩

/-- Run an operation for its effect. -/
def discard (x : Op σ α) : Op σ Unit := do
  let _ ← x
  return ()

theorem run_discard (x : Op σ α) (w : World) (m : Machine σ) :
    x.discard.run w m = ((x.run w m).1.map fun _ => (), (x.run w m).2) := by
  unfold discard
  rw [Exec.run_bind]
  rcases x.run w m with ⟨r, m'⟩
  cases r <;> rfl

theorem run_on (c : Component τ σ) (x : Op σ α) (w : World) (m : Machine τ) :
    (on c x).run w m =
      let r := x.run w ⟨c.get m.store, m.ticks, m.draws⟩
      (r.1, ⟨c.put r.2.store m.store, r.2.ticks, r.2.draws⟩) := rfl

theorem on_run {c : Component τ σ} {x : Op σ α} {w : World} {m : Machine τ} {n : Machine σ}
    {r : Except PyErr α} (h : x.run w ⟨c.get m.store, m.ticks, m.draws⟩ = (r, n)) :
    (on c x).run w m = (r, ⟨c.put n.store m.store, n.ticks, n.draws⟩) := by
  rw [run_on, h]

/-- What leaves its component alone leaves the whole store alone. -/
theorem on_read {c : Component τ σ} {x : Op σ α} {w : World} {m : Machine τ} {r : Except PyErr α}
    (h : x.run w ⟨c.get m.store, m.ticks, m.draws⟩ = (r, ⟨c.get m.store, m.ticks, m.draws⟩)) :
    (on c x).run w m = (r, m) := by
  rw [run_on, h]
  simp only [c.put_get]

/-- Inversion: the run on the whole store is a run on the component. -/
theorem on_cases {c : Component τ σ} {x : Op σ α} {w : World} {m m' : Machine τ}
    {r : Except PyErr α} (h : (on c x).run w m = (r, m')) :
    ∃ s, x.run w ⟨c.get m.store, m.ticks, m.draws⟩ = (r, s) ∧
      m' = ⟨c.put s.store m.store, s.ticks, s.draws⟩ := by
  rw [run_on] at h
  cases h
  exact ⟨_, rfl, rfl⟩

/-! Lifting commutes with sequencing, so a service on a lifted repository is the lifted
service. -/

section Lift
variable {β : Type} (c : Component τ σ)

theorem on_bind (x : Op σ α) (f : α → Op σ β) :
    on c (x >>= f) = on c x >>= fun a => on c (f a) := by
  apply congrArg Exec.mk
  funext w m
  rcases hx : x.run w ⟨c.get m.store, m.ticks, m.draws⟩ with ⟨r, m1⟩
  cases r <;> simp [Exec.run_bind, hx, machine, Exec.zoom, on, c.get_put, c.put_put]

theorem on_pure (a : α) : on c (pure a) = (pure a : Op τ α) := by
  apply congrArg Exec.mk
  funext w m
  simp [machine, c.put_get]

theorem on_now : on c now = (now : Op τ Instant) := by
  apply congrArg Exec.mk
  funext w m
  simp [machine, c.put_get]

theorem on_uuid4 : on c uuid4 = (uuid4 : Op τ Uuid) := by
  apply congrArg Exec.mk
  funext w m
  simp [machine, c.put_get]

theorem on_raise (e : PyErr) : on c (raise e : Op σ α) = (raise e : Op τ α) := by
  apply congrArg Exec.mk
  funext w m
  simp [machine, c.put_get]

theorem on_ofExcept (x : Except PyErr α) : on c (ofExcept x) = (ofExcept x : Op τ α) := by
  apply congrArg Exec.mk
  funext w m
  simp [machine, c.put_get]

theorem on_world : on c world = (world : Op τ World) := by
  apply congrArg Exec.mk
  funext w m
  simp [machine, c.put_get]

theorem on_ensure (b : Bool) (e : PyErr) : on c (ensure b e) = (ensure b e : Op τ Unit) := by
  cases b
  · exact on_raise c e
  · exact on_pure c ()

end Lift

/-! ## Changing one component -/

/-- Only the component `c` was written; the counters may have moved on. -/
structure Via (c : Component τ σ) (m m' : Machine τ) : Prop where
  store : m'.store = c.put (c.get m'.store) m.store
  ticks : m.ticks ≤ m'.ticks
  draws : m.draws ≤ m'.draws

namespace Via

variable {c : Component τ σ} {w : World} {β : Type}

theorem refl (m : Machine τ) : Via c m m := ⟨(c.put_get _).symm, Nat.le_refl _, Nat.le_refl _⟩

theorem trans {m₁ m₂ m₃ : Machine τ} (h : Via c m₁ m₂) (h' : Via c m₂ m₃) : Via c m₁ m₃ := by
  refine ⟨?_, Nat.le_trans h.ticks h'.ticks, Nat.le_trans h.draws h'.draws⟩
  rw [h'.store, h.store, c.put_put, c.get_put]

theorem pure (a : α) : Exec.Within (Via c) w (pure a : Op τ α) := Exec.Within.pure refl a

theorem raise (e : PyErr) : Exec.Within (Via c) w (raise e : Op τ α) := Exec.Within.raise refl e

theorem ofExcept (x : Except PyErr α) : Exec.Within (Via c) w (ofExcept x : Op τ α) :=
  Exec.Within.ofExcept refl x

theorem world : Exec.Within (Via c) w (world : Op τ World) := refl

theorem now : Exec.Within (Via c) w (now : Op τ Instant) :=
  fun _ => ⟨(c.put_get _).symm, Nat.le_succ _, Nat.le_refl _⟩

theorem uuid4 : Exec.Within (Via c) w (uuid4 : Op τ Uuid) :=
  fun _ => ⟨(c.put_get _).symm, Nat.le_refl _, Nat.le_succ _⟩

theorem bind {x : Op τ α} {f : α → Op τ β} (hx : Exec.Within (Via c) w x)
    (hf : ∀ a, Exec.Within (Via c) w (f a)) : Exec.Within (Via c) w (x >>= f) :=
  Exec.Within.bind trans hx hf

theorem forEach {f : β → Op τ Unit} (hf : ∀ b, Exec.Within (Via c) w (f b)) (bs : List β) :
    Exec.Within (Via c) w (Exec.forEach f bs) :=
  Exec.Within.forEach refl trans hf bs

theorem of_run {x : Op τ α} {m m' : Machine τ} {r : Except PyErr α}
    (h : x.run w m = (r, m')) (hx : Exec.Within (Via c) w x) : Via c m m' := by
  have hm := hx m
  rwa [h] at hm

theorem of_same {x : Op τ α} (hx : ∀ m, SameStore m (x.run w m).2) :
    Exec.Within (Via c) w x := by
  intro m
  obtain ⟨hstore, hticks, hdraws⟩ := hx m
  exact ⟨by rw [hstore, c.put_get], hticks, hdraws⟩

/-- An operation of the component that does not turn the counters back. -/
theorem on {x : Op σ α} (hx : ∀ m, m.ticks ≤ (x.run w m).2.ticks ∧ m.draws ≤ (x.run w m).2.draws) :
    Exec.Within (Via c) w (on c x) := by
  intro m
  obtain ⟨hticks, hdraws⟩ := hx ⟨c.get m.store, m.ticks, m.draws⟩
  rw [run_on]
  exact ⟨by simp only [c.get_put], hticks, hdraws⟩

end Via

end Op

end GhostMesh
