import GhostMesh.Lib.Dict

/-!
# JSON values

What `dict[str, Any]` fields hold: card payloads, node configuration, event
payloads. An object keeps its fields in insertion order.
-/

set_option autoImplicit false

namespace GhostMesh

/-- A finite float is `mantissa * 2 ^ exponent`. -/
inductive PyFloat where
  | finite (mantissa exponent : Int)
  | infinite (negative : Bool)
  | nan
deriving DecidableEq

inductive Json where
  | null
  | bool (b : Bool)
  | int (n : Int)
  | float (x : PyFloat)
  | str (s : String)
  | list (xs : List Json)
  | obj (fields : List (String × Json))

abbrev JsonObj := List (String × Json)

def PyFloat.truthy : PyFloat → Bool
  | .finite mantissa _ => mantissa ≠ 0
  | _ => true

/-- `bool(value)`. -/
def Json.truthy : Json → Bool
  | .null => false
  | .bool b => b
  | .int n => n ≠ 0
  | .float x => x.truthy
  | .str s => s ≠ ""
  | .list xs => !xs.isEmpty
  | .obj fields => !fields.isEmpty

/-- An optional string that Python treats as present: `none` and `""` are falsy. -/
def truthyStr : Option String → Option String
  | some s => if s = "" then none else some s
  | none => none

def Json.isTrue : Json → Bool
  | .bool true => true
  | _ => false

def Json.isStr (s : String) : Json → Bool
  | .str s' => s' = s
  | _ => false

def Json.ofOptionStr : Option String → Json
  | some s => .str s
  | none => .null

def Json.ofStrings (ss : List String) : Json := .list (ss.map .str)

namespace JsonObj

/-- `obj.get(key)`, with `none` for an absent key. -/
def get? (o : JsonObj) (key : String) : Option Json := Dict.lookupIn key o

def getD (o : JsonObj) (key : String) (default : Json) : Json := (o.get? key).getD default

def set (o : JsonObj) (key : String) (value : Json) : JsonObj := Dict.insertIn key value o

/-- `o.update(other)`, also `{**o, **other}`. -/
def update (o other : JsonObj) : JsonObj := other.foldl (fun acc e => acc.set e.1 e.2) o

@[simp] theorem get?_set_self (o : JsonObj) (key : String) (value : Json) :
    (o.set key value).get? key = some value := by
  simp [get?, set, Dict.lookupIn_insertIn]

theorem get?_set_ne (o : JsonObj) {key key' : String} (value : Json) (h : key' ≠ key) :
    (o.set key value).get? key' = o.get? key' := by
  simp [get?, set, Dict.lookupIn_insertIn, h]

@[simp] theorem get?_nil (key : String) : get? [] key = none := rfl

/-- An updated object answers from the update and else from the object. -/
theorem get?_update (o other : JsonObj) (key : String) :
    (o.update other).get? key = ((update [] other).get? key).or (o.get? key) := by
  induction other generalizing o with
  | nil => rfl
  | cons e es ih =>
    have hstep : ∀ o' : JsonObj, o'.update (e :: es) = (o'.set e.1 e.2).update es := fun _ => rfl
    rw [hstep, hstep, ih, ih (JsonObj.set [] e.1 e.2), Option.or_assoc]
    congr 1
    by_cases hkey : key = e.1
    · rw [hkey, get?_set_self, get?_set_self]
      rfl
    · rw [get?_set_ne _ _ hkey, get?_set_ne _ _ hkey]
      rfl

/-- A key that the update does not have keeps its value. -/
theorem get?_update_absent {o other : JsonObj} {key : String} (h : other.get? key = none) :
    (o.update other).get? key = o.get? key := by
  induction other generalizing o with
  | nil => rfl
  | cons e es ih =>
    obtain ⟨k, v⟩ := e
    by_cases hkey : k = key
    · simp [get?, Dict.lookupIn, hkey] at h
    · have hes : get? es key = none := by simpa [get?, Dict.lookupIn, hkey] using h
      have hset : (o.set k v).get? key = o.get? key := get?_set_ne o v (Ne.symm hkey)
      exact (ih hes).trans hset

/-- `dict` of an object with one field set answers as before on the other keys. -/
theorem get?_update_nil_set {key key' : String} (h : key ≠ key') (value : Json) (o : JsonObj) :
    (update [] (o.set key' value)).get? key = (update [] o).get? key := by
  have hcons : ∀ (e : String × Json) (es : JsonObj), (update [] (e :: es)).get? key =
      ((update [] es).get? key).or ((JsonObj.set [] e.1 e.2).get? key) := by
    intro e es
    exact get?_update (JsonObj.set [] e.1 e.2) es key
  have hsingle : (JsonObj.set [] key' value).get? key = none := get?_set_ne [] value h
  induction o with
  | nil => exact hsingle
  | cons e es ih =>
    obtain ⟨k, v⟩ := e
    by_cases hk : k = key'
    · have hset : JsonObj.set ((k, v) :: es) key' value = (key', value) :: es := by
        simp [JsonObj.set, Dict.insertIn, hk]
      rw [hset, hcons, hcons, hsingle, hk, get?_set_ne [] v h, get?_nil]
    · have hset : JsonObj.set ((k, v) :: es) key' value = (k, v) :: JsonObj.set es key' value := by
        simp [JsonObj.set, Dict.insertIn, hk]
      rw [hset, hcons, hcons, ih]

end JsonObj

end GhostMesh
