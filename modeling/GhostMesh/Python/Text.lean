import GhostMesh.Python.World

/-!
# `str` and `repr` of JSON values
-/

set_option autoImplicit false

namespace GhostMesh

def hexPadded (width n : Nat) : List Char :=
  let digits := Nat.toDigits 16 n
  List.replicate (width - digits.length) '0' ++ digits

def reprChar (w : World) (quote c : Char) : List Char :=
  if c = '\\' ∨ c = quote then ['\\', c]
  else if c = '\n' then ['\\', 'n']
  else if c = '\r' then ['\\', 'r']
  else if c = '\t' then ['\\', 't']
  else if w.isPrintable c then [c]
  else if c.toNat < 256 then '\\' :: 'x' :: hexPadded 2 c.toNat
  else if c.toNat < 65536 then '\\' :: 'u' :: hexPadded 4 c.toNat
  else '\\' :: 'U' :: hexPadded 8 c.toNat

/-- `repr(s)`: double quotes only where `s` has a single quote and no double one. -/
def reprStr (w : World) (s : String) : String :=
  let quote := if '\'' ∈ s.toList ∧ '"' ∉ s.toList then '"' else '\''
  String.ofList (quote :: s.toList.flatMap (reprChar w quote) ++ [quote])

mutual

def Json.repr (w : World) : Json → String
  | .null => "None"
  | .bool b => if b then "True" else "False"
  | .int n => toString n
  | .float x => w.floatRepr x
  | .str s => reprStr w s
  | .list xs => "[" ++ ", ".intercalate (Json.reprItems w xs) ++ "]"
  | .obj fields => "\x7b" ++ ", ".intercalate (Json.reprFields w fields) ++ "\x7d"

def Json.reprItems (w : World) : List Json → List String
  | [] => []
  | x :: xs => Json.repr w x :: Json.reprItems w xs

def Json.reprFields (w : World) : List (String × Json) → List String
  | [] => []
  | (k, x) :: rest => (reprStr w k ++ ": " ++ Json.repr w x) :: Json.reprFields w rest

end

/-- `str(value)`, also what an f-string shows. -/
def Json.pyStr (w : World) : Json → String
  | .str s => s
  | value => value.repr w

/-- Lists and objects have no hash: looking one up in a set is a `TypeError`. -/
def Json.hashable : Json → Bool
  | .list _ | .obj _ => false
  | _ => true

end GhostMesh
