import GhostMesh.Domain.Models
import GhostMesh.Python.Text

/-!
# Artifact acceptance rules

Contract rules are untyped objects; what `int`, iteration and `str` do to a value
decides what a rule asks for.
-/

set_option autoImplicit false

namespace GhostMesh

/-- The digits of `int(str)`: single underscores may stand between digits. -/
def intDigits (w : World) : Bool → Nat → List Char → Option Nat
  | afterDigit, acc, [] => if afterDigit then some acc else none
  | afterDigit, acc, '_' :: cs => if afterDigit then intDigits w false acc cs else none
  | _, acc, c :: cs => match w.decimal c with
    | some d => intDigits w true (acc * 10 + d) cs
    | none => none

def stripped (w : World) (s : String) : List Char :=
  ((s.toList.dropWhile w.isSpace).reverse.dropWhile w.isSpace).reverse

def intOfStr (w : World) (s : String) : Option Int :=
  match stripped w s with
  | '-' :: cs => (intDigits w false 0 cs).map (fun n => -Int.ofNat n)
  | '+' :: cs => (intDigits w false 0 cs).map Int.ofNat
  | cs => (intDigits w false 0 cs).map Int.ofNat

/-- The digits before the first character that is neither a digit nor an underscore, or
none where an underscore is out of place. -/
def scannedDigits (w : World) : Bool → Nat → List Char → Nat
  | afterDigit, n, [] => if afterDigit then n else 0
  | afterDigit, n, '_' :: cs => if afterDigit then scannedDigits w false n cs else 0
  | afterDigit, n, c :: cs => match w.decimal c with
    | some _ => scannedDigits w true (n + 1) cs
    | none => if afterDigit then n else 0

/-- The digits that `int(str)` would have to convert. -/
def digitsOfStr (w : World) (s : String) : Nat :=
  match stripped w s with
  | '-' :: cs => scannedDigits w false 0 cs
  | '+' :: cs => scannedDigits w false 0 cs
  | cs => scannedDigits w false 0 cs

/-- `sys.int_info.default_max_str_digits`. -/
def maxStrDigits : Nat := 4300

/-- `int(value)`. An integer is one that `json.loads` reads, which has the same limit. -/
def Json.toInt (w : World) : Json → Except PyErr Int
  | .int n => .ok n
  | .bool b => .ok (if b then 1 else 0)
  | .float (.finite m e) => .ok (if 0 ≤ e then m * 2 ^ e.toNat else m.tdiv (2 ^ (-e).toNat))
  | .float .nan => .error (.value "cannot convert float NaN to integer")
  | .float (.infinite _) => .error .overflow
  | .str s =>
    if maxStrDigits < digitsOfStr w s then
      .error (.value
        (s!"Exceeds the limit ({maxStrDigits} digits) for integer string conversion: value has " ++
          s!"{digitsOfStr w s} digits; use sys.set_int_max_str_digits() to increase the limit"))
    else match intOfStr w s with
      | some n => .ok n
      | none =>
        let literal := String.ofList ((reprStr w s).toList.take 200)
        .error (.value s!"invalid literal for int() with base 10: {literal}")
  | _ => .error (.type "int() argument must be a string, a bytes-like object or a real number")

/-- `{str(item) for item in value}`. -/
def Json.strItems (w : World) : Json → Except PyErr (List String)
  | .list xs => .ok (xs.map (Json.pyStr w)).dedup
  | .obj fields => .ok (fields.map Prod.fst).dedup
  | .str s => .ok (s.toList.map (fun c => String.ofList [c])).dedup
  | _ => .error (.type "object is not iterable")

def validateStructure : List ArtifactReference → Except PyErr Unit
  | [] => .ok ()
  | ref :: rest =>
    if ref.storageRef = "" then
      .error (.invalidOperation "artifact reference is missing storage_ref")
    else if !"sha256:".toList.isPrefixOf ref.contentHash.toList then
      .error (.invalidOperation s!"artifact '{ref.id.str}' content_hash must use sha256")
    else if ref.sizeBytes < 0 then
      .error (.invalidOperation s!"artifact '{ref.id.str}' has invalid size")
    else validateStructure rest

def presentRoles (w : World) (refs : List ArtifactReference) : List String :=
  refs.map fun ref => (JsonObj.getD ref.metadata "role" .null).pyStr w

def validateRequiredArtifacts (w : World) (refs : List ArtifactReference) (rule : JsonObj) :
    Except PyErr Unit := do
  let minCount ← (JsonObj.getD rule "min_count" (.int 1)).toInt w
  if (refs.length : Int) < minCount then
    .error (.invalidOperation
      s!"acceptance contract requires at least {minCount} artifact reference(s)")
  else do
    let requiredRoles ← (JsonObj.getD rule "roles" (.list [])).strItems w
    let missing := requiredRoles.filter (· ∉ presentRoles w refs)
    if missing = [] then .ok ()
    else
      let formatted := ", ".intercalate (missing.mergeSort (fun a b => decide (a ≤ b)))
      .error (.invalidOperation s!"missing required artifact role(s): {formatted}")

def applyRule (w : World) (refs : List ArtifactReference) (rule : JsonObj) : Except PyErr Unit :=
  match JsonObj.get? rule "type" with
  | some (.str "artifact_reference_structure") => validateStructure refs
  | some (.str "required_artifacts") => validateRequiredArtifacts w refs rule
  | _ => .ok ()

def applyRules (w : World) (refs : List ArtifactReference) : List JsonObj → Except PyErr Unit
  | [] => .ok ()
  | rule :: rest => do
    applyRule w refs rule
    applyRules w refs rest

/-- The caller has already looked the contract up, so there is one. -/
def validateArtifactReferences (w : World) (refs : List ArtifactReference)
    (contract : AcceptanceContract) : Except PyErr Unit :=
  applyRules w refs contract.rules

end GhostMesh
