import Mathlib.Algebra.Group.Int.Defs
import Mathlib.Data.Int.Notation

/-!
# Aware datetimes

An instant counts the microseconds since 0001-01-01T00:00:00 UTC. Adding seconds
fails where `timedelta` or the result leaves its range.
-/

set_option autoImplicit false

namespace GhostMesh

abbrev Instant := Int

/-- `datetime.max`, 9999-12-31T23:59:59.999999. -/
def Instant.max : Instant := 315537897599999999

/-- `t + timedelta(seconds=n)`; `none` is an `OverflowError`. -/
def Instant.addSeconds (t : Instant) (n : Int) : Option Instant :=
  let days := n / 86400
  let sum := t + n * 1000000
  if days < -999999999 ∨ 999999999 < days then none
  else if sum < 0 ∨ Instant.max < sum then none
  else some sum

def isLeap (year : Nat) : Bool := year % 4 = 0 && (year % 100 ≠ 0 || year % 400 = 0)

def daysInMonth (year month : Nat) : Nat :=
  if month = 2 then (if isLeap year then 29 else 28)
  else if month = 4 ∨ month = 6 ∨ month = 9 ∨ month = 11 then 30 else 31

/-- Month and day of a zero-based day of the year, searching from `month` on. -/
def monthDay (year : Nat) : Nat → Nat → Nat → Nat × Nat
  | 0, month, day => (month, day + 1)
  | fuel + 1, month, day =>
    if day < daysInMonth year month then (month, day + 1)
    else monthDay year fuel (month + 1) (day - daysInMonth year month)

/-- Year, month and day of a zero-based proleptic Gregorian day number. -/
def civil (n : Nat) : Nat × Nat × Nat :=
  let n400 := n / 146097
  let r400 := n % 146097
  let n100 := min (r400 / 36524) 3
  let r100 := r400 - n100 * 36524
  let n4 := r100 / 1461
  let r4 := r100 % 1461
  let n1 := min (r4 / 365) 3
  let year := n400 * 400 + n100 * 100 + n4 * 4 + n1 + 1
  let (month, day) := monthDay year 11 1 (r4 - n1 * 365)
  (year, month, day)

def padded (width n : Nat) : String :=
  let digits := Nat.toDigits 10 n
  String.ofList (List.replicate (width - digits.length) '0' ++ digits)

/-- Date and time of day, with microseconds where there are any. -/
def Instant.naiveformat (t : Instant) : String :=
  let micros := t.toNat
  let (year, month, day) := civil (micros / 86400000000)
  let rest := micros % 86400000000
  let fraction := rest % 1000000
  let seconds := rest / 1000000
  padded 4 year ++ "-" ++ padded 2 month ++ "-" ++ padded 2 day ++ "T" ++
    padded 2 (seconds / 3600) ++ ":" ++ padded 2 (seconds / 60 % 60) ++ ":" ++
    padded 2 (seconds % 60) ++ (if fraction = 0 then "" else "." ++ padded 6 fraction)

/-- `t.isoformat()`. -/
def Instant.isoformat (t : Instant) : String := t.naiveformat ++ "+00:00"

/-- How pydantic dumps a UTC datetime. -/
def Instant.jsonformat (t : Instant) : String := t.naiveformat ++ "Z"

example : Instant.isoformat 63871286400000001 = "2025-01-01T00:00:00.000001+00:00" := by decide

end GhostMesh
