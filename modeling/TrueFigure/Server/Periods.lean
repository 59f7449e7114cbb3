import TrueFigure.Python.DateTime

/-!
# Periods

`domain/entities/periods.py`: the grammar of `YYYY-MM` and `YYYY-qN`, and the
first and last day of a period. Days are ordinals.
-/
namespace TrueFigure.Server

open TrueFigure.Python

inductive Period
  | month (year month : ℕ)
  | quarter (year quarter : ℕ)
  deriving DecidableEq, Repr

/-- What a final `$` of a pattern leaves to match: it also matches before a last
line feed. -/
def chomped (s : PyStr) : PyStr := if s.getLast? = some 10 then s.dropLast else s

/-- `_MONTH` and `_QUARTER`. -/
def Period.parse (text : PyStr) : Option Period :=
  let text := chomped text
  match fixedInt 4 (text.take 4), text.drop 4 with
  | some year, 0x2D :: 0x71 :: rest =>
    match fixedInt 1 rest with
    | some q => if 1 ≤ q ∧ q ≤ 4 then some (.quarter year q) else none
    | none => none
  | some year, 0x2D :: rest =>
    match fixedInt 2 rest with
    | some m => if 1 ≤ m ∧ m ≤ 12 then some (.month year m) else none
    | none => none
  | _, _ => none

/-- `date(year, month, 1)`. -/
def firstOf (year month : ℕ) : Except PyErr ℤ :=
  if 1 ≤ year ∧ year ≤ 9999 then .ok (toOrdinal year month 1)
  else .error (.valueError (py "year " ++ py (toString year) ++ py " is out of range"))

/-- The first day of a period and the first one after it. -/
def Period.span : Period → Except PyErr (ℤ × ℤ)
  | .month year m => do
    let start ← firstOf year m
    let next ← if m = 12 then firstOf (year + 1) 1 else firstOf year (m + 1)
    .ok (start, next)
  | .quarter year q => do
    let start ← firstOf year ((q - 1) * 3 + 1)
    let next ← if 12 < (q - 1) * 3 + 4 then firstOf (year + 1) 1 else firstOf year ((q - 1) * 3 + 4)
    .ok (start, next)

/-- `period_bounds`: the first and the last day. -/
def periodBounds (text : PyStr) : Except PyErr (ℤ × ℤ) :=
  match Period.parse text with
  | some period => do
    let (start, next) ← period.span
    .ok (start, next - 1)
  | none => .error (.valueError (py "bad period"))

example : periodBounds (py "2026-07") = .ok (739798, 739828) := by decide

example : periodBounds (py "2026-q1") = .ok (739617, 739706) := by decide

end TrueFigure.Server
