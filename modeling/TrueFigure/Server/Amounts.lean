import TrueFigure.Python.Text
import TrueFigure.Server.Reports

/-!
# Amounts

Python's `Decimal` as the engine uses it: sums and products in the default context
of 28 digits, and values bound to `NUMERIC(20,6)` columns.
-/
namespace TrueFigure.Server

open TrueFigure.Python

inductive Decimal
  | finite (q : ℚ)
  | infinite (negative : Bool)
  | nan
  | signalingNan
  deriving DecidableEq

namespace Decimal

/-- The greatest exponent of the default context. -/
def emax : ℤ := 999999

/-- A result in the default context: rounded half to even to 28 digits; overflow
raises. -/
def rounded (q : ℚ) : Except PyErr Decimal :=
  if q = 0 then .ok (.finite 0)
  else
    let scale : ℚ := (10 : ℚ) ^ (27 - Int.log 10 |q|)
    let r := roundHalfEven (q * scale) / scale
    if emax < Int.log 10 |r| then .error .decimalError else .ok (.finite r)

def signed (negative : Bool) (q : ℚ) : Except PyErr Decimal :=
  if q = 0 then .error .decimalError else .ok (.infinite (negative != decide (q < 0)))

/-- `a * b`. -/
def mul : Decimal → Decimal → Except PyErr Decimal
  | .signalingNan, _ | _, .signalingNan => .error .decimalError
  | .nan, _ | _, .nan => .ok .nan
  | .finite a, .finite b => rounded (a * b)
  | .infinite a, .finite b => signed a b
  | .finite a, .infinite b => signed b a
  | .infinite a, .infinite b => .ok (.infinite (a != b))

/-- `a + b`. -/
def add : Decimal → Decimal → Except PyErr Decimal
  | .signalingNan, _ | _, .signalingNan => .error .decimalError
  | .nan, _ | _, .nan => .ok .nan
  | .finite a, .finite b => rounded (a + b)
  | .infinite a, .finite _ => .ok (.infinite a)
  | .finite _, .infinite b => .ok (.infinite b)
  | .infinite a, .infinite b => if a = b then .ok (.infinite a) else .error .decimalError

/-- A parameter of a `NUMERIC(20,6)` column. -/
def toColumn : Decimal → Except DbError FigureValue
  | .finite q => (Numeric.ofMicros (Numeric.roundHalfAway (q * 10 ^ 6))).map .number
  | .infinite _ => .error .numericOverflow
  | .nan | .signalingNan => .ok .nan

end Decimal

/-- The `Decimal` the driver reads from a `NUMERIC` column. -/
def FigureValue.toDecimal : FigureValue → Decimal
  | .number n => .finite (n.micros / 10 ^ 6)
  | .nan => .nan

/-- What the runtime brings to `Decimal(str(x))`: the numbers its strings stand for
and the shortest text of a float. -/
structure DecimalText where
  ofText : PyStr → Option Decimal
  shortest : ℚ → ℚ

/-- `Decimal(str(x))` of a JSON value: the text of anything but a number or a
string is no numeral. -/
def decimalOf (rt : DecimalText) : Json → Except PyErr Decimal
  | .num (.int n) => .ok (.finite n)
  | .num (.float q) => .ok (.finite (rt.shortest q))
  | .num .posInf => .ok (.infinite false)
  | .num .negInf => .ok (.infinite true)
  | .num .nan => .ok .nan
  | .str s =>
    match rt.ofText s with
    | some d => .ok d
    | none => .error .decimalError
  | _ => .error .decimalError

example : Decimal.mul (.finite 3) (.finite 7) = .ok (.finite 21) := by decide +kernel

end TrueFigure.Server
