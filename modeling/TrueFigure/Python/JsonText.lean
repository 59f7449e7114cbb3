import Mathlib.Data.Int.Log
import TrueFigure.Python.Text

/-!
# JSON texts

`json.loads` and `json.dumps` of the standard library, with their defaults: the
decoder is strict about control characters in strings, joins escaped surrogate
pairs, keeps the last of several equal keys and knows `NaN` and the infinities;
the encoder escapes everything but printable ASCII.
-/
namespace TrueFigure.Python

/-- How `json.loads` fails. -/
inductive LoadsError
  /-- `json.JSONDecodeError`. -/
  | decode
  /-- The `ValueError` of `int` for more than 4300 digits. -/
  | digits
  /-- `RecursionError`. -/
  | recursion
  deriving DecidableEq, Repr

def isJsonSpace (c : CodePoint) : Bool :=
  c.val = 0x20 || c.val = 0x09 || c.val = 0x0A || c.val = 0x0D

def skipSpace (s : PyStr) : PyStr := s.dropWhile isJsonSpace

/-! ### Strings -/

def hexValue? (c : CodePoint) : Option ℕ :=
  if 0x30 ≤ c.val ∧ c.val ≤ 0x39 then some (c.val - 0x30)
  else if 0x61 ≤ c.val ∧ c.val ≤ 0x66 then some (c.val - 0x57)
  else if 0x41 ≤ c.val ∧ c.val ≤ 0x46 then some (c.val - 0x37)
  else none

/-- The code unit of four hex digits. -/
def hex4 (a b c d : CodePoint) : Option ℕ := do
  let a ← hexValue? a
  let b ← hexValue? b
  let c ← hexValue? c
  let d ← hexValue? d
  some (((a * 16 + b) * 16 + c) * 16 + d)

def isHighUnit (u : ℕ) : Bool := 0xD800 ≤ u && u ≤ 0xDBFF

def isLowUnit (u : ℕ) : Bool := 0xDC00 ≤ u && u ≤ 0xDFFF

/-- The character of a surrogate pair. -/
def joinUnits (high low : ℕ) : CodePoint :=
  Fin.ofNat 0x110000 (0x10000 + (high - 0xD800) * 0x400 + (low - 0xDC00))

def shortEscape? (c : CodePoint) : Option CodePoint :=
  if c = 0x22 ∨ c = 0x5C ∨ c = 0x2F then some c
  else if c = 0x62 then some 0x08
  else if c = 0x66 then some 0x0C
  else if c = 0x6E then some 0x0A
  else if c = 0x72 then some 0x0D
  else if c = 0x74 then some 0x09
  else none

/-- What stands for one code unit of a string. -/
inductive TextUnit
  | plain (c : CodePoint)
  /-- Four hex digits behind `\u`. -/
  | escaped (unit : ℕ)

def TextUnit.char : TextUnit → CodePoint
  | .plain c => c
  | .escaped unit => Fin.ofNat 0x110000 unit

/-- An escaped high surrogate joins an escaped low one that follows. -/
def joinPairs : List TextUnit → PyStr
  | [] => []
  | .escaped high :: .escaped low :: units =>
    if isHighUnit high && isLowUnit low then joinUnits high low :: joinPairs units
    else TextUnit.char (.escaped high) :: joinPairs (.escaped low :: units)
  | u :: units => u.char :: joinPairs units

/-- The units behind the opening quote, and what follows the closing one. -/
def scanUnits : PyStr → Except LoadsError (List TextUnit × PyStr)
  | [] => .error .decode
  | c :: s =>
    if c = 0x22 then .ok ([], s)
    else if c = 0x5C then
      match s with
      | [] => .error .decode
      | e :: s =>
        if e = 0x75 then
          match s with
          | a :: b :: c :: d :: s =>
            match hex4 a b c d with
            | none => .error .decode
            | some unit => (scanUnits s).map fun r => (.escaped unit :: r.1, r.2)
          | _ => .error .decode
        else
          match shortEscape? e with
          | none => .error .decode
          | some c => (scanUnits s).map fun r => (.plain c :: r.1, r.2)
    else if c.val < 0x20 then .error .decode
    else (scanUnits s).map fun r => (.plain c :: r.1, r.2)

/-- `scanstring`, behind the opening quote. -/
def scanString (s : PyStr) : Except LoadsError (PyStr × PyStr) :=
  (scanUnits s).map fun r => (joinPairs r.1, r.2)

/-! ### Numbers -/

/-- The nearest double, an infinity beyond them. -/
def toDouble (q : ℚ) : PyNum :=
  if q = 0 then .float 0
  else
    let ulp : ℚ := 2 ^ max (Int.log 2 |q| - 52) (-1074)
    let x := roundHalfEven (q / ulp) * ulp
    if |x| < 2 ^ 1024 then .float x else if 0 < q then .posInf else .negInf

/-- The parts of a number: sign, integer digits, fraction digits, exponent. -/
structure Numeral where
  negative : Bool
  integer : PyStr
  fraction : Option PyStr
  exponent : Option ℤ

/-- `sys.int_info.default_max_str_digits`. -/
def maxStrDigits : ℕ := 4300

/-- `int(…)` without a fraction and an exponent, else `float(…)`. -/
def Numeral.value (n : Numeral) : Except LoadsError PyNum :=
  let sign : ℤ := if n.negative then -1 else 1
  match n.fraction, n.exponent with
  | none, none =>
    if maxStrDigits < n.integer.length then .error .digits
    else .ok (.int (sign * digitsValue n.integer))
  | fraction, exponent =>
    let digits := fraction.getD []
    let mantissa : ℚ := sign * digitsValue (n.integer ++ digits)
    .ok (toDouble (mantissa * 10 ^ (exponent.getD 0 - digits.length)))

/-- `-?`. -/
def scanSign : PyStr → Bool × PyStr
  | [] => (false, [])
  | c :: s => if c = 0x2D then (true, s) else (false, c :: s)

/-- `0|[1-9][0-9]*`. -/
def scanInteger : PyStr → Option (PyStr × PyStr)
  | [] => none
  | c :: s =>
    if c = 0x30 then some ([c], s)
    else if isDigit c then some (c :: s.takeWhile isDigit, s.dropWhile isDigit)
    else none

/-- `(\.[0-9]+)?`. -/
def scanFraction : PyStr → Option PyStr × PyStr
  | [] => (none, [])
  | c :: s =>
    if c = 0x2E ∧ s.takeWhile isDigit ≠ [] then
      (some (s.takeWhile isDigit), s.dropWhile isDigit)
    else (none, c :: s)

def scanExponentSign : PyStr → ℤ × PyStr
  | [] => (1, [])
  | c :: s => if c = 0x2D then (-1, s) else if c = 0x2B then (1, s) else (1, c :: s)

/-- `([eE][-+]?[0-9]+)?`. -/
def scanExponent : PyStr → Option ℤ × PyStr
  | [] => (none, [])
  | c :: s =>
    let (sign, t) := scanExponentSign s
    if (c = 0x65 ∨ c = 0x45) ∧ t.takeWhile isDigit ≠ [] then
      (some (sign * digitsValue (t.takeWhile isDigit)), t.dropWhile isDigit)
    else (none, c :: s)

/-- `_match_number`. -/
def scanNumber (s : PyStr) : Except LoadsError (PyNum × PyStr) :=
  let (negative, s) := scanSign s
  match scanInteger s with
  | none => .error .decode
  | some (integer, s) =>
    let (fraction, s) := scanFraction s
    let (exponent, s) := scanExponent s
    (Numeral.value ⟨negative, integer, fraction, exponent⟩).map fun n => (n, s)

/-! ### Values -/

/-- The texts with a meaning of their own. -/
def constants : List (PyStr × Json) :=
  [(py "null", .null), (py "true", .bool true), (py "false", .bool false),
    (py "NaN", .num .nan), (py "Infinity", .num .posInf), (py "-Infinity", .num .negInf)]

def scanConstant (s : PyStr) : Option (Json × PyStr) :=
  constants.findSome? fun (t, v) => if t.isPrefixOf s then some (v, s.drop t.length) else none

/-- `d[key] = value`. -/
def Dict.set : Dict → PyStr → Json → Dict
  | [], key, value => [(key, value)]
  | (k, v) :: d, key, value =>
    if k = key then (key, value) :: d else (k, v) :: Dict.set d key value

/-- What follows a character, where the text starts with it. -/
def expect (c : CodePoint) : PyStr → Except LoadsError PyStr
  | [] => .error .decode
  | d :: s => if d = c then .ok s else .error .decode

mutual

/-- `scan_once`. Every call passes on less fuel. -/
def scanOnce : ℕ → PyStr → Except LoadsError (Json × PyStr)
  | 0, _ => .error .decode
  | _ + 1, [] => .error .decode
  | fuel + 1, c :: s =>
    if c = 0x22 then (scanString s).map fun r => (.str r.1, r.2)
    else if c = 0x7B then
      match skipSpace s with
      | [] => .error .decode
      | d :: t => if d = 0x7D then .ok (.obj [], t) else scanFields fuel [] (d :: t)
    else if c = 0x5B then
      match skipSpace s with
      | [] => .error .decode
      | d :: t => if d = 0x5D then .ok (.arr [], t) else scanItems fuel [] (d :: t)
    else
      match scanConstant (c :: s) with
      | some r => .ok r
      | none => (scanNumber (c :: s)).map fun r => (.num r.1, r.2)

/-- The loop of `JSONArray`. -/
def scanItems : ℕ → List Json → PyStr → Except LoadsError (Json × PyStr)
  | 0, _, _ => .error .decode
  | fuel + 1, items, s => do
    let (item, s) ← scanOnce fuel s
    match skipSpace s with
    | [] => .error .decode
    | c :: s =>
      if c = 0x5D then .ok (.arr (items ++ [item]), s)
      else if c = 0x2C then scanItems fuel (items ++ [item]) (skipSpace s)
      else .error .decode

/-- The loop of `JSONObject`. -/
def scanFields : ℕ → Dict → PyStr → Except LoadsError (Json × PyStr)
  | 0, _, _ => .error .decode
  | fuel + 1, fields, s => do
    let s ← expect 0x22 s
    let (key, s) ← scanString s
    let s ← expect 0x3A (skipSpace s)
    let (value, s) ← scanOnce fuel (skipSpace s)
    match skipSpace s with
    | [] => .error .decode
    | c :: s =>
      if c = 0x7D then .ok (.obj (Dict.set fields key value), s)
      else if c = 0x2C then scanFields fuel (Dict.set fields key value) (skipSpace s)
      else .error .decode

end

/-- `json.loads(s)`. -/
def jsonLoads (s : PyStr) : Except LoadsError Json := do
  let (value, rest) ← scanOnce (2 * s.length + 1) (skipSpace s)
  if skipSpace rest = [] then .ok value else .error .decode

/-! ### The stack -/

mutual

/-- The lists and objects that are open at once in `scan_once`, at most. -/
def nestedOnce : ℕ → PyStr → ℕ
  | 0, _ => 0
  | _ + 1, [] => 0
  | fuel + 1, c :: s =>
    if c = 0x7B then
      match skipSpace s with
      | [] => 1
      | d :: t => if d = 0x7D then 1 else 1 + nestedFields fuel (d :: t)
    else if c = 0x5B then
      match skipSpace s with
      | [] => 1
      | d :: t => if d = 0x5D then 1 else 1 + nestedItems fuel (d :: t)
    else 0

/-- In the loop of `JSONArray`. -/
def nestedItems : ℕ → PyStr → ℕ
  | 0, _ => 0
  | fuel + 1, s =>
    max (nestedOnce fuel s) <|
      match scanOnce fuel s with
      | .error _ => 0
      | .ok (_, s) =>
        match skipSpace s with
        | [] => 0
        | c :: s => if c = 0x2C then nestedItems fuel (skipSpace s) else 0

/-- In the loop of `JSONObject`. -/
def nestedFields : ℕ → PyStr → ℕ
  | 0, _ => 0
  | fuel + 1, s =>
    match expect 0x22 s >>= scanString >>= fun r => expect 0x3A (skipSpace r.2) with
    | .error _ => 0
    | .ok s =>
      max (nestedOnce fuel (skipSpace s)) <|
        match scanOnce fuel (skipSpace s) with
        | .error _ => 0
        | .ok (_, s) =>
          match skipSpace s with
          | [] => 0
          | c :: s => if c = 0x2C then nestedFields fuel (skipSpace s) else 0

end

/-- How deep `json.loads` comes to be in lists and objects, up to where it ends or fails. -/
def nesting (s : PyStr) : ℕ := nestedOnce (2 * s.length + 1) (skipSpace s)

/-- `json.loads` of an interpreter. -/
abbrev Decoder := PyStr → Except LoadsError Json

/-- `json.loads(s)` where the stack has room for so many open lists and objects: the scanner
counts its calls, whatever it would read behind the one too many. -/
def jsonLoadsWithin (room : ℕ) : Decoder := fun s =>
  if room < nesting s then .error .recursion else jsonLoads s

theorem jsonLoadsWithin_eq_ok {room : ℕ} {s : PyStr} {v : Json} :
    jsonLoadsWithin room s = .ok v ↔ nesting s ≤ room ∧ jsonLoads s = .ok v := by
  unfold jsonLoadsWithin
  split_ifs with h
  · refine iff_of_false ?_ fun hv => absurd hv.1 (by omega)
    rintro ⟨⟩
  · exact ⟨fun hv => ⟨by omega, hv⟩, fun hv => hv.2⟩

/-! ### Writing -/

def escapeUnit (unit : ℕ) : PyStr := [0x5C, 0x75] ++ hexPad 4 unit

/-- One character inside the quotes: only printable ASCII stands for itself. -/
def escapeChar (c : CodePoint) : PyStr :=
  if c = 0x22 ∨ c = 0x5C then [0x5C, c]
  else if c = 0x0A then [0x5C, 0x6E]
  else if c = 0x0D then [0x5C, 0x72]
  else if c = 0x09 then [0x5C, 0x74]
  else if c = 0x0C then [0x5C, 0x66]
  else if c = 0x08 then [0x5C, 0x62]
  else if 0x20 ≤ c.val ∧ c.val ≤ 0x7E then [c]
  else if c.val < 0x10000 then escapeUnit c.val
  else escapeUnit (0xD800 + (c.val - 0x10000) / 0x400) ++
    escapeUnit (0xDC00 + (c.val - 0x10000) % 0x400)

def dumpString (s : PyStr) : PyStr := [0x22] ++ s.flatMap escapeChar ++ [0x22]

variable (rt : Runtime)

def dumpNumber : PyNum → PyStr
  | .int n => py (toString n)
  | .float q => rt.reprFloat q
  | .posInf => py "Infinity"
  | .negInf => py "-Infinity"
  | .nan => py "NaN"

mutual

/-- `json.dumps(x)`. -/
def jsonDumps : Json → PyStr
  | .null => py "null"
  | .bool true => py "true"
  | .bool false => py "false"
  | .num n => dumpNumber rt n
  | .str s => dumpString s
  | .arr xs => [0x5B] ++ dumpItems xs ++ [0x5D]
  | .obj fields => [0x7B] ++ dumpFields fields ++ [0x7D]

def dumpItems : List Json → PyStr
  | [] => []
  | [x] => jsonDumps x
  | x :: y :: xs => jsonDumps x ++ [0x2C, 0x20] ++ dumpItems (y :: xs)

def dumpField : PyStr × Json → PyStr
  | (key, value) => dumpString key ++ [0x3A, 0x20] ++ jsonDumps value

def dumpFields : List (PyStr × Json) → PyStr
  | [] => []
  | [field] => dumpField field
  | field :: next :: fields => dumpField field ++ [0x2C, 0x20] ++ dumpFields (next :: fields)

end

end TrueFigure.Python
