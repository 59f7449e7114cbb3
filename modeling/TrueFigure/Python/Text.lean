import TrueFigure.Python.DateTime

/-!
# Text of values

`str.strip`, `repr` and `str` as the ingestion path uses them. Which non-ASCII
characters are printable is decided by the Unicode database, and the digits of a
float by its shortest round-trip form; both belong to the runtime.
-/
namespace TrueFigure.Python

/-- What the Python runtime brings to `repr`. -/
structure Runtime where
  isPrintable : CodePoint → Bool
  reprFloat : ℚ → PyStr

/-- A runtime whose `repr` yields text that can be encoded: no surrogate is
printable, and floats print in ASCII. -/
structure Runtime.Sound (rt : Runtime) : Prop where
  surrogate : ∀ c, isSurrogate c = true → rt.isPrintable c = false
  float : ∀ q, utf8Encodable (rt.reprFloat q) = true

/-- A runtime that knows the ASCII characters and no float. -/
def asciiRuntime : Runtime where
  isPrintable c := 0x20 ≤ c.val && c.val < 0x7F
  reprFloat _ := []

theorem asciiRuntime_sound : asciiRuntime.Sound where
  surrogate c hc := by
    simp only [isSurrogate, Bool.and_eq_true, decide_eq_true_eq] at hc
    simp only [asciiRuntime, Bool.and_eq_false_imp, decide_eq_true_eq, decide_eq_false_iff_not]
    omega
  float _ := rfl

/-- The characters `str.strip` removes. -/
def isSpace (c : CodePoint) : Bool :=
  (9 ≤ c.val && c.val ≤ 13) || (28 ≤ c.val && c.val ≤ 32) || c.val = 0x85 || c.val = 0xA0 ||
    c.val = 0x1680 || (0x2000 ≤ c.val && c.val ≤ 0x200A) || c.val = 0x2028 || c.val = 0x2029 ||
    c.val = 0x202F || c.val = 0x205F || c.val = 0x3000

/-- `s.strip()`. -/
def strip (s : PyStr) : PyStr := ((s.dropWhile isSpace).reverse.dropWhile isSpace).reverse

def hexDigit (n : ℕ) : CodePoint :=
  if n % 16 < 10 then Fin.ofNat 0x110000 (48 + n % 16) else Fin.ofNat 0x110000 (87 + n % 16)

/-- Lowercase hex digits, padded to a width. -/
def hexPad : ℕ → ℕ → PyStr
  | 0, _ => []
  | width + 1, n => hexPad width (n / 16) ++ [hexDigit n]

variable (rt : Runtime)

/-- One character inside the quotes of a `repr`. -/
def reprChar (quote c : CodePoint) : PyStr :=
  if c = quote ∨ c.val = 0x5C then [0x5C, c]
  else if c.val = 0x09 then py "\\t"
  else if c.val = 0x0A then py "\\n"
  else if c.val = 0x0D then py "\\r"
  else if c.val < 0x20 ∨ c.val = 0x7F then py "\\x" ++ hexPad 2 c.val
  else if c.val < 0x7F then [c]
  else if rt.isPrintable c then [c]
  else if c.val < 0x100 then py "\\x" ++ hexPad 2 c.val
  else if c.val < 0x10000 then py "\\u" ++ hexPad 4 c.val
  else py "\\U" ++ hexPad 8 c.val

/-- `repr(s)`: in single quotes unless only those occur in it. -/
def reprStr (s : PyStr) : PyStr :=
  let quote : CodePoint := if s.contains 0x27 && !s.contains 0x22 then 0x22 else 0x27
  [quote] ++ s.flatMap (reprChar rt quote) ++ [quote]

def reprNum : PyNum → PyStr
  | .int n => py (toString n)
  | .float q => rt.reprFloat q
  | .posInf => py "inf"
  | .negInf => py "-inf"
  | .nan => py "nan"

mutual

/-- `repr(x)`. -/
def reprJson : Json → PyStr
  | .null => py "None"
  | .bool true => py "True"
  | .bool false => py "False"
  | .num n => reprNum rt n
  | .str s => reprStr rt s
  | .arr xs => py "[" ++ reprItems xs ++ py "]"
  | .obj fields => py "\x7b" ++ reprFields fields ++ py "\x7d"

def reprItems : List Json → PyStr
  | [] => []
  | [x] => reprJson x
  | x :: y :: xs => reprJson x ++ py ", " ++ reprItems (y :: xs)

def reprField : PyStr × Json → PyStr
  | (key, value) => reprStr rt key ++ py ": " ++ reprJson value

def reprFields : List (PyStr × Json) → PyStr
  | [] => []
  | [field] => reprField field
  | field :: next :: fields => reprField field ++ py ", " ++ reprFields (next :: fields)

end

/-- `str(x)`. -/
def pyStr : Json → PyStr
  | .str s => s
  | x => reprJson rt x

variable {rt}

theorem utf8Encodable_hexPad (width n : ℕ) : utf8Encodable (hexPad width n) = true := by
  induction width generalizing n with
  | zero => rfl
  | succ width ih =>
    have hdigit : isSurrogate (hexDigit n) = false := by
      have hlt : n % 16 < 16 := Nat.mod_lt _ (by decide)
      unfold hexDigit
      interval_cases n % 16 <;> rfl
    rw [hexPad, utf8Encodable_append, ih]
    simp [utf8Encodable, hdigit]

theorem utf8Encodable_reprChar (h : rt.Sound) {quote : CodePoint}
    (hquote : isSurrogate quote = false) (c : CodePoint) :
    utf8Encodable (reprChar rt quote c) = true := by
  have hlow : c.val < 0xD800 → isSurrogate c = false := by
    intro hc
    simp only [isSurrogate, Bool.and_eq_false_imp, decide_eq_true_eq, decide_eq_false_iff_not]
    omega
  have hhex : ∀ (s : PyStr) width n, utf8Encodable s = true →
      utf8Encodable (s ++ hexPad width n) = true := by
    intro s width n hs
    rw [utf8Encodable_append, hs, utf8Encodable_hexPad, Bool.and_self]
  unfold reprChar
  split_ifs with hq ht hn hr hc ha hp hx hu
  · have : isSurrogate c = false := by
      rcases hq with rfl | hback
      · exact hquote
      · exact hlow (by omega)
    simp [utf8Encodable, this]
    decide
  · decide
  · decide
  · decide
  · exact hhex _ _ _ (by decide)
  · simp [utf8Encodable, hlow (by omega)]
  · have : isSurrogate c = false := by
      by_contra hs
      rw [h.surrogate c (by simpa using hs)] at hp
      cases hp
    simp [utf8Encodable, this]
  · exact hhex _ _ _ (by decide)
  · exact hhex _ _ _ (by decide)
  · exact hhex _ _ _ (by decide)

/-- A `repr` can always be encoded: lone surrogates are escaped. -/
theorem utf8Encodable_reprStr (h : rt.Sound) (s : PyStr) :
    utf8Encodable (reprStr rt s) = true := by
  have hbody : ∀ quote, isSurrogate quote = false →
      utf8Encodable (s.flatMap (reprChar rt quote)) = true := by
    intro quote hquote
    rw [utf8Encodable, List.all_flatMap]
    exact List.all_eq_true.2 fun c _ => utf8Encodable_reprChar h hquote c
  unfold reprStr
  extract_lets quote
  have hquote : isSurrogate quote = false := by
    simp only [quote]
    split_ifs <;> decide
  rw [utf8Encodable_append, utf8Encodable_append, hbody quote hquote]
  simp [utf8Encodable, hquote]

end TrueFigure.Python
