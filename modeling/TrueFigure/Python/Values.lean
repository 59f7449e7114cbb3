import Mathlib.Data.Fin.Basic
import Mathlib.Data.List.Basic
import Mathlib.Data.Rat.Floor
import Mathlib.Data.Fintype.Basic

/-!
# Python values

Strings with their lone surrogates, the values `json.loads` returns, and the
exceptions the modelled functions raise.
-/
namespace TrueFigure.Python

/-- A code point of a Python string; a lone surrogate is one. -/
abbrev CodePoint := Fin 0x110000

instance neZeroCodePoint : NeZero 0x110000 := ⟨by decide⟩

abbrev PyStr := List CodePoint

/-- A string constant of the source. -/
def py (s : String) : PyStr := s.toList.map fun c => Fin.ofNat 0x110000 c.toNat

theorem py_injective : Function.Injective py := by
  intro s t h
  have hchars : Function.Injective fun c : Char => Fin.ofNat 0x110000 c.toNat := by
    intro c d hcd
    have hrange : ∀ c : Char, c.toNat < 0x110000 := by
      intro c
      rcases c.valid with hlow | hhigh
      · exact Nat.lt_trans hlow (by decide)
      · exact hhigh.2
    have hc := hrange c
    have hd := hrange d
    have hval := congrArg Fin.val hcd
    simp only [Fin.val_ofNat, Nat.mod_eq_of_lt hc, Nat.mod_eq_of_lt hd] at hval
    exact Char.toNat_inj.1 hval
  exact String.toList_inj.1 (List.map_injective_iff.2 hchars h)

def isSurrogate (c : CodePoint) : Bool := 0xD800 ≤ c.val && c.val ≤ 0xDFFF

/-- `s.encode("utf-8")` does not raise `UnicodeEncodeError`. -/
def utf8Encodable (s : PyStr) : Bool := s.all fun c => !isSurrogate c

/-- A Postgres `text` parameter can carry the string: no lone surrogate, no NUL. -/
def textOk (s : PyStr) : Bool := utf8Encodable s && s.all fun c => c != 0

theorem textOk_nil : textOk [] = true := rfl

theorem utf8Encodable_of_textOk {s : PyStr} (h : textOk s = true) : utf8Encodable s = true := by
  simp only [textOk, Bool.and_eq_true] at h
  exact h.1

@[simp] theorem utf8Encodable_append (s t : PyStr) :
    utf8Encodable (s ++ t) = (utf8Encodable s && utf8Encodable t) := by
  simp [utf8Encodable]

@[simp] theorem textOk_append (s t : PyStr) : textOk (s ++ t) = (textOk s && textOk t) := by
  simp only [textOk, utf8Encodable, List.all_append]
  rw [Bool.and_assoc, Bool.and_assoc, Bool.and_left_comm (t.all _)]

theorem utf8Encodable_py (s : String) : utf8Encodable (py s) = true := by
  simp only [utf8Encodable, py, List.all_map, List.all_eq_true, Function.comp_apply,
    Bool.not_eq_true']
  intro c _
  have hvalid := c.valid
  simp only [UInt32.isValidChar, Nat.isValidChar] at hvalid
  have hval : (Fin.ofNat 0x110000 c.toNat).val = c.val.toNat := by
    simp only [Fin.ofNat, Char.toNat]
    omega
  simp only [isSurrogate, hval, Bool.and_eq_false_imp, decide_eq_true_eq, decide_eq_false_iff_not]
  omega

/-- Numbers as `json.loads` reads them; `NaN` and the infinities are accepted. -/
inductive PyNum
  | int (n : ℤ)
  | float (q : ℚ)
  | posInf
  | negInf
  | nan
  deriving DecidableEq

/-- Rounding to the nearest integer, ties to even. -/
def roundHalfEven (q : ℚ) : ℤ :=
  if Int.fract q < 1 / 2 then ⌊q⌋
  else if 1 / 2 < Int.fract q then ⌊q⌋ + 1
  else if ⌊q⌋ % 2 = 0 then ⌊q⌋ else ⌊q⌋ + 1

inductive Json
  | null
  | bool (b : Bool)
  | num (n : PyNum)
  | str (s : PyStr)
  | arr (xs : List Json)
  | obj (fields : List (PyStr × Json))

/-- A `dict` with string keys. -/
abbrev Dict := List (PyStr × Json)

/-- `d.get(key)`, with `none` where the key is absent. -/
def Dict.get? (d : Dict) (key : PyStr) : Option Json := d.lookup key

/-- `d.get(key)`, with Python's `None` where the key is absent. -/
def Dict.getD (d : Dict) (key : PyStr) (default : Json) : Json := (d.get? key).getD default

theorem mem_of_get? {d : Dict} {key : PyStr} {value : Json} (h : d.get? key = some value) :
    (key, value) ∈ d := by
  obtain ⟨before, after, rfl, -⟩ := List.lookup_eq_some_iff.1 h
  simp

theorem isSome_get?_iff {d : Dict} {key : PyStr} :
    (d.get? key).isSome = true ↔ key ∈ d.map Prod.fst := by
  induction d with
  | nil => simp [Dict.get?]
  | cons entry d ih =>
    unfold Dict.get? at ih ⊢
    rw [List.lookup_cons, List.map_cons, List.mem_cons]
    by_cases hkey : key = entry.1
    · simp [hkey]
    · have hne : (key == entry.1) = false := beq_false_of_ne hkey
      simp only [hne, ih, hkey, false_or]

/-- `bool(x)`. -/
def Json.truthy : Json → Bool
  | .null => false
  | .bool b => b
  | .num (.int n) => n != 0
  | .num (.float q) => q != 0
  | .num _ => true
  | .str s => !s.isEmpty
  | .arr xs => !xs.isEmpty
  | .obj fields => !fields.isEmpty

def Json.str? : Json → Option PyStr
  | .str s => some s
  | _ => none

/-- The value when it is a `dict`, else the empty one. -/
def Json.dictOrEmpty : Json → Dict
  | .obj fields => fields
  | _ => []

def Json.isStr : Json → Bool
  | .str _ => true
  | _ => false

mutual

/-- Every number and every string of a value, its keys included, pass. -/
def Json.all (number : PyNum → Bool) (text : PyStr → Bool) : Json → Bool
  | .null => true
  | .bool _ => true
  | .num n => number n
  | .str s => text s
  | .arr xs => Json.allItems number text xs
  | .obj fields => Json.allFields number text fields

def Json.allItems (number : PyNum → Bool) (text : PyStr → Bool) : List Json → Bool
  | [] => true
  | x :: xs => Json.all number text x && Json.allItems number text xs

def Json.allField (number : PyNum → Bool) (text : PyStr → Bool) : PyStr × Json → Bool
  | (key, value) => text key && Json.all number text value

def Json.allFields (number : PyNum → Bool) (text : PyStr → Bool) : List (PyStr × Json) → Bool
  | [] => true
  | field :: fields => Json.allField number text field && Json.allFields number text fields

end

theorem Json.allItems_iff {number : PyNum → Bool} {text : PyStr → Bool} {xs : List Json} :
    Json.allItems number text xs = true ↔ ∀ x ∈ xs, Json.all number text x = true := by
  induction xs with
  | nil => simp [Json.allItems]
  | cons x xs ih => simp [Json.allItems, ih]

theorem Json.allFields_iff {number : PyNum → Bool} {text : PyStr → Bool} {fields : Dict} :
    Json.allFields number text fields = true ↔
      ∀ f ∈ fields, text f.1 = true ∧ Json.all number text f.2 = true := by
  induction fields with
  | nil => simp [Json.allFields]
  | cons f fields ih =>
    obtain ⟨key, value⟩ := f
    rw [Json.allFields, Bool.and_eq_true, ih, List.forall_mem_cons, Json.allField,
      Bool.and_eq_true]

def PyNum.finite : PyNum → Bool
  | .int _ => true
  | .float _ => true
  | _ => false

/-- Every surrogate is half of a pair, as `jsonb` demands of escapes. -/
def surrogatesPaired : PyStr → Bool
  | [] => true
  | [c] => !isSurrogate c
  | c :: d :: s =>
    if isSurrogate c then
      decide (c.val < 0xDC00 ∧ 0xDC00 ≤ d.val ∧ d.val ≤ 0xDFFF) && surrogatesPaired s
    else surrogatesPaired (d :: s)

/-- A `jsonb` column takes `json.dumps(value)`: it knows no `NaN`, no infinity,
no `\u0000` and no lone surrogate. -/
def jsonbOk : Json → Bool :=
  Json.all PyNum.finite fun s => surrogatesPaired s && s.all fun c => c != 0

/-- What a `text` parameter can carry may stand in a `jsonb` value. -/
theorem jsonbText_of_textOk {s : PyStr} (h : textOk s = true) :
    (surrogatesPaired s && s.all fun c => c != 0) = true := by
  simp only [textOk, utf8Encodable, Bool.and_eq_true, List.all_eq_true, Bool.not_eq_true'] at h
  rw [Bool.and_eq_true, List.all_eq_true]
  refine ⟨?_, h.2⟩
  have hplain := h.1
  clear h
  induction s with
  | nil => rfl
  | cons c s ih =>
    obtain ⟨hc, hs⟩ := List.forall_mem_cons.1 hplain
    cases s with
    | nil => simp [surrogatesPaired, hc]
    | cons d s => simpa [surrogatesPaired, hc] using ih hs

/-- Python exceptions, by class. -/
inductive PyErr
  | typeError
  | keyError (key : PyStr)
  | valueError (message : PyStr)
  /-- `eventkey.TimestampError`, a `ValueError`. -/
  | timestampError (message : PyStr)
  | unicodeEncodeError
  | unicodeDecodeError
  | overflowError
  | assertionError
  | reError
  | attributeError
  | recursionError
  /-- `decimal.InvalidOperation` and `decimal.Overflow`. -/
  | decimalError
  deriving DecidableEq

/-- `except ValueError` catches it; the Unicode errors are subclasses too. -/
def PyErr.isValueError : PyErr → Bool
  | .valueError _ => true
  | .timestampError _ => true
  | .unicodeEncodeError => true
  | .unicodeDecodeError => true
  | _ => false

/-- A computation that succeeds has a first step that succeeds. -/
theorem bind_eq_ok {ε α β : Type} {x : Except ε α} {f : α → Except ε β} {b : β}
    (h : (x >>= f) = .ok b) : ∃ a, x = .ok a ∧ f a = .ok b := by
  cases x with
  | error e => cases h
  | ok a => exact ⟨a, rfl, h⟩

theorem exists_of_isOk {ε α : Type} {x : Except ε α} (h : x.isOk = true) : ∃ a, x = .ok a := by
  cases x with
  | error e => cases h
  | ok a => exact ⟨a, rfl⟩

theorem map_eq_ok {ε α β : Type} {f : α → β} {x : Except ε α} {b : β} (h : x.map f = .ok b) :
    ∃ a, x = .ok a ∧ f a = b := by
  cases x with
  | error e => cases h
  | ok a => exact ⟨a, rfl, Except.ok.inj h⟩

end TrueFigure.Python
