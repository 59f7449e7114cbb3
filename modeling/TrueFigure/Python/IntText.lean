import Mathlib.Data.List.TakeWhile
import TrueFigure.Python.Text

/-!
# `int` of text

`int` on a `str` and on `bytes`: blanks around, a sign, and digits with single underscores
between them, at most 4300. Which characters beyond ASCII are decimal digits is decided by
the Unicode database.
-/
namespace TrueFigure.Python

/-- `Py_ISSPACE`. -/
def isAsciiSpace (c : CodePoint) : Bool := (9 ≤ c.val && c.val ≤ 13) || c.val = 32

/-- What stands between the blanks and the sign is digits in groups. -/
def groupedDigits (body : PyStr) : Bool :=
  (body.splitOn (chr '_')).all fun group => !group.isEmpty && group.all isDigit

/-- The parse of `int`, on ASCII; `none` is its `ValueError`. -/
def intText (s : PyStr) : Option ℤ :=
  let t := s.dropWhile isAsciiSpace
  let negative : Bool := t.head? = some (chr '-')
  let t := if negative || t.head? = some (chr '+') then t.drop 1 else t
  let inNumeral := fun c : CodePoint => isDigit c || c = chr '_'
  let body := t.takeWhile inNumeral
  let digits := body.filter isDigit
  if groupedDigits body && (t.dropWhile inNumeral).all isAsciiSpace && digits.length ≤ 4300 then
    some (if negative then -(digitsValue digits : ℤ) else digitsValue digits)
  else none

/-- `_PyUnicode_TransformDecimalAndSpaceToASCII`, of one character. -/
def asciiChar (decimal : CodePoint → Option ℕ) (c : CodePoint) : CodePoint :=
  if c.val < 127 then c
  else if isSpace c then chr ' '
  else
    match decimal c with
    | some n => digit n
    | none => chr '?'

def intOfStr (decimal : CodePoint → Option ℕ) (s : PyStr) : Option ℤ :=
  intText (s.map (asciiChar decimal))

def intOfBytes (b : List UInt8) : Option ℤ := intText (b.map fun x => Fin.ofNat 0x110000 x.toNat)

theorem groupedDigits_of_all {s : PyStr} (hne : s ≠ []) (h : s.all isDigit = true) :
    groupedDigits s = true := by
  have hsplit : s.splitOn (chr '_') = [s] := by
    apply List.splitOn_eq_singleton
    intro hmem
    exact absurd (List.all_eq_true.1 h _ hmem) (by decide)
  simp [groupedDigits, hsplit, hne, h]

theorem intText_of_digits {s : PyStr} (hne : s ≠ []) (h : s.all isDigit = true) :
    intText s = if s.length ≤ 4300 then some (digitsValue s : ℤ) else none := by
  have hdigit := List.all_eq_true.1 h
  obtain ⟨c, t, rfl⟩ := List.exists_cons_of_ne_nil hne
  have hc := hdigit c List.mem_cons_self
  have hspace : isAsciiSpace c = false := by
    simp only [isDigit, Bool.and_eq_true, decide_eq_true_eq] at hc
    simp only [isAsciiSpace, Bool.or_eq_false_iff, Bool.and_eq_false_imp, decide_eq_true_eq,
      decide_eq_false_iff_not]
    omega
  have hminus : c ≠ chr '-' := fun hsign => by rw [hsign] at hc; cases hc
  have hplus : c ≠ chr '+' := fun hsign => by rw [hsign] at hc; cases hc
  have hin : ∀ x ∈ c :: t, (isDigit x || decide (x = chr '_')) = true := fun x hx => by
    rw [hdigit x hx, Bool.true_or]
  have htake : (c :: t).takeWhile (fun x => isDigit x || decide (x = chr '_')) = c :: t :=
    List.takeWhile_eq_self_iff.2 hin
  have hdrop : (c :: t).dropWhile (fun x => isDigit x || decide (x = chr '_')) = [] :=
    List.dropWhile_eq_nil_iff.2 hin
  have hfilter : (c :: t).filter isDigit = c :: t := List.filter_eq_self.2 hdigit
  have hgroups := groupedDigits_of_all hne h
  unfold intText
  rw [List.dropWhile_cons_of_neg (by rw [hspace]; decide)]
  simp only [List.head?_cons, Option.some.injEq, hminus, hplus, decide_false, Bool.or_self,
    Bool.false_eq_true, if_false, htake, hdrop, hfilter, hgroups, List.all_nil, Bool.and_true,
    Bool.true_and, decide_eq_true_eq]

theorem asciiChar_of_digit (decimal : CodePoint → Option ℕ) {c : CodePoint}
    (h : isDigit c = true) : asciiChar decimal c = c := by
  simp only [isDigit, Bool.and_eq_true, decide_eq_true_eq] at h
  exact if_pos (by omega)

theorem intOfStr_of_digits (decimal : CodePoint → Option ℕ) {s : PyStr} (hne : s ≠ [])
    (h : s.all isDigit = true) :
    intOfStr decimal s = if s.length ≤ 4300 then some (digitsValue s : ℤ) else none := by
  have hmap : s.map (asciiChar decimal) = s :=
    (List.map_congr_left fun c hc => asciiChar_of_digit decimal
      (List.all_eq_true.1 h c hc)).trans (List.map_id s)
  rw [intOfStr, hmap, intText_of_digits hne h]

example : intOfStr (fun _ => none) (py " +1_000\n") = some 1000 ∧
    intOfStr (fun _ => none) (py "1__0") = none ∧
    intOfStr (fun _ => none) (py "Wed, 21 Oct 2015 07:28:00 GMT") = none := by
  decide

end TrueFigure.Python
