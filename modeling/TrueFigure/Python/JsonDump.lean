import TrueFigure.Python.JsonScan

/-!
# What the JSON encoder writes

`json.dumps` escapes every other character, so what it writes is printable ASCII
where the texts of the numbers are.
-/
namespace TrueFigure.Python

/-- The ASCII characters from the space to the tilde. -/
def isPrintableAscii (c : CodePoint) : Bool := 0x20 ≤ c.val && c.val ≤ 0x7E

theorem isPrintableAscii_hexDigit (n : ℕ) : isPrintableAscii (hexDigit n) = true := by
  have hlt : n % 16 < 16 := Nat.mod_lt _ (by decide)
  unfold hexDigit
  interval_cases n % 16 <;> rfl

theorem all_printable_hexPad (width n : ℕ) : (hexPad width n).all isPrintableAscii = true := by
  induction width generalizing n with
  | zero => rfl
  | succ width ih => simp [hexPad, ih, isPrintableAscii_hexDigit]

theorem all_printable_escapeUnit (unit : ℕ) : (escapeUnit unit).all isPrintableAscii = true := by
  rw [escapeUnit, List.all_append, all_printable_hexPad, Bool.and_true]
  rfl

theorem all_printable_escapeChar (c : CodePoint) :
    (escapeChar c).all isPrintableAscii = true := by
  unfold escapeChar
  split_ifs with hquote hn hr ht hf hb hplain hlow
  · rcases hquote with rfl | rfl <;> rfl
  · rfl
  · rfl
  · rfl
  · rfl
  · rfl
  · simpa [isPrintableAscii] using hplain
  · exact all_printable_escapeUnit _
  · rw [List.all_append, all_printable_escapeUnit, all_printable_escapeUnit, Bool.and_self]

theorem all_printable_dumpString (s : PyStr) : (dumpString s).all isPrintableAscii = true := by
  have hbody : (s.flatMap escapeChar).all isPrintableAscii = true := by
    rw [List.all_flatMap]
    exact List.all_eq_true.2 fun c _ => all_printable_escapeChar c
  simp only [dumpString, List.all_append, hbody, Bool.and_true]
  rfl

variable {rt : Runtime} {P : CodePoint → Bool}

section Characters

variable (hP : ∀ c, isPrintableAscii c = true → P c = true)

include hP

theorem all_of_printable {s : PyStr} (h : s.all isPrintableAscii = true) : s.all P = true :=
  List.all_eq_true.2 fun c hc => hP c (List.all_eq_true.1 h c hc)

mutual

/-- A property of the printable ASCII characters and of the texts of the numbers holds
all over a dump. -/
theorem all_jsonDumps : (v : Json) →
    v.all (fun n => (dumpNumber rt n).all P) (fun _ => true) = true →
      (jsonDumps rt v).all P = true
  | .null, _ =>
    all_of_printable hP (show (py "null").all isPrintableAscii = true by decide)
  | .bool true, _ =>
    all_of_printable hP (show (py "true").all isPrintableAscii = true by decide)
  | .bool false, _ =>
    all_of_printable hP (show (py "false").all isPrintableAscii = true by decide)
  | .num n, h => h
  | .str s, _ => all_of_printable hP (all_printable_dumpString s)
  | .arr xs, h => by
    have hopen : P 0x5B = true := hP _ (by decide)
    have hclose : P 0x5D = true := hP _ (by decide)
    simp [jsonDumps, all_dumpItems xs h, hopen, hclose]
  | .obj fields, h => by
    have hopen : P 0x7B = true := hP _ (by decide)
    have hclose : P 0x7D = true := hP _ (by decide)
    simp [jsonDumps, all_dumpFields fields h, hopen, hclose]

theorem all_dumpItems : (xs : List Json) →
    Json.allItems (fun n => (dumpNumber rt n).all P) (fun _ => true) xs = true →
      (dumpItems rt xs).all P = true
  | [], _ => rfl
  | [x], h => by
    rw [Json.allItems, Bool.and_eq_true] at h
    exact all_jsonDumps x h.1
  | x :: y :: xs, h => by
    rw [Json.allItems, Bool.and_eq_true] at h
    have hcomma : P 0x2C = true := hP _ (by decide)
    have hspace : P 0x20 = true := hP _ (by decide)
    simp [dumpItems, all_jsonDumps x h.1, all_dumpItems (y :: xs) h.2, hcomma, hspace]

theorem all_dumpField : (field : PyStr × Json) →
    Json.allField (fun n => (dumpNumber rt n).all P) (fun _ => true) field = true →
      (dumpField rt field).all P = true
  | (key, value), h => by
    rw [Json.allField, Bool.and_eq_true] at h
    have hcolon : P 0x3A = true := hP _ (by decide)
    have hspace : P 0x20 = true := hP _ (by decide)
    simp [dumpField, all_of_printable hP (all_printable_dumpString key), all_jsonDumps value h.2,
      hcolon, hspace]

theorem all_dumpFields : (fields : List (PyStr × Json)) →
    Json.allFields (fun n => (dumpNumber rt n).all P) (fun _ => true) fields = true →
      (dumpFields rt fields).all P = true
  | [], _ => rfl
  | [field], h => by
    rw [Json.allFields, Bool.and_eq_true] at h
    exact all_dumpField field h.1
  | field :: next :: fields, h => by
    rw [Json.allFields, Bool.and_eq_true] at h
    have hcomma : P 0x2C = true := hP _ (by decide)
    have hspace : P 0x20 = true := hP _ (by decide)
    simp [dumpFields, all_dumpField field h.1, all_dumpFields (next :: fields) h.2, hcomma, hspace]

end

end Characters

/-! ### Integers -/

theorem dumpNumber_int (n : ℤ) : dumpNumber rt (.int n) =
    (if n < 0 then [0x2D] else []) ++ py (toString n.natAbs) := by
  cases n with
  | ofNat n =>
    rw [if_neg (by simp)]
    rfl
  | negSucc n =>
    rw [if_pos (Int.negSucc_lt_zero n)]
    have hminus : py (toString (Int.negSucc n)) = py "-" ++ py (toString (n + 1)) := by
      simp [py, toString, Int.repr]
    rw [dumpNumber, hminus]
    rfl

theorem isPrintableAscii_of_isDigit {c : CodePoint} (h : isDigit c = true) :
    isPrintableAscii c = true := by
  simp only [isDigit, Bool.and_eq_true, decide_eq_true_eq] at h
  simp only [isPrintableAscii, Bool.and_eq_true, decide_eq_true_eq]
  omega

theorem all_printable_dumpInt (n : ℤ) : (dumpNumber rt (.int n)).all isPrintableAscii = true := by
  rw [dumpNumber_int, List.all_append, Bool.and_eq_true]
  constructor
  · split_ifs <;> rfl
  · exact List.all_eq_true.2 fun c hc => isPrintableAscii_of_isDigit (isDigit_of_mem_numeral hc)

theorem utf8Encodable_of_printable {s : PyStr} (h : s.all isPrintableAscii = true) :
    utf8Encodable s = true := by
  refine List.all_eq_true.2 fun c hc => ?_
  have hascii := List.all_eq_true.1 h c hc
  simp only [isPrintableAscii, Bool.and_eq_true, decide_eq_true_eq] at hascii
  simp only [isSurrogate, Bool.not_eq_true', Bool.and_eq_false_imp, decide_eq_true_eq,
    decide_eq_false_iff_not]
  omega

end TrueFigure.Python
