import TrueFigure.Python.Values
import Mathlib.Tactic.IntervalCases
import Mathlib.Algebra.Order.Group.Int

/-!
# `datetime`

The parts of Python's `datetime` the ingestion path uses: `fromisoformat`,
`astimezone`, `strftime` and `strptime`. A UTC instant is the number of
microseconds since 0001-01-01T00:00:00Z, the first a `datetime` can hold.
-/
namespace TrueFigure.Python

/-! ### The proleptic Gregorian calendar -/

def isLeap (year : ℕ) : Bool := year % 4 = 0 && (year % 100 ≠ 0 || year % 400 = 0)

def daysBeforeYear (year : ℕ) : ℕ :=
  365 * (year - 1) + (year - 1) / 4 - (year - 1) / 100 + (year - 1) / 400

def monthLengths (year : ℕ) : List ℕ :=
  [31, if isLeap year then 29 else 28, 31, 30, 31, 30, 31, 31, 30, 31, 30, 31]

def daysInMonth (year month : ℕ) : ℕ := (monthLengths year).getD (month - 1) 0

def daysBeforeMonth (year month : ℕ) : ℕ := ((monthLengths year).take (month - 1)).sum

/-- `date.toordinal`: January 1st of year 1 is day 1. -/
def toOrdinal (year month day : ℕ) : ℕ := daysBeforeYear year + daysBeforeMonth year month + day

def maxOrdinal : ℕ := 3652059

/-- The month and the day in it, for a day counted from the first of month `m`. -/
def monthDay : List ℕ → ℕ → ℕ → ℕ × ℕ
  | [], m, d => (m, d)
  | len :: rest, m, d => if d ≤ len then (m, d) else monthDay rest (m + 1) (d - len)

/-- The year of an ordinal: the estimate from the mean year is never too late
and at most one year too early. -/
def yearOf (n : ℕ) : ℕ :=
  let estimate := 400 * (n - 1) / 146097 + 1
  if daysBeforeYear (estimate + 1) < n then estimate + 1 else estimate

/-- `date.fromordinal`, as year, month and day. -/
def ofOrdinal (n : ℕ) : ℕ × ℕ × ℕ :=
  let year := yearOf n
  (year, monthDay (monthLengths year) 1 (n - daysBeforeYear year))

theorem daysBeforeYear_yearOf {n : ℕ} (h : 1 ≤ n) :
    daysBeforeYear (yearOf n) < n ∧ n ≤ daysBeforeYear (yearOf n + 1) := by
  unfold yearOf
  extract_lets estimate
  have hdef : estimate = 400 * (n - 1) / 146097 + 1 := rfl
  clear_value estimate
  split_ifs with hlate
  · refine ⟨hlate, ?_⟩
    simp only [daysBeforeYear]
    omega
  · refine ⟨?_, not_lt.1 hlate⟩
    simp only [daysBeforeYear]
    omega

theorem monthDay_spec (lengths : List ℕ) (m d : ℕ) :
    m ≤ (monthDay lengths m d).1 ∧
      (lengths.take ((monthDay lengths m d).1 - m)).sum + (monthDay lengths m d).2 = d := by
  induction lengths generalizing m d with
  | nil => simp [monthDay]
  | cons len rest ih =>
    unfold monthDay
    split_ifs with hle
    · simp
    · obtain ⟨hm, hsum⟩ := ih (m + 1) (d - len)
      refine ⟨by omega, ?_⟩
      have hsucc : (monthDay rest (m + 1) (d - len)).1 - m =
          (monthDay rest (m + 1) (d - len)).1 - (m + 1) + 1 := by omega
      rw [hsucc, List.take_succ_cons, List.sum_cons]
      omega

theorem toOrdinal_ofOrdinal {n : ℕ} (h : 1 ≤ n) :
    toOrdinal (ofOrdinal n).1 (ofOrdinal n).2.1 (ofOrdinal n).2.2 = n := by
  have hyear := (daysBeforeYear_yearOf h).1
  have hmonth := (monthDay_spec (monthLengths (yearOf n)) 1 (n - daysBeforeYear (yearOf n))).2
  simp only [toOrdinal, ofOrdinal, daysBeforeMonth]
  omega

theorem monthDay_le {lengths : List ℕ} {bound : ℕ} (hlen : ∀ len ∈ lengths, len ≤ bound)
    (m : ℕ) {d : ℕ} (h : d ≤ lengths.sum) :
    (monthDay lengths m d).1 ≤ m + lengths.length ∧ (monthDay lengths m d).2 ≤ bound := by
  induction lengths generalizing m d with
  | nil =>
    have : d = 0 := by simpa using h
    simp [monthDay, this]
  | cons len rest ih =>
    unfold monthDay
    split_ifs with hle
    · exact ⟨by simp, hle.trans (hlen len (by simp))⟩
    · have hrest := ih (fun l hl => hlen l (List.mem_cons_of_mem _ hl)) (m + 1)
        (d := d - len) (by rw [List.sum_cons] at h; omega)
      rw [List.length_cons]
      omega

theorem sum_monthLengths (year : ℕ) :
    (monthLengths year).sum = if isLeap year then 366 else 365 := by
  unfold monthLengths
  cases isLeap year <;> rfl

theorem isLeap_iff (year : ℕ) :
    isLeap year = true ↔ 4 ∣ year ∧ (¬ 100 ∣ year ∨ 400 ∣ year) := by
  simp [isLeap, Nat.dvd_iff_mod_eq_zero]

theorem daysBeforeYear_succ {year : ℕ} (h : 1 ≤ year) :
    daysBeforeYear (year + 1) = daysBeforeYear year + (monthLengths year).sum := by
  obtain ⟨k, rfl⟩ : ∃ k, year = k + 1 := ⟨year - 1, by omega⟩
  have h100 : 100 ∣ k + 1 → 4 ∣ k + 1 := (by decide : 4 ∣ 100).trans
  have h400 : 400 ∣ k + 1 → 100 ∣ k + 1 := (by decide : 100 ∣ 400).trans
  have hle : k / 100 ≤ k / 4 := Nat.div_le_div_left (by decide) (by decide)
  rw [sum_monthLengths]
  simp only [isLeap_iff, daysBeforeYear, Nat.add_sub_cancel, Nat.succ_div]
  by_cases d4 : 4 ∣ k + 1
  · by_cases d100 : 100 ∣ k + 1
    · by_cases d400 : 400 ∣ k + 1
      · simp only [d4, d100, d400, if_true, not_true, or_true, and_true]
        omega
      · simp only [d4, d100, d400, if_true, if_false, not_true, or_false, and_false]
        omega
    · simp only [d4, d100, mt h400 d100, if_true, if_false, not_false_iff, true_or, and_true]
      omega
  · simp only [d4, mt h100 d4, mt h400 (mt h100 d4), if_false, false_and]
    omega

theorem monthDay_range {lengths : List ℕ} (m : ℕ) {d : ℕ} (hpos : 1 ≤ d) (h : d ≤ lengths.sum) :
    (monthDay lengths m d).1 < m + lengths.length ∧ 1 ≤ (monthDay lengths m d).2 ∧
      (monthDay lengths m d).2 ≤ lengths.getD ((monthDay lengths m d).1 - m) 0 := by
  induction lengths generalizing m d with
  | nil =>
    rw [List.sum_nil] at h
    omega
  | cons len rest ih =>
    unfold monthDay
    split_ifs with hle
    · simpa using ⟨hpos, hle⟩
    · rw [List.sum_cons] at h
      have hrest : 1 ≤ d - len ∧ d - len ≤ rest.sum := by omega
      obtain ⟨hlength, hday, hbound⟩ := ih (m + 1) hrest.1 hrest.2
      have hlater := (monthDay_spec rest (m + 1) (d - len)).1
      have hindex : (monthDay rest (m + 1) (d - len)).1 - m =
          (monthDay rest (m + 1) (d - len)).1 - (m + 1) + 1 := by omega
      rw [List.length_cons, hindex, List.getD_cons_succ]
      exact ⟨by omega, hday, hbound⟩

theorem yearOf_pos (day : ℕ) : 1 ≤ yearOf day := by
  unfold yearOf
  extract_lets estimate
  split_ifs <;> omega

theorem ofOrdinal_month {day : ℕ} (h : 1 ≤ day) :
    1 ≤ (ofOrdinal day).2.1 ∧ (ofOrdinal day).2.1 ≤ 12 ∧ 1 ≤ (ofOrdinal day).2.2 ∧
      (ofOrdinal day).2.2 ≤ daysInMonth (ofOrdinal day).1 (ofOrdinal day).2.1 := by
  obtain ⟨hlow, hhigh⟩ := daysBeforeYear_yearOf h
  rw [daysBeforeYear_succ (yearOf_pos day)] at hhigh
  have hlength : (monthLengths (yearOf day)).length = 12 := rfl
  have hfirst := (monthDay_spec (monthLengths (yearOf day)) 1 (day - daysBeforeYear (yearOf day))).1
  have hrange := @monthDay_range (monthLengths (yearOf day)) 1
    (day - daysBeforeYear (yearOf day)) (by omega) (by omega)
  rw [hlength] at hrange
  exact ⟨hfirst, by simp only [ofOrdinal]; omega, hrange.2.1, hrange.2.2⟩

/-- The fields of a date fit their text: four digits and twice two. -/
theorem ofOrdinal_lt {n : ℕ} (h : 1 ≤ n) (hmax : n ≤ maxOrdinal) :
    (ofOrdinal n).1 < 10 ^ 4 ∧ (ofOrdinal n).2.1 < 10 ^ 2 ∧ (ofOrdinal n).2.2 < 10 ^ 2 := by
  obtain ⟨hlow, hhigh⟩ := daysBeforeYear_yearOf h
  have hpos : 1 ≤ yearOf n := by
    unfold yearOf
    extract_lets estimate
    split_ifs <;> omega
  have hyear : yearOf n < 10 ^ 4 := by
    by_contra hge
    simp only [daysBeforeYear, maxOrdinal] at hlow hmax
    omega
  have hmonths : ∀ len ∈ monthLengths (yearOf n), len ≤ 31 := by
    intro len hlen
    simp only [monthLengths, List.mem_cons, List.not_mem_nil, or_false] at hlen
    split_ifs at hlen <;> omega
  have hday : n - daysBeforeYear (yearOf n) ≤ (monthLengths (yearOf n)).sum := by
    rw [daysBeforeYear_succ hpos] at hhigh
    omega
  have hle := monthDay_le hmonths 1 hday
  have hlength : (monthLengths (yearOf n)).length = 12 := rfl
  simp only [ofOrdinal]
  omega

/-! ### Digits -/

/-- The code point of an ASCII character. -/
def chr (c : Char) : CodePoint := Fin.ofNat 0x110000 c.toNat

def digit (n : ℕ) : CodePoint := Fin.ofNat 0x110000 (48 + n % 10)

def isDigit (c : CodePoint) : Bool := 48 ≤ c.val && c.val ≤ 57

theorem isDigit_of_mem_numeral {n : ℕ} {c : CodePoint} (h : c ∈ py (toString n)) :
    isDigit c = true := by
  obtain ⟨d, hd, rfl⟩ := List.mem_map.1 h
  have hmem : d ∈ Nat.toDigits 10 n := by simpa [toString] using hd
  have hdigit := Nat.isDigit_of_mem_toDigits (by decide) (by decide) hmem
  simp only [Char.isDigit, Bool.and_eq_true, decide_eq_true_eq] at hdigit
  have hlow : 48 ≤ d.toNat := hdigit.1
  have hhigh : d.toNat ≤ 57 := hdigit.2
  simp only [isDigit, Fin.val_ofNat, Bool.and_eq_true, decide_eq_true_eq]
  omega

theorem numeral_injective {m n : ℕ} (h : py (toString m) = py (toString n)) : m = n := by
  have hdigits : Nat.toDigits 10 m = Nat.toDigits 10 n := by
    simpa [toString] using congrArg String.toList (py_injective h)
  rw [← Nat.ofDigitChars_ten_toDigits (n := m), hdigits, Nat.ofDigitChars_ten_toDigits]

def digitsValue (s : PyStr) : ℕ := s.foldl (fun acc c => 10 * acc + (c.val - 48)) 0

/-- The value of exactly `width` ASCII digits. -/
def fixedInt (width : ℕ) (s : PyStr) : Option ℕ :=
  if s.length = width ∧ s.all isDigit then some (digitsValue s) else none

/-- `f"{n:0{width}d}"`, for a number of at most `width` digits. -/
def pad : ℕ → ℕ → PyStr
  | 0, _ => []
  | width + 1, n => pad width (n / 10) ++ [digit n]

@[simp] theorem length_pad (width n : ℕ) : (pad width n).length = width := by
  induction width generalizing n with
  | zero => rfl
  | succ width ih => simp [pad, ih]

theorem digit_val (n : ℕ) : (digit n).val = 48 + n % 10 := by
  have : n % 10 < 10 := Nat.mod_lt _ (by decide)
  simp only [digit, Fin.val_ofNat]
  omega

theorem isDigit_digit (n : ℕ) : isDigit (digit n) = true := by
  have : n % 10 < 10 := Nat.mod_lt _ (by decide)
  simp only [isDigit, digit_val, Bool.and_eq_true, decide_eq_true_eq]
  omega

theorem all_isDigit_pad (width n : ℕ) : (pad width n).all isDigit = true := by
  induction width generalizing n with
  | zero => rfl
  | succ width ih => simp [pad, ih, isDigit_digit]

theorem textOk_digits {s : PyStr} (h : s.all isDigit = true) : textOk s = true := by
  simp only [textOk, utf8Encodable, Bool.and_eq_true, List.all_eq_true]
  constructor
  · intro c hc
    have hdigit := List.all_eq_true.1 h c hc
    simp only [isDigit, Bool.and_eq_true, decide_eq_true_eq] at hdigit
    have hlow : ¬ 0xD800 ≤ c.val := by omega
    simp [isSurrogate, hlow]
  · intro c hc
    have hdigit := List.all_eq_true.1 h c hc
    rw [bne_iff_ne]
    rintro rfl
    cases hdigit

theorem digitsValue_snoc (s : PyStr) (c : CodePoint) :
    digitsValue (s ++ [c]) = 10 * digitsValue s + (c.val - 48) := by
  rw [digitsValue, List.foldl_append]
  rfl

theorem digitsValue_pad (width : ℕ) {n : ℕ} (h : n < 10 ^ width) :
    digitsValue (pad width n) = n := by
  induction width generalizing n with
  | zero =>
    have : n = 0 := by simpa using h
    simp [pad, digitsValue, this]
  | succ width ih =>
    have hlt : n / 10 < 10 ^ width := by
      rw [pow_succ] at h
      omega
    have hstart : digitsValue (pad width (n / 10)) = n / 10 := ih hlt
    rw [pad, digitsValue_snoc, hstart, digit_val]
    omega

theorem fixedInt_pad (width : ℕ) {n : ℕ} (h : n < 10 ^ width) :
    fixedInt width (pad width n) = some n := by
  rw [fixedInt, if_pos ⟨length_pad width n, all_isDigit_pad width n⟩, digitsValue_pad width h]

theorem digit_eq {n : ℕ} {c : CodePoint} (h : c.val = 48 + n % 10) : digit n = c :=
  Fin.ext ((digit_val n).trans h.symm)

theorem pad_digitsValue {s : PyStr} (h : s.all isDigit = true) :
    pad s.length (digitsValue s) = s ∧ digitsValue s < 10 ^ s.length := by
  induction s using List.reverseRecOn with
  | nil => exact ⟨rfl, Nat.zero_lt_one⟩
  | append_singleton s c ih =>
    rw [List.all_append, Bool.and_eq_true] at h
    obtain ⟨hpad, hlt⟩ := ih h.1
    have hc : isDigit c = true := by simpa using h.2
    simp only [isDigit, Bool.and_eq_true, decide_eq_true_eq] at hc
    have hrest : (10 * digitsValue s + (c.val - 48)) / 10 = digitsValue s := by omega
    have hlast : digit (10 * digitsValue s + (c.val - 48)) = c := digit_eq (by omega)
    rw [digitsValue_snoc, List.length_append, List.length_singleton]
    refine ⟨?_, ?_⟩
    · rw [pad, hrest, hpad, hlast]
    · rw [pow_succ]
      omega

theorem fixedInt_eq_some_iff {width n : ℕ} {s : PyStr} :
    fixedInt width s = some n ↔ s = pad width n ∧ n < 10 ^ width := by
  constructor
  · intro h
    unfold fixedInt at h
    split_ifs at h with hdigits
    cases h
    obtain ⟨hpad, hlt⟩ := pad_digitsValue hdigits.2
    rw [hdigits.1] at hpad hlt
    exact ⟨hpad.symm, hlt⟩
  · rintro ⟨rfl, hlt⟩
    exact fixedInt_pad width hlt

end TrueFigure.Python
