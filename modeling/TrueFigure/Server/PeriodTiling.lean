import Mathlib.Data.Int.ConditionallyCompleteOrder
import Mathlib.Order.Monotone.Basic
import TrueFigure.Server.Periods

/-!
# The tiling of the calendar by periods

The columns of figures and reports guard the grammar of a period with a pattern of the database,
and `period_bounds` reads it with two of Python's. They differ at a final line feed, and the
bounds need the day after the period, which the last month and the last quarter do not have.
-/
namespace TrueFigure.Server

open TrueFigure.Python

/-! ### The months of the calendar -/

/-- The first day of a month, counted from January of year 1. -/
def monthStart (k : ℕ) : ℕ := toOrdinal (k / 12 + 1) (k % 12 + 1) 1

theorem monthStart_succ (k : ℕ) :
    monthStart (k + 1) = monthStart k + daysInMonth (k / 12 + 1) (k % 12 + 1) := by
  have hmonth : k % 12 < 12 := Nat.mod_lt k (by decide)
  by_cases hlast : k % 12 = 11
  · have hyear : (k + 1) / 12 = k / 12 + 1 := by omega
    have hfirst : (k + 1) % 12 = 0 := by omega
    rw [monthStart, monthStart, hlast, hyear, hfirst, toOrdinal, toOrdinal,
      daysBeforeYear_succ (Nat.le_add_left 1 _)]
    simp only [daysBeforeMonth, daysInMonth, monthLengths]
    cases isLeap (k / 12 + 1) <;> simp
  · have hyear : (k + 1) / 12 = k / 12 := by omega
    have hnext : (k + 1) % 12 = k % 12 + 1 := by omega
    rw [monthStart, monthStart, hyear, hnext, toOrdinal, toOrdinal]
    generalize k % 12 = m at hmonth hlast
    simp only [daysBeforeMonth, daysInMonth, monthLengths]
    interval_cases m <;> cases isLeap (k / 12 + 1) <;> simp

theorem monthStart_lt_succ (k : ℕ) : monthStart k < monthStart (k + 1) := by
  have hmonth : k % 12 < 12 := Nat.mod_lt k (by decide)
  have hpos : 0 < daysInMonth (k / 12 + 1) (k % 12 + 1) := by
    generalize k % 12 = m at hmonth
    simp only [daysInMonth, monthLengths]
    interval_cases m <;> cases isLeap (k / 12 + 1) <;> decide
  rw [monthStart_succ]
  omega

theorem monthStart_strictMono : StrictMono monthStart := strictMono_nat_of_lt_succ monthStart_lt_succ

/-- The month of a day, counted from January of year 1. -/
def monthOf (day : ℕ) : ℕ := ((ofOrdinal day).1 - 1) * 12 + ((ofOrdinal day).2.1 - 1)

theorem monthStart_monthOf {day : ℕ} (h : 1 ≤ day) :
    monthStart (monthOf day) ≤ day ∧ day < monthStart (monthOf day + 1) := by
  obtain ⟨hfirst, hlast, hday, hlength⟩ := ofOrdinal_month h
  have hyear : 1 ≤ (ofOrdinal day).1 := yearOf_pos day
  have hordinal := toOrdinal_ofOrdinal h
  rw [monthStart_succ]
  have hdiv : monthOf day / 12 + 1 = (ofOrdinal day).1 := by
    unfold monthOf
    omega
  have hmod : monthOf day % 12 + 1 = (ofOrdinal day).2.1 := by
    unfold monthOf
    omega
  rw [monthStart, hdiv, hmod]
  simp only [toOrdinal] at hordinal ⊢
  omega

theorem monthStart_le_iff {day k : ℕ} (h : 1 ≤ day) : monthStart k ≤ day ↔ k ≤ monthOf day := by
  obtain ⟨hlow, hhigh⟩ := monthStart_monthOf h
  refine ⟨fun hk => ?_, fun hk => (monthStart_strictMono.monotone hk).trans hlow⟩
  have := monthStart_strictMono.lt_iff_lt.1 (hk.trans_lt hhigh)
  omega

theorem lt_monthStart_iff {day k : ℕ} (h : 1 ≤ day) : day < monthStart k ↔ monthOf day < k := by
  rw [← not_le, monthStart_le_iff h, not_le]

/-! ### The grammar -/

/-- `ck_figures_period` and `ck_reports_period`, whose `$` matches at the very end only:
`^[0-9]\x7b4\x7d-(q[1-4]|0[1-9]|1[0-2])$`. -/
def periodCheck (text : PyStr) : Bool :=
  (fixedInt 4 (text.take 4)).isSome &&
    match text.drop 4 with
    | [0x2D, 0x71, c] => decide (0x31 ≤ c.val ∧ c.val ≤ 0x34)
    | [0x2D, 0x30, c] => decide (0x31 ≤ c.val ∧ c.val ≤ 0x39)
    | [0x2D, 0x31, c] => decide (0x30 ≤ c.val ∧ c.val ≤ 0x32)
    | _ => false

namespace Period

/-- A period of the grammar. -/
def Valid : Period → Prop
  | month y m => y < 10 ^ 4 ∧ 1 ≤ m ∧ m ≤ 12
  | quarter y q => y < 10 ^ 4 ∧ 1 ≤ q ∧ q ≤ 4

def year : Period → ℕ
  | month y _ => y
  | quarter y _ => y

/-- What follows the year. -/
def suffix : Period → PyStr
  | month _ m => 0x2D :: pad 2 m
  | quarter _ q => 0x2D :: 0x71 :: pad 1 q

def text (p : Period) : PyStr := pad 4 p.year ++ p.suffix

/-- Both a first day and a day after the last can be represented. -/
def Bounded : Period → Prop
  | month y m => 1 ≤ y ∧ (y, m) ≠ (9999, 12)
  | quarter y q => 1 ≤ y ∧ (y, q) ≠ (9999, 4)

instance decidableValid (p : Period) : Decidable p.Valid :=
  match p with
  | month y m => inferInstanceAs (Decidable (y < 10 ^ 4 ∧ 1 ≤ m ∧ m ≤ 12))
  | quarter y q => inferInstanceAs (Decidable (y < 10 ^ 4 ∧ 1 ≤ q ∧ q ≤ 4))

instance decidableBounded (p : Period) : Decidable p.Bounded :=
  match p with
  | month y m => inferInstanceAs (Decidable (1 ≤ y ∧ (y, m) ≠ (9999, 12)))
  | quarter y q => inferInstanceAs (Decidable (1 ≤ y ∧ (y, q) ≠ (9999, 4)))

/-- The date of a day is in the period. -/
def Holds (day : ℕ) : Period → Prop
  | month y m => (ofOrdinal day).1 = y ∧ (ofOrdinal day).2.1 = m
  | quarter y q => (ofOrdinal day).1 = y ∧ ((ofOrdinal day).2.1 - 1) / 3 + 1 = q

/-- The first month of a period, counted from January of year 1. -/
def firstMonth : Period → ℕ
  | month y m => (y - 1) * 12 + (m - 1)
  | quarter y q => (y - 1) * 12 + (q - 1) * 3

def length : Period → ℕ
  | month _ _ => 1
  | quarter _ _ => 3

variable {p p' : Period} {text : PyStr}

theorem text_take (p : Period) : p.text.take 4 = pad 4 p.year := List.take_left' (length_pad 4 _)

theorem text_drop (p : Period) : p.text.drop 4 = p.suffix := List.drop_left' (length_pad 4 _)

theorem Valid.year_lt (h : p.Valid) : p.year < 10 ^ 4 := by
  cases p <;> exact h.1

theorem parse_eq_some_iff : parse text = some p ↔ p.Valid ∧ chomped text = p.text := by
  constructor
  · intro h
    unfold parse at h
    dsimp only at h
    split at h
    · rename_i year rest hyear hrest
      obtain ⟨hstart, hlt⟩ := fixedInt_eq_some_iff.1 hyear
      split at h
      · rename_i q hq
        obtain ⟨hdigit, -⟩ := fixedInt_eq_some_iff.1 hq
        split at h <;> cases h
        rename_i hrange
        refine ⟨⟨hlt, hrange⟩, ?_⟩
        rw [← List.take_append_drop 4 (chomped text), hstart, hrest, hdigit]
        rfl
      · cases h
    · rename_i year rest hnot hyear hrest
      obtain ⟨hstart, hlt⟩ := fixedInt_eq_some_iff.1 hyear
      split at h
      · rename_i m hm
        obtain ⟨hdigits, -⟩ := fixedInt_eq_some_iff.1 hm
        split at h <;> cases h
        rename_i hrange
        refine ⟨⟨hlt, hrange⟩, ?_⟩
        rw [← List.take_append_drop 4 (chomped text), hstart, hrest, hdigits]
        rfl
      · cases h
    · cases h
  · rintro ⟨hvalid, htext⟩
    unfold parse
    simp only [htext, text_take, text_drop, fixedInt_pad 4 hvalid.year_lt]
    cases p with
    | month y m =>
      obtain ⟨-, hlow, hhigh⟩ := hvalid
      interval_cases m <;> rfl
    | quarter y q =>
      obtain ⟨-, hlow, hhigh⟩ := hvalid
      interval_cases q <;> rfl

theorem periodCheck_text (h : p.Valid) : periodCheck p.text = true := by
  rw [periodCheck, text_take, text_drop, fixedInt_pad 4 h.year_lt, Option.isSome_some,
    Bool.true_and]
  cases p with
  | month y m =>
    obtain ⟨-, hlow, hhigh⟩ := h
    interval_cases m <;> rfl
  | quarter y q =>
    obtain ⟨-, hlow, hhigh⟩ := h
    interval_cases q <;> rfl

theorem exists_of_periodCheck (h : periodCheck text = true) :
    ∃ p : Period, p.Valid ∧ text = p.text := by
  rw [periodCheck, Bool.and_eq_true] at h
  obtain ⟨hstart, hrest⟩ := h
  obtain ⟨year, hyear⟩ := Option.isSome_iff_exists.1 hstart
  obtain ⟨htake, hlt⟩ := fixedInt_eq_some_iff.1 hyear
  have hsplit : text = pad 4 year ++ text.drop 4 := by rw [← htake, List.take_append_drop]
  split at hrest
  · rename_i c hdrop
    have hc := of_decide_eq_true hrest
    have hlast : digit (c.val - 48) = c := digit_eq (by omega)
    have hpad : pad 1 (c.val - 48) = [c] := by rw [pad, pad, hlast, List.nil_append]
    refine ⟨quarter year (c.val - 48), ⟨hlt, by omega, by omega⟩, ?_⟩
    rw [hsplit, hdrop, Period.text, suffix, hpad]
    rfl
  · rename_i c hdrop
    have hc := of_decide_eq_true hrest
    have hlast : digit (c.val - 48) = c := digit_eq (by omega)
    have htens : digit ((c.val - 48) / 10) = 0x30 := digit_eq (by change 48 = _; omega)
    have hpad : pad 2 (c.val - 48) = [0x30, c] := by rw [pad, pad, pad, htens, hlast]; rfl
    refine ⟨month year (c.val - 48), ⟨hlt, by omega, by omega⟩, ?_⟩
    rw [hsplit, hdrop, Period.text, suffix, hpad]
    rfl
  · rename_i c hdrop
    have hc := of_decide_eq_true hrest
    have hlast : digit (c.val - 38) = c := digit_eq (by omega)
    have htens : digit ((c.val - 38) / 10) = 0x31 := digit_eq (by change 49 = _; omega)
    have hpad : pad 2 (c.val - 38) = [0x31, c] := by rw [pad, pad, pad, htens, hlast]; rfl
    refine ⟨month year (c.val - 38), ⟨hlt, by omega, by omega⟩, ?_⟩
    rw [hsplit, hdrop, Period.text, suffix, hpad]
    rfl
  · cases hrest

theorem periodCheck_iff : periodCheck text = true ↔ ∃ p : Period, p.Valid ∧ text = p.text := by
  constructor
  · exact exists_of_periodCheck
  · rintro ⟨p, hvalid, rfl⟩
    exact periodCheck_text hvalid

theorem firstOf_eq {y m : ℕ} (hy : 1 ≤ y ∧ y ≤ 9999) (hm : 1 ≤ m ∧ m ≤ 12) :
    firstOf y m = .ok (monthStart ((y - 1) * 12 + (m - 1)) : ℤ) := by
  have hstart : monthStart ((y - 1) * 12 + (m - 1)) = toOrdinal y m 1 := by
    rw [monthStart]
    congr 1 <;> omega
  rw [firstOf, if_pos hy, hstart]

theorem firstOf_error {y m : ℕ} (hy : ¬ (1 ≤ y ∧ y ≤ 9999)) : ∃ e, firstOf y m = .error e :=
  ⟨_, if_neg hy⟩

theorem span_of_bounded (h : p.Valid) (hb : p.Bounded) :
    p.span = .ok ((monthStart p.firstMonth : ℤ), (monthStart (p.firstMonth + p.length) : ℤ)) := by
  cases p with
  | month y m =>
    obtain ⟨hy, hm⟩ := h
    obtain ⟨hpos, hlast⟩ := hb
    have hyear : 1 ≤ y ∧ y ≤ 9999 := ⟨hpos, by omega⟩
    simp only [span, firstOf_eq hyear hm, firstMonth, length]
    split_ifs with hdec
    · have hnext : y + 1 ≤ 9999 := by
        by_contra hgt
        exact hlast (Prod.ext (by omega) hdec)
      rw [firstOf_eq ⟨by omega, hnext⟩ (by decide)]
      have hindex : (y - 1) * 12 + (m - 1) + 1 = (y + 1 - 1) * 12 + (1 - 1) := by omega
      rw [hindex]
      rfl
    · rw [firstOf_eq hyear ⟨by omega, by omega⟩]
      have hindex : (y - 1) * 12 + (m - 1) + 1 = (y - 1) * 12 + (m + 1 - 1) := by omega
      rw [hindex]
      rfl
  | quarter y q =>
    obtain ⟨hy, hq⟩ := h
    obtain ⟨hpos, hlast⟩ := hb
    have hyear : 1 ≤ y ∧ y ≤ 9999 := ⟨hpos, by omega⟩
    simp only [span, firstOf_eq hyear (m := (q - 1) * 3 + 1) ⟨by omega, by omega⟩, firstMonth,
      length, Nat.add_sub_cancel]
    split_ifs with hdec
    · have hnext : y + 1 ≤ 9999 := by
        by_contra hgt
        exact hlast (Prod.ext (by omega) (by omega))
      rw [firstOf_eq ⟨by omega, hnext⟩ (by decide)]
      have hindex : (y - 1) * 12 + (q - 1) * 3 + 3 = (y + 1 - 1) * 12 + (1 - 1) := by omega
      rw [hindex]
      rfl
    · rw [firstOf_eq hyear ⟨by omega, by omega⟩]
      have hindex : (y - 1) * 12 + (q - 1) * 3 + 3 = (y - 1) * 12 + ((q - 1) * 3 + 4 - 1) := by
        omega
      rw [hindex]
      rfl

theorem span_of_not_bounded (h : p.Valid) (hb : ¬ p.Bounded) : ∃ e, p.span = .error e := by
  cases p with
  | month y m =>
    obtain ⟨hy, hm⟩ := h
    by_cases hpos : 1 ≤ y
    · have hlast : (y, m) = (9999, 12) := by
        by_contra hne
        exact hb ⟨hpos, hne⟩
      cases hlast
      exact ⟨_, rfl⟩
    · obtain ⟨e, he⟩ := @firstOf_error y m (by omega)
      exact ⟨e, by rw [span, he]; rfl⟩
  | quarter y q =>
    obtain ⟨hy, hq⟩ := h
    by_cases hpos : 1 ≤ y
    · have hlast : (y, q) = (9999, 4) := by
        by_contra hne
        exact hb ⟨hpos, hne⟩
      cases hlast
      exact ⟨_, rfl⟩
    · obtain ⟨e, he⟩ := @firstOf_error y ((q - 1) * 3 + 1) (by omega)
      exact ⟨e, by rw [span, he]; rfl⟩

theorem holds_iff {day : ℕ} (h : p.Valid) (hb : p.Bounded) (hday : 1 ≤ day) :
    p.Holds day ↔ monthStart p.firstMonth ≤ day ∧ day < monthStart (p.firstMonth + p.length) := by
  obtain ⟨hfirst, hlast, -, -⟩ := ofOrdinal_month hday
  have hyear : 1 ≤ (ofOrdinal day).1 := yearOf_pos day
  rw [monthStart_le_iff hday, lt_monthStart_iff hday]
  cases p with
  | month y m =>
    obtain ⟨-, hm⟩ := h
    obtain ⟨hpos, -⟩ := hb
    simp only [Holds, firstMonth, length, monthOf]
    omega
  | quarter y q =>
    obtain ⟨-, hq⟩ := h
    obtain ⟨hpos, -⟩ := hb
    simp only [Holds, firstMonth, length, monthOf]
    omega

/-! ### The bounds -/

/-- The bounds are the first and the last day of the period. -/
def FirstAndLast (p : Period) (b : ℤ × ℤ) : Prop :=
  ∃ first last : ℕ, b = (↑first, ↑last) ∧ 1 ≤ first ∧ first ≤ last ∧ last ≤ maxOrdinal ∧
    ∀ day, 1 ≤ day → day ≤ maxOrdinal → (p.Holds day ↔ first ≤ day ∧ day ≤ last)

def bounds (p : Period) : ℤ × ℤ :=
  (↑(monthStart p.firstMonth), ↑(monthStart (p.firstMonth + p.length)) - 1)

theorem getLast?_text (h : p.Valid) : p.text.getLast? ≠ some 10 := by
  have hsuffix : p.suffix ≠ [] := by cases p <;> exact List.cons_ne_nil _ _
  rw [Period.text, List.getLast?_append_of_ne_nil _ hsuffix]
  cases p with
  | month y m =>
    obtain ⟨-, hlow, hhigh⟩ := h
    rw [suffix]
    interval_cases m <;> decide
  | quarter y q =>
    obtain ⟨-, hlow, hhigh⟩ := h
    rw [suffix]
    interval_cases q <;> decide

theorem chomped_eq_iff (h : p.Valid) :
    chomped text = p.text ↔ text = p.text ∨ text = p.text ++ [10] := by
  unfold chomped
  constructor
  · intro htext
    split_ifs at htext with hlast
    · obtain ⟨rest, rfl⟩ := List.getLast?_eq_some_iff.1 hlast
      rw [List.dropLast_concat] at htext
      exact .inr (by rw [htext])
    · exact .inl htext
  · rintro (rfl | rfl)
    · exact if_neg (getLast?_text h)
    · rw [if_pos List.getLast?_concat, List.dropLast_concat]

theorem periodBounds_eq_ok_iff {b : ℤ × ℤ} : periodBounds text = .ok b ↔
    ∃ p : Period, p.Valid ∧ p.Bounded ∧ chomped text = p.text ∧ b = p.bounds := by
  constructor
  · intro h
    unfold periodBounds at h
    split at h
    · rename_i p hparse
      obtain ⟨hvalid, htext⟩ := parse_eq_some_iff.1 hparse
      by_cases hb : p.Bounded
      · rw [span_of_bounded hvalid hb] at h
        cases h
        exact ⟨p, hvalid, hb, htext, rfl⟩
      · obtain ⟨e, he⟩ := span_of_not_bounded hvalid hb
        rw [he] at h
        cases h
    · cases h
  · rintro ⟨p, hvalid, hb, htext, rfl⟩
    rw [periodBounds, parse_eq_some_iff.2 ⟨hvalid, htext⟩]
    dsimp only
    rw [span_of_bounded hvalid hb]
    rfl

theorem text_injective (h : p.Valid) (h' : p'.Valid) (htext : p.text = p'.text) : p = p' := by
  have hparse := parse_eq_some_iff.2 ⟨h, (chomped_eq_iff h).2 (.inl rfl)⟩
  have hparse' := parse_eq_some_iff.2 ⟨h', (chomped_eq_iff h').2 (.inl htext)⟩
  exact Option.some.inj (hparse.symm.trans hparse')

theorem periodBounds_text_iff {b : ℤ × ℤ} (h : p.Valid) :
    periodBounds p.text = .ok b ↔ p.Bounded ∧ b = p.bounds := by
  rw [periodBounds_eq_ok_iff]
  constructor
  · rintro ⟨p', hvalid, hb, htext, rfl⟩
    rw [(chomped_eq_iff h).2 (.inl rfl)] at htext
    obtain rfl := text_injective h hvalid htext
    exact ⟨hb, rfl⟩
  · rintro ⟨hb, rfl⟩
    exact ⟨p, h, hb, (chomped_eq_iff h).2 (.inl rfl), rfl⟩

theorem length_pos (p : Period) : 1 ≤ p.length := by cases p <;> simp [length]

theorem month_lt (h : p.Valid) (hb : p.Bounded) : p.firstMonth + p.length ≤ 119987 := by
  cases p with
  | month y m =>
    obtain ⟨hy, hm⟩ := h
    have hlast : ¬ (y = 9999 ∧ m = 12) := fun hend => hb.2 (Prod.ext hend.1 hend.2)
    simp only [firstMonth, length]
    omega
  | quarter y q =>
    obtain ⟨hy, hq⟩ := h
    have hlast : ¬ (y = 9999 ∧ q = 4) := fun hend => hb.2 (Prod.ext hend.1 hend.2)
    simp only [firstMonth, length]
    omega

theorem firstAndLast_bounds (h : p.Valid) (hb : p.Bounded) : p.FirstAndLast p.bounds := by
  have hlt : monthStart p.firstMonth < monthStart (p.firstMonth + p.length) :=
    monthStart_strictMono (Nat.lt_add_of_pos_right p.length_pos)
  have hend : monthStart (p.firstMonth + p.length) ≤ monthStart 119987 :=
    monthStart_strictMono.monotone (month_lt h hb)
  have hmax : monthStart 119987 ≤ maxOrdinal := by decide
  have hpos : 1 ≤ monthStart p.firstMonth := by
    rw [monthStart, toOrdinal]
    omega
  refine ⟨monthStart p.firstMonth, monthStart (p.firstMonth + p.length) - 1, ?_, hpos, by omega,
    by omega, fun day hday _ => ?_⟩
  · rw [bounds]
    exact Prod.ext rfl (by dsimp only; omega)
  · rw [holds_iff h hb hday]
    omega

/-- The period's bounds enclose the day. -/
def Covers (p : Period) (day : ℕ) : Prop :=
  p.Valid ∧ ∃ b, periodBounds p.text = .ok b ∧ b.1 ≤ day ∧ (day : ℤ) ≤ b.2

theorem covers_iff {day : ℕ} (hday : 1 ≤ day) :
    p.Covers day ↔ p.Valid ∧ p.Bounded ∧ p.Holds day := by
  constructor
  · rintro ⟨hvalid, b, hbounds, hlow, hhigh⟩
    obtain ⟨hb, rfl⟩ := (periodBounds_text_iff hvalid).1 hbounds
    simp only [bounds] at hlow hhigh
    exact ⟨hvalid, hb, (holds_iff hvalid hb hday).2 (by omega)⟩
  · rintro ⟨hvalid, hb, hholds⟩
    have hin := (holds_iff hvalid hb hday).1 hholds
    refine ⟨hvalid, p.bounds, (periodBounds_text_iff hvalid).2 ⟨hb, rfl⟩, ?_⟩
    simp only [bounds]
    omega

/-- Only December of 9999 is in no month. -/
theorem exists_month_iff {day : ℕ} (h : 1 ≤ day) (hmax : day ≤ maxOrdinal) :
    (∃! p : Period, p.length = 1 ∧ p.Covers day) ↔ day < toOrdinal 9999 12 1 := by
  obtain ⟨hfirst, hlast, -, -⟩ := ofOrdinal_month h
  have hyear : 1 ≤ (ofOrdinal day).1 := yearOf_pos day
  have hlimit := (ofOrdinal_lt h hmax).1
  have hend : toOrdinal 9999 12 1 = monthStart 119987 := by decide
  rw [hend, lt_monthStart_iff h, monthOf]
  constructor
  · rintro ⟨p, ⟨hlength, hcovers⟩, -⟩
    obtain ⟨-, hb, hholds⟩ := (covers_iff h).1 hcovers
    cases p with
    | quarter y q => cases hlength
    | month y m =>
      obtain ⟨rfl, rfl⟩ := hholds
      have hne : ¬ ((ofOrdinal day).1 = 9999 ∧ (ofOrdinal day).2.1 = 12) :=
        fun hlast => hb.2 (Prod.ext hlast.1 hlast.2)
      omega
  · intro hlt
    refine ⟨.month (ofOrdinal day).1 (ofOrdinal day).2.1, ⟨rfl, (covers_iff h).2
      ⟨⟨hlimit, hfirst, hlast⟩, ⟨hyear, fun hne => ?_⟩, rfl, rfl⟩⟩, ?_⟩
    · have hend := Prod.mk.inj hne
      omega
    · rintro p ⟨hlength, hcovers⟩
      obtain ⟨-, -, hholds⟩ := (covers_iff h).1 hcovers
      cases p with
      | quarter y q => cases hlength
      | month y m =>
        obtain ⟨rfl, rfl⟩ := hholds
        rfl

/-- Only the days from October of 9999 on are in no quarter. -/
theorem exists_quarter_iff {day : ℕ} (h : 1 ≤ day) (hmax : day ≤ maxOrdinal) :
    (∃! p : Period, p.length = 3 ∧ p.Covers day) ↔ day < toOrdinal 9999 10 1 := by
  obtain ⟨hfirst, hlast, -, -⟩ := ofOrdinal_month h
  have hyear : 1 ≤ (ofOrdinal day).1 := yearOf_pos day
  have hlimit := (ofOrdinal_lt h hmax).1
  have hend : toOrdinal 9999 10 1 = monthStart 119985 := by decide
  rw [hend, lt_monthStart_iff h, monthOf]
  constructor
  · rintro ⟨p, ⟨hlength, hcovers⟩, -⟩
    obtain ⟨-, hb, hholds⟩ := (covers_iff h).1 hcovers
    cases p with
    | month y m => cases hlength
    | quarter y q =>
      obtain ⟨rfl, rfl⟩ := hholds
      have hne : ¬ ((ofOrdinal day).1 = 9999 ∧ ((ofOrdinal day).2.1 - 1) / 3 + 1 = 4) :=
        fun hlast => hb.2 (Prod.ext hlast.1 hlast.2)
      omega
  · intro hlt
    refine ⟨.quarter (ofOrdinal day).1 (((ofOrdinal day).2.1 - 1) / 3 + 1), ⟨rfl, (covers_iff h).2
      ⟨⟨hlimit, by omega, by omega⟩, ⟨hyear, fun hne => ?_⟩, rfl, rfl⟩⟩, ?_⟩
    · have hend := Prod.mk.inj hne
      omega
    · rintro p ⟨hlength, hcovers⟩
      obtain ⟨-, -, hholds⟩ := (covers_iff h).1 hcovers
      cases p with
      | month y m => cases hlength
      | quarter y q =>
        obtain ⟨rfl, rfl⟩ := hholds
        rfl

theorem adjacent {b b' : ℤ × ℤ} (h : p.Valid) (h' : p'.Valid)
    (hnext : p'.firstMonth = p.firstMonth + p.length) (hb : periodBounds p.text = .ok b)
    (hb' : periodBounds p'.text = .ok b') : b.2 + 1 = b'.1 := by
  obtain ⟨-, rfl⟩ := (periodBounds_text_iff h).1 hb
  obtain ⟨-, rfl⟩ := (periodBounds_text_iff h').1 hb'
  simp only [bounds, hnext]
  omega

theorem quarter_joined {y q : ℕ} {b : ℤ × ℤ} (h : (quarter y q).Valid)
    (hb : periodBounds (quarter y q).text = .ok b) :
    ∃ b₁ b₂ b₃, periodBounds (month y (3 * q - 2)).text = .ok b₁ ∧
      periodBounds (month y (3 * q - 1)).text = .ok b₂ ∧
      periodBounds (month y (3 * q)).text = .ok b₃ ∧ b₁.2 + 1 = b₂.1 ∧ b₂.2 + 1 = b₃.1 ∧
      b = (b₁.1, b₃.2) := by
  obtain ⟨⟨hpos, hlast⟩, rfl⟩ := (periodBounds_text_iff h).1 hb
  obtain ⟨hy, hlow, hhigh⟩ := h
  have hne : ¬ (y = 9999 ∧ q = 4) := fun hend => hlast (Prod.ext hend.1 hend.2)
  have hmonth : ∀ m, 3 * q - 2 ≤ m → m ≤ 3 * q →
      periodBounds (month y m).text = .ok (month y m).bounds := by
    intro m hm hm'
    have hvalid : (month y m).Valid := ⟨hy, by omega, by omega⟩
    refine (periodBounds_text_iff hvalid).2 ⟨⟨hpos, fun heq => ?_⟩, rfl⟩
    have hend := Prod.mk.inj heq
    omega
  refine ⟨_, _, _, hmonth _ (by omega) (by omega), hmonth _ (by omega) (by omega),
    hmonth _ (by omega) (by omega), ?_, ?_, ?_⟩
  · have hnext : (y - 1) * 12 + (3 * q - 2 - 1) + 1 = (y - 1) * 12 + (3 * q - 1 - 1) := by omega
    simp only [bounds, firstMonth, length, hnext]
    omega
  · have hnext : (y - 1) * 12 + (3 * q - 1 - 1) + 1 = (y - 1) * 12 + (3 * q - 1) := by omega
    simp only [bounds, firstMonth, length, hnext]
    omega
  · have hstart : (y - 1) * 12 + (q - 1) * 3 = (y - 1) * 12 + (3 * q - 2 - 1) := by omega
    have hend : (y - 1) * 12 + (q - 1) * 3 + 3 = (y - 1) * 12 + (3 * q - 1) + 1 := by omega
    simp only [bounds, firstMonth, length, hend]
    rw [hstart]

end Period

/-- `period_bounds` succeeds on a string exactly if the columns take it, and gives the first
and the last day of the period. -/
structure PeriodExact (text : PyStr) : Prop where
  accepted : (∃ b, periodBounds text = .ok b) ↔ periodCheck text = true
  firstAndLast : ∀ p : Period, p.Valid → text = p.text → ∀ b, periodBounds text = .ok b →
    p.FirstAndLast b

theorem periodExact_iff {text : PyStr} : PeriodExact text ↔
    ∀ p : Period, p.Valid → (text = p.text → p.Bounded) ∧ (text = p.text ++ [10] → ¬ p.Bounded) := by
  constructor
  · intro h p hvalid
    constructor
    · rintro rfl
      obtain ⟨b, hb⟩ := h.accepted.2 (Period.periodCheck_text hvalid)
      exact ((Period.periodBounds_text_iff hvalid).1 hb).1
    · rintro rfl hbounded
      obtain ⟨p', hvalid', htext⟩ := Period.periodCheck_iff.1 (h.accepted.1 ⟨p.bounds,
        Period.periodBounds_eq_ok_iff.2 ⟨p, hvalid, hbounded,
          (Period.chomped_eq_iff hvalid).2 (.inr rfl), rfl⟩⟩)
      exact Period.getLast?_text hvalid' (by rw [← htext, List.getLast?_concat])
  · intro h
    refine ⟨⟨?_, fun hcheck => ?_⟩, ?_⟩
    · rintro ⟨b, hb⟩
      obtain ⟨p, hvalid, hbounded, htext, rfl⟩ := Period.periodBounds_eq_ok_iff.1 hb
      rcases (Period.chomped_eq_iff hvalid).1 htext with rfl | hframed
      · exact Period.periodCheck_text hvalid
      · exact absurd hbounded ((h p hvalid).2 hframed)
    · obtain ⟨p, hvalid, rfl⟩ := Period.periodCheck_iff.1 hcheck
      exact ⟨p.bounds, (Period.periodBounds_text_iff hvalid).2 ⟨(h p hvalid).1 rfl, rfl⟩⟩
    · rintro p hvalid rfl b hb
      obtain ⟨hbounded, rfl⟩ := (Period.periodBounds_text_iff hvalid).1 hb
      exact Period.firstAndLast_bounds hvalid hbounded

/-- On one string the two grammars and the bounds agree exactly where the period, if it is one,
has a first day and a day after its last, and is not followed by a line feed; and the periods
tile the calendar up to the last month and the last quarter. -/
theorem periods_tile_iff (text : PyStr) (day : ℕ) :
    (PeriodExact text ↔ ∀ p : Period, p.Valid →
      (text = p.text → p.Bounded) ∧ (text = p.text ++ [10] → ¬ p.Bounded)) ∧
    (∀ (p p' : Period) b b', p.Valid → p'.Valid → p'.firstMonth = p.firstMonth + p.length →
      periodBounds p.text = .ok b → periodBounds p'.text = .ok b' → b.2 + 1 = b'.1) ∧
    (1 ≤ day → day ≤ maxOrdinal →
      ((∃! p : Period, p.length = 1 ∧ p.Covers day) ↔ day < toOrdinal 9999 12 1) ∧
      ((∃! p : Period, p.length = 3 ∧ p.Covers day) ↔ day < toOrdinal 9999 10 1)) ∧
    ∀ y q b, (Period.quarter y q).Valid → periodBounds (Period.quarter y q).text = .ok b →
      ∃ b₁ b₂ b₃, periodBounds (Period.month y (3 * q - 2)).text = .ok b₁ ∧
        periodBounds (Period.month y (3 * q - 1)).text = .ok b₂ ∧
        periodBounds (Period.month y (3 * q)).text = .ok b₃ ∧ b₁.2 + 1 = b₂.1 ∧
        b₂.2 + 1 = b₃.1 ∧ b = (b₁.1, b₃.2) :=
  ⟨periodExact_iff, fun _ _ _ _ h h' hnext hb hb' => Period.adjacent h h' hnext hb hb',
    fun h hmax => ⟨Period.exists_month_iff h hmax, Period.exists_quarter_iff h hmax⟩,
    fun _ _ _ h hb => Period.quarter_joined h hb⟩

/-- A line feed at the end passes `period_bounds` alone, and the first year and the last month
pass the columns alone. -/
theorem periods_disagree : ¬ PeriodExact (py "2026-07" ++ [10]) ∧ ¬ PeriodExact (py "0000-01") ∧
    ¬ PeriodExact (py "9999-12") := by
  refine ⟨fun h => ?_, fun h => ?_, fun h => ?_⟩
  · exact (periodExact_iff.1 h (.month 2026 7) (by decide)).2 rfl (by decide)
  · exact absurd ((periodExact_iff.1 h (.month 0 1) (by decide)).1 rfl) (by decide)
  · exact absurd ((periodExact_iff.1 h (.month 9999 12) (by decide)).1 rfl) (by decide)

end TrueFigure.Server
