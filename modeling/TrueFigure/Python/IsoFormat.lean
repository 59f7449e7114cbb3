import TrueFigure.Python.DateTime
import Mathlib.Tactic.Ring

/-!
# Timestamps as text

`datetime.fromisoformat` with its ISO 8601 variants, `astimezone(UTC)`, and the
rendering and re-reading of the canonical millisecond form.
-/
namespace TrueFigure.Python

def microsPerDay : ℕ := 86400000000

/-- One past the last instant a `datetime` can hold. -/
def microsEnd : ℕ := maxOrdinal * microsPerDay

/-- A parsed `datetime`: the local time as microseconds since year 1, and the
UTC offset in microseconds where the text carries one. -/
structure ParsedDateTime where
  micros : ℕ
  offset : Option ℤ

/-- `s[i:j]`. -/
def slice (s : PyStr) (i j : ℕ) : PyStr := (s.drop i).take (j - i)

/-- Where the separator between date and time stands. -/
def separatorLocation (s : PyStr) : Option ℕ :=
  if s.length = 7 then some 7
  else if s[4]? = some (chr '-') then
    if s[5]? = some (chr 'W') then
      if s[8]? = some (chr '-') then
        if s.length = 9 then none
        else if (s[10]?).any isDigit then some 8
        else some 10
      else some 8
    else some 10
  else if s[4]? = some (chr 'W') then
    let pos := 7 + ((s.drop 7).takeWhile isDigit).length
    if pos < 9 then some pos
    else if pos % 2 = 0 then some 8
    else some 7
  else some 8

/-- The ordinal of a calendar date, if it is one. -/
def ordinalOf? (year month day : ℕ) : Option ℕ :=
  if 1 ≤ year ∧ year ≤ 9999 ∧ 1 ≤ month ∧ month ≤ 12 ∧ 1 ≤ day ∧ day ≤ daysInMonth year month then
    some (toOrdinal year month day)
  else none

def isoWeekOrdinal? (year week day : ℕ) : Option ℕ :=
  let firstDay := toOrdinal year 1 1
  let firstWeekday := (firstDay + 6) % 7
  let week1Monday := if 3 < firstWeekday then firstDay - firstWeekday + 7 else firstDay - firstWeekday
  let has53 := firstDay % 7 = 4 ∨ (firstDay % 7 = 3 ∧ isLeap year)
  let ordinal := week1Monday + (week - 1) * 7 + (day - 1)
  if 1 ≤ year ∧ year ≤ 9999 ∧ 1 ≤ week ∧ (week ≤ 52 ∨ (week = 53 ∧ has53)) ∧ 1 ≤ day ∧ day ≤ 7 ∧
      ordinal ≤ maxOrdinal then
    some ordinal
  else none

/-- The date part: `YYYY-MM-DD`, `YYYYMMDD`, or a week date with or without dashes. -/
def parseIsoDate (d : PyStr) : Option ℕ :=
  if d.length = 7 ∨ d.length = 8 ∨ d.length = 10 then do
    let year ← fixedInt 4 (d.take 4)
    let hasSep := d[4]? = some (chr '-')
    let pos := if hasSep then 5 else 4
    if d[pos]? = some (chr 'W') then
      let week ← fixedInt 2 (slice d (pos + 1) (pos + 3))
      if pos + 3 < d.length then
        if hasSep ∧ d[pos + 3]? ≠ some (chr '-') then none
        else
          let pos := if hasSep then pos + 4 else pos + 3
          let day ← fixedInt 1 (slice d pos (pos + 1))
          isoWeekOrdinal? year week day
      else isoWeekOrdinal? year week 1
    else
      let month ← fixedInt 2 (slice d pos (pos + 2))
      if hasSep ∧ d[pos + 2]? ≠ some (chr '-') then none
      else
        let pos := if hasSep then pos + 3 else pos + 2
        let day ← fixedInt 2 (slice d pos (pos + 2))
        ordinalOf? year month day
  else none

/-- A fraction of a second, cut to six digits, as microseconds. -/
def parseFraction (fraction : PyStr) : Option ℕ :=
  if fraction ≠ [] ∧ fraction.all isDigit then
    let kept := fraction.take 6
    some (digitsValue kept * 10 ^ (6 - kept.length))
  else none

/-- `HH[:?MM[:?SS[{.,}fff]]]`, as hours, minutes, seconds and microseconds. -/
def parseHhMmSsFf (t : PyStr) : Option (ℕ × ℕ × ℕ × ℕ) := do
  let hour ← fixedInt 2 (t.take 2)
  let rest := t.drop 2
  let hasSep := rest.head? = some (chr ':')
  if rest = [] then some (hour, 0, 0, 0)
  else
    let rest := if hasSep then rest.drop 1 else rest
    let minute ← fixedInt 2 (rest.take 2)
    let rest := rest.drop 2
    if rest = [] then some (hour, minute, 0, 0)
    else if hasSep ∧ rest.head? ≠ some (chr ':') then none
    else
      let rest := if hasSep then rest.drop 1 else rest
      let second ← fixedInt 2 (rest.take 2)
      match rest.drop 2 with
      | [] => some (hour, minute, second, 0)
      | mark :: fraction =>
        if mark = chr '.' ∨ mark = chr ',' then do
          let micros ← parseFraction fraction
          some (hour, minute, second, micros)
        else none

def isOffsetMark (c : CodePoint) : Bool := c = chr '+' || c = chr '-' || c = chr 'Z'

/-- The UTC offset after its mark; a `timezone` spans less than a day. -/
def parseOffset : PyStr → Option ℤ
  | [] => none
  | mark :: text =>
    if mark = chr 'Z' then if text = [] then some 0 else none
    else if text.length = 0 ∨ text.length = 1 ∨ text.length = 3 then none
    else do
      let (hour, minute, second, micro) ← parseHhMmSsFf text
      let offset := ((hour * 60 + minute) * 60 + second) * 1000000 + micro
      if offset < microsPerDay then
        some (if mark = chr '-' then -(offset : ℤ) else offset)
      else none

/-- The time part, in microseconds of the day, with the offset if there is one. -/
def parseIsoTime (t : PyStr) : Option (ℕ × Option ℤ) := do
  let (hour, minute, second, micro) ← parseHhMmSsFf (t.takeWhile fun c => !isOffsetMark c)
  if hour ≤ 23 ∧ minute ≤ 59 ∧ second ≤ 59 then
    let micros := ((hour * 60 + minute) * 60 + second) * 1000000 + micro
    match t.dropWhile fun c => !isOffsetMark c with
    | [] => some (micros, none)
    | offset => (parseOffset offset).map fun o => (micros, some o)
  else none

/-- `datetime.fromisoformat`; `none` is its `ValueError`. -/
def fromisoformat (s : PyStr) : Option ParsedDateTime :=
  if s.length < 7 then none
  else do
    let location ← separatorLocation s
    let ordinal ← parseIsoDate (s.take location)
    let time := s.drop (location + 1)
    let (micros, offset) ← if time = [] then some (0, none) else parseIsoTime time
    some ⟨(ordinal - 1) * microsPerDay + micros, offset⟩

/-- `astimezone(UTC)` of an aware `datetime`, in microseconds. -/
def astimezoneUtc (micros : ℕ) (offset : ℤ) : Except PyErr ℕ :=
  let utc := (micros : ℤ) - offset
  if 0 ≤ utc ∧ utc < microsEnd then .ok utc.toNat else .error .overflowError

theorem astimezoneUtc_lt {micros : ℕ} {offset : ℤ} {utc : ℕ}
    (h : astimezoneUtc micros offset = .ok utc) : utc < microsEnd := by
  unfold astimezoneUtc at h
  by_cases hutc : 0 ≤ (micros : ℤ) - offset ∧ (micros : ℤ) - offset < microsEnd
  · simp only [hutc, and_self, if_true, Except.ok.injEq] at h
    omega
  · simp only [hutc, if_false, reduceCtorEq] at h

/-- `YYYY-MM-DDTHH:MM:SS.mmmZ` from its digits. -/
def canonicalText (year month day hour minute second milli : PyStr) : PyStr :=
  year ++ [chr '-'] ++ month ++ [chr '-'] ++ day ++ [chr 'T'] ++ hour ++ [chr ':'] ++ minute ++
    [chr ':'] ++ second ++ [chr '.'] ++ milli ++ [chr 'Z']

/-- `strftime("%Y-%m-%dT%H:%M:%S.") + f"{microsecond // 1000:03d}Z"`, for the
instant of this many milliseconds. -/
def renderMillis (millis : ℕ) : PyStr :=
  let date := ofOrdinal (millis / 86400000 + 1)
  canonicalText (pad 4 date.1) (pad 2 date.2.1) (pad 2 date.2.2) (pad 2 (millis / 3600000 % 24))
    (pad 2 (millis / 60000 % 60)) (pad 2 (millis / 1000 % 60)) (pad 3 (millis % 1000))

theorem textOk_renderMillis (millis : ℕ) : textOk (renderMillis millis) = true := by
  have hpad : ∀ width n, textOk (pad width n) = true :=
    fun width n => textOk_digits (all_isDigit_pad width n)
  unfold renderMillis canonicalText
  simp only [textOk_append, hpad, Bool.true_and, Bool.and_true]
  decide

/-- `strptime(ts, "%Y-%m-%dT%H:%M:%S.%fZ")` on text of the canonical shape, in
milliseconds; `none` is its `ValueError`. -/
def strptimeMillis (s : PyStr) : Option ℕ := do
  let year ← fixedInt 4 (slice s 0 4)
  let month ← fixedInt 2 (slice s 5 7)
  let day ← fixedInt 2 (slice s 8 10)
  let hour ← fixedInt 2 (slice s 11 13)
  let minute ← fixedInt 2 (slice s 14 16)
  let second ← fixedInt 2 (slice s 17 19)
  let milli ← fixedInt 3 (slice s 20 23)
  if s.length = 24 then
    some ((toOrdinal year month day - 1) * 86400000 +
      ((hour * 60 + minute) * 60 + second) * 1000 + milli)
  else none

/-- One past the last canonical millisecond. -/
def millisEnd : ℕ := maxOrdinal * 86400000

theorem microsEnd_eq : microsEnd = 1000 * millisEnd := by
  unfold microsEnd millisEnd microsPerDay
  ring

theorem millis_lt {micros : ℕ} (h : micros < microsEnd) : micros / 1000 < millisEnd :=
  Nat.div_lt_of_lt_mul (microsEnd_eq ▸ h)

theorem strptime_canonicalText {year month day hour minute second milli : PyStr}
    (hyear : year.length = 4) (hmonth : month.length = 2) (hday : day.length = 2)
    (hhour : hour.length = 2) (hminute : minute.length = 2) (hsecond : second.length = 2)
    (hmilli : milli.length = 3) :
    strptimeMillis (canonicalText year month day hour minute second milli) = (do
      let year ← fixedInt 4 year
      let month ← fixedInt 2 month
      let day ← fixedInt 2 day
      let hour ← fixedInt 2 hour
      let minute ← fixedInt 2 minute
      let second ← fixedInt 2 second
      let milli ← fixedInt 3 milli
      some ((toOrdinal year month day - 1) * 86400000 +
        ((hour * 60 + minute) * 60 + second) * 1000 + milli)) := by
  obtain ⟨y1, y2, y3, y4, rfl⟩ := List.length_eq_four.1 hyear
  obtain ⟨m1, m2, rfl⟩ := List.length_eq_two.1 hmonth
  obtain ⟨d1, d2, rfl⟩ := List.length_eq_two.1 hday
  obtain ⟨h1, h2, rfl⟩ := List.length_eq_two.1 hhour
  obtain ⟨n1, n2, rfl⟩ := List.length_eq_two.1 hminute
  obtain ⟨s1, s2, rfl⟩ := List.length_eq_two.1 hsecond
  obtain ⟨u1, u2, u3, rfl⟩ := List.length_eq_three.1 hmilli
  rfl

/-- The canonical form reads back as its instant. -/
theorem strptime_render {millis : ℕ} (h : millis < millisEnd) :
    strptimeMillis (renderMillis millis) = some millis := by
  have hfirst : 1 ≤ millis / 86400000 + 1 := Nat.le_add_left _ _
  have hdays : millis / 86400000 + 1 ≤ maxOrdinal :=
    Nat.div_lt_of_lt_mul (by rwa [Nat.mul_comm])
  obtain ⟨hyear, hmonth, hday⟩ := ofOrdinal_lt hfirst hdays
  have hordinal := toOrdinal_ofOrdinal hfirst
  rw [renderMillis, strptime_canonicalText (length_pad ..) (length_pad ..) (length_pad ..)
    (length_pad ..) (length_pad ..) (length_pad ..) (length_pad ..)]
  have hhour : millis / 3600000 % 24 < 10 ^ 2 := by omega
  have hminute : millis / 60000 % 60 < 10 ^ 2 := by omega
  have hsecond : millis / 1000 % 60 < 10 ^ 2 := by omega
  have hmilli : millis % 1000 < 10 ^ 3 := by omega
  rw [fixedInt_pad 4 hyear, fixedInt_pad 2 hmonth, fixedInt_pad 2 hday, fixedInt_pad 2 hhour,
    fixedInt_pad 2 hminute, fixedInt_pad 2 hsecond, fixedInt_pad 3 hmilli]
  simp only [Option.bind_eq_bind, Option.bind_some, hordinal]
  exact congrArg some (by omega)

/-- Canonical texts agree exactly when their instants do. -/
theorem renderMillis_inj {a b : ℕ} (ha : a < millisEnd) (hb : b < millisEnd)
    (h : renderMillis a = renderMillis b) : a = b := by
  have hread := strptime_render ha
  rw [h, strptime_render hb] at hread
  exact (Option.some.inj hread).symm

end TrueFigure.Python
