import TrueFigure.Python.IsoFormat

/-!
# The order of canonical timestamps

Canonical texts have their fields at fixed places, the widest first and padded with zeros:
they are ordered as their instants are. `fromisoformat` reads them back once their `Z` is
an offset.
-/
namespace TrueFigure.Python

/-! ### Texts of one length -/

section Texts

variable {x x' y y' : PyStr}

theorem append_lt_append (hlen : x.length = x'.length) (h : x < x' ∨ x = x' ∧ y < y') :
    x ++ y < x' ++ y' := by
  rcases h with hlt | ⟨rfl, hlt⟩
  · induction x generalizing x' with
    | nil =>
      rw [List.length_nil] at hlen
      rw [List.length_eq_zero_iff.1 hlen.symm] at hlt
      exact absurd hlt (List.not_lt_nil [])
    | cons c x ih =>
      cases x' with
      | nil => simp at hlen
      | cons c' x' =>
        rw [List.cons_append, List.cons_append, List.cons_lt_cons_iff]
        rcases List.cons_lt_cons_iff.1 hlt with hc | ⟨rfl, hrest⟩
        · exact .inl hc
        · exact .inr ⟨rfl, ih (Nat.succ.inj hlen) hrest⟩
  · exact List.append_left_lt hlt

theorem pad_lt (width : ℕ) {m n : ℕ} (h : m < n) (hn : n < 10 ^ width) : pad width m < pad width n := by
  induction width generalizing m n with
  | zero => omega
  | succ width ih =>
    rw [pow_succ] at hn
    rw [pad, pad]
    apply append_lt_append (by rw [length_pad, length_pad])
    rcases Nat.lt_or_ge (m / 10) (n / 10) with hlt | hge
    · exact .inl (ih hlt (by omega))
    · refine .inr ⟨congrArg _ (by omega), List.cons_lt_cons_iff.2 (.inl ?_)⟩
      rw [Fin.lt_def, digit_val, digit_val]
      omega

/-- A padded field decides, or it is the same and what comes after it does. -/
theorem pad_lt_or {width m n : ℕ} {p q : Prop} (h : m < n ∨ m = n ∧ p) (hn : n < 10 ^ width)
    (hpq : p → q) : pad width m < pad width n ∨ pad width m = pad width n ∧ q := by
  rcases h with hlt | ⟨rfl, hp⟩
  · exact .inl (pad_lt width hlt hn)
  · exact .inr ⟨rfl, hpq hp⟩

theorem separated_lt {c : CodePoint} (hlen : x.length = x'.length)
    (h : x < x' ∨ x = x' ∧ y < y') : c :: (x ++ y) < c :: (x' ++ y') :=
  List.cons_lt_cons_iff.2 (.inr ⟨rfl, append_lt_append hlen h⟩)

end Texts

/-! ### The order of dates -/

theorem monthDay_lt (lengths : List ℕ) (m : ℕ) {d d' : ℕ} (h : d < d') :
    (monthDay lengths m d).1 < (monthDay lengths m d').1 ∨
      (monthDay lengths m d).1 = (monthDay lengths m d').1 ∧
        (monthDay lengths m d).2 < (monthDay lengths m d').2 := by
  induction lengths generalizing m d d' with
  | nil => exact .inr ⟨rfl, h⟩
  | cons len rest ih =>
    unfold monthDay
    split_ifs with hd hd' hd'
    · exact .inr ⟨rfl, h⟩
    · exact .inl (monthDay_spec rest (m + 1) (d' - len)).1
    · omega
    · exact ih (m + 1) (by omega)

theorem daysBeforeYear_mono {y y' : ℕ} (h : y ≤ y') : daysBeforeYear y ≤ daysBeforeYear y' := by
  induction y', h using Nat.le_induction with
  | base => exact le_rfl
  | succ n _ ih =>
    apply ih.trans
    rcases Nat.eq_zero_or_pos n with rfl | hpos
    · exact le_rfl
    · rw [daysBeforeYear_succ hpos]
      exact Nat.le_add_right _ _

theorem ofOrdinal_strictMono {n n' : ℕ} (hn : 1 ≤ n) (h : n < n') :
    (ofOrdinal n).1 < (ofOrdinal n').1 ∨ (ofOrdinal n).1 = (ofOrdinal n').1 ∧
      ((ofOrdinal n).2.1 < (ofOrdinal n').2.1 ∨ (ofOrdinal n).2.1 = (ofOrdinal n').2.1 ∧
        (ofOrdinal n).2.2 < (ofOrdinal n').2.2) := by
  have hlow := (daysBeforeYear_yearOf hn).1
  have hhigh := (daysBeforeYear_yearOf (hn.trans h.le)).2
  rcases lt_trichotomy (yearOf n) (yearOf n') with hlt | heq | hgt
  · exact .inl hlt
  · refine .inr ⟨heq, ?_⟩
    simp only [ofOrdinal, ← heq]
    exact monthDay_lt _ _ (by omega)
  · have hyears : daysBeforeYear (yearOf n' + 1) ≤ daysBeforeYear (yearOf n) :=
      daysBeforeYear_mono hgt
    omega

/-! ### The order of instants -/

theorem canonicalText_eq (year month day hour minute second milli : PyStr) :
    canonicalText year month day hour minute second milli =
      year ++ (chr '-' :: (month ++ (chr '-' :: (day ++ (chr 'T' :: (hour ++ (chr ':' ::
        (minute ++ (chr ':' :: (second ++ (chr '.' :: (milli ++ [chr 'Z'])))))))))))) := by
  simp only [canonicalText, List.append_assoc, List.cons_append, List.nil_append]

theorem mod_lt_or {a b k : ℕ} (hle : a ≤ b) (hdiv : a / k = b / k) :
    a % k < b % k ∨ a % k = b % k ∧ a = b := by
  have ha := Nat.div_add_mod a k
  have hb := Nat.div_add_mod b k
  rw [hdiv] at ha
  omega

/-- A digit group of two clocks that agree above it decides, or the clocks agree on it too. -/
theorem clock_lt {a b j k : ℕ} {p : Prop} (hle : a ≤ b) (habove : a / (j * k) = b / (j * k))
    (hbelow : a / j = b / j → p) :
    a / j % k < b / j % k ∨ a / j % k = b / j % k ∧ p := by
  have hdiv : a / j / k = b / j / k := by rwa [Nat.div_div_eq_div_mul, Nat.div_div_eq_div_mul]
  exact (mod_lt_or (Nat.div_le_div_right hle) hdiv).imp_right fun h => ⟨h.1, hbelow h.2⟩

/-- A later millisecond has a later text. -/
theorem renderMillis_lt {a b : ℕ} (h : a < b) (hb : b < millisEnd) :
    renderMillis a < renderMillis b := by
  have hdays : b / 86400000 + 1 ≤ maxOrdinal := Nat.div_lt_of_lt_mul (by rwa [Nat.mul_comm])
  obtain ⟨hyear, hmonth, hday⟩ := ofOrdinal_lt (Nat.le_add_left 1 _) hdays
  have hclock : a / 86400000 = b / 86400000 →
      a / 3600000 % 24 < b / 3600000 % 24 ∨ a / 3600000 % 24 = b / 3600000 % 24 ∧
        (a / 60000 % 60 < b / 60000 % 60 ∨ a / 60000 % 60 = b / 60000 % 60 ∧
          (a / 1000 % 60 < b / 1000 % 60 ∨ a / 1000 % 60 = b / 1000 % 60 ∧
            a % 1000 < b % 1000)) := by
    intro hday
    exact clock_lt h.le hday fun hhour => clock_lt h.le hhour fun hminute =>
      clock_lt h.le hminute fun hsecond => (mod_lt_or h.le hsecond).resolve_right fun heq =>
        h.ne heq.2
  have hdate : (ofOrdinal (a / 86400000 + 1)).1 < (ofOrdinal (b / 86400000 + 1)).1 ∨
      (ofOrdinal (a / 86400000 + 1)).1 = (ofOrdinal (b / 86400000 + 1)).1 ∧
        ((ofOrdinal (a / 86400000 + 1)).2.1 < (ofOrdinal (b / 86400000 + 1)).2.1 ∨
          (ofOrdinal (a / 86400000 + 1)).2.1 = (ofOrdinal (b / 86400000 + 1)).2.1 ∧
            ((ofOrdinal (a / 86400000 + 1)).2.2 < (ofOrdinal (b / 86400000 + 1)).2.2 ∨
              (ofOrdinal (a / 86400000 + 1)).2.2 = (ofOrdinal (b / 86400000 + 1)).2.2 ∧
                a / 86400000 = b / 86400000)) := by
    rcases (Nat.div_le_div_right h.le : a / 86400000 ≤ b / 86400000).lt_or_eq with hlt | heq
    · exact (ofOrdinal_strictMono (Nat.le_add_left 1 _) (Nat.succ_lt_succ hlt)).imp_right
        (And.imp_right fun hrest => hrest.imp_right (And.imp_right Or.inl))
    · rw [heq]
      exact .inr ⟨rfl, .inr ⟨rfl, .inr ⟨rfl, rfl⟩⟩⟩
  unfold renderMillis
  rw [canonicalText_eq, canonicalText_eq]
  apply append_lt_append (by rw [length_pad, length_pad])
  apply pad_lt_or hdate hyear
  intro hdate
  apply separated_lt (by rw [length_pad, length_pad])
  apply pad_lt_or hdate hmonth
  intro hdate
  apply separated_lt (by rw [length_pad, length_pad])
  apply pad_lt_or hdate hday
  intro heq
  apply separated_lt (by rw [length_pad, length_pad])
  apply pad_lt_or (hclock heq) (by omega)
  intro hclock
  apply separated_lt (by rw [length_pad, length_pad])
  apply pad_lt_or hclock (by omega)
  intro hclock
  apply separated_lt (by rw [length_pad, length_pad])
  apply pad_lt_or hclock (by omega)
  intro hmilli
  exact separated_lt (by rw [length_pad, length_pad]) (.inl (pad_lt 3 hmilli (by omega)))

theorem renderMillis_lt_iff {a b : ℕ} (ha : a < millisEnd) (hb : b < millisEnd) :
    renderMillis a < renderMillis b ↔ a < b := by
  refine ⟨fun h => ?_, fun h => renderMillis_lt h hb⟩
  rcases lt_trichotomy a b with hlt | rfl | hgt
  · exact hlt
  · exact absurd h (List.lt_irrefl _)
  · exact absurd h (List.lt_asymm (renderMillis_lt hgt ha))

/-! ### Reading them back -/

def IsField (width : ℕ) (s : PyStr) : Prop := s.length = width ∧ s.all isDigit = true

theorem isField_pad (width n : ℕ) : IsField width (pad width n) :=
  ⟨length_pad width n, all_isDigit_pad width n⟩

/-- Text of the form `YYYY-MM-DDTHH:MM:SS.mmmZ`. -/
def CanonicalForm (text : PyStr) : Prop :=
  ∃ year month day hour minute second milli, IsField 4 year ∧ IsField 2 month ∧ IsField 2 day ∧
    IsField 2 hour ∧ IsField 2 minute ∧ IsField 2 second ∧ IsField 3 milli ∧
      text = canonicalText year month day hour minute second milli

theorem canonicalForm_renderMillis (millis : ℕ) : CanonicalForm (renderMillis millis) :=
  ⟨_, _, _, _, _, _, _, isField_pad .., isField_pad .., isField_pad .., isField_pad ..,
    isField_pad .., isField_pad .., isField_pad .., rfl⟩

theorem IsField.fixedInt {width : ℕ} {s : PyStr} (h : IsField width s) :
    fixedInt width s = some (digitsValue s) := if_pos h

theorem ne_of_isDigit {c d : CodePoint} (hc : isDigit c = true) (hd : isDigit d = false) : c ≠ d := by
  rintro rfl
  rw [hc] at hd
  cases hd

theorem not_isOffsetMark {c : CodePoint} (h : isDigit c = true) : isOffsetMark c = false := by
  have hplus : c ≠ chr '+' := ne_of_isDigit h rfl
  have hminus : c ≠ chr '-' := ne_of_isDigit h rfl
  have hz : c ≠ chr 'Z' := ne_of_isDigit h rfl
  simp [isOffsetMark, hplus, hminus, hz]

theorem parseIsoDate_dashed {y1 y2 y3 y4 m1 m2 d1 d2 : CodePoint}
    (hyear : IsField 4 [y1, y2, y3, y4]) (hmonth : IsField 2 [m1, m2]) (hday : IsField 2 [d1, d2]) :
    parseIsoDate [y1, y2, y3, y4, chr '-', m1, m2, chr '-', d1, d2] =
      ordinalOf? (digitsValue [y1, y2, y3, y4]) (digitsValue [m1, m2]) (digitsValue [d1, d2]) := by
  have hm : isDigit m1 = true := by
    have := hmonth.2
    simp only [List.all_cons, Bool.and_eq_true] at this
    exact this.1
  have hw : m1 ≠ chr 'W' := ne_of_isDigit hm rfl
  have hy := hyear.fixedInt
  have hmo := hmonth.fixedInt
  have hd := hday.fixedInt
  simp [parseIsoDate, slice, hy, hmo, hd, hw]

theorem parseHhMmSsFf_millis {h1 h2 n1 n2 s1 s2 u1 u2 u3 : CodePoint}
    (hhour : IsField 2 [h1, h2]) (hminute : IsField 2 [n1, n2]) (hsecond : IsField 2 [s1, s2])
    (hmilli : IsField 3 [u1, u2, u3]) :
    parseHhMmSsFf [h1, h2, chr ':', n1, n2, chr ':', s1, s2, chr '.', u1, u2, u3] =
      some (digitsValue [h1, h2], digitsValue [n1, n2], digitsValue [s1, s2],
        digitsValue [u1, u2, u3] * 1000) := by
  have hh := hhour.fixedInt
  have hn := hminute.fixedInt
  have hs := hsecond.fixedInt
  have hu := hmilli.2
  simp [parseHhMmSsFf, parseFraction, hh, hn, hs, hu]

theorem parseIsoTime_append {clock offset : PyStr} {mark : CodePoint} {hour minute second micro : ℕ}
    (hclock : ∀ c ∈ clock, isOffsetMark c = false) (hmark : isOffsetMark mark = true)
    (hparse : parseHhMmSsFf clock = some (hour, minute, second, micro))
    (hle : hour ≤ 23 ∧ minute ≤ 59 ∧ second ≤ 59) :
    parseIsoTime (clock ++ mark :: offset) = (parseOffset (mark :: offset)).map fun o =>
      (((hour * 60 + minute) * 60 + second) * 1000000 + micro, some o) := by
  have hall : ∀ c ∈ clock, (!isOffsetMark c) = true := fun c hc => by rw [hclock c hc, Bool.not_false]
  have htake : (clock ++ mark :: offset).takeWhile (fun c => !isOffsetMark c) = clock := by
    rw [List.takeWhile_append_of_pos hall, List.takeWhile_cons_of_neg (by simp [hmark]),
      List.append_nil]
  have hdrop : (clock ++ mark :: offset).dropWhile (fun c => !isOffsetMark c) = mark :: offset := by
    rw [List.dropWhile_append_of_pos hall, List.dropWhile_cons_of_neg (by simp [hmark])]
  rw [parseIsoTime, htake, hparse, hdrop]
  exact if_pos hle

theorem fromisoformat_canonicalText {year month day hour minute second milli : PyStr} {n : ℕ}
    (hyear : IsField 4 year) (hmonth : IsField 2 month) (hday : IsField 2 day)
    (hhour : IsField 2 hour) (hminute : IsField 2 minute) (hsecond : IsField 2 second)
    (hmilli : IsField 3 milli)
    (hdate : ordinalOf? (digitsValue year) (digitsValue month) (digitsValue day) = some n)
    (hclock : digitsValue hour ≤ 23 ∧ digitsValue minute ≤ 59 ∧ digitsValue second ≤ 59) :
    fromisoformat ((canonicalText year month day hour minute second milli).dropLast ++
      py "+00:00") = some ⟨(n - 1) * microsPerDay + (((digitsValue hour * 60 + digitsValue minute) *
        60 + digitsValue second) * 1000000 + digitsValue milli * 1000), some 0⟩ := by
  obtain ⟨y1, y2, y3, y4, rfl⟩ := List.length_eq_four.1 hyear.1
  obtain ⟨m1, m2, rfl⟩ := List.length_eq_two.1 hmonth.1
  obtain ⟨d1, d2, rfl⟩ := List.length_eq_two.1 hday.1
  obtain ⟨h1, h2, rfl⟩ := List.length_eq_two.1 hhour.1
  obtain ⟨n1, n2, rfl⟩ := List.length_eq_two.1 hminute.1
  obtain ⟨s1, s2, rfl⟩ := List.length_eq_two.1 hsecond.1
  obtain ⟨u1, u2, u3, rfl⟩ := List.length_eq_three.1 hmilli.1
  have hdigits : ∀ {width : ℕ} {s : PyStr}, IsField width s → ∀ c ∈ s, isDigit c = true :=
    fun h => List.all_eq_true.1 h.2
  have hw : m1 ≠ chr 'W' := ne_of_isDigit (hdigits hmonth m1 (by simp)) rfl
  have hlocation : separatorLocation ([y1, y2, y3, y4, chr '-', m1, m2, chr '-', d1, d2, chr 'T',
      h1, h2, chr ':', n1, n2, chr ':', s1, s2, chr '.', u1, u2, u3] ++ py "+00:00") = some 10 := by
    simp [separatorLocation, hw]
  have htime : parseIsoTime ([h1, h2, chr ':', n1, n2, chr ':', s1, s2, chr '.', u1, u2, u3] ++
      chr '+' :: py "00:00") = some (((digitsValue [h1, h2] * 60 + digitsValue [n1, n2]) * 60 +
        digitsValue [s1, s2]) * 1000000 + digitsValue [u1, u2, u3] * 1000, some 0) := by
    apply parseIsoTime_append _ rfl (parseHhMmSsFf_millis hhour hminute hsecond hmilli) hclock
    intro c hc
    have hcases : c ∈ [h1, h2] ∨ c = chr ':' ∨ c ∈ [n1, n2] ∨ c ∈ [s1, s2] ∨ c = chr '.' ∨
        c ∈ [u1, u2, u3] := by
      simp only [List.mem_cons, List.not_mem_nil, or_false] at hc ⊢
      tauto
    rcases hcases with hc | rfl | hc | hc | rfl | hc
    · exact not_isOffsetMark (hdigits hhour c hc)
    · rfl
    · exact not_isOffsetMark (hdigits hminute c hc)
    · exact not_isOffsetMark (hdigits hsecond c hc)
    · rfl
    · exact not_isOffsetMark (hdigits hmilli c hc)
  have htext : (canonicalText [y1, y2, y3, y4] [m1, m2] [d1, d2] [h1, h2] [n1, n2] [s1, s2]
      [u1, u2, u3]).dropLast ++ py "+00:00" = [y1, y2, y3, y4, chr '-', m1, m2, chr '-', d1, d2,
        chr 'T', h1, h2, chr ':', n1, n2, chr ':', s1, s2, chr '.', u1, u2, u3] ++ py "+00:00" := rfl
  rw [htext, fromisoformat, if_neg (by simp), hlocation]
  have hdatePart := (parseIsoDate_dashed hyear hmonth hday).trans hdate
  simp only [Option.bind_eq_bind, Option.bind_some, List.cons_append, List.take_succ_cons,
    List.take_zero, List.drop_succ_cons, List.drop_zero, hdatePart, List.nil_append]
  rw [if_neg (by simp)]
  exact congrArg (fun time : Option (ℕ × Option ℤ) => time.bind fun a =>
    some (⟨(n - 1) * microsPerDay + a.1, a.2⟩ : ParsedDateTime)) htime

theorem ordinalOf_ofOrdinal {n : ℕ} (h : 1 ≤ n) (hmax : n ≤ maxOrdinal) :
    ordinalOf? (ofOrdinal n).1 (ofOrdinal n).2.1 (ofOrdinal n).2.2 = some n := by
  obtain ⟨hfirst, hlast, hday, hlength⟩ := ofOrdinal_month h
  have hyear := (ofOrdinal_lt h hmax).1
  rw [ordinalOf?, if_pos ⟨yearOf_pos n, by omega, hfirst, hlast, hday, hlength⟩,
    toOrdinal_ofOrdinal h]

/-- A canonical text stands for its instant. -/
theorem fromisoformat_render {millis : ℕ} (h : millis < millisEnd) :
    fromisoformat ((renderMillis millis).dropLast ++ py "+00:00") =
      some ⟨millis * 1000, some 0⟩ := by
  have hfirst : 1 ≤ millis / 86400000 + 1 := Nat.le_add_left _ _
  have hdays : millis / 86400000 + 1 ≤ maxOrdinal :=
    Nat.div_lt_of_lt_mul (by rwa [Nat.mul_comm])
  obtain ⟨hyear, hmonth, hday⟩ := ofOrdinal_lt hfirst hdays
  have hhour : millis / 3600000 % 24 < 10 ^ 2 := by omega
  have hminute : millis / 60000 % 60 < 10 ^ 2 := by omega
  have hsecond : millis / 1000 % 60 < 10 ^ 2 := by omega
  have hmilli : millis % 1000 < 10 ^ 3 := by omega
  unfold renderMillis
  rw [fromisoformat_canonicalText (isField_pad ..) (isField_pad ..) (isField_pad ..)
    (isField_pad ..) (isField_pad ..) (isField_pad ..) (isField_pad ..)
    (by rw [digitsValue_pad 4 hyear, digitsValue_pad 2 hmonth, digitsValue_pad 2 hday]
        exact ordinalOf_ofOrdinal hfirst hdays)
    (by rw [digitsValue_pad 2 hhour, digitsValue_pad 2 hminute, digitsValue_pad 2 hsecond]
        omega),
    digitsValue_pad 2 hhour, digitsValue_pad 2 hminute, digitsValue_pad 2 hsecond,
    digitsValue_pad 3 hmilli]
  have hmicros : (millis / 86400000 + 1 - 1) * microsPerDay + (((millis / 3600000 % 24 * 60 +
      millis / 60000 % 60) * 60 + millis / 1000 % 60) * 1000000 + millis % 1000 * 1000) =
        millis * 1000 := by
    unfold microsPerDay
    omega
  rw [hmicros]

end TrueFigure.Python
