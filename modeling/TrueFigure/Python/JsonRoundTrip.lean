import TrueFigure.Python.JsonDump
import TrueFigure.Python.Lines

/-!
# Reading back what was written

`json.loads(json.dumps(v))` is `v`, where no string of it holds a high surrogate
right before a low one: the encoder escapes both, and the decoder joins them.
-/
namespace TrueFigure.Python

/-! ### Strings -/

/-- No high surrogate stands right before a low one. -/
def unpaired : PyStr → Bool
  | c :: d :: s => !(isHighUnit c.val && isLowUnit d.val) && unpaired (d :: s)
  | _ => true

/-- What stands for a character. -/
def unitsOf (c : CodePoint) : List TextUnit :=
  if c = 0x22 ∨ c = 0x5C ∨ c = 0x0A ∨ c = 0x0D ∨ c = 0x09 ∨ c = 0x0C ∨ c = 0x08 ∨
      (0x20 ≤ c.val ∧ c.val ≤ 0x7E) then [.plain c]
  else if c.val < 0x10000 then [.escaped c.val]
  else [.escaped (0xD800 + (c.val - 0x10000) / 0x400), .escaped (0xDC00 + (c.val - 0x10000) % 0x400)]

theorem hexValue?_hexDigit (n : ℕ) : hexValue? (hexDigit n) = some (n % 16) := by
  have hlt : n % 16 < 16 := Nat.mod_lt _ (by decide)
  unfold hexDigit
  interval_cases n % 16 <;> rfl

theorem scanUnits_escapeUnit {unit : ℕ} (h : unit < 0x10000) (s : PyStr) :
    scanUnits (escapeUnit unit ++ s) =
      (scanUnits s).map fun r => (.escaped unit :: r.1, r.2) := by
  have hunit : hex4 (hexDigit (unit / 16 / 16 / 16)) (hexDigit (unit / 16 / 16))
      (hexDigit (unit / 16)) (hexDigit unit) = some unit := by
    simp only [hex4, hexValue?_hexDigit, Option.bind_eq_bind, Option.bind_some, Option.some.injEq]
    omega
  have htext : escapeUnit unit ++ s = 0x5C :: 0x75 :: hexDigit (unit / 16 / 16 / 16) ::
      hexDigit (unit / 16 / 16) :: hexDigit (unit / 16) :: hexDigit unit :: s := rfl
  rw [htext, scanUnits.eq_def]
  dsimp only
  rw [if_neg (by decide), if_pos rfl, if_pos rfl]
  simp only [hunit]

theorem scanUnits_short {e c : CodePoint} (he : e ≠ 0x75) (h : shortEscape? e = some c)
    (s : PyStr) :
    scanUnits (0x5C :: e :: s) = (scanUnits s).map fun r => (.plain c :: r.1, r.2) := by
  rw [scanUnits.eq_def]
  dsimp only
  rw [if_neg (by decide), if_pos rfl, if_neg he]
  simp only [h]

theorem scanUnits_plain {c : CodePoint} (hquote : c ≠ 0x22) (hslash : c ≠ 0x5C)
    (h : 0x20 ≤ c.val) (s : PyStr) :
    scanUnits (c :: s) = (scanUnits s).map fun r => (.plain c :: r.1, r.2) := by
  rw [scanUnits.eq_def]
  dsimp only
  rw [if_neg hquote, if_neg hslash, if_neg (by omega)]

theorem scanUnits_escapeChar (c : CodePoint) (s : PyStr) :
    scanUnits (escapeChar c ++ s) = (scanUnits s).map fun r => (unitsOf c ++ r.1, r.2) := by
  unfold escapeChar
  split_ifs with hquote hn hr ht hf hb hplain hlow
  · rw [unitsOf, if_pos (by tauto)]
    rcases hquote with rfl | rfl
    · exact scanUnits_short (by decide) rfl s
    · exact scanUnits_short (by decide) rfl s
  · rw [hn, unitsOf, if_pos (by decide)]
    exact scanUnits_short (by decide) rfl s
  · rw [hr, unitsOf, if_pos (by decide)]
    exact scanUnits_short (by decide) rfl s
  · rw [ht, unitsOf, if_pos (by decide)]
    exact scanUnits_short (by decide) rfl s
  · rw [hf, unitsOf, if_pos (by decide)]
    exact scanUnits_short (by decide) rfl s
  · rw [hb, unitsOf, if_pos (by decide)]
    exact scanUnits_short (by decide) rfl s
  · obtain ⟨hquote, hslash⟩ := not_or.1 hquote
    rw [unitsOf, if_pos (by tauto)]
    exact scanUnits_plain hquote hslash hplain.1 s
  · rw [unitsOf, if_neg (by tauto), if_pos hlow]
    exact scanUnits_escapeUnit hlow s
  · have hc := c.isLt
    rw [unitsOf, if_neg (by tauto), if_neg hlow, List.append_assoc,
      scanUnits_escapeUnit (by omega), scanUnits_escapeUnit (by omega)]
    cases scanUnits s <;> rfl

theorem scanUnits_text (s rest : PyStr) :
    scanUnits (s.flatMap escapeChar ++ 0x22 :: rest) = .ok (s.flatMap unitsOf, rest) := by
  induction s with
  | nil =>
    change scanUnits (0x22 :: rest) = .ok ([], rest)
    rw [scanUnits.eq_def]
    dsimp only
    rw [if_pos rfl]
  | cons c s ih =>
    rw [List.flatMap_cons, List.append_assoc, scanUnits_escapeChar, ih]
    rfl

theorem joinPairs_plain (c : CodePoint) (units : List TextUnit) :
    joinPairs (.plain c :: units) = c :: joinPairs units := by
  rw [joinPairs]
  · rfl
  · simp

/-- An escaped unit that starts no pair stands for itself. -/
theorem joinPairs_alone {unit : ℕ} {units : List TextUnit}
    (h : ∀ low rest, units = .escaped low :: rest → (isHighUnit unit && isLowUnit low) = false) :
    joinPairs (.escaped unit :: units) = Fin.ofNat 0x110000 unit :: joinPairs units := by
  rcases units with - | ⟨c | low, rest⟩
  · rfl
  · rw [joinPairs]
    · rfl
    · simp
  · rw [joinPairs, h low rest rfl, if_neg Bool.false_ne_true]
    rfl

theorem joinPairs_pair {c : CodePoint} (h : 0x10000 ≤ c.val) (units : List TextUnit) :
    joinPairs (.escaped (0xD800 + (c.val - 0x10000) / 0x400) ::
      .escaped (0xDC00 + (c.val - 0x10000) % 0x400) :: units) = c :: joinPairs units := by
  have hc := c.isLt
  have hhigh : isHighUnit (0xD800 + (c.val - 0x10000) / 0x400) = true := by
    simp only [isHighUnit, Bool.and_eq_true, decide_eq_true_eq]
    omega
  have hlow : isLowUnit (0xDC00 + (c.val - 0x10000) % 0x400) = true := by
    simp only [isLowUnit, Bool.and_eq_true, decide_eq_true_eq]
    omega
  have hjoin : joinUnits (0xD800 + (c.val - 0x10000) / 0x400)
      (0xDC00 + (c.val - 0x10000) % 0x400) = c := by
    apply Fin.ext
    simp only [joinUnits, Fin.val_ofNat]
    omega
  rw [joinPairs, hhigh, hlow, Bool.and_self, if_pos rfl, hjoin]

/-- Behind a high surrogate, no unit makes it a pair. -/
theorem units_alone {c : CodePoint} {s : PyStr} (h : unpaired (c :: s) = true) {low : ℕ}
    {rest : List TextUnit} (hunits : s.flatMap unitsOf = .escaped low :: rest) :
    (isHighUnit c.val && isLowUnit low) = false := by
  cases s with
  | nil => cases hunits
  | cons d s =>
    rw [List.flatMap_cons, unitsOf] at hunits
    simp only [unpaired, Bool.and_eq_true, Bool.not_eq_true'] at h
    split_ifs at hunits with hplain hlow
    · cases hunits
    · cases hunits
      exact h.1
    · cases hunits
      have hd := d.isLt
      have hnotLow : isLowUnit (0xD800 + (d.val - 0x10000) / 0x400) = false := by
        simp only [isLowUnit, Bool.and_eq_false_imp, decide_eq_true_eq, decide_eq_false_iff_not]
        omega
      rw [hnotLow, Bool.and_false]

theorem joinPairs_units {s : PyStr} (h : unpaired s = true) : joinPairs (s.flatMap unitsOf) = s := by
  induction s with
  | nil => rfl
  | cons c s ih =>
    have hs : unpaired s = true := by
      cases s with
      | nil => rfl
      | cons d s =>
        simp only [unpaired, Bool.and_eq_true] at h
        exact h.2
    rw [List.flatMap_cons, unitsOf]
    split_ifs with hplain hlow
    · rw [List.singleton_append, joinPairs_plain, ih hs]
    · rw [List.singleton_append, joinPairs_alone fun low rest hunits => units_alone h hunits, ih hs,
        Fin.ofNat_val_eq_self]
    · rw [List.cons_append, List.singleton_append, joinPairs_pair (Nat.le_of_not_lt hlow), ih hs]

theorem scanString_text {s : PyStr} (h : unpaired s = true) (rest : PyStr) :
    scanString (s.flatMap escapeChar ++ 0x22 :: rest) = .ok (s, rest) := by
  rw [scanString, scanUnits_text]
  simp only [Except.map, joinPairs_units h]

/-! ### Numbers -/

/-- What follows a value inside an array or an object, or nothing. -/
def Delimits (rest : PyStr) : Prop :=
  ∀ c t, rest = c :: t → c = 0x2C ∨ c = 0x5D ∨ c = 0x7D

variable {rest : PyStr}

theorem Delimits.span (h : Delimits rest) (s : PyStr) :
    (s ++ rest).takeWhile isDigit = s.takeWhile isDigit ∧
      (s ++ rest).dropWhile isDigit = s.dropWhile isDigit ++ rest := by
  induction s with
  | nil =>
    cases rest with
    | nil => exact ⟨rfl, rfl⟩
    | cons c t => rcases h c t rfl with rfl | rfl | rfl <;> exact ⟨rfl, rfl⟩
  | cons c s ih =>
    simp only [List.cons_append, List.takeWhile_cons, List.dropWhile_cons]
    cases isDigit c with
    | true => simp [ih.1, ih.2]
    | false => simp

theorem scanSign_append {c : CodePoint} (s : PyStr) :
    scanSign (c :: s ++ rest) = ((scanSign (c :: s)).1, (scanSign (c :: s)).2 ++ rest) := by
  simp only [scanSign, List.cons_append]
  split_ifs <;> rfl

theorem Delimits.scanInteger (h : Delimits rest) (s : PyStr) :
    scanInteger (s ++ rest) = (scanInteger s).map fun r => (r.1, r.2 ++ rest) := by
  cases s with
  | nil =>
    cases rest with
    | nil => rfl
    | cons c t => rcases h c t rfl with rfl | rfl | rfl <;> rfl
  | cons c s =>
    simp only [Python.scanInteger, List.cons_append, (h.span s).1, (h.span s).2]
    split_ifs <;> rfl

theorem Delimits.scanFraction (h : Delimits rest) (s : PyStr) :
    scanFraction (s ++ rest) = ((scanFraction s).1, (scanFraction s).2 ++ rest) := by
  cases s with
  | nil =>
    cases rest with
    | nil => rfl
    | cons c t => rcases h c t rfl with rfl | rfl | rfl <;> rfl
  | cons c s =>
    simp only [Python.scanFraction, List.cons_append, (h.span s).1, (h.span s).2]
    split_ifs <;> rfl

theorem Delimits.scanExponentSign (h : Delimits rest) (s : PyStr) :
    scanExponentSign (s ++ rest) = ((scanExponentSign s).1, (scanExponentSign s).2 ++ rest) := by
  cases s with
  | nil =>
    cases rest with
    | nil => rfl
    | cons c t => rcases h c t rfl with rfl | rfl | rfl <;> rfl
  | cons c s =>
    simp only [Python.scanExponentSign, List.cons_append]
    split_ifs <;> rfl

theorem Delimits.scanExponent (h : Delimits rest) (s : PyStr) :
    scanExponent (s ++ rest) = ((scanExponent s).1, (scanExponent s).2 ++ rest) := by
  cases s with
  | nil =>
    cases rest with
    | nil => rfl
    | cons c t =>
      have hc : ¬ (c = 0x65 ∨ c = 0x45) := by
        rcases h c t rfl with rfl | rfl | rfl <;> decide
      simp only [Python.scanExponent, List.nil_append]
      rw [if_neg fun h => hc h.1]
  | cons c s =>
    simp only [Python.scanExponent, List.cons_append, h.scanExponentSign, (h.span _).1,
      (h.span _).2]
    split_ifs <;> rfl

theorem Delimits.scanNumber (h : Delimits rest) {s : PyStr} {n : PyNum}
    (hs : scanNumber s = .ok (n, [])) : scanNumber (s ++ rest) = .ok (n, rest) := by
  cases s with
  | nil => cases hs
  | cons c s =>
    unfold Python.scanNumber at hs ⊢
    rw [scanSign_append]
    dsimp only at hs ⊢
    rw [h.scanInteger]
    cases hinteger : Python.scanInteger (scanSign (c :: s)).2 with
    | none =>
      rw [hinteger] at hs
      cases hs
    | some found =>
      rw [hinteger] at hs
      simp only [Option.map_some, h.scanFraction, h.scanExponent] at hs ⊢
      obtain ⟨n', hvalue, heq⟩ := map_eq_ok hs
      obtain ⟨rfl, hnil⟩ := Prod.mk.inj heq
      rw [hvalue, hnil]
      rfl

theorem numeral_of_lt {n : ℕ} (h : n < 10) : py (toString n) = [digit n] := by
  interval_cases n <;> rfl

theorem numeral_of_le {n : ℕ} (h : 10 ≤ n) :
    py (toString n) = py (toString (n / 10)) ++ [digit n] := by
  have hlt : n % 10 < 10 := Nat.mod_lt _ (by decide)
  have hdigit : Fin.ofNat 0x110000 (Nat.digitChar (n % 10)).toNat = digit n := by
    unfold digit
    interval_cases n % 10 <;> rfl
  have htext : ∀ m : ℕ, (toString m).toList = Nat.toDigits 10 m := fun m => by simp [toString]
  rw [py, py, htext, htext, Nat.toDigits_of_base_le (by decide) h, List.map_append,
    List.map_singleton, hdigit]

theorem digitsValue_numeral (n : ℕ) : digitsValue (py (toString n)) = n := by
  induction n using Nat.strong_induction_on with
  | _ n ih =>
    by_cases hn : n < 10
    · rw [numeral_of_lt hn]
      interval_cases n <;> rfl
    · have hdigit : (digit n).val = 48 + n % 10 := by
        simp only [digit, Fin.val_ofNat]
        omega
      have hinit := ih (n / 10) (by omega)
      rw [digitsValue] at hinit
      rw [numeral_of_le (by omega), digitsValue, List.foldl_append, hinit]
      simp only [List.foldl_cons, List.foldl_nil, hdigit]
      omega

theorem numeral_head {n : ℕ} (h : 0 < n) : ∃ c s, py (toString n) = c :: s ∧ c ≠ 0x30 := by
  induction n using Nat.strong_induction_on with
  | _ n ih =>
    by_cases hn : n < 10
    · refine ⟨digit n, [], numeral_of_lt hn, ?_⟩
      interval_cases n <;> decide
    · obtain ⟨c, s, hs, hc⟩ := ih (n / 10) (by omega) (by omega)
      exact ⟨c, s ++ [digit n], by rw [numeral_of_le (by omega), hs]; rfl, hc⟩

theorem scanInteger_numeral (n : ℕ) :
    scanInteger (py (toString n)) = some (py (toString n), []) := by
  rcases Nat.eq_zero_or_pos n with rfl | hn
  · rfl
  · obtain ⟨c, s, hs, hc⟩ := numeral_head hn
    have hdigits : ∀ d ∈ c :: s, isDigit d = true := fun d hd =>
      isDigit_of_mem_numeral (hs ▸ hd)
    obtain ⟨hhead, htail⟩ := List.forall_mem_cons.1 hdigits
    rw [hs, scanInteger, if_neg hc, if_pos hhead, List.takeWhile_eq_self_iff.2 htail,
      List.dropWhile_eq_nil_iff.2 htail]

/-- An integer of at most 4300 digits is read back. -/
theorem scanNumber_int {rt : Runtime} {n : ℤ} (h : (py (toString n.natAbs)).length ≤ maxStrDigits) :
    scanNumber (dumpNumber rt (.int n)) = .ok (.int n, []) := by
  have hsign : scanSign (dumpNumber rt (.int n)) = (decide (n < 0), py (toString n.natAbs)) := by
    rw [dumpNumber_int]
    split_ifs with hn
    · simp [scanSign, hn]
    · rcases hnumeral : py (toString n.natAbs) with - | ⟨c, s⟩
      · simp [scanSign, hn]
      · have hc : isDigit c = true := isDigit_of_mem_numeral (hnumeral ▸ List.mem_cons_self)
        have hminus : c ≠ 0x2D := by
          rintro rfl
          cases hc
        simp [scanSign, hn, hminus]
  have hvalue : Numeral.value ⟨decide (n < 0), py (toString n.natAbs), none, none⟩ = .ok (.int n) := by
    simp only [Numeral.value]
    rw [if_neg (by omega), digitsValue_numeral]
    by_cases hn : n < 0
    · simp [hn, abs_of_neg hn]
    · simp [hn, abs_of_nonneg (not_lt.1 hn)]
  unfold scanNumber
  rw [hsign]
  dsimp only
  rw [scanInteger_numeral]
  simp only [scanFraction, scanExponent, hvalue]
  rfl

/-! ### Values -/

/-- The text of a number is read as the number; integers have at most 4300 digits, or
Python does not print them. -/
def ReadsBack (rt : Runtime) : PyNum → Prop
  | .int n => (py (toString n.natAbs)).length ≤ maxStrDigits
  | .float q => scanNumber (rt.reprFloat q) = .ok (.float q, [])
  | _ => True

/-- A value that `json.dumps` writes and `json.loads` reads back. -/
inductive Writable (rt : Runtime) : Json → Prop
  | null : Writable rt .null
  | bool (b : Bool) : Writable rt (.bool b)
  | num {n : PyNum} (h : ReadsBack rt n) : Writable rt (.num n)
  | str {s : PyStr} (h : unpaired s = true) : Writable rt (.str s)
  | arr {xs : List Json} (h : ∀ x ∈ xs, Writable rt x) : Writable rt (.arr xs)
  | obj {fields : Dict} (hkeys : (fields.map Prod.fst).Nodup)
      (htexts : ∀ f ∈ fields, unpaired f.1 = true) (h : ∀ f ∈ fields, Writable rt f.2) :
      Writable rt (.obj fields)

section Values

variable {rt : Runtime} {v : Json}

/-- The text is read as the value, whatever delimits it. -/
def ReadsAs (s : PyStr) (v : Json) : Prop :=
  ∀ fuel rest, Delimits rest → 2 * (s ++ rest).length + 1 ≤ fuel →
    scanOnce fuel (s ++ rest) = .ok (v, rest)

theorem delimits_nil : Delimits [] := fun c t h => by cases h

theorem skipSpace_cons {c : CodePoint} (h : isJsonSpace c = false) (s : PyStr) :
    skipSpace (c :: s) = c :: s := by
  rw [skipSpace, List.dropWhile_cons, h]
  rfl

/-- A value starts with no white space and with no closing bracket. -/
theorem ReadsAs.head {s : PyStr} (h : ReadsAs s v) (t : PyStr) :
    ∃ c u, s ++ t = c :: u ∧ isJsonSpace c = false ∧ c ≠ 0x5D := by
  have hscan := h _ [] delimits_nil le_rfl
  obtain ⟨c, u, hs, hc⟩ := scanOnce_head hscan
  rw [hs, scanOnce] at hscan
  rw [List.append_nil] at hs
  refine ⟨c, u ++ t, by rw [hs]; rfl, ?_, ?_⟩
  · simp only [isSpace, Bool.or_eq_false_iff, Bool.and_eq_false_imp, decide_eq_true_eq,
      decide_eq_false_iff_not] at hc
    simp only [isJsonSpace, Bool.or_eq_false_iff, decide_eq_false_iff_not]
    omega
  · rintro rfl
    cases hscan

theorem ReadsAs.skipSpace {s : PyStr} (h : ReadsAs s v) (t : PyStr) :
    skipSpace (s ++ t) = s ++ t := by
  obtain ⟨c, u, hs, hc, -⟩ := h.head t
  rw [hs, skipSpace_cons hc]

/-- A number starts with a digit, or with a minus and a digit. -/
def startsNumber : PyStr → Bool
  | c :: d :: _ => isDigit c || (c = 0x2D && isDigit d)
  | [c] => isDigit c
  | [] => false

theorem startsNumber_append {s : PyStr} (h : startsNumber s = true) (t : PyStr) :
    startsNumber (s ++ t) = true := by
  rcases s with - | ⟨c, - | ⟨d, s⟩⟩
  · cases h
  · cases t with
    | nil => exact h
    | cons d t =>
      change isDigit c = true at h
      simp [startsNumber, h]
  · exact h

theorem scanInteger_head {s : PyStr} {r : PyStr × PyStr} (h : scanInteger s = some r) :
    ∃ c t, s = c :: t ∧ isDigit c = true := by
  cases s with
  | nil => cases h
  | cons c s =>
    refine ⟨c, s, rfl, ?_⟩
    rw [scanInteger] at h
    split_ifs at h with hzero hdigit
    · rw [hzero]
      rfl
    · exact hdigit

theorem startsNumber_of_scanNumber {s : PyStr} {r : PyNum × PyStr} (h : scanNumber s = .ok r) :
    startsNumber s = true := by
  unfold scanNumber at h
  dsimp only at h
  cases hinteger : scanInteger (scanSign s).2 with
  | none =>
    rw [hinteger] at h
    cases h
  | some found =>
    obtain ⟨d, t, hs, hd⟩ := scanInteger_head hinteger
    cases s with
    | nil => cases hs
    | cons c s =>
      rw [scanSign] at hs
      split_ifs at hs with hc
      · rw [show s = d :: t from hs, hc]
        simp [startsNumber, hd]
      · obtain ⟨rfl, rfl⟩ := List.cons.inj hs
        exact startsNumber_append (show startsNumber [c] = true from hd) s

theorem scanConstant_number {s : PyStr} (h : startsNumber s = true) : scanConstant s = none := by
  have hconstants : (constants.all fun e => 1 < e.1.length && !startsNumber e.1) = true := by
    decide +kernel
  refine List.findSome?_eq_none_iff.2 fun e he => if_neg fun hstarts => ?_
  obtain ⟨hlen, hnumber⟩ := Bool.and_eq_true_iff.1 (List.all_eq_true.1 hconstants e he)
  obtain ⟨rest, rfl⟩ := List.isPrefixOf_iff_prefix.1 hstarts
  rcases e with ⟨- | ⟨c, - | ⟨d, t⟩⟩, v⟩
  · cases hlen
  · cases hlen
  · rw [show startsNumber (c :: d :: t) = true from h] at hnumber
    cases hnumber

theorem readsAs_number {s : PyStr} {n : PyNum} (h : scanNumber s = .ok (n, [])) :
    ReadsAs s (.num n) := by
  intro fuel rest hrest hfuel
  obtain ⟨fuel, rfl⟩ : ∃ k, fuel = k + 1 := ⟨fuel - 1, by omega⟩
  have hstart := startsNumber_of_scanNumber h
  have hconstant := scanConstant_number (startsNumber_append hstart rest)
  have hnumber := hrest.scanNumber h
  cases s with
  | nil => cases hstart
  | cons c s =>
    have hopens : c ≠ 0x22 ∧ c ≠ 0x7B ∧ c ≠ 0x5B := by
      refine ⟨?_, ?_, ?_⟩
      all_goals
        rintro rfl
        cases s <;> cases hstart
    rw [List.cons_append] at hconstant hnumber ⊢
    rw [scanOnce, if_neg hopens.1, if_neg hopens.2.1, if_neg hopens.2.2, hconstant]
    simp only [hnumber]
    rfl

theorem readsAs_string {s : PyStr} (h : unpaired s = true) : ReadsAs (dumpString s) (.str s) := by
  intro fuel rest _ hfuel
  obtain ⟨fuel, rfl⟩ : ∃ k, fuel = k + 1 := ⟨fuel - 1, by omega⟩
  have htext : dumpString s ++ rest = 0x22 :: (s.flatMap escapeChar ++ 0x22 :: rest) := by
    simp [dumpString]
  rw [htext, scanOnce, if_pos rfl, scanString_text h]
  rfl

theorem dumpItems_start (x : Json) (xs : List Json) :
    ∃ t, dumpItems rt (x :: xs) = jsonDumps rt x ++ t := by
  cases xs with
  | nil => exact ⟨[], by rw [dumpItems, List.append_nil]⟩
  | cons y xs => exact ⟨_, by rw [dumpItems, List.append_assoc]⟩

theorem dumpItems_head {x : Json} (h : ReadsAs (jsonDumps rt x) x) (xs : List Json) (t : PyStr) :
    ∃ c u, dumpItems rt (x :: xs) ++ t = c :: u ∧ isJsonSpace c = false ∧ c ≠ 0x5D := by
  obtain ⟨u, hu⟩ := @dumpItems_start rt x xs
  rw [hu, List.append_assoc]
  exact h.head _

theorem scanItems_dump {x : Json} {xs : List Json} (h : ∀ y ∈ x :: xs, ReadsAs (jsonDumps rt y) y)
    (items : List Json) {fuel : ℕ} (rest : PyStr)
    (hfuel : 2 * (dumpItems rt (x :: xs) ++ 0x5D :: rest).length + 2 ≤ fuel) :
    scanItems fuel items (dumpItems rt (x :: xs) ++ 0x5D :: rest) =
      .ok (.arr (items ++ x :: xs), rest) := by
  induction xs generalizing x items fuel with
  | nil =>
    obtain ⟨fuel, rfl⟩ : ∃ k, fuel = k + 1 := ⟨fuel - 1, by omega⟩
    rw [dumpItems] at hfuel ⊢
    have hscan := h x List.mem_cons_self fuel (0x5D :: rest) (fun c t hc => by cases hc; simp)
      (by omega)
    rw [scanItems, hscan]
    rfl
  | cons y xs ih =>
    obtain ⟨fuel, rfl⟩ : ∃ k, fuel = k + 1 := ⟨fuel - 1, by omega⟩
    have htext : dumpItems rt (x :: y :: xs) ++ 0x5D :: rest =
        jsonDumps rt x ++ 0x2C :: 0x20 :: (dumpItems rt (y :: xs) ++ 0x5D :: rest) := by
      simp [dumpItems]
    rw [htext] at hfuel ⊢
    have hscan := h x List.mem_cons_self fuel
      (0x2C :: 0x20 :: (dumpItems rt (y :: xs) ++ 0x5D :: rest)) (fun c t hc => by cases hc; simp)
      (by omega)
    have hitems := @ih y (fun z hz => h z (List.mem_cons_of_mem _ hz)) (items ++ [x]) fuel
      (by simp only [List.length_append, List.length_cons] at hfuel ⊢; omega)
    obtain ⟨c, u, hu, hc, -⟩ := dumpItems_head (h y (List.mem_cons_of_mem _ List.mem_cons_self)) xs
      (0x5D :: rest)
    have hnext := skipSpace_cons hc u
    rw [← hu] at hnext
    rw [scanItems, hscan]
    change scanItems fuel (items ++ [x]) (skipSpace (dumpItems rt (y :: xs) ++ 0x5D :: rest)) = _
    rw [hnext, hitems, List.append_assoc]
    rfl

theorem readsAs_arr {xs : List Json} (h : ∀ x ∈ xs, ReadsAs (jsonDumps rt x) x) :
    ReadsAs (jsonDumps rt (.arr xs)) (.arr xs) := by
  intro fuel rest hrest hfuel
  obtain ⟨fuel, rfl⟩ : ∃ k, fuel = k + 1 := ⟨fuel - 1, by omega⟩
  cases xs with
  | nil => rfl
  | cons x xs =>
    have htext : jsonDumps rt (.arr (x :: xs)) ++ rest =
        0x5B :: (dumpItems rt (x :: xs) ++ 0x5D :: rest) := by
      simp [jsonDumps]
    rw [htext] at hfuel ⊢
    have hitems := @scanItems_dump rt x xs h [] fuel rest (by rw [List.length_cons] at hfuel; omega)
    obtain ⟨c, u, hu, hc, hclose⟩ := dumpItems_head (h x List.mem_cons_self) xs (0x5D :: rest)
    rw [hu] at hitems ⊢
    rw [scanOnce, if_neg (by decide), if_neg (by decide), if_pos rfl, skipSpace_cons hc]
    dsimp only
    rw [if_neg hclose, hitems]
    rfl

/-! ### Fields -/

theorem set_new {d : Dict} {key : PyStr} (h : key ∉ d.map Prod.fst) (value : Json) :
    Dict.set d key value = d ++ [(key, value)] := by
  induction d with
  | nil => rfl
  | cons field d ih =>
    obtain ⟨k, v⟩ := field
    rw [List.map_cons, List.mem_cons, not_or] at h
    rw [Dict.set, if_neg (Ne.symm h.1), ih h.2]
    rfl

/-- A field is read with its value; what follows decides on the rest. -/
theorem scanFields_field {key : PyStr} (hkey : unpaired key = true) (before : Dict) {fuel : ℕ}
    {s t : PyStr} {value : Json} {c : CodePoint}
    (hvalue : scanOnce fuel (skipSpace s) = .ok (value, c :: t)) (hc : isJsonSpace c = false) :
    scanFields (fuel + 1) before (dumpString key ++ 0x3A :: 0x20 :: s) =
      if c = 0x7D then .ok (.obj (Dict.set before key value), t)
      else if c = 0x2C then scanFields fuel (Dict.set before key value) (skipSpace t)
      else .error .decode := by
  have htext : dumpString key ++ 0x3A :: 0x20 :: s =
      0x22 :: (key.flatMap escapeChar ++ 0x22 :: 0x3A :: 0x20 :: s) := by
    simp [dumpString]
  rw [htext, scanFields]
  change (scanString (key.flatMap escapeChar ++ 0x22 :: 0x3A :: 0x20 :: s) >>= _) = _
  rw [scanString_text hkey]
  change (scanOnce fuel (skipSpace s) >>= _) = _
  rw [hvalue]
  simp only [bind, Except.bind, skipSpace_cons hc]

theorem dumpFields_cons (field next : PyStr × Json) (fields : Dict) (s : PyStr) :
    dumpFields rt (field :: next :: fields) ++ s = dumpString field.1 ++ 0x3A :: 0x20 ::
      (jsonDumps rt field.2 ++ 0x2C :: 0x20 :: (dumpFields rt (next :: fields) ++ s)) := by
  obtain ⟨key, value⟩ := field
  simp [dumpFields, dumpField]

theorem dumpFields_singleton (field : PyStr × Json) (s : PyStr) :
    dumpFields rt [field] ++ s =
      dumpString field.1 ++ 0x3A :: 0x20 :: (jsonDumps rt field.2 ++ s) := by
  obtain ⟨key, value⟩ := field
  simp [dumpFields, dumpField]

theorem dumpFields_head (field : PyStr × Json) (fields : Dict) (s : PyStr) :
    ∃ t, dumpFields rt (field :: fields) ++ s = 0x22 :: t := by
  cases fields with
  | nil => exact ⟨_, by rw [dumpFields_singleton]; rfl⟩
  | cons next fields => exact ⟨_, by rw [dumpFields_cons]; rfl⟩

theorem scanFields_dump {field : PyStr × Json} {fields : Dict}
    (htexts : ∀ f ∈ field :: fields, unpaired f.1 = true)
    (h : ∀ f ∈ field :: fields, ReadsAs (jsonDumps rt f.2) f.2) (before : Dict)
    (hkeys : ((before ++ field :: fields).map Prod.fst).Nodup) {fuel : ℕ} (rest : PyStr)
    (hfuel : 2 * (dumpFields rt (field :: fields) ++ 0x7D :: rest).length + 2 ≤ fuel) :
    scanFields fuel before (dumpFields rt (field :: fields) ++ 0x7D :: rest) =
      .ok (.obj (before ++ field :: fields), rest) := by
  have hnew : field.1 ∉ before.map Prod.fst := by
    rw [List.map_append, List.map_cons] at hkeys
    exact fun hmem => (List.nodup_append.1 hkeys).2.2 _ hmem _ List.mem_cons_self rfl
  induction fields generalizing field before fuel with
  | nil =>
    obtain ⟨fuel, rfl⟩ : ∃ k, fuel = k + 1 := ⟨fuel - 1, by omega⟩
    have hvalue := h field List.mem_cons_self
    rw [dumpFields_singleton] at hfuel ⊢
    have hscan := hvalue fuel (0x7D :: rest) (fun c t hc => by cases hc; simp)
      (by simp only [List.length_append, List.length_cons] at hfuel ⊢; omega)
    rw [← hvalue.skipSpace] at hscan
    rw [scanFields_field (htexts field List.mem_cons_self) before hscan rfl, if_pos rfl,
      set_new hnew]
  | cons next fields ih =>
    obtain ⟨fuel, rfl⟩ : ∃ k, fuel = k + 1 := ⟨fuel - 1, by omega⟩
    have hvalue := h field List.mem_cons_self
    rw [dumpFields_cons] at hfuel ⊢
    have hscan := hvalue fuel (0x2C :: 0x20 :: (dumpFields rt (next :: fields) ++ 0x7D :: rest))
      (fun c t hc => by cases hc; simp)
      (by simp only [List.length_append, List.length_cons] at hfuel ⊢; omega)
    obtain ⟨t, ht⟩ := @dumpFields_head rt next fields (0x7D :: rest)
    have hnext : skipSpace (dumpFields rt (next :: fields) ++ 0x7D :: rest) =
        dumpFields rt (next :: fields) ++ 0x7D :: rest := by
      rw [ht, skipSpace_cons rfl]
    have hkeys' : ((before ++ [field] ++ next :: fields).map Prod.fst).Nodup := by
      rwa [List.append_assoc, List.singleton_append]
    have hfields := @ih next (fun f hf => htexts f (List.mem_cons_of_mem _ hf))
      (fun f hf => h f (List.mem_cons_of_mem _ hf)) (before ++ [field]) hkeys' fuel
      (by simp only [List.length_append, List.length_cons] at hfuel ⊢; omega) (by
        rw [List.map_append, List.map_cons] at hkeys'
        exact fun hmem => (List.nodup_append.1 hkeys').2.2 _ hmem _ List.mem_cons_self rfl)
    rw [← hvalue.skipSpace] at hscan
    rw [scanFields_field (htexts field List.mem_cons_self) before hscan rfl, if_neg (by decide),
      if_pos rfl]
    change scanFields fuel (Dict.set before field.1 field.2)
      (skipSpace (dumpFields rt (next :: fields) ++ 0x7D :: rest)) = _
    rw [set_new hnew, hnext, hfields, List.append_assoc]
    rfl

theorem readsAs_obj {fields : Dict} (hkeys : (fields.map Prod.fst).Nodup)
    (htexts : ∀ f ∈ fields, unpaired f.1 = true)
    (h : ∀ f ∈ fields, ReadsAs (jsonDumps rt f.2) f.2) :
    ReadsAs (jsonDumps rt (.obj fields)) (.obj fields) := by
  intro fuel rest hrest hfuel
  obtain ⟨fuel, rfl⟩ : ∃ k, fuel = k + 1 := ⟨fuel - 1, by omega⟩
  cases fields with
  | nil => rfl
  | cons field fields =>
    have htext : jsonDumps rt (.obj (field :: fields)) ++ rest =
        0x7B :: (dumpFields rt (field :: fields) ++ 0x7D :: rest) := by
      simp [jsonDumps]
    rw [htext] at hfuel ⊢
    have hfields := @scanFields_dump rt field fields htexts h [] hkeys fuel rest
      (by rw [List.length_cons] at hfuel; omega)
    obtain ⟨t, ht⟩ := @dumpFields_head rt field fields (0x7D :: rest)
    rw [ht] at hfields ⊢
    rw [scanOnce, if_neg (by decide), if_pos rfl, skipSpace_cons rfl]
    dsimp only
    rw [if_neg (by decide), hfields]
    rfl

theorem Writable.readsAs (h : Writable rt v) : ReadsAs (jsonDumps rt v) v := by
  induction h with
  | null =>
    intro fuel rest _ hfuel
    obtain ⟨fuel, rfl⟩ : ∃ k, fuel = k + 1 := ⟨fuel - 1, by omega⟩
    rfl
  | bool b =>
    intro fuel rest _ hfuel
    obtain ⟨fuel, rfl⟩ : ∃ k, fuel = k + 1 := ⟨fuel - 1, by omega⟩
    cases b <;> rfl
  | @num n h =>
    cases n with
    | int n => exact readsAs_number (@scanNumber_int rt n h)
    | float q => exact readsAs_number h
    | _ =>
      intro fuel rest _ hfuel
      obtain ⟨fuel, rfl⟩ : ∃ k, fuel = k + 1 := ⟨fuel - 1, by omega⟩
      rfl
  | str h => exact readsAs_string h
  | arr h ih => exact readsAs_arr ih
  | obj hkeys htexts h ih => exact readsAs_obj hkeys htexts ih

theorem jsonLoads_jsonDumps (h : Writable rt v) : jsonLoads (jsonDumps rt v) = .ok v := by
  have hreads := h.readsAs
  have hspace := hreads.skipSpace []
  have hscan := hreads (2 * (jsonDumps rt v).length + 1) [] delimits_nil (by simp)
  rw [List.append_nil] at hspace hscan
  rw [jsonLoads, hspace, hscan]
  rfl

/-- A property of the printable ASCII characters and of the floats' texts holds all over
the texts of the numbers. -/
theorem Writable.all_numbers {P : CodePoint → Bool} (hP : ∀ c, isPrintableAscii c = true → P c = true)
    (hfloat : ∀ q, ReadsBack rt (.float q) → (rt.reprFloat q).all P = true) (h : Writable rt v) :
    v.all (fun n => (dumpNumber rt n).all P) (fun _ => true) = true := by
  induction h with
  | null => rfl
  | bool b => rfl
  | @num n h =>
    cases n with
    | int n => exact all_of_printable hP (all_printable_dumpInt n)
    | float q => exact hfloat q h
    | posInf => exact all_of_printable hP (show (py "Infinity").all isPrintableAscii = true by decide)
    | negInf => exact all_of_printable hP (show (py "-Infinity").all isPrintableAscii = true by decide)
    | nan => exact all_of_printable hP (show (py "NaN").all isPrintableAscii = true by decide)
  | str h => rfl
  | arr h ih => exact Json.allItems_iff.2 ih
  | obj hkeys htexts h ih => exact Json.allFields_iff.2 fun f hf => ⟨rfl, ih f hf⟩

theorem Writable.utf8Encodable (hrt : rt.Sound) (h : Writable rt v) :
    utf8Encodable (jsonDumps rt v) = true := by
  have hprintable : ∀ c, isPrintableAscii c = true → (!isSurrogate c) = true := by
    intro c hc
    have hone : Python.utf8Encodable [c] = true := utf8Encodable_of_printable (by simp [hc])
    simpa [Python.utf8Encodable] using hone
  exact all_jsonDumps hprintable v (h.all_numbers hprintable fun q _ => hrt.float q)

/-- What is written has no line boundary. -/
theorem Writable.unbroken (h : Writable rt v) : ∀ c ∈ jsonDumps rt v, isLineBoundary c = false := by
  have hprintable : ∀ c, isPrintableAscii c = true → (!isLineBoundary c) = true := by
    intro c hc
    simp only [isPrintableAscii, Bool.and_eq_true, decide_eq_true_eq] at hc
    simp only [isLineBoundary, Bool.not_eq_true', Bool.or_eq_false_iff, Bool.and_eq_false_imp,
      decide_eq_true_eq, decide_eq_false_iff_not]
    omega
  have hfloat : ∀ q, ReadsBack rt (.float q) → (rt.reprFloat q).all (!isLineBoundary ·) = true := by
    intro q hq
    obtain ⟨before, hs, hbefore⟩ := (scanNumber_solid hq).1
    rw [List.append_nil] at hs
    rw [← hs] at hbefore
    refine List.all_eq_true.2 fun c hc => ?_
    cases hboundary : isLineBoundary c with
    | false => rfl
    | true =>
      have hsolid := hbefore c hc
      rw [isSpace_of_isLineBoundary hboundary] at hsolid
      cases hsolid
  have hall := all_jsonDumps hprintable v (h.all_numbers hprintable hfloat)
  exact fun c hc => by simpa using List.all_eq_true.1 hall c hc

theorem Writable.not_blank (h : Writable rt v) : ∃ c ∈ jsonDumps rt v, isSpace c = false := by
  obtain ⟨c, t, hs, hc⟩ := scanOnce_head (h.readsAs _ [] delimits_nil le_rfl)
  rw [List.append_nil] at hs
  exact ⟨c, by rw [hs]; exact List.mem_cons_self, hc⟩

end Values

end TrueFigure.Python
