import Mathlib.Data.List.TakeWhile
import TrueFigure.Python.JsonText

/-!
# What the JSON decoder reads

A value that is read starts and ends in characters that are no white space, and
the fuel of the decoder does not matter once it exceeds the text.
-/
namespace TrueFigure.Python

/-- The text up to here ends in a character that is no white space. -/
def Consumes (s r : PyStr) : Prop := ∃ before c, s = before ++ c :: r ∧ isSpace c = false

/-- The text up to here holds no white space. -/
def Solid (s r : PyStr) : Prop := ∃ before, s = before ++ r ∧ ∀ c ∈ before, isSpace c = false

variable {s t r u : PyStr} {c : CodePoint}

namespace Consumes

theorem length_lt (h : Consumes s r) : r.length < s.length := by
  obtain ⟨before, c, rfl, -⟩ := h
  simp only [List.length_append, List.length_cons]
  omega

theorem append (h : Consumes s r) (before : PyStr) : Consumes (before ++ s) r := by
  obtain ⟨before', c, rfl, hc⟩ := h
  exact ⟨before ++ before', c, (List.append_assoc ..).symm, hc⟩

theorem cons (h : Consumes s r) (c : CodePoint) : Consumes (c :: s) r := h.append [c]

theorem head (hc : isSpace c = false) : Consumes (c :: s) s := ⟨[], c, rfl, hc⟩

theorem trans (h : Consumes s r) (h' : Consumes r u) : Consumes s u := by
  obtain ⟨before, c, rfl, -⟩ := h
  exact (h'.cons c).append before

theorem of_skipSpace (h : Consumes (skipSpace s) r) : Consumes s r := by
  have happend := h.append (s.takeWhile isJsonSpace)
  rwa [skipSpace, List.takeWhile_append_dropWhile] at happend

end Consumes

namespace Solid

theorem refl (s : PyStr) : Solid s s := ⟨[], rfl, fun _ hc => absurd hc List.not_mem_nil⟩

theorem trans (h : Solid s r) (h' : Solid r u) : Solid s u := by
  obtain ⟨before, rfl, hbefore⟩ := h
  obtain ⟨before', rfl, hbefore'⟩ := h'
  refine ⟨before ++ before', (List.append_assoc ..).symm, fun c hc => ?_⟩
  rcases List.mem_append.1 hc with hc | hc
  · exact hbefore c hc
  · exact hbefore' c hc

theorem cons (h : Solid s r) (hc : isSpace c = false) : Solid (c :: s) r := by
  obtain ⟨before, rfl, hbefore⟩ := h
  exact ⟨c :: before, rfl, List.forall_mem_cons.2 ⟨hc, hbefore⟩⟩

theorem consumes (h : Solid s r) (hlen : r.length < s.length) : Consumes s r := by
  obtain ⟨before, rfl, hbefore⟩ := h
  rcases List.eq_nil_or_concat before with rfl | ⟨init, c, rfl⟩
  · simp at hlen
  · refine ⟨init, c, by simp, hbefore c (by simp)⟩

end Solid

/-! ### Numbers and strings -/

theorem isSpace_of_isDigit (h : isDigit c = true) : isSpace c = false := by
  simp only [isDigit, Bool.and_eq_true, decide_eq_true_eq] at h
  simp only [isSpace, Bool.or_eq_false_iff, Bool.and_eq_false_imp, decide_eq_true_eq,
    decide_eq_false_iff_not]
  omega

theorem solid_digits (s : PyStr) : Solid s (s.dropWhile isDigit) := by
  refine ⟨s.takeWhile isDigit, List.takeWhile_append_dropWhile.symm, fun c hc => ?_⟩
  exact isSpace_of_isDigit (List.mem_takeWhile_imp hc)

theorem solid_scanSign (s : PyStr) : Solid s (scanSign s).2 := by
  unfold scanSign
  split
  · exact .refl _
  · split_ifs with hc
    · rw [hc]
      exact (Solid.refl _).cons rfl
    · exact .refl _

theorem scanInteger_solid {digits : PyStr} (h : scanInteger s = some (digits, r)) :
    Solid s r ∧ r.length < s.length := by
  unfold scanInteger at h
  split at h
  · cases h
  · rename_i c s
    split_ifs at h with hzero hdigit
    · cases h
      rw [hzero]
      exact ⟨(Solid.refl _).cons rfl, by simp⟩
    · cases h
      refine ⟨(solid_digits s).cons (isSpace_of_isDigit hdigit), ?_⟩
      have := s.length_dropWhile_le isDigit
      rw [List.length_cons]
      omega

theorem solid_scanFraction (s : PyStr) : Solid s (scanFraction s).2 := by
  unfold scanFraction
  split
  · exact .refl _
  · split_ifs with h
    · rw [h.1]
      exact (solid_digits _).cons rfl
    · exact .refl _

theorem solid_scanExponentSign (s : PyStr) : Solid s (scanExponentSign s).2 := by
  unfold scanExponentSign
  split
  · exact .refl _
  · split_ifs with hminus hplus
    · rw [hminus]
      exact (Solid.refl _).cons rfl
    · rw [hplus]
      exact (Solid.refl _).cons rfl
    · exact .refl _

theorem solid_scanExponent (s : PyStr) : Solid s (scanExponent s).2 := by
  unfold scanExponent
  split
  · exact .refl _
  · rename_i c s
    dsimp only
    split_ifs with h
    · have hc : isSpace c = false := by
        rcases h.1 with rfl | rfl <;> rfl
      exact ((solid_scanExponentSign s).trans (solid_digits _)).cons hc
    · exact .refl _

theorem scanNumber_solid {n : PyNum} (h : scanNumber s = .ok (n, r)) :
    Solid s r ∧ r.length < s.length := by
  unfold scanNumber at h
  dsimp only at h
  split at h
  · cases h
  · rename_i digits t hinteger
    obtain ⟨hsolid, hlt⟩ := scanInteger_solid hinteger
    have hrest : (scanExponent (scanFraction t).2).2 = r := by
      cases hvalue : Numeral.value ⟨(scanSign s).1, digits, (scanFraction t).1,
          (scanExponent (scanFraction t).2).1⟩ with
      | error e => simp [hvalue, Except.map] at h
      | ok n =>
        simp only [hvalue, Except.map, Except.ok.injEq, Prod.mk.injEq] at h
        exact h.2
    have htail : Solid t r := by
      rw [← hrest]
      exact (solid_scanFraction t).trans (solid_scanExponent _)
    have hall := ((solid_scanSign s).trans hsolid).trans htail
    refine ⟨hall, ?_⟩
    obtain ⟨before, hs, -⟩ := solid_scanSign s
    obtain ⟨before', ht, -⟩ := htail
    have hslen := congrArg List.length hs
    have htlen := congrArg List.length ht
    rw [List.length_append] at hslen htlen
    omega

/-- A mapped computation that succeeds has succeeded. -/
theorem scanUnits_consumes {units : List TextUnit} (h : scanUnits s = .ok (units, r)) :
    Consumes s r := by
  fun_induction scanUnits s generalizing units with
  | case1 => cases h
  | case2 s =>
    cases h
    exact .head rfl
  | case3 => cases h
  | case4 => cases h
  | case5 a b c d s unit _ _ ih =>
    obtain ⟨⟨units', r'⟩, hrest, heq⟩ := map_eq_ok h
    cases heq
    exact (ih hrest).append [0x5C, 0x75, a, b, c, d]
  | case6 => cases h
  | case7 => cases h
  | case8 e s _ c _ _ ih =>
    obtain ⟨⟨units', r'⟩, hrest, heq⟩ := map_eq_ok h
    cases heq
    exact (ih hrest).append [0x5C, e]
  | case9 => cases h
  | case10 c s _ _ _ ih =>
    obtain ⟨⟨units', r'⟩, hrest, heq⟩ := map_eq_ok h
    cases heq
    exact (ih hrest).cons c

theorem scanString_consumes {text : PyStr} (h : scanString s = .ok (text, r)) : Consumes s r := by
  obtain ⟨⟨units, r'⟩, hunits, heq⟩ := map_eq_ok h
  cases heq
  exact scanUnits_consumes hunits

theorem expect_eq_ok (h : expect c s = .ok r) : s = c :: r := by
  unfold expect at h
  split at h
  · cases h
  · split_ifs at h with hc
    cases h
    rw [hc]

theorem scanConstant_solid {v : Json} (h : scanConstant s = some (v, r)) :
    Solid s r ∧ r.length < s.length := by
  obtain ⟨⟨t, v'⟩, hmem, hfound⟩ := List.exists_of_findSome?_eq_some h
  dsimp only at hfound
  split_ifs at hfound with hstarts
  obtain ⟨rest, rfl⟩ := List.isPrefixOf_iff_prefix.1 hstarts
  rw [List.drop_left] at hfound
  cases hfound
  have hconstants : (constants.all fun e => 0 < e.1.length && e.1.all fun c => !isSpace c) =
      true := by decide +kernel
  have ht := List.all_eq_true.1 hconstants _ hmem
  simp only [Bool.and_eq_true, decide_eq_true_eq, List.all_eq_true, Bool.not_eq_true'] at ht
  obtain ⟨hlt, hsolid⟩ := ht
  refine ⟨⟨t, rfl, hsolid⟩, ?_⟩
  rw [List.length_append]
  omega

/-! ### Values -/

/-- What is read ends in a character that is no white space. -/
theorem scan_consumes (fuel : ℕ) :
    (∀ s v r, scanOnce fuel s = .ok (v, r) → Consumes s r) ∧
      (∀ items s v r, scanItems fuel items s = .ok (v, r) → Consumes s r) ∧
        ∀ fields s v r, scanFields fuel fields s = .ok (v, r) → Consumes s r := by
  induction fuel with
  | zero =>
    refine ⟨fun s v r h => ?_, fun items s v r h => ?_, fun fields s v r h => ?_⟩
    · simp [scanOnce] at h
    · simp [scanItems] at h
    · simp [scanFields] at h
  | succ fuel ih =>
    obtain ⟨ihOnce, ihItems, ihFields⟩ := ih
    refine ⟨fun s v r h => ?_, fun items s v r h => ?_, fun fields s v r h => ?_⟩
    · cases s with
      | nil => simp [scanOnce] at h
      | cons c s =>
        rw [scanOnce] at h
        split_ifs at h with hquote hbrace hbracket
        · obtain ⟨⟨text, r'⟩, hstring, heq⟩ := map_eq_ok h
          cases heq
          exact (scanString_consumes hstring).cons c
        · refine Consumes.cons (.of_skipSpace ?_) c
          cases hspace : skipSpace s with
          | nil => simp [hspace] at h
          | cons d t =>
            simp only [hspace] at h
            split_ifs at h with hclose
            · cases h
              rw [hclose]
              exact .head rfl
            · exact ihFields _ _ _ _ h
        · refine Consumes.cons (.of_skipSpace ?_) c
          cases hspace : skipSpace s with
          | nil => simp [hspace] at h
          | cons d t =>
            simp only [hspace] at h
            split_ifs at h with hclose
            · cases h
              rw [hclose]
              exact .head rfl
            · exact ihItems _ _ _ _ h
        · cases hconstant : scanConstant (c :: s) with
          | some found =>
            simp only [hconstant] at h
            obtain rfl := Except.ok.inj h
            obtain ⟨hsolid, hlt⟩ := scanConstant_solid hconstant
            exact hsolid.consumes hlt
          | none =>
            simp only [hconstant] at h
            obtain ⟨⟨n, r'⟩, hnumber, heq⟩ := map_eq_ok h
            cases heq
            obtain ⟨hsolid, hlt⟩ := scanNumber_solid hnumber
            exact hsolid.consumes hlt
    · rw [scanItems] at h
      obtain ⟨⟨item, t⟩, hitem, h⟩ := bind_eq_ok h
      refine (ihOnce _ _ _ hitem).trans (.of_skipSpace ?_)
      dsimp only at h
      cases hspace : skipSpace t with
      | nil => simp [hspace] at h
      | cons c t =>
        simp only [hspace] at h
        split_ifs at h with hclose hcomma
        · cases h
          rw [hclose]
          exact .head rfl
        · exact Consumes.cons (.of_skipSpace (ihItems _ _ _ _ h)) c
    · rw [scanFields] at h
      obtain ⟨s', hquote, h⟩ := bind_eq_ok h
      obtain ⟨⟨key, t⟩, hkey, h⟩ := bind_eq_ok h
      obtain ⟨t', hcolon, h⟩ := bind_eq_ok h
      obtain ⟨⟨value, u⟩, hvalue, h⟩ := bind_eq_ok h
      rw [expect_eq_ok hquote]
      refine ((scanString_consumes hkey).cons _).trans (.of_skipSpace ?_)
      rw [expect_eq_ok hcolon]
      refine Consumes.cons (.of_skipSpace ((ihOnce _ _ _ hvalue).trans (.of_skipSpace ?_))) _
      dsimp only at h
      cases hspace : skipSpace u with
      | nil => simp [hspace] at h
      | cons c u =>
        simp only [hspace] at h
        split_ifs at h with hclose hcomma
        · cases h
          rw [hclose]
          exact .head rfl
        · exact Consumes.cons (.of_skipSpace (ihFields _ _ _ _ h)) c

theorem scanOnce_consumes {fuel : ℕ} {v : Json} (h : scanOnce fuel s = .ok (v, r)) :
    Consumes s r :=
  (scan_consumes fuel).1 s v r h

/-- A value starts with a character that is no white space. -/
theorem scanOnce_head {fuel : ℕ} {v : Json} (h : scanOnce fuel s = .ok (v, r)) :
    ∃ c t, s = c :: t ∧ isSpace c = false := by
  cases fuel with
  | zero => simp [scanOnce] at h
  | succ fuel =>
    cases s with
    | nil => simp [scanOnce] at h
    | cons c s =>
      refine ⟨c, s, rfl, ?_⟩
      have hsolid : Solid (c :: s) r ∧ r.length < (c :: s).length → isSpace c = false := by
        rintro ⟨⟨before, hs, hbefore⟩, hlt⟩
        cases before with
        | nil =>
          rw [List.nil_append] at hs
          rw [← hs] at hlt
          exact absurd hlt (Nat.lt_irrefl _)
        | cons d before =>
          obtain ⟨rfl, -⟩ := List.cons.inj hs
          exact hbefore _ List.mem_cons_self
      rw [scanOnce] at h
      split_ifs at h with hquote hbrace hbracket
      · rw [hquote]
        rfl
      · rw [hbrace]
        rfl
      · rw [hbracket]
        rfl
      · cases hconstant : scanConstant (c :: s) with
        | some found =>
          simp only [hconstant] at h
          obtain rfl := Except.ok.inj h
          exact hsolid (scanConstant_solid hconstant)
        | none =>
          simp only [hconstant] at h
          obtain ⟨⟨n, r'⟩, hnumber, heq⟩ := map_eq_ok h
          cases heq
          exact hsolid (scanNumber_solid hnumber)

/-! ### Fuel -/

theorem length_skipSpace_le (s : PyStr) : (skipSpace s).length ≤ s.length :=
  s.length_dropWhile_le isJsonSpace

theorem bind_congr_ok {ε α β : Type} {x y : Except ε α} {f g : α → Except ε β} (h : x = y)
    (hfg : ∀ a, y = .ok a → f a = g a) : (x >>= f) = (y >>= g) := by
  subst h
  cases x with
  | error e => rfl
  | ok a => exact hfg a rfl

/-- With fuel for every character twice, more fuel changes nothing. -/
theorem scan_fuel (fuel : ℕ) :
    (∀ fuel' s, 2 * s.length + 1 ≤ fuel → 2 * s.length + 1 ≤ fuel' →
        scanOnce fuel s = scanOnce fuel' s) ∧
      (∀ fuel' items s, 2 * s.length + 2 ≤ fuel → 2 * s.length + 2 ≤ fuel' →
        scanItems fuel items s = scanItems fuel' items s) ∧
        ∀ fuel' fields s, 2 * s.length + 2 ≤ fuel → 2 * s.length + 2 ≤ fuel' →
          scanFields fuel fields s = scanFields fuel' fields s := by
  induction fuel with
  | zero =>
    refine ⟨fun fuel' s h => ?_, fun fuel' items s h => ?_, fun fuel' fields s h => ?_⟩
    all_goals omega
  | succ fuel ih =>
    obtain ⟨ihOnce, ihItems, ihFields⟩ := ih
    refine ⟨fun fuel' s h h' => ?_, fun fuel' items s h h' => ?_, fun fuel' fields s h h' => ?_⟩
    · obtain ⟨fuel', rfl⟩ : ∃ n, fuel' = n + 1 := ⟨fuel' - 1, by omega⟩
      cases s with
      | nil => simp [scanOnce]
      | cons c s =>
        have hspace := length_skipSpace_le s
        rw [List.length_cons] at h h'
        simp only [scanOnce]
        cases htext : skipSpace s with
        | nil => rfl
        | cons d t =>
          rw [htext] at hspace
          have hitems := ihItems fuel' [] (d :: t) (by omega) (by omega)
          have hfields := ihFields fuel' [] (d :: t) (by omega) (by omega)
          simp only [hitems, hfields]
    · obtain ⟨fuel', rfl⟩ : ∃ n, fuel' = n + 1 := ⟨fuel' - 1, by omega⟩
      simp only [scanItems]
      refine bind_congr_ok (ihOnce fuel' s (by omega) (by omega)) fun ⟨item, t⟩ hitem => ?_
      have hlt := (scanOnce_consumes hitem).length_lt
      have hspace := length_skipSpace_le t
      dsimp only
      cases htext : skipSpace t with
      | nil => rfl
      | cons c u =>
        have hnext := length_skipSpace_le u
        rw [htext, List.length_cons] at hspace
        have hrest := ihItems fuel' (items ++ [item]) (skipSpace u) (by omega) (by omega)
        simp only [hrest]
    · obtain ⟨fuel', rfl⟩ : ∃ n, fuel' = n + 1 := ⟨fuel' - 1, by omega⟩
      simp only [scanFields]
      refine bind_congr_ok rfl fun s' hquote => ?_
      refine bind_congr_ok rfl fun ⟨key, t⟩ hkey => ?_
      refine bind_congr_ok rfl fun t' hcolon => ?_
      have hlt := (scanString_consumes hkey).length_lt
      have hspace := length_skipSpace_le t
      have hbefore := length_skipSpace_le t'
      have hopen : s = 0x22 :: s' := expect_eq_ok hquote
      have hsplit : skipSpace t = 0x3A :: t' := expect_eq_ok hcolon
      rw [hopen, List.length_cons] at h h'
      rw [hsplit, List.length_cons] at hspace
      have hvalue := ihOnce fuel' (skipSpace t') (by omega) (by omega)
      refine bind_congr_ok hvalue fun ⟨value, u⟩ hread => ?_
      have hlt' := (scanOnce_consumes hread).length_lt
      have hafter := length_skipSpace_le u
      dsimp only
      cases htext : skipSpace u with
      | nil => rfl
      | cons c w =>
        have hnext := length_skipSpace_le w
        rw [htext, List.length_cons] at hafter
        have hrest := ihFields fuel' (Dict.set fields key value) (skipSpace w) (by omega) (by omega)
        simp only [hrest]

/-! ### The stack -/

theorem map_ne_recursion {α β : Type} {f : α → β} {x : Except LoadsError α}
    (h : x ≠ .error .recursion) : x.map f ≠ .error .recursion := by
  cases x with
  | ok a => rintro ⟨⟩
  | error e => exact fun he => h (congrArg Except.error (Except.error.inj he))

theorem bind_ne_recursion {α β : Type} {f : α → Except LoadsError β} {x : Except LoadsError α}
    (h : x ≠ .error .recursion) (hf : ∀ a, f a ≠ .error .recursion) :
    (x >>= f) ≠ .error .recursion := by
  cases x with
  | ok a => exact hf a
  | error e => exact fun he => h (congrArg Except.error (Except.error.inj he))

theorem scanUnits_ne_recursion (s : PyStr) : scanUnits s ≠ .error .recursion := by
  fun_induction scanUnits s with
  | case5 a b c d s unit _ _ ih => exact map_ne_recursion ih
  | case8 e s _ c _ _ ih => exact map_ne_recursion ih
  | case10 c s _ _ _ ih => exact map_ne_recursion ih
  | _ => rintro ⟨⟩

theorem scanNumber_ne_recursion (s : PyStr) : scanNumber s ≠ .error .recursion := by
  unfold scanNumber
  dsimp only
  split
  · rintro ⟨⟩
  · apply map_ne_recursion
    unfold Numeral.value
    dsimp only
    split
    · split_ifs <;> rintro ⟨⟩
    · rintro ⟨⟩

theorem expect_ne_recursion (c : CodePoint) (s : PyStr) : expect c s ≠ .error .recursion := by
  unfold expect
  split
  · rintro ⟨⟩
  · split_ifs <;> rintro ⟨⟩

/-- The scanner itself counts no calls. -/
theorem scan_ne_recursion (fuel : ℕ) :
    (∀ s, scanOnce fuel s ≠ .error .recursion) ∧
      (∀ items s, scanItems fuel items s ≠ .error .recursion) ∧
        ∀ fields s, scanFields fuel fields s ≠ .error .recursion := by
  induction fuel with
  | zero =>
    refine ⟨fun s h => ?_, fun items s h => ?_, fun fields s h => ?_⟩
    · simp [scanOnce] at h
    · simp [scanItems] at h
    · simp [scanFields] at h
  | succ fuel ih =>
    obtain ⟨ihOnce, ihItems, ihFields⟩ := ih
    refine ⟨fun s => ?_, fun items s => ?_, fun fields s => ?_⟩
    · cases s with
      | nil =>
        rw [scanOnce]
        rintro ⟨⟩
      | cons c s =>
        rw [scanOnce]
        split_ifs
        · exact map_ne_recursion (map_ne_recursion (scanUnits_ne_recursion s))
        · split
          · rintro ⟨⟩
          · split_ifs
            · rintro ⟨⟩
            · exact ihFields _ _
        · split
          · rintro ⟨⟩
          · split_ifs
            · rintro ⟨⟩
            · exact ihItems _ _
        · split
          · rintro ⟨⟩
          · exact map_ne_recursion (scanNumber_ne_recursion _)
    · rw [scanItems]
      refine bind_ne_recursion (ihOnce s) ?_
      rintro ⟨item, t⟩
      dsimp only
      split
      · rintro ⟨⟩
      · split_ifs
        · rintro ⟨⟩
        · exact ihItems _ _
        · rintro ⟨⟩
    · rw [scanFields]
      refine bind_ne_recursion (expect_ne_recursion _ _) fun s => ?_
      refine bind_ne_recursion (map_ne_recursion (scanUnits_ne_recursion s)) ?_
      rintro ⟨key, t⟩
      refine bind_ne_recursion (expect_ne_recursion _ _) fun t => ?_
      refine bind_ne_recursion (ihOnce _) ?_
      rintro ⟨value, u⟩
      dsimp only
      split
      · rintro ⟨⟩
      · split_ifs
        · rintro ⟨⟩
        · exact ihFields _ _
        · rintro ⟨⟩

theorem jsonLoads_ne_recursion (s : PyStr) : jsonLoads s ≠ .error .recursion := by
  unfold jsonLoads
  refine bind_ne_recursion ((scan_ne_recursion _).1 _) ?_
  rintro ⟨value, rest⟩
  dsimp only
  split_ifs <;> rintro ⟨⟩

/-- A text that is not refused as JSON is read exactly where it is not nested too deep and
holds no integer of more than 4300 digits. -/
theorem jsonLoadsWithin_ok_iff {room : ℕ} (h : jsonLoadsWithin room s ≠ .error .decode) :
    (∃ v, jsonLoadsWithin room s = .ok v) ↔ nesting s ≤ room ∧ jsonLoads s ≠ .error .digits := by
  unfold jsonLoadsWithin at h ⊢
  split_ifs at h ⊢ with hdeep
  · refine iff_of_false ?_ fun hs => absurd hs.1 (by omega)
    rintro ⟨v, ⟨⟩⟩
  · cases hloads : jsonLoads s with
    | ok v =>
      refine iff_of_true ⟨v, rfl⟩ ⟨by omega, ?_⟩
      rintro ⟨⟩
    | error e =>
      cases e with
      | decode => exact absurd hloads h
      | digits =>
        refine iff_of_false ?_ fun hs => hs.2 rfl
        rintro ⟨v, ⟨⟩⟩
      | recursion => exact absurd hloads (jsonLoads_ne_recursion s)

/-- `jsonLoads` never runs out of fuel: any fuel beyond it reads the same. -/
theorem scanOnce_fuel {fuel : ℕ} (h : 2 * s.length + 1 ≤ fuel) :
    scanOnce fuel s = scanOnce (2 * s.length + 1) s :=
  (scan_fuel fuel).1 _ s h le_rfl

/-- A JSON text starts with a character that is no white space, behind JSON's own, -/
theorem jsonLoads_head {v : Json} (h : jsonLoads s = .ok v) :
    ∃ c t, skipSpace s = c :: t ∧ isSpace c = false := by
  obtain ⟨⟨value, rest⟩, hvalue, -⟩ := bind_eq_ok h
  exact scanOnce_head hvalue

/-- and ends with one, before JSON's own. -/
theorem jsonLoads_last {v : Json} (h : jsonLoads s = .ok v) :
    ∃ before c after, s = before ++ c :: after ∧ isSpace c = false ∧
      ∀ d ∈ after, isJsonSpace d = true := by
  obtain ⟨⟨value, rest⟩, hvalue, h⟩ := bind_eq_ok h
  dsimp only at h
  split_ifs at h with hrest
  obtain ⟨before, c, hs, hc⟩ := Consumes.of_skipSpace (scanOnce_consumes hvalue)
  exact ⟨before, c, rest, hs, hc, List.dropWhile_eq_nil_iff.1 hrest⟩

/-- Behind white space that is not all JSON's own, no value starts. -/
theorem skipSpace_head (hspace : ∀ d ∈ s, isSpace d = true)
    (hother : ∃ d ∈ s, isJsonSpace d = false) (t : PyStr) :
    ∃ d u, skipSpace (s ++ t) = d :: u ∧ isSpace d = true := by
  induction s with
  | nil =>
    obtain ⟨d, hd, -⟩ := hother
    cases hd
  | cons c s ih =>
    obtain ⟨hc, hrest⟩ := List.forall_mem_cons.1 hspace
    cases hjson : isJsonSpace c with
    | false => exact ⟨c, s ++ t, by simp [skipSpace, hjson], hc⟩
    | true =>
      obtain ⟨d, hd, hdother⟩ := hother
      have hd' : d ∈ s := by
        rcases List.mem_cons.1 hd with rfl | hd
        · rw [hjson] at hdother
          cases hdother
        · exact hd
      obtain ⟨e, u, heq, he⟩ := ih hrest ⟨d, hd', hdother⟩
      exact ⟨e, u, by simpa [skipSpace, hjson] using heq, he⟩

theorem jsonLoads_inside {v : Json} (h : jsonLoads (s ++ c :: t) = .ok v)
    (hc : isSpace c = true) (hjson : isJsonSpace c = false) :
    (∃ d ∈ s, isSpace d = false) ∧ ∃ d ∈ t, isSpace d = false := by
  constructor
  · by_contra hnone
    have hspace : ∀ d ∈ s ++ [c], isSpace d = true := by
      intro d hd
      rcases List.mem_append.1 hd with hd | hd
      · by_contra hne
        exact hnone ⟨d, hd, eq_false_of_ne_true hne⟩
      · rw [List.mem_singleton.1 hd]
        exact hc
    obtain ⟨d, u, hhead, hd⟩ := skipSpace_head hspace ⟨c, by simp, hjson⟩ t
    obtain ⟨e, w, hhead', he⟩ := jsonLoads_head h
    rw [List.append_assoc] at hhead
    obtain ⟨rfl, -⟩ := List.cons.inj (hhead.symm.trans hhead')
    rw [hd] at he
    cases he
  · obtain ⟨before, d, after, hsplit, hd, hafter⟩ := jsonLoads_last h
    rcases List.append_eq_append_iff.1 hsplit with ⟨mid, hmid, hrest⟩ | ⟨mid, hmid, hrest⟩
    · cases mid with
      | nil =>
        obtain ⟨rfl, -⟩ := List.cons.inj hrest
        rw [hc] at hd
        cases hd
      | cons e mid =>
        obtain ⟨rfl, rfl⟩ := List.cons.inj hrest
        exact ⟨d, by simp, hd⟩
    · cases mid with
      | nil =>
        obtain ⟨rfl, -⟩ := List.cons.inj hrest
        rw [hc] at hd
        cases hd
      | cons e mid =>
        obtain ⟨rfl, rfl⟩ := List.cons.inj hrest
        rw [hafter c (by simp)] at hjson
        cases hjson

end TrueFigure.Python
