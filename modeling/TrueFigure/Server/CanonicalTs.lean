import Mathlib.Data.Set.Insert
import TrueFigure.Python.TimestampOrder
import TrueFigure.Server.Hazards

/-!
# Canonical timestamps

`canonical_ts` on any value, and `_check_timestamp` behind it. An aware timestamp has an
instant even where that is no `datetime`: the local time is in years 1 to 9999, the time in
UTC need not be.
-/
namespace TrueFigure.Server

open TrueFigure.Python

/-- The text `canonical_ts` parses. -/
def rawTimestamp (ts : PyStr) : PyStr :=
  let raw := strip ts
  if raw.getLast? = some (chr 'Z') ∨ raw.getLast? = some (chr 'z') then raw.dropLast ++ py "+00:00"
  else raw

/-- The instant of an aware timestamp, in microseconds since year 1. -/
def instant? : Json → Option ℤ
  | .str ts => (fromisoformat (rawTimestamp ts)).bind fun parsed =>
      parsed.offset.map fun offset => parsed.micros - offset
  | _ => none

/-- The instant is one a `datetime` can hold. -/
def InRange (i : ℤ) : Prop := 0 ≤ i ∧ i < microsEnd

/-- What canonicalization promises about some values. -/
structure Canonicalizes (rt : Runtime) (inputs : Set Json) : Prop where
  total : ∀ ts ∈ inputs, (∃ text, canonicalTs rt ts = .ok text ∧ CanonicalForm text) ∨
    ∃ message, canonicalTs rt ts = .error (.timestampError message)
  /-- An aware timestamp has a text, which is read back as its instant. -/
  reads : ∀ ts ∈ inputs, ∀ i, instant? ts = some i → ∃ text, canonicalTs rt ts = .ok text ∧
    (strptimeMillis text).map Nat.cast = some (i / 1000)
  agrees : ∀ ts ∈ inputs, ∀ ts' ∈ inputs, ∀ i i' text text', instant? ts = some i →
    instant? ts' = some i' → canonicalTs rt ts = .ok text → canonicalTs rt ts' = .ok text' →
      (text = text' ↔ i / 1000 = i' / 1000) ∧ (text < text' ↔ i / 1000 < i' / 1000)
  stable : ∀ ts ∈ inputs, ∀ text, canonicalTs rt ts = .ok text →
    canonicalTs rt (.str text) = .ok text
  /-- `_check_timestamp` judges the millisecond. -/
  checked : ∀ env : Env, env.rt = rt → ∀ payload : Dict,
    payload.getD (py "timestamp") .null ∈ inputs → ∀ i,
      instant? (payload.getD (py "timestamp") .null) = some i → ∀ horizonDays now : ℕ,
        now + microsPerDay < microsEnd → horizonDays * microsPerDay ≤ now →
          ((∃ ts, checkTimestamp env payload horizonDays now = .ok ts) ↔
            i / 1000 * 1000 ≤ now + microsPerDay ∧
              (now : ℤ) - horizonDays * microsPerDay ≤ i / 1000 * 1000)

section Values

variable (rt : Runtime) {ts : Json} {text : PyStr} {i : ℤ} {millis : ℕ}

theorem canonicalMillis_of_instant (h : instant? ts = some i) : canonicalMillis rt ts =
    if 0 ≤ i ∧ i < microsEnd then .ok (i.toNat / 1000) else .error .overflowError := by
  cases ts with
  | str ts =>
    obtain ⟨parsed, hparsed, hoffset⟩ := Option.bind_eq_some_iff.1 h
    obtain ⟨offset, hshift, rfl⟩ := Option.map_eq_some_iff.1 hoffset
    unfold rawTimestamp at hparsed
    dsimp only at hparsed
    simp only [canonicalMillis, hparsed, hshift, astimezoneUtc]
    split_ifs <;> rfl
  | _ => cases h

theorem canonicalMillis_of_none (h : instant? ts = none) :
    ∃ message, canonicalMillis rt ts = .error (.timestampError message) := by
  cases ts with
  | str ts =>
    unfold instant? rawTimestamp at h
    dsimp only at h
    simp only [canonicalMillis]
    cases hparsed : fromisoformat (if (strip ts).getLast? = some (chr 'Z') ∨
        (strip ts).getLast? = some (chr 'z') then (strip ts).dropLast ++ py "+00:00"
      else strip ts) with
    | none => exact ⟨_, rfl⟩
    | some parsed =>
      cases hoffset : parsed.offset with
      | none =>
        simp only [hoffset]
        exact ⟨_, rfl⟩
      | some offset => simp [hparsed, hoffset] at h
  | _ => exact ⟨_, rfl⟩

theorem canonicalTs_of_inRange (h : instant? ts = some i) (hi : InRange i) :
    canonicalTs rt ts = .ok (renderMillis (i.toNat / 1000)) ∧ i.toNat / 1000 < millisEnd := by
  have hmillis := (canonicalMillis_of_instant rt h).trans (if_pos hi)
  rw [canonicalTs, hmillis]
  exact ⟨rfl, canonicalMillis_lt hmillis⟩

theorem canonicalTs_of_outOfRange (h : instant? ts = some i) (hi : ¬ InRange i) :
    canonicalTs rt ts = .error .overflowError := by
  rw [canonicalTs, (canonicalMillis_of_instant rt h).trans (if_neg hi)]
  rfl

theorem instant_of_canonicalTs (h : canonicalTs rt ts = .ok text) :
    ∃ i, instant? ts = some i ∧ InRange i := by
  cases hi : instant? ts with
  | none =>
    obtain ⟨message, hmillis⟩ := canonicalMillis_of_none rt hi
    rw [canonicalTs, hmillis] at h
    cases h
  | some i =>
    by_cases hrange : InRange i
    · exact ⟨i, rfl, hrange⟩
    · rw [canonicalTs_of_outOfRange rt hi hrange] at h
      cases h

theorem strip_eq_self {s : PyStr} (h : ∀ c ∈ s, isSpace c = false) : strip s = s := by
  have hkeep : ∀ t : PyStr, (∀ c ∈ t, isSpace c = false) → t.dropWhile isSpace = t := by
    intro t ht
    cases t with
    | nil => rfl
    | cons c t => exact List.dropWhile_cons_of_neg (by rw [ht c List.mem_cons_self]; decide)
  rw [strip, hkeep s h, hkeep s.reverse (fun c hc => h c (List.mem_reverse.1 hc)), List.reverse_reverse]

theorem not_isSpace_of_isDigit {c : CodePoint} (h : isDigit c = true) : isSpace c = false := by
  simp only [isDigit, Bool.and_eq_true, decide_eq_true_eq] at h
  simp only [isSpace, Bool.or_eq_false_iff, Bool.and_eq_false_imp, decide_eq_true_eq,
    decide_eq_false_iff_not]
  omega

/-- A canonical text is parsed with an offset in place of its `Z`. -/
theorem rawTimestamp_render (millis : ℕ) :
    rawTimestamp (renderMillis millis) = (renderMillis millis).dropLast ++ py "+00:00" := by
  have hstrip : strip (renderMillis millis) = renderMillis millis := by
    apply strip_eq_self
    intro c hc
    have hpad : ∀ {width n : ℕ}, c ∈ pad width n → isSpace c = false := fun hmem =>
      not_isSpace_of_isDigit (List.all_eq_true.1 (all_isDigit_pad _ _) c hmem)
    simp only [renderMillis, canonicalText, List.mem_append, List.mem_singleton] at hc
    rcases hc with (((((((((((((hc | rfl) | hc) | rfl) | hc) | rfl) | hc) | rfl) | hc) | rfl) | hc)
      | rfl) | hc) | rfl)
    all_goals first | exact hpad hc | rfl
  have hlast : (renderMillis millis).getLast? = some (chr 'Z') := by
    rw [renderMillis, canonicalText, List.getLast?_append]
    rfl
  rw [rawTimestamp, hstrip]
  exact if_pos (.inl hlast)

theorem instant_render (h : millis < millisEnd) :
    instant? (.str (renderMillis millis)) = some ((millis * 1000 : ℕ) : ℤ) := by
  rw [instant?, rawTimestamp_render, fromisoformat_render h]
  exact congrArg some (sub_zero _)

theorem canonicalTs_render (h : millis < millisEnd) :
    canonicalTs rt (.str (renderMillis millis)) = .ok (renderMillis millis) := by
  have hend := microsEnd_eq
  have htext := (canonicalTs_of_inRange rt (instant_render h) ⟨by omega, by omega⟩).1
  have hmillis : ((millis * 1000 : ℕ) : ℤ).toNat / 1000 = millis := by omega
  rw [hmillis] at htext
  exact htext

theorem checkTimestamp_ok_iff {env : Env} {payload : Dict} {horizonDays now : ℕ}
    (h : instant? (payload.getD (py "timestamp") .null) = some i)
    (hnow : now + microsPerDay < microsEnd) (hhorizon : horizonDays * microsPerDay ≤ now) :
    (∃ ts, checkTimestamp env payload horizonDays now = .ok ts) ↔
      i / 1000 * 1000 ≤ now + microsPerDay ∧
        (now : ℤ) - horizonDays * microsPerDay ≤ i / 1000 * 1000 := by
  by_cases hi : InRange i
  · obtain ⟨hts, hmillis⟩ := canonicalTs_of_inRange env.rt h hi
    unfold checkTimestamp
    simp only [hts, strptime_render hmillis]
    obtain ⟨hlow, -⟩ := hi
    lift i to ℕ using hlow
    rw [if_neg (not_le.2 hnow), Int.toNat_natCast]
    have hcast : ((now - horizonDays * microsPerDay : ℕ) : ℤ) = now - horizonDays * microsPerDay := by
      rw [Nat.cast_sub hhorizon, Nat.cast_mul]
    split_ifs with hfuture hold hpast
    · simp only [exists_false, false_iff]
      omega
    · omega
    · simp only [exists_false, false_iff]
      omega
    · simp only [Except.ok.injEq, exists_eq', true_iff]
      omega
  · have hout : canonicalTs env.rt (payload.getD (py "timestamp") .null) = .error .overflowError :=
      canonicalTs_of_outOfRange env.rt h hi
    have hend := microsEnd_eq
    unfold checkTimestamp
    simp only [hout, reduceCtorEq, exists_false, false_iff]
    unfold InRange at hi
    have hcast : (horizonDays * microsPerDay : ℤ) ≤ now := by exact_mod_cast hhorizon
    omega

end Values

/-- Canonicalization keeps its promises exactly about the timestamps whose instant is a
`datetime`; of another one it raises an `OverflowError`. -/
theorem canonicalizes_iff (rt : Runtime) (inputs : Set Json) :
    Canonicalizes rt inputs ↔ ∀ ts ∈ inputs, ∀ i, instant? ts = some i → InRange i := by
  constructor
  · intro h ts hts i hi
    obtain ⟨text, htext, -⟩ := h.reads ts hts i hi
    obtain ⟨i', hi', hrange⟩ := instant_of_canonicalTs rt htext
    rw [hi] at hi'
    cases hi'
    exact hrange
  · intro hrange
    refine ⟨?_, ?_, ?_, ?_, ?_⟩
    · intro ts hts
      cases hi : instant? ts with
      | none =>
        obtain ⟨message, hmillis⟩ := canonicalMillis_of_none rt hi
        exact .inr ⟨message, by rw [canonicalTs, hmillis]; rfl⟩
      | some i =>
        exact .inl ⟨_, (canonicalTs_of_inRange rt hi (hrange ts hts i hi)).1,
          canonicalForm_renderMillis _⟩
    · intro ts hts i hi
      obtain ⟨htext, hmillis⟩ := canonicalTs_of_inRange rt hi (hrange ts hts i hi)
      refine ⟨_, htext, ?_⟩
      have hlow := (hrange ts hts i hi).1
      rw [strptime_render hmillis, Option.map_some]
      exact congrArg some (by omega)
    · intro ts hts ts' hts' i i' text text' hi hi' htext htext'
      have hlow := (hrange ts hts i hi).1
      have hlow' := (hrange ts' hts' i' hi').1
      obtain ⟨hrender, hmillis⟩ := canonicalTs_of_inRange rt hi (hrange ts hts i hi)
      obtain ⟨hrender', hmillis'⟩ := canonicalTs_of_inRange rt hi' (hrange ts' hts' i' hi')
      obtain rfl := Except.ok.inj (hrender.symm.trans htext)
      obtain rfl := Except.ok.inj (hrender'.symm.trans htext')
      rw [renderMillis_lt_iff hmillis hmillis']
      refine ⟨⟨fun h => ?_, fun h => congrArg _ (by omega)⟩, by omega⟩
      have := renderMillis_inj hmillis hmillis' h
      omega
    · intro ts _ text htext
      obtain ⟨millis, hmillis, rfl⟩ := canonicalTs_eq_ok htext
      exact canonicalTs_render rt (canonicalMillis_lt hmillis)
    · intro env _ payload _ i hi horizonDays now hnow hhorizon
      exact checkTimestamp_ok_iff hi hnow hhorizon

/-- The first hour of year 1 at an offset of one hour is in year 0 in UTC. -/
theorem overflows_in_year_one :
    ¬ Canonicalizes asciiRuntime {.str (py "0001-01-01T00:30:00+01:00")} := by
  intro h
  have hout : canonicalTs asciiRuntime (.str (py "0001-01-01T00:30:00+01:00")) =
      .error .overflowError := by
    decide +kernel
  rcases h.total _ (Set.mem_singleton _) with ⟨text, htext, -⟩ | ⟨message, hmessage⟩
  · rw [hout] at htext
    cases htext
  · rw [hout] at hmessage
    cases hmessage

end TrueFigure.Server
