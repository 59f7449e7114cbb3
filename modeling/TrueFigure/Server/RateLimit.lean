import TrueFigure.Server.Quota

/-!
# The rate limit

`check_rate` alone, over any sequence of calls, on any clock. A window is named by a minute
of the clock's float seconds, cut to whole ones. The cut is towards the epoch on both sides:
the last second before it belongs to the minute after it.
-/
namespace TrueFigure.Server

open TrueFigure.Python

def floatsPerSecond (seconds : ℕ) : ℕ := 2 ^ (52 - seconds.log2)

/-- The whole seconds of the float nearest to these microseconds. -/
def wholeSeconds (micros : ℕ) : ℕ :=
  let unit := floatsPerSecond (micros / 1000000)
  -- a tie between two floats never decides about a whole second: that one is the even one
  (2 * micros * unit + 1000000) / 2000000 / unit

/-- `int(now.timestamp())`, of a clock in microseconds since the epoch. -/
def unixSeconds (now : ℤ) : ℤ := now.sign * wholeSeconds now.natAbs

def unixMinute (now : ℤ) : ℤ := unixSeconds now / 60

abbrev WindowHits := List ((ℕ × ℤ) × ℕ)

/-- A call of `check_rate`. -/
structure RateCall where
  workspaceId : ℕ
  rpm : ℕ
  now : ℤ
  deriving DecidableEq

/-- What `check_rate` raises. -/
structure RateRefusal where
  error : TFError
  retryAfter : ℤ

namespace RateCall

def key (c : RateCall) : ℕ × ℤ := (c.workspaceId, unixMinute c.now)

/-- `check_rate`: the call is counted before it is judged. -/
def check (c : RateCall) (hits : WindowHits) : Except RateRefusal Unit × WindowHits :=
  let count := (hits.lookup c.key).getD 0 + 1
  if c.rpm < count then
    (.error ⟨⟨.rate001, none, some (py "per-tenant rate limit " ++ py (toString c.rpm) ++
      py "/min exceeded")⟩, 60 - unixSeconds c.now % 60⟩, (c.key, count) :: hits)
  else (.ok (), (c.key, count) :: hits)

end RateCall

/-- The counters after these calls of a fresh process. -/
def hitsAfter (calls : List RateCall) : WindowHits := calls.foldl (fun hits c => (c.check hits).2) []

/-- The answer to a call behind these. -/
def answerAfter (before : List RateCall) (c : RateCall) : Except RateRefusal Unit :=
  (c.check (hitsAfter before)).1

/-- Every call with its answer, behind some calls. -/
def answersAfter (before : List RateCall) : List RateCall → List (RateCall × Except RateRefusal Unit)
  | [] => []
  | c :: calls => (c, answerAfter before c) :: answersAfter (before ++ [c]) calls

/-- The calls in a window. -/
def hitsIn (key : ℕ × ℤ) (calls : List RateCall) : ℕ := calls.countP fun c => c.key = key

/-- What the limiter promises about a sequence of calls. -/
structure RateLimits (calls : List RateCall) : Prop where
  /-- Of the calls in one window that have one limit, the first that many are admitted. -/
  first : ∀ key rpm, (∀ c ∈ calls, c.key = key → c.rpm = rpm) →
    ((answersAfter [] calls).filter fun a => a.1.key = key).map (fun a => a.2.toBool) =
      List.replicate (min rpm (hitsIn key calls)) true ++
        List.replicate (hitsIn key calls - rpm) false
  refusals : ∀ a ∈ answersAfter [] calls, ∀ e, a.2 = .error e →
    e.error.code = .rate001 ∧ 1 ≤ e.retryAfter ∧ e.retryAfter ≤ 60
  /-- Whoever waits as told is in a later window, and admitted while that has room. -/
  retries : ∀ pre c mid c' post e, calls = pre ++ c :: (mid ++ c' :: post) →
    answerAfter pre c = .error e → c'.workspaceId = c.workspaceId →
      c.now + e.retryAfter * 1000000 ≤ c'.now → unixMinute c.now < unixMinute c'.now ∧
        (hitsIn c'.key (pre ++ c :: mid) < c'.rpm → answerAfter (pre ++ c :: mid) c' = .ok ())

/-- A call is refused in the last second before the epoch, and its workspace calls again
within the minute that the refusal is over, before the first minute is. -/
def Untimely (calls : List RateCall) : Prop :=
  ∃ pre c mid c' post, calls = pre ++ c :: (mid ++ c' :: post) ∧ c'.workspaceId = c.workspaceId ∧
    c.rpm ≤ hitsIn c.key pre ∧ -1000000 < c.now ∧ c.now < 0 ∧
      c.now + 60000000 ≤ c'.now ∧ c'.now < 60000000

/-! ### The clock -/

section Clock

variable {m m' r : ℕ} {now now' : ℤ}

theorem floatsPerSecond_pos (s : ℕ) : 0 < floatsPerSecond s := Nat.two_pow_pos _

theorem floatsPerSecond_anti {s s' : ℕ} (h : s ≤ s') : floatsPerSecond s' ≤ floatsPerSecond s :=
  Nat.pow_le_pow_right (by decide) (Nat.sub_le_sub_left
    (by simpa only [Nat.log2_eq_log_two] using Nat.log_mono_right h) 52)

theorem le_wholeSeconds_iff {n : ℕ} : n ≤ wholeSeconds m ↔
    2 * (n * 1000000) * floatsPerSecond (m / 1000000) ≤
      2 * m * floatsPerSecond (m / 1000000) + 1000000 := by
  rw [wholeSeconds, Nat.le_div_iff_mul_le (floatsPerSecond_pos _),
    Nat.le_div_iff_mul_le (by decide : 0 < 2000000)]
  ring_nf

theorem wholeSeconds_add_le (h : m + r * 1000000 ≤ m') : wholeSeconds m + r ≤ wholeSeconds m' := by
  have hw := le_wholeSeconds_iff.1 (le_refl (wholeSeconds m))
  have hunit := floatsPerSecond_anti (Nat.div_le_div_right (c := 1000000)
    ((Nat.le_add_right m (r * 1000000)).trans h))
  rw [le_wholeSeconds_iff]
  generalize wholeSeconds m = w at *
  generalize floatsPerSecond (m / 1000000) = p at *
  generalize floatsPerSecond (m' / 1000000) = p' at *
  rcases le_or_gt (w * 1000000) m with hle | hgt
  · have hscaled := Nat.mul_le_mul_right p' (show 2 * ((w + r) * 1000000) ≤ 2 * m' by omega)
    exact hscaled.trans (Nat.le_add_right _ _)
  · -- the float was rounded up, and the floats at the later clock are no denser
    obtain ⟨d, hd⟩ := Nat.exists_eq_add_of_le hgt.le
    have hup : 2 * d * p ≤ 1000000 := by
      rw [hd, Nat.mul_add, Nat.add_mul] at hw
      omega
    have hup' := Nat.mul_le_mul_left (2 * d) hunit
    have hscaled := Nat.mul_le_mul_right p' (show 2 * ((w + r) * 1000000) ≤ 2 * m' + 2 * d by omega)
    rw [Nat.add_mul] at hscaled
    have hcarry := hup'.trans hup
    linarith only [hscaled, hcarry]

/-- Within some centuries of the epoch, the float does not change the second. -/
theorem wholeSeconds_eq (h : m < 2 ^ 34 * 1000000) : wholeSeconds m = m / 1000000 := by
  have hlog : (m / 1000000).log2 ≤ 33 := by
    rcases Nat.eq_zero_or_pos (m / 1000000) with hzero | hpos
    · rw [hzero]
      decide
    · exact Nat.le_of_lt_succ ((Nat.log2_lt hpos.ne').2 (Nat.div_lt_of_lt_mul (by omega)))
  have hunit : 2 ^ 19 ≤ floatsPerSecond (m / 1000000) := Nat.pow_le_pow_right (by decide) (by omega)
  apply le_antisymm
  · have hw := le_wholeSeconds_iff.1 (le_refl (wholeSeconds m))
    by_contra hlt
    have hgap : 2 * m + 2 ≤ 2 * (wholeSeconds m * 1000000) := by omega
    have hscaled := Nat.mul_le_mul_right (floatsPerSecond (m / 1000000)) hgap
    rw [Nat.add_mul] at hscaled
    omega
  · rw [le_wholeSeconds_iff]
    have hscaled := Nat.mul_le_mul_right (floatsPerSecond (m / 1000000))
      (show 2 * (m / 1000000 * 1000000) ≤ 2 * m by omega)
    omega

theorem unixSeconds_natCast (m : ℕ) : unixSeconds m = wholeSeconds m := by
  rcases Nat.eq_zero_or_pos m with rfl | hpos
  · rfl
  · rw [unixSeconds, Int.sign_natCast_of_ne_zero hpos.ne', Int.natAbs_natCast, one_mul]

theorem unixSeconds_neg (m : ℕ) : unixSeconds (-m) = -wholeSeconds m := by
  rcases Nat.eq_zero_or_pos m with rfl | hpos
  · rfl
  · rw [unixSeconds, Int.sign_neg, Int.sign_natCast_of_ne_zero hpos.ne', Int.natAbs_neg,
      Int.natAbs_natCast, neg_one_mul]

/-- On one side of the epoch, waiting works as one expects. -/
theorem unixSeconds_add_le (hside : 0 ≤ now ∨ now' ≤ 0) (h : now + r * 1000000 ≤ now') :
    unixSeconds now + r ≤ unixSeconds now' := by
  rcases hside with hnow | hnow'
  · lift now to ℕ using hnow
    lift now' to ℕ using by omega
    rw [unixSeconds_natCast, unixSeconds_natCast]
    exact_mod_cast wholeSeconds_add_le (by exact_mod_cast h)
  · obtain ⟨m, rfl⟩ := Int.exists_eq_neg_ofNat (show now ≤ 0 by omega)
    obtain ⟨m', rfl⟩ := Int.exists_eq_neg_ofNat hnow'
    have hw := wholeSeconds_add_le (show m' + r * 1000000 ≤ m by omega)
    rw [unixSeconds_neg, unixSeconds_neg]
    omega

/-- In the last second before the epoch it does not: that second is counted as the next. -/
theorem unixSeconds_last (hlo : -1000000 < now) (hhi : now < 0) : unixSeconds now = 0 := by
  obtain ⟨m, rfl⟩ := Int.exists_eq_neg_ofNat hhi.le
  rw [unixSeconds_neg, wholeSeconds_eq (by omega), Nat.div_eq_of_lt (by omega)]
  rfl

theorem unixSeconds_nonneg (h : 0 ≤ now) : 0 ≤ unixSeconds now := by
  lift now to ℕ using h
  rw [unixSeconds_natCast]
  exact Int.natCast_nonneg _

theorem unixSeconds_near {s : ℕ} (h : 0 ≤ now) (hlt : now < s * 1000000) (hs : s ≤ 2 ^ 34) :
    unixSeconds now < s := by
  lift now to ℕ using h
  rw [unixSeconds_natCast, wholeSeconds_eq (by omega)]
  omega

/-- Before that second, the clock has not reached second 0. -/
theorem unixSeconds_before (h : now ≤ -1000000) : unixSeconds now < 0 := by
  have hle := @unixSeconds_add_le 1 now 0 (.inr le_rfl) (by omega)
  have hzero : unixSeconds 0 = 0 := rfl
  omega

/-- The wait that a refusal asks for ends with its minute, and it has ended. -/
theorem unixMinute_lt (h : now + (60 - unixSeconds now % 60) * 1000000 ≤ now')
    (htimely : -1000000 < now → now < 0 → 60000000 ≤ now') : unixMinute now < unixMinute now' := by
  have hr : ((60 - unixSeconds now % 60).toNat : ℤ) = 60 - unixSeconds now % 60 :=
    Int.toNat_of_nonneg (by omega)
  have hnow : unixSeconds now + (60 - unixSeconds now % 60) ≤ unixSeconds now' := by
    by_cases hside : 0 ≤ now ∨ now' ≤ 0
    · rw [← hr]
      exact unixSeconds_add_le hside (by rwa [hr])
    · have hpos := unixSeconds_nonneg (show 0 ≤ now' by omega)
      rcases le_or_gt now (-1000000) with hbefore | hlast
      · have hneg := unixSeconds_before hbefore
        omega
      · have hzero := unixSeconds_last hlast (by omega)
        have hminute := @unixSeconds_add_le 60 0 now' (.inl le_rfl)
          (by have := htimely hlast (by omega); omega)
        rw [hzero]
        have hepoch : unixSeconds 0 = 0 := rfl
        omega
  unfold unixMinute
  omega

end Clock

/-! ### The counters -/

section Calls

variable {calls before : List RateCall} {c : RateCall} {key : ℕ × ℤ}

theorem hitsAfter_snoc : hitsAfter (before ++ [c]) = (c.check (hitsAfter before)).2 := by
  rw [hitsAfter, List.foldl_append]
  rfl

theorem hitsIn_snoc :
    hitsIn key (before ++ [c]) = hitsIn key before + if c.key = key then 1 else 0 := by
  simp [hitsIn, List.countP_append, List.countP_cons]

theorem check_hits (hits : WindowHits) :
    (c.check hits).2 = (c.key, (hits.lookup c.key).getD 0 + 1) :: hits := by
  unfold RateCall.check
  dsimp only
  split_ifs <;> rfl

theorem lookup_hitsAfter (calls : List RateCall) (key : ℕ × ℤ) :
    ((hitsAfter calls).lookup key).getD 0 = hitsIn key calls := by
  induction calls using List.reverseRecOn with
  | nil => rfl
  | append_singleton before c ih =>
    rw [hitsAfter_snoc, check_hits, List.lookup_cons, hitsIn_snoc]
    by_cases hkey : c.key = key
    · subst hkey
      rw [beq_self_eq_true, if_pos rfl, ih]
      rfl
    · rw [beq_eq_false_iff_ne.2 (Ne.symm hkey), if_neg hkey, Nat.add_zero]
      exact ih

/-- What `check_rate` answers, by the calls before it in its window. -/
theorem answerAfter_eq : answerAfter before c =
    if hitsIn c.key before < c.rpm then .ok ()
    else .error ⟨⟨.rate001, none, some (py "per-tenant rate limit " ++ py (toString c.rpm) ++
      py "/min exceeded")⟩, 60 - unixSeconds c.now % 60⟩ := by
  unfold answerAfter RateCall.check
  dsimp only
  rw [lookup_hitsAfter]
  split_ifs with hover hroom hroom
  · omega
  · rfl
  · rfl
  · omega

theorem answerAfter_ok_iff : answerAfter before c = .ok () ↔ hitsIn c.key before < c.rpm := by
  rw [answerAfter_eq]
  split_ifs with h <;> simp [h]

theorem answerAfter_error {e : RateRefusal} (h : answerAfter before c = .error e) :
    c.rpm ≤ hitsIn c.key before ∧ e.error.code = .rate001 ∧
      e.retryAfter = 60 - unixSeconds c.now % 60 := by
  rw [answerAfter_eq] at h
  split_ifs at h with hroom
  injection h with h
  subst h
  exact ⟨Nat.le_of_not_lt hroom, rfl, rfl⟩

theorem answersAfter_append (xs ys before : List RateCall) :
    answersAfter before (xs ++ ys) = answersAfter before xs ++ answersAfter (before ++ xs) ys := by
  induction xs generalizing before with
  | nil => rw [List.append_nil, answersAfter, List.nil_append, List.nil_append]
  | cons x xs ih =>
    rw [List.cons_append, answersAfter, ih, answersAfter, List.append_assoc, List.singleton_append,
      List.cons_append]

/-- Every answer is the answer to a call behind the ones before it. -/
theorem exists_of_mem_answersAfter {a : RateCall × Except RateRefusal Unit}
    (h : a ∈ answersAfter before calls) : ∃ pre, a.2 = answerAfter pre a.1 := by
  induction calls generalizing before with
  | nil => cases h
  | cons c calls ih =>
    rcases List.mem_cons.1 h with rfl | h
    · exact ⟨before, rfl⟩
    · exact ih h

theorem decisions_eq {rpm : ℕ} (hrpm : ∀ c ∈ calls, c.key = key → c.rpm = rpm) :
    ((answersAfter [] calls).filter fun a => a.1.key = key).map (fun a => a.2.toBool) =
      List.replicate (min rpm (hitsIn key calls)) true ++
        List.replicate (hitsIn key calls - rpm) false := by
  induction calls using List.reverseRecOn with
  | nil =>
    show [] = List.replicate (min rpm 0) true ++ List.replicate (0 - rpm) false
    rw [Nat.min_zero, Nat.zero_sub]
    rfl
  | append_singleton before c ih =>
    have ih := ih fun x hx => hrpm x (List.mem_append_left _ hx)
    rw [answersAfter_append, List.filter_append, List.map_append, ih, hitsIn_snoc, List.nil_append]
    by_cases hkey : c.key = key
    · have hc : c.rpm = rpm := hrpm c (List.mem_append_right _ List.mem_cons_self) hkey
      rw [if_pos hkey]
      rcases lt_or_ge (hitsIn key before) rpm with hroom | hfull
      · have hok : answerAfter before c = .ok () := answerAfter_ok_iff.2 (by rwa [hkey, hc])
        rw [min_eq_right hroom.le, min_eq_right (Nat.succ_le_of_lt hroom),
          Nat.sub_eq_zero_of_le hroom.le, Nat.sub_eq_zero_of_le (Nat.succ_le_of_lt hroom),
          List.replicate_succ']
        simp [answersAfter, hkey, hok, Except.toBool]
      · have hno : (answerAfter before c).toBool = false := by
          rw [answerAfter_eq, hkey, hc, if_neg (Nat.not_lt.2 hfull)]
          rfl
        rw [min_eq_left hfull, min_eq_left (by omega), Nat.succ_sub hfull, List.replicate_succ',
          ← List.append_assoc]
        simp [answersAfter, hkey, hno]
    · rw [if_neg hkey, Nat.add_zero]
      simp [answersAfter, hkey]

end Calls

/-- The limiter keeps its promises unless a refusal in the last second before the epoch is
followed by a call in the first minute after it. -/
theorem rateLimits_iff (calls : List RateCall) : RateLimits calls ↔ ¬ Untimely calls := by
  constructor
  · rintro hlimits ⟨pre, c, mid, c', post, hcalls, hws, hfull, hlo, hhi, hwait, hminute⟩
    have hzero := unixSeconds_last hlo hhi
    obtain ⟨e, he⟩ : ∃ e, answerAfter pre c = .error e := by
      rw [answerAfter_eq, if_neg (Nat.not_lt.2 hfull)]
      exact ⟨_, rfl⟩
    have hretry : e.retryAfter = 60 := by
      rw [(answerAfter_error he).2.2, hzero]
      rfl
    have hlater := (hlimits.retries pre c mid c' post e hcalls he hws (by rw [hretry]; omega)).1
    have hnear := @unixSeconds_near c'.now 60 (by omega) hminute (by decide)
    have hpos := unixSeconds_nonneg (show 0 ≤ c'.now by omega)
    unfold unixMinute at hlater
    omega
  · intro htimely
    refine ⟨fun key rpm hrpm => decisions_eq hrpm, ?_, ?_⟩
    · intro a ha e he
      obtain ⟨pre, hpre⟩ := exists_of_mem_answersAfter ha
      obtain ⟨-, hcode, hretry⟩ := answerAfter_error (hpre ▸ he)
      exact ⟨hcode, by omega, by omega⟩
    · intro pre c mid c' post e hcalls he hws hwait
      obtain ⟨hfull, -, hretry⟩ := answerAfter_error he
      refine ⟨unixMinute_lt (hretry ▸ hwait) ?_, answerAfter_ok_iff.2⟩
      intro hlo hhi
      by_contra hminute
      have hzero := unixSeconds_last hlo hhi
      rw [hretry, hzero] at hwait
      exact htimely ⟨pre, c, mid, c', post, hcalls, hws, hfull, hlo, hhi, by omega, by omega⟩

/-- Half a second before the epoch the second call is refused for 60 seconds; the third comes
60 seconds later and is refused too, as its minute is the same. -/
theorem retry_refused : ¬ RateLimits [⟨1, 1, -500000⟩, ⟨1, 1, -500000⟩, ⟨1, 1, 59500000⟩] := by
  intro hlimits
  have hlater := (hlimits.retries [⟨1, 1, -500000⟩] ⟨1, 1, -500000⟩ [] ⟨1, 1, 59500000⟩ [] _ rfl
    rfl rfl (by decide)).1
  revert hlater
  decide

/-! ### The gate -/

/-- From the epoch on, for some centuries, the minutes are those of `checkRate`, which are
counted from year 1. -/
theorem minuteOf_eq {now : ℕ} (h : 719162 * 86400000000 ≤ now)
    (hlt : now < 719162 * 86400000000 + 2 ^ 34 * 1000000) :
    (minuteOf now : ℤ) = 719162 * 1440 + unixMinute (now - 719162 * 86400000000) := by
  obtain ⟨m, rfl⟩ := Nat.exists_eq_add_of_le h
  have hcast : ((719162 * 86400000000 + m : ℕ) : ℤ) - 719162 * 86400000000 = (m : ℤ) := by
    push_cast
    ring
  rw [hcast, unixMinute, unixSeconds_natCast, wholeSeconds_eq (by omega), minuteOf]
  omega

end TrueFigure.Server
