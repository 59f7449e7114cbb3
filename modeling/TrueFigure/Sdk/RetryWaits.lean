import Mathlib.Algebra.Order.Field.Rat
import Mathlib.Tactic.Linarith
import Mathlib.Tactic.NormNum
import TrueFigure.Python.IntText
import TrueFigure.Sdk.Flush
import TrueFigure.Sdk.Requests
import TrueFigure.Sdk.Transport

/-!
# The waits of the client

`_request` of `sdk/truefigure/client.py` over any sequence of responses, with the headers
and the waits: what is sent, how long the client sleeps in between, and how the loop ends.
The number of seconds in a header is read by `int` and slept by `time.sleep`; what these
raise is no error of the client's own.
-/
namespace TrueFigure.Sdk

open TrueFigure.Python

/-- An error of an envelope, with the wait it asks for. -/
structure WaitingError extends ErrorObject where
  retryAfter : Option ℤ

/-- What the transport returns: status, headers and envelope. -/
structure Reply (α : Type) where
  status : ℕ
  headers : Headers
  data : Option α
  errors : List WaitingError

/-- What escapes of `int` and `time.sleep`. -/
inductive Escaped
  | valueError
  | overflowError
  deriving DecidableEq

/-- How `_request` ends. -/
inductive Ending (α : Type)
  | returned (r : Reply α)
  | raised (e : ClientError)
  | escaped (e : Escaped)

/-- What a call of `_request` does: the responses to what it sends, in order, the waits
between them, and its end. -/
structure Exchange (α : Type) where
  sent : List (Reply α)
  waits : List ℚ
  ending : Ending α

/-- The most seconds `time.sleep` takes: they are nanoseconds in 64 bits. -/
def maxSleep : ℤ := 9223372036

/-- `time.sleep`. -/
def sleep (seconds : ℚ) : Except Escaped ℚ :=
  if seconds < 0 then .error .valueError
  else if maxSleep < seconds then .error .overflowError
  else .ok seconds

namespace Reply

variable {α : Type}

def response (r : Reply α) : Response α where
  status := r.status
  data := r.data
  errors := r.errors.map WaitingError.toErrorObject

/-- `next((e.retry_after for e in errors if e.retry_after), None)`. -/
def retryAfter (r : Reply α) : Option ℤ :=
  (r.errors.filterMap WaitingError.retryAfter).find? fun s => s ≠ 0

/-- `int(rh.get("retry-after", 0))`. -/
def headerSeconds (decimal : CodePoint → Option ℕ) (r : Reply α) : Option ℤ :=
  (r.headers.lookup (py "retry-after")).elim (some 0) (intOfStr decimal)

/-- The wait before a retry, slept. -/
def pause (decimal : CodePoint → Option ℕ) (delay : ℚ) (r : Reply α) : Except Escaped ℚ :=
  match r.retryAfter with
  | some s => sleep s
  | none =>
    match r.headerSeconds decimal with
    | none => .error .valueError
    | some n => sleep (if n = 0 then delay else n)

end Reply

section Loop

variable {α : Type} (decimal : CodePoint → Option ℕ) (reply : ℕ → Reply α)

/-- The loop of `_request` from this attempt on, with so many retries left. -/
def retryLoop : (left attempt : ℕ) → (delay : ℚ) → Exchange α
  | left, attempt, delay =>
    let r := reply attempt
    if r.response.succeeded then ⟨[r], [], .returned r⟩
    else if r.response.retryable then
      match left with
      | 0 => ⟨[r], [], .raised r.response.failure⟩
      | left + 1 =>
        match r.pause decimal delay with
        | .error e => ⟨[r], [], .escaped e⟩
        | .ok wait =>
          let rest := retryLoop left (attempt + 1) (min (delay * 2) 30)
          ⟨r :: rest.sent, wait :: rest.waits, rest.ending⟩
    else ⟨[r], [], .raised r.response.failure⟩

def request (maxRetries : ℕ) : Exchange α := retryLoop decimal reply maxRetries 0 (1 / 2)

end Loop

/-- The wait before a retry where the server asks for none; the retries count from 0. -/
def backoff (k : ℕ) : ℚ := min (1 / 2 * 2 ^ k) 30

/-- A header name in any case is `Retry-After`. -/
def IsRetryAfter (name : PyStr) : Prop :=
  name.map (fun c => if 65 ≤ c.val ∧ c.val ≤ 90 then Fin.ofNat 0x110000 (c.val + 32) else c) =
    py "retry-after"

section Promises

variable {α : Type} (decimal : CodePoint → Option ℕ)
  -- the seconds from a response to an HTTP date; `none` where the text is no date
  (untilDate : ℕ → PyStr → Option ℤ) (reply : ℕ → Reply α)

/-- What a `Retry-After` asks for: a number of seconds, or to wait for a date. -/
def askedSeconds (k : ℕ) (value : PyStr) : Option ℤ :=
  if value ≠ [] ∧ value.all isDigit = true then some (digitsValue value)
  else (intOfStr decimal value).or (untilDate k value)

/-- The response asks for a wait: by the first error that does, else by a header. -/
def Asks (k : ℕ) (s : ℤ) : Prop :=
  (reply k).retryAfter = some s ∨ ((reply k).retryAfter = none ∧
    ∃ h ∈ (reply k).headers, IsRetryAfter h.1 ∧ askedSeconds decimal untilDate k h.2 = some s)

/-- What is promised about a call that may send so many times more, from this attempt on. -/
structure KeepsTo (left first : ℕ) (x : Exchange α) : Prop where
  sends : 1 ≤ x.sent.length ∧ x.sent.length ≤ left + 1
  inOrder : ∀ i r, x.sent[i]? = some r → r = reply (first + i)
  pauses : x.waits.length + 1 = x.sent.length
  /-- A response that is followed by a wait is a failure that can be retried, and the wait is
  the one it asks for or the backoff. -/
  waits : ∀ i w, x.waits[i]? = some w →
    (reply (first + i)).response.succeeded = false ∧
      (reply (first + i)).response.retryable = true ∧
        (∀ s : ℤ, Asks decimal untilDate reply (first + i) s → s ≤ w) ∧
          ((∀ s : ℤ, ¬ Asks decimal untilDate reply (first + i) s) → w = backoff (first + i))
  /-- The last response is returned or raised. -/
  ending : ∀ r, x.sent.getLast? = some r →
    (r.response.succeeded = true → x.ending = .returned r) ∧
      (r.response.succeeded = false → r.status = 429 →
        ∃ errors, x.ending = .raised (.rateLimited errors)) ∧
          (r.response.succeeded = false → r.status ≠ 429 →
            ∃ errors, x.ending = .raised (.trueFigure errors))

/-- The loop comes to wait after this attempt. -/
def Retried (k : ℕ) : Prop :=
  (reply k).response.succeeded = false ∧ (reply k).response.retryable = true

/-- The wait after a response can be slept and misses nothing that is asked for. -/
structure Heeded (k : ℕ) : Prop where
  error : ∀ s, (reply k).retryAfter = some s → 0 ≤ s ∧ s ≤ maxSleep
  header : (reply k).retryAfter = none → ∃ n, (reply k).headerSeconds decimal = some n ∧
    0 ≤ n ∧ n ≤ maxSleep ∧ ∀ h ∈ (reply k).headers, IsRetryAfter h.1 →
      ∀ s, askedSeconds decimal untilDate k h.2 = some s → (s : ℚ) ≤ if n = 0 then backoff k else n

end Promises

/-! ### One wait -/

theorem backoff_zero : backoff 0 = 1 / 2 := by norm_num [backoff]

theorem backoff_succ (k : ℕ) : backoff (k + 1) = min (backoff k * 2) 30 := by
  unfold backoff
  rcases le_total (1 / 2 * 2 ^ k : ℚ) 30 with hle | hge
  · rw [min_eq_left hle]
    congr 1
    ring
  · rw [min_eq_right hge, min_eq_right (by rw [pow_succ]; linarith), min_eq_right (by norm_num)]

theorem backoff_bounds (k : ℕ) : 0 < backoff k ∧ backoff k ≤ 30 :=
  ⟨lt_min (by positivity) (by norm_num), min_le_right _ _⟩

theorem sleep_ok_iff {seconds w : ℚ} :
    sleep seconds = .ok w ↔ w = seconds ∧ 0 ≤ seconds ∧ seconds ≤ maxSleep := by
  unfold sleep
  split_ifs with hneg hmax
  · simp [not_le.2 hneg]
  · simp [not_le.2 hmax]
  · simp [not_lt.1 hneg, not_lt.1 hmax, eq_comm]

section Waits

variable {α : Type} {decimal : CodePoint → Option ℕ} {untilDate : ℕ → PyStr → Option ℤ}
  {reply : ℕ → Reply α} {k left first : ℕ} {w : ℚ}

theorem isRetryAfter_lower : IsRetryAfter (py "retry-after") := by
  unfold IsRetryAfter
  decide

theorem askedSeconds_of_int {value : PyStr} {n : ℤ} (h : intOfStr decimal value = some n) :
    askedSeconds decimal untilDate k value = some n := by
  unfold askedSeconds
  split_ifs with hdigits
  · rw [intOfStr_of_digits decimal hdigits.1 hdigits.2] at h
    split_ifs at h
    exact h
  · rw [h]
    rfl

theorem headerSeconds_cases {n : ℤ} (h : (reply k).headerSeconds decimal = some n) :
    n = 0 ∨ ∃ x ∈ (reply k).headers, IsRetryAfter x.1 ∧
      askedSeconds decimal untilDate k x.2 = some n := by
  unfold Reply.headerSeconds at h
  cases hlookup : (reply k).headers.lookup (py "retry-after") with
  | none =>
    rw [hlookup] at h
    exact .inl (Option.some.inj h).symm
  | some value =>
    rw [hlookup] at h
    obtain ⟨before, after, hheaders, -⟩ := List.lookup_eq_some_iff.1 hlookup
    refine .inr ⟨(py "retry-after", value), ?_, isRetryAfter_lower, askedSeconds_of_int h⟩
    rw [hheaders]
    exact List.mem_append_right _ List.mem_cons_self

def WaitOk (decimal : CodePoint → Option ℕ) (untilDate : ℕ → PyStr → Option ℤ)
    (reply : ℕ → Reply α) (k : ℕ) (w : ℚ) : Prop :=
  (∀ s : ℤ, Asks decimal untilDate reply k s → s ≤ w) ∧
    ((∀ s : ℤ, ¬ Asks decimal untilDate reply k s) → w = backoff k)

theorem pause_of_heeded (h : Heeded decimal untilDate reply k) :
    ∃ w, (reply k).pause decimal (backoff k) = .ok w ∧ WaitOk decimal untilDate reply k w := by
  cases hretry : (reply k).retryAfter with
  | some s =>
    obtain ⟨hpos, hmax⟩ := h.error s hretry
    refine ⟨s, ?_, ?_, fun hnone => absurd (.inl hretry) (hnone s)⟩
    · rw [Reply.pause, hretry]
      exact sleep_ok_iff.2 ⟨rfl, by exact_mod_cast hpos, by exact_mod_cast hmax⟩
    · rintro s' (hs | ⟨hnone, -⟩)
      · rw [hretry] at hs
        cases hs
        exact le_rfl
      · rw [hretry] at hnone
        cases hnone
  | none =>
    obtain ⟨n, hn, hpos, hmax, hasked⟩ := h.header hretry
    obtain ⟨hlow, hhigh⟩ := backoff_bounds k
    refine ⟨if n = 0 then backoff k else n, ?_, ?_, ?_⟩
    · simp only [Reply.pause, hretry, hn]
      apply sleep_ok_iff.2
      split_ifs
      · exact ⟨rfl, hlow.le, hhigh.trans (by norm_num [maxSleep])⟩
      · exact ⟨rfl, by exact_mod_cast hpos, by exact_mod_cast hmax⟩
    · rintro s (hs | ⟨-, x, hx, hname, hs⟩)
      · rw [hretry] at hs
        cases hs
      · exact hasked x hx hname s hs
    · intro hnone
      rcases headerSeconds_cases hn with hzero | ⟨x, hx, hname, hs⟩
      · exact if_pos hzero
      · exact absurd (.inr ⟨hretry, x, hx, hname, hs⟩) (hnone n)

theorem heeded_of_pause (h : (reply k).pause decimal (backoff k) = .ok w)
    (hw : WaitOk decimal untilDate reply k w) : Heeded decimal untilDate reply k := by
  refine ⟨fun s hs => ?_, fun hnone => ?_⟩
  · rw [Reply.pause, hs] at h
    obtain ⟨-, hpos, hmax⟩ := sleep_ok_iff.1 h
    exact ⟨by exact_mod_cast hpos, by exact_mod_cast hmax⟩
  · simp only [Reply.pause, hnone] at h
    cases hn : (reply k).headerSeconds decimal with
    | none =>
      rw [hn] at h
      cases h
    | some n =>
      rw [hn] at h
      obtain ⟨rfl, hpos, hmax⟩ := sleep_ok_iff.1 h
      refine ⟨n, rfl, ?_, ?_, fun x hx hname s hs => hw.1 s (.inr ⟨hnone, x, hx, hname, hs⟩)⟩
      · split_ifs at hpos with hzero
        · exact hzero.ge
        · exact_mod_cast hpos
      · split_ifs at hmax with hzero
        · rw [hzero]
          decide
        · exact_mod_cast hmax

/-! ### One step of the loop -/

/-- The end that is promised after a response. -/
def EndsWith (r : Reply α) (e : Ending α) : Prop :=
  (r.response.succeeded = true → e = .returned r) ∧
    (r.response.succeeded = false → r.status = 429 → ∃ errors, e = .raised (.rateLimited errors)) ∧
      (r.response.succeeded = false → r.status ≠ 429 → ∃ errors, e = .raised (.trueFigure errors))

theorem keepsTo_single {e : Ending α} :
    KeepsTo decimal untilDate reply left first ⟨[reply first], [], e⟩ ↔ EndsWith (reply first) e := by
  constructor
  · intro h
    exact h.ending (reply first) rfl
  · intro h
    refine ⟨⟨le_rfl, Nat.le_add_left 1 left⟩, fun i r hi => ?_, rfl, fun i w hi => ?_, fun r hr => ?_⟩
    · obtain ⟨hlt, hi⟩ := List.getElem?_eq_some_iff.1 hi
      have hzero : i = 0 := by simpa using hlt
      subst hzero
      exact hi.symm
    · simp at hi
    · obtain rfl : reply first = r := Option.some.inj hr
      exact h

theorem keepsTo_cons {rest : Exchange α} (hretried : Retried reply first) :
    KeepsTo decimal untilDate reply (left + 1) first
        ⟨reply first :: rest.sent, w :: rest.waits, rest.ending⟩ ↔
      WaitOk decimal untilDate reply first w ∧
        KeepsTo decimal untilDate reply left (first + 1) rest := by
  constructor
  · intro h
    have hpauses : rest.waits.length + 1 = rest.sent.length := Nat.succ.inj h.pauses
    have hne : rest.sent ≠ [] := List.ne_nil_of_length_pos (by omega)
    obtain ⟨-, -, hwait⟩ := h.waits 0 w rfl
    have hsends : rest.sent.length + 1 ≤ left + 1 + 1 := h.sends.2
    refine ⟨hwait, ⟨by omega, by omega⟩, fun i r hi => ?_, hpauses, fun i w' hi => ?_, fun r hr => ?_⟩
    · rw [Nat.add_right_comm]
      exact h.inOrder (i + 1) r hi
    · rw [Nat.add_right_comm]
      exact h.waits (i + 1) w' hi
    · exact h.ending r (by rw [List.getLast?_cons_of_ne_nil hne, hr])
  · rintro ⟨hwait, h⟩
    have hne : rest.sent ≠ [] := List.ne_nil_of_length_pos h.sends.1
    refine ⟨⟨Nat.le_add_left 1 _, Nat.succ_le_succ h.sends.2⟩, fun i r hi => ?_,
      congrArg Nat.succ h.pauses, fun i w' hi => ?_, fun r hr => ?_⟩
    · cases i with
      | zero => exact (Option.some.inj hi).symm
      | succ i =>
        rw [← Nat.add_assoc, Nat.add_right_comm]
        exact h.inOrder i r hi
    · cases i with
      | zero =>
        obtain rfl : w = w' := Option.some.inj hi
        exact ⟨hretried.1, hretried.2, hwait⟩
      | succ i =>
        rw [← Nat.add_assoc, Nat.add_right_comm]
        exact h.waits i w' hi
    · exact h.ending r (by rw [← hr, List.getLast?_cons_of_ne_nil hne])

theorem endsWith_returned {r : Reply α} (h : r.response.succeeded = true) :
    EndsWith r (.returned r) := by
  refine ⟨fun _ => rfl, fun hno => ?_, fun hno => ?_⟩
  · rw [h] at hno
    cases hno
  · rw [h] at hno
    cases hno

theorem endsWith_failure {r : Reply α} (h : r.response.succeeded = false) :
    EndsWith r (.raised r.response.failure) := by
  have hstatus : r.response.status = r.status := rfl
  refine ⟨fun hok => ?_, fun _ h429 => ?_, fun _ h429 => ?_⟩
  · rw [h] at hok
    cases hok
  · exact ⟨_, by rw [Response.failure, hstatus, if_pos h429]⟩
  · exact ⟨_, by rw [Response.failure, hstatus, if_neg h429]⟩

theorem retryLoop_succeeded {delay : ℚ} (h : (reply first).response.succeeded = true) :
    retryLoop decimal reply left first delay = ⟨[reply first], [], .returned (reply first)⟩ := by
  unfold retryLoop
  exact if_pos h

theorem retryLoop_failed {delay : ℚ} (h : (reply first).response.succeeded = false)
    (hlast : (reply first).response.retryable = false ∨ left = 0) :
    retryLoop decimal reply left first delay =
      ⟨[reply first], [], .raised (reply first).response.failure⟩ := by
  unfold retryLoop
  rcases hlast with hno | rfl
  · simp only [h, hno, Bool.false_eq_true, if_false]
  · simp only [h, Bool.false_eq_true, if_false, ite_self]

theorem retryLoop_retried {delay : ℚ} (h : Retried reply first)
    (hpause : (reply first).pause decimal delay = .ok w) :
    retryLoop decimal reply (left + 1) first delay =
      ⟨reply first :: (retryLoop decimal reply left (first + 1) (min (delay * 2) 30)).sent,
        w :: (retryLoop decimal reply left (first + 1) (min (delay * 2) 30)).waits,
        (retryLoop decimal reply left (first + 1) (min (delay * 2) 30)).ending⟩ := by
  rw [retryLoop]
  simp only [h.1, h.2, hpause, Bool.false_eq_true, if_false, if_true]

theorem retryLoop_escaped {delay : ℚ} {e : Escaped} (h : Retried reply first)
    (hpause : (reply first).pause decimal delay = .error e) :
    retryLoop decimal reply (left + 1) first delay = ⟨[reply first], [], .escaped e⟩ := by
  rw [retryLoop]
  simp only [h.1, h.2, hpause, Bool.false_eq_true, if_false, if_true]

theorem heeded_succ_iff (hretried : Retried reply first) :
    (∀ i < left + 1, (∀ j ≤ i, Retried reply (first + j)) →
        Heeded decimal untilDate reply (first + i)) ↔
      Heeded decimal untilDate reply first ∧ ∀ i < left, (∀ j ≤ i, Retried reply (first + 1 + j)) →
        Heeded decimal untilDate reply (first + 1 + i) := by
  constructor
  · intro h
    refine ⟨h 0 (Nat.succ_pos left) fun j hj => ?_, fun i hi hrest => ?_⟩
    · rw [Nat.le_zero.1 hj]
      exact hretried
    · rw [Nat.add_assoc, Nat.add_comm 1]
      refine h (i + 1) (Nat.succ_lt_succ hi) fun j hj => ?_
      cases j with
      | zero => exact hretried
      | succ j =>
        rw [Nat.add_comm j, ← Nat.add_assoc]
        exact hrest j (Nat.le_of_succ_le_succ hj)
  · rintro ⟨hfirst, hrest⟩ i hi hall
    cases i with
    | zero => exact hfirst
    | succ i =>
      rw [Nat.add_comm i, ← Nat.add_assoc]
      refine hrest i (Nat.lt_of_succ_lt_succ hi) fun j hj => ?_
      rw [Nat.add_assoc, Nat.add_comm 1]
      exact hall (j + 1) (Nat.succ_le_succ hj)

/-- The loop keeps to what is promised exactly when every wait it comes to is heeded. -/
theorem keepsTo_retryLoop_iff : KeepsTo decimal untilDate reply left first
      (retryLoop decimal reply left first (backoff first)) ↔
    ∀ i < left, (∀ j ≤ i, Retried reply (first + j)) → Heeded decimal untilDate reply (first + i) := by
  induction left generalizing first with
  | zero =>
    refine iff_of_true ?_ (fun i hi => absurd hi (Nat.not_lt_zero i))
    cases hok : (reply first).response.succeeded with
    | true =>
      rw [retryLoop_succeeded hok, keepsTo_single]
      exact endsWith_returned hok
    | false =>
      rw [retryLoop_failed hok (.inr rfl), keepsTo_single]
      exact endsWith_failure hok
  | succ left ih =>
    cases hok : (reply first).response.succeeded with
    | true =>
      refine iff_of_true ?_ fun i _ hretried => ?_
      · rw [retryLoop_succeeded hok, keepsTo_single]
        exact endsWith_returned hok
      · exact absurd (hretried 0 (Nat.zero_le i)).1 (by simp [hok])
    | false =>
      cases hretry : (reply first).response.retryable with
      | false =>
        refine iff_of_true ?_ fun i _ hretried => ?_
        · rw [retryLoop_failed hok (.inl hretry), keepsTo_single]
          exact endsWith_failure hok
        · exact absurd (hretried 0 (Nat.zero_le i)).2 (by simp [hretry])
      | true =>
        have hretried : Retried reply first := ⟨hok, hretry⟩
        rw [heeded_succ_iff hretried]
        cases hpause : (reply first).pause decimal (backoff first) with
        | error e =>
          rw [retryLoop_escaped hretried hpause, keepsTo_single]
          refine iff_of_false (fun h => ?_) fun h => ?_
          · by_cases h429 : (reply first).status = 429
            · obtain ⟨errors, herrors⟩ := h.2.1 hok h429
              cases herrors
            · obtain ⟨errors, herrors⟩ := h.2.2 hok h429
              cases herrors
          · obtain ⟨w, hw, -⟩ := pause_of_heeded h.1
            rw [hpause] at hw
            cases hw
        | ok w =>
          rw [retryLoop_retried hretried hpause, keepsTo_cons hretried, ← backoff_succ, ih]
          apply and_congr_left'
          constructor
          · exact heeded_of_pause hpause
          · intro h
            obtain ⟨w', hw', hwait⟩ := pause_of_heeded h
            rw [hpause] at hw'
            cases hw'
            exact hwait

/-! ### The call -/

/-- `_request` keeps to what is promised exactly when every response it comes to wait after
asks in a way that `int` and `time.sleep` take. -/
theorem request_keepsTo_iff (decimal : CodePoint → Option ℕ) (untilDate : ℕ → PyStr → Option ℤ)
    (reply : ℕ → Reply α) (maxRetries : ℕ) :
    KeepsTo decimal untilDate reply maxRetries 0 (request decimal reply maxRetries) ↔
      ∀ k < maxRetries, (∀ j ≤ k, Retried reply j) → Heeded decimal untilDate reply k := by
  have hloop := @keepsTo_retryLoop_iff α decimal untilDate reply maxRetries 0
  simp only [backoff_zero, Nat.zero_add] at hloop
  exact hloop

/-- A date is no number: the client is told when to come back and ends in a `ValueError`. -/
theorem date_escapes : ¬ KeepsTo (fun _ => none) (fun _ _ => some 30)
    (fun _ => (⟨429, [(py "retry-after", py "Wed, 21 Oct 2015 07:28:00 GMT")], none, []⟩ : Reply ℕ))
    1 0 (request (fun _ => none) (fun _ =>
      ⟨429, [(py "retry-after", py "Wed, 21 Oct 2015 07:28:00 GMT")], none, []⟩) 1) := by
  intro h
  obtain ⟨errors, hending⟩ := (h.ending _ rfl).2.1 rfl rfl
  cases hending

/-- One header in lower case with a number of seconds that can be slept is heeded. -/
theorem heeded_of_seconds {value : PyStr} (hnone : (reply k).retryAfter = none)
    (hheader : (py "retry-after", value) ∈ (reply k).headers)
    (honly : ∀ h ∈ (reply k).headers, IsRetryAfter h.1 → h = (py "retry-after", value))
    (hne : value ≠ []) (hdigits : value.all isDigit = true) (hlen : value.length ≤ 4300)
    (hmax : (digitsValue value : ℤ) ≤ maxSleep) : Heeded decimal untilDate reply k := by
  have hint : intOfStr decimal value = some (digitsValue value : ℤ) := by
    rw [intOfStr_of_digits decimal hne hdigits, if_pos hlen]
  have hlookup : (reply k).headers.lookup (py "retry-after") = some value := by
    cases hfound : (reply k).headers.lookup (py "retry-after") with
    | none => exact absurd (List.lookup_eq_none_iff.1 hfound _ hheader) (by simp)
    | some value' =>
      obtain ⟨before, after, hheaders, -⟩ := List.lookup_eq_some_iff.1 hfound
      have hsame := honly (py "retry-after", value')
        (by rw [hheaders]; exact List.mem_append_right _ List.mem_cons_self) isRetryAfter_lower
      rw [(Prod.mk.inj hsame).2]
  refine ⟨fun s hs => ?_, fun _ => ⟨digitsValue value, ?_, ?_, hmax, ?_⟩⟩
  · rw [hnone] at hs
    cases hs
  · rw [Reply.headerSeconds, hlookup]
    exact hint
  · exact Int.natCast_nonneg _
  · intro h hmem hname s hs
    rw [honly h hmem hname, askedSeconds_of_int hint] at hs
    cases hs
    split_ifs with hzero
    · rw [hzero]
      exact_mod_cast (backoff_bounds k).1.le
    · exact le_rfl

/-! ### Its callers -/

/-- What a call is for the loop without waits. -/
def Ending.result? : Ending α → Option (Except ClientError (Response α))
  | .returned r => some (.ok r.response)
  | .raised e => some (.error e)
  | .escaped _ => none

/-- A call that nothing escapes from is one of the loop without waits. -/
theorem requestLoop_of_retryLoop {σ : Type} {serve : ℕ → σ → Server.Answer α × σ}
    {network : ℕ → Delivery} {delay : ℚ} {s : σ} {result : Except ClientError (Response α)}
    (hdeliver : ∀ k s, (network k).deliver (serve k s).1 = some (reply k).response)
    (h : (retryLoop decimal reply left first delay).ending.result? = some result) :
    (requestLoop serve network left first s).1 = result := by
  induction left generalizing first delay s with
  | zero =>
    rw [requestLoop]
    simp only [hdeliver]
    cases hok : (reply first).response.succeeded with
    | true =>
      rw [retryLoop_succeeded hok] at h
      exact Option.some.inj h
    | false =>
      rw [retryLoop_failed hok (.inr rfl)] at h
      simp only [Bool.false_eq_true, if_false]
      split_ifs <;> exact Option.some.inj h
  | succ left ih =>
    rw [requestLoop]
    simp only [hdeliver]
    cases hok : (reply first).response.succeeded with
    | true =>
      rw [retryLoop_succeeded hok] at h
      exact Option.some.inj h
    | false =>
      cases hretry : (reply first).response.retryable with
      | false =>
        rw [retryLoop_failed hok (.inl hretry)] at h
        exact Option.some.inj h
      | true =>
        cases hpause : (reply first).pause decimal delay with
        | error e =>
          rw [retryLoop_escaped ⟨hok, hretry⟩ hpause] at h
          cases h
        | ok w =>
          rw [retryLoop_retried ⟨hok, hretry⟩ hpause] at h
          exact ih h

/-- How a call looks to `flush`, which recovers from a `TrueFigureError` alone. -/
def Ending.answer (complete : Reply α → Bool) : Ending α → Answer
  | .returned r => if complete r then .acknowledged else .malformed
  | .raised (.rateLimited _) | .raised (.trueFigure _) => .refused
  | .raised .unreachable | .raised .noData | .escaped _ => .failed

/-- `flush` does not lose its batch to a call that keeps to what is promised. -/
theorem answer_ne_failed {x : Exchange α} (complete : Reply α → Bool)
    (h : KeepsTo decimal untilDate reply left first x) : x.ending.answer complete ≠ .failed := by
  obtain ⟨r, hr⟩ : ∃ r, x.sent.getLast? = some r :=
    ⟨_, List.getLast?_eq_some_getLast (List.ne_nil_of_length_pos h.sends.1)⟩
  obtain ⟨hreturned, hlimited, hraised⟩ := h.ending r hr
  cases hok : r.response.succeeded with
  | true =>
    rw [hreturned hok, Ending.answer]
    split_ifs <;> simp
  | false =>
    by_cases h429 : r.status = 429
    · obtain ⟨errors, herrors⟩ := hlimited hok h429
      rw [herrors]
      simp [Ending.answer]
    · obtain ⟨errors, herrors⟩ := hraised hok h429
      rw [herrors]
      simp [Ending.answer]

end Waits

end TrueFigure.Sdk
