import Mathlib.Data.List.Chain
import TrueFigure.Server.AttemptRuns

/-!
# The retry schedule

The offsets are listed from the first attempt, but the code adds each to the attempt before
and starts at the second: the first retry is due five minutes after the first attempt,
and a delivery is dropped at its sixth attempt.
-/
namespace TrueFigure.Server

open TrueFigure.Library TrueFigure.Python

/-- The attempts of one delivery. -/
def logOf (id : ℕ) (log : List (Attempt × ℕ)) : List (Attempt × ℕ) :=
  log.filter fun x => x.1.delivery.id = id

/-- A first attempt, and a retry due at every offset of the schedule from it. -/
def OnSchedule (log : List (Attempt × ℕ)) : Prop :=
  ∃ first retries, log = first :: retries ∧
    retries.map (fun x => x.1.delivery.nextRetryAt) =
      retrySchedule.map fun offset => some (first.1.now + offset * 1000000)

/-- The next attempt of a delivery finds the row the one before has left, or the row that
one found where its answer was lost. -/
def Follows (x y : Attempt × ℕ) : Prop :=
  y.1.delivery = x.1.delivery ∨ y.1.delivery = x.1.delivery.answered x.1.now x.2

/-- The attempts of one delivery so far, and its row. -/
structure RetryLog (id : ℕ) (t : HookTables) (log : List (Attempt × ℕ)) : Prop where
  below : ∀ x ∈ log, x.1.delivery.id < t.nextDelivery
  due : ∀ x ∈ log, x.1.delivery.due x.1.now = true
  chain : (logOf id log).IsChain Follows
  first : ∀ x ∈ (logOf id log).head?, x.1.delivery.attemptCount = 0
  row : ∀ d ∈ t.deliveries, d.id = id →
    (logOf id log = [] → d.attemptCount = 0) ∧
      ∀ x ∈ (logOf id log).getLast?, d = x.1.delivery ∨ d = x.1.delivery.answered x.1.now x.2

section Invariant

variable {env : HookEnv} {id : ℕ} {t t' : HookTables} {l : AttemptLabel} {log : List (Attempt × ℕ)}

theorem retryLog_empty (id : ℕ) : RetryLog id .empty [] where
  below _ hx := absurd hx List.not_mem_nil
  due _ hx := absurd hx List.not_mem_nil
  chain := .nil
  first _ hx := by cases hx
  row _ hd := absurd hd List.not_mem_nil

/-- Nothing has been attempted under an id that is not given out. -/
theorem RetryLog.logOf_nil (h : RetryLog id t log) (hid : t.nextDelivery ≤ id) :
    logOf id log = [] := by
  rw [logOf, List.filter_eq_nil_iff]
  intro x hx
  have := h.below x hx
  simp only [decide_eq_true_eq]
  omega

theorem RetryLog.manage (h : RetryLog id t log) (hs : QueueStep env t .manage t') :
    RetryLog id t' log := by
  obtain ⟨hnext, new, hdeliveries, hnew⟩ := hs.manage_rows
  refine ⟨fun x hx => (h.below x hx).trans_le hnext, h.due, h.chain, h.first, ?_⟩
  rw [hdeliveries]
  intro d hd hid
  rcases List.mem_append.1 hd with hd | hd
  · exact h.row d hd hid
  · have hnil := h.logOf_nil (hid ▸ (hnew d hd).1)
    refine ⟨fun _ => (hnew d hd).2, fun x hx => ?_⟩
    rw [hnil] at hx
    cases hx

theorem RetryLog.attempt (h : RetryLog id t log) {a : Attempt} {status : ℕ} (hok : QueueOk env t)
    (hs : AttemptStep env t (.attempt a status) t') : RetryLog id t' (log ++ [(a, status)]) := by
  obtain ⟨hmem, hdue, hnext, hrows⟩ := hs.rows hok
  have hbelow : ∀ x ∈ log ++ [(a, status)], x.1.delivery.id < t'.nextDelivery := by
    rw [hnext]
    intro x hx
    rcases List.mem_append.1 hx with hx | hx
    · exact h.below x hx
    · rw [List.mem_singleton.1 hx]
      exact hok.below _ hmem
  have hdue' : ∀ x ∈ log ++ [(a, status)], x.1.delivery.due x.1.now = true := by
    intro x hx
    rcases List.mem_append.1 hx with hx | hx
    · exact h.due x hx
    · rw [List.mem_singleton.1 hx]
      exact hdue
  -- The rows of other deliveries are the ones before.
  have hother : ∀ d ∈ t'.deliveries, d.id ≠ a.delivery.id → d ∈ t.deliveries := by
    rcases hrows with hrows | ⟨rfl, -⟩
    · rw [hrows]
      intro d' hd' hid
      obtain ⟨d, hd, rfl⟩ := List.mem_map.1 hd'
      split_ifs at hid ⊢ with heq
      · rw [answered_id] at hid
        exact absurd heq hid
      · exact hd
    · exact fun d hd _ => hd
  have hmine : ∀ d ∈ t'.deliveries, d.id = a.delivery.id →
      d = a.delivery ∨ d = a.delivery.answered a.now status := by
    rcases hrows with hrows | ⟨rfl, -⟩
    · rw [hrows]
      intro d' hd' hid
      obtain ⟨d, hd, rfl⟩ := List.mem_map.1 hd'
      split_ifs at hid ⊢ with heq
      · obtain rfl : d = a.delivery := List.inj_on_of_nodup_map hok.ids hd hmem heq
        exact .inr rfl
      · exact absurd hid heq
    · exact fun d hd hid => .inl (List.inj_on_of_nodup_map hok.ids hd hmem hid)
  by_cases hid : a.delivery.id = id
  · have hlog : logOf id (log ++ [(a, status)]) = logOf id log ++ [(a, status)] := by
      rw [logOf, List.filter_append, ← logOf, List.filter_cons_of_pos (by simpa using hid),
        List.filter_nil]
    obtain ⟨hfirst, hlast⟩ := h.row _ hmem hid
    refine ⟨hbelow, hdue', ?_, ?_, ?_⟩
    · rw [hlog, List.isChain_append]
      refine ⟨h.chain, .singleton _, fun x hx y hy => ?_⟩
      cases hy
      exact hlast x hx
    · rw [hlog]
      intro x hx
      cases hempty : logOf id log with
      | nil =>
        rw [hempty] at hx
        cases hx
        exact hfirst hempty
      | cons y ys =>
        rw [hempty] at hx
        cases hx
        exact h.first x (by rw [hempty]; rfl)
    · rw [hlog]
      intro d hd hdid
      refine ⟨fun hnil => absurd hnil (by simp), fun x hx => ?_⟩
      rw [List.getLast?_append_of_ne_nil _ (by simp)] at hx
      cases hx
      exact hmine d hd (hdid.trans hid.symm)
  · have hlog : logOf id (log ++ [(a, status)]) = logOf id log := by
      rw [logOf, List.filter_append, ← logOf, List.filter_cons_of_neg (by simpa using hid),
        List.filter_nil, List.append_nil]
    refine ⟨hbelow, hdue', ?_, ?_, ?_⟩
    · rw [hlog]
      exact h.chain
    · rw [hlog]
      exact h.first
    · rw [hlog]
      intro d hd hdid
      exact h.row d (hother d hd fun heq => hid (heq.symm.trans hdid)) hdid

theorem RetryLog.step (h : RetryLog id t log) (hok : QueueOk env t) (hs : AttemptStep env t l t') :
    RetryLog id t' (log ++ l.sent) := by
  cases l with
  | manage =>
    cases hs with
    | manage hs =>
      rw [AttemptLabel.sent, List.append_nil]
      exact h.manage hs
  | attempt a status => exact h.attempt hok hs

theorem retryLog_reachable {trace : List (HookTables × QueueLabel)}
    (hrun : Run (QueueStep env) .empty trace t) (id : ℕ) : RetryLog id t (sentLog trace) := by
  obtain ⟨trace', hrun', hlog⟩ := attempts_of_run hrun
  obtain ⟨-, hretry⟩ := invariant_of_attempts hrun' queueOk_empty (retryLog_empty id)
    fun _ _ _ _ hok hI hs => RetryLog.step hI hok hs
  rwa [hlog, List.nil_append] at hretry

/-- No second attempt is due a minute after the first. -/
theorem Follows.not_oneMinute {x y : Attempt × ℕ} (h : Follows x y)
    (hfirst : x.1.delivery.attemptCount = 0) (hdue : x.1.delivery.due x.1.now = true) :
    y.1.delivery.nextRetryAt ≠ some (x.1.now + 60 * 1000000) := by
  rcases h with hsame | hanswered
  · simp only [DeliveryRow.due, decide_eq_true_eq] at hdue
    obtain ⟨-, at', hat, hle⟩ := hdue
    rw [hsame, Option.mem_def.1 hat]
    intro heq
    have := Option.some.inj heq
    omega
  · rw [hanswered]
    unfold DeliveryRow.answered
    rw [hfirst]
    split_ifs with hok hlast
    · simp
    · simp
    · intro heq
      have heq := Option.some.inj heq
      have hentry : retrySchedule.getD (0 + 1) 0 = 300 := rfl
      rw [hentry] at heq
      omega

theorem RetryLog.not_onSchedule (h : RetryLog id t log) : ¬ OnSchedule (logOf id log) := by
  rintro ⟨first, retries, hlog, hdues⟩
  cases retries with
  | nil => cases hdues
  | cons second retries =>
    have hmem : first ∈ log :=
      List.mem_of_mem_filter (show first ∈ logOf id log by simp [hlog])
    have hchain := h.chain
    rw [hlog, List.isChain_cons_cons] at hchain
    have hfirst := h.first first (by rw [hlog]; rfl)
    exact hchain.1.not_oneMinute hfirst (h.due first hmem) (List.cons.inj hdues).1

/-- In no run of calls is any delivery retried on the schedule. -/
theorem never_onSchedule {trace : List (HookTables × QueueLabel)}
    (hrun : Run (QueueStep env) .empty trace t) (id : ℕ) :
    ¬ OnSchedule (logOf id (sentLog trace)) :=
  (retryLog_reachable hrun id).not_onSchedule

end Invariant

/-! ### Six failures at the times they are due -/

section Sample

variable (env : HookEnv)

/-- The delivery after some failures. -/
def failedDelivery (count : ℕ) (lastStatus : Option ℕ) (due : ℕ) : DeliveryRow :=
  { figureDelivery env with
    attemptCount := count
    lastHttpStatus := lastStatus
    nextRetryAt := some due }

/-- The delivery after its last failure. -/
def droppedDelivery : DeliveryRow :=
  { figureDelivery env with
    deliveryStatus := .dropped
    attemptCount := 6
    lastHttpStatus := some 500
    nextRetryAt := none }

/-- The attempt of a delivery of the one webhook. -/
def attemptAt (d : DeliveryRow) (now : ℕ) : Attempt :=
  ⟨d, "https://hook.example/x", env.encrypt "whsecret", now⟩

variable {env}

theorem nextDue_failed (count : ℕ) (lastStatus : Option ℕ) (due : ℕ) :
    (oneHook env .verified [failedDelivery env count lastStatus due]).nextDue asGiven due =
      some (attemptAt env (failedDelivery env count lastStatus due) due) := by
  have hcandidates : (oneHook env .verified [failedDelivery env count lastStatus due]).candidates []
      due = [attemptAt env (failedDelivery env count lastStatus due) due] := by
    simp [HookTables.candidates, oneHook, DeliveryRow.due, failedDelivery, figureDelivery, attemptAt]
  rw [HookTables.nextDue, hcandidates]
  exact List.argmin_singleton

/-- A call at the time the delivery is due, with no answer but 500. -/
theorem work_failing {count : ℕ} {lastStatus : Option ℕ} {due : ℕ} {outcome : AttemptOutcome}
    {t' : HookTables}
    (hsettle : (attemptAt env (failedDelivery env count lastStatus due) due).settle 500
      (oneHook env .verified [failedDelivery env count lastStatus due]) = .ok (outcome, t')) :
    QueueStep env (oneHook env .verified [failedDelivery env count lastStatus due])
      (.worked [(attemptAt env (failedDelivery env count lastStatus due) due, 500)]) t' := by
  obtain ⟨call, hcall⟩ :
      ∃ call, (attemptAt env (failedDelivery env count lastStatus due) due).call env = some call := by
    simp only [Attempt.call, attemptAt, SecretBox.decrypt_encrypt, Option.bind_eq_bind,
      Option.bind_some]
    exact ⟨_, rfl⟩
  have hwork := @QueueStep.work env
    (oneHook env .verified [failedDelivery env count lastStatus due]) asGiven (always 500) due 1
  have hlimit : (1 : ℤ).toNat = 0 + 1 := by decide
  rw [deliverOnce, hlimit, deliverLoop] at hwork
  simp only [nextDue_failed, hcall, always, hsettle, deliverLoop, List.nil_append] at hwork
  exact hwork

theorem settle_retried {count : ℕ} {lastStatus : Option ℕ} {due : ℕ} (hcount : count < 5)
    (hdue : due + retrySchedule.getD (count + 1) 0 * 1000000 ≤ datetimeMax) :
    (attemptAt env (failedDelivery env count lastStatus due) due).settle 500
      (oneHook env .verified [failedDelivery env count lastStatus due]) = .ok (.retried,
        oneHook env .verified [failedDelivery env (count + 1) (some 500)
          (due + retrySchedule.getD (count + 1) 0 * 1000000)]) := by
  have hmax : ¬ maxAttempts ≤
      (attemptAt env (failedDelivery env count lastStatus due) due).delivery.attemptCount + 1 := by
    change ¬ 6 ≤ count + 1
    omega
  have hsmall : ¬ smallintMax < 500 := by decide
  have hfails : successful 500 = false := by decide
  have hrecord : (attemptAt env (failedDelivery env count lastStatus due) due).record 500
      (oneHook env .verified [failedDelivery env count lastStatus due]) = (.retried,
        oneHook env .verified [failedDelivery env (count + 1) (some 500)
          (due + retrySchedule.getD (count + 1) 0 * 1000000)]) := by
    unfold Attempt.record
    simp only [hfails, Bool.false_eq_true, if_false]
    rw [if_neg hmax]
    simp only [HookTables.updateDelivery, oneHook, attemptAt, failedDelivery, statusOrNone,
      List.map_cons, List.map_nil, if_true]
    rfl
  have hinside : ¬ datetimeMax < due + retrySchedule.getD (count + 1) 0 * 1000000 :=
    Nat.not_lt.2 hdue
  unfold Attempt.settle
  rw [hrecord]
  simp only [attemptAt, failedDelivery, hinside, and_false, if_false, hsmall]

theorem settle_dropped {lastStatus : Option ℕ} {due : ℕ} :
    (attemptAt env (failedDelivery env 5 lastStatus due) due).settle 500
      (oneHook env .verified [failedDelivery env 5 lastStatus due]) =
        .ok (.dropped, oneHook env .suspended [droppedDelivery env]) := by
  rfl

/-- The attempts of five failures, each at the time the delivery is due. -/
def fiveFailures (env : HookEnv) : List (Attempt × ℕ) :=
  [(attemptAt env (failedDelivery env 0 none 5) 5, 500),
    (attemptAt env (failedDelivery env 1 (some 500) 300000005) 300000005, 500),
    (attemptAt env (failedDelivery env 2 (some 500) 2100000005) 2100000005, 500),
    (attemptAt env (failedDelivery env 3 (some 500) 9300000005) 9300000005, 500),
    (attemptAt env (failedDelivery env 4 (some 500) 30900000005) 30900000005, 500)]

def afterFive (env : HookEnv) : HookTables :=
  oneHook env .verified [failedDelivery env 5 (some 500) 117300000005]

theorem run_fiveFailures {env : HookEnv}
    (hindex : env.indexable 1 figureHook.url [.figureUpdated] = true) : ∃ trace,
    Run (QueueStep env) .empty trace (afterFive env) ∧ sentLog trace = fiveFailures env := by
  have hfirst := work_failing (@settle_retried env 0 none 5 (by decide) (by decide))
  have hsecond := work_failing (@settle_retried env 1 (some 500) 300000005 (by decide) (by decide))
  have hthird := work_failing (@settle_retried env 2 (some 500) 2100000005 (by decide) (by decide))
  have hfourth := work_failing (@settle_retried env 3 (some 500) 9300000005 (by decide) (by decide))
  have hfifth := work_failing (@settle_retried env 4 (some 500) 30900000005 (by decide) (by decide))
  exact ⟨_, (run_oneHook hindex).append (.head hfirst (.head hsecond (.head hthird (.head hfourth
    (.single hfifth))))), rfl⟩

theorem run_sixFailures {env : HookEnv}
    (hindex : env.indexable 1 figureHook.url [.figureUpdated] = true) : ∃ trace,
    Run (QueueStep env) .empty trace (oneHook env .suspended [droppedDelivery env]) := by
  obtain ⟨trace, hrun, -⟩ := run_fiveFailures hindex
  exact ⟨_, hrun.append (.single (work_failing (@settle_dropped env (some 500) 117300000005)))⟩

end Sample

theorem never_onSchedule_sixFailures : ∃ trace t, Run (QueueStep sampleHookEnv) .empty trace t ∧
    ¬ OnSchedule (logOf 0 (sentLog trace)) := by
  obtain ⟨trace, hrun⟩ := @run_sixFailures sampleHookEnv rfl
  exact ⟨trace, _, hrun, never_onSchedule hrun 0⟩

/-- A delivery is dropped after six failed attempts, none of them a minute after the
first. -/
theorem sixFailures_off_schedule : ¬ ∀ trace t, Run (QueueStep sampleHookEnv) .empty trace t →
    ∀ d ∈ t.deliveries, d.deliveryStatus = .dropped → OnSchedule (logOf d.id (sentLog trace)) := by
  intro h
  obtain ⟨trace, hrun⟩ := @run_sixFailures sampleHookEnv rfl
  have hdropped := h trace _ hrun _ (List.mem_singleton_self _) rfl
  exact (retryLog_reachable hrun 0).not_onSchedule hdropped

end TrueFigure.Server
