import TrueFigure.Server.RetrySchedule

/-!
# Suspended webhooks

A webhook is to be suspended after seven days of total failure. The code suspends it with
the first delivery that is dropped and looks at no other attempt. So a suspension is
right where a delivery is only dropped a week after its first attempt, with no success at
the webhook in that week.
-/
namespace TrueFigure.Server

open TrueFigure.Library TrueFigure.Python

/-- Seven days, in microseconds. -/
def week : ℕ := 7 * 86400 * 1000000

/-- Every attempt made to the webhook during the last week failed, and an attempt failed
before it. -/
def TotalFailure (log : List (Attempt × ℕ)) (hook now : ℕ) : Prop :=
  (∀ x ∈ log, x.1.delivery.webhookId = hook → x.1.now ≤ now → now < x.1.now + week →
      successful x.2 = false) ∧
    ∃ x ∈ log, x.1.delivery.webhookId = hook ∧ successful x.2 = false ∧ x.1.now + week ≤ now

/-- Whenever a delivery to a verified webhook fails for the last time, its own first
attempts lie a week back and nothing has succeeded at the webhook since. -/
def Seasoned (log : List (Attempt × ℕ)) (t : HookTables) : AttemptLabel → Prop
  | .manage => True
  | .attempt a status =>
    successful status = false → maxAttempts ≤ a.delivery.attemptCount + 1 →
      (∃ row ∈ t.webhooks, row.id = a.delivery.webhookId ∧ row.webhookStatus = .verified) →
      (∃ x ∈ log, x.1.delivery.id = a.delivery.id ∧ x.1.now + week ≤ a.now) ∧
        ∀ x ∈ log, x.1.delivery.webhookId = a.delivery.webhookId → x.1.now ≤ a.now →
          a.now < x.1.now + week → successful x.2 = false

def HookTables.HasStatus (t : HookTables) (hook : ℕ) (status : WebhookStatus) : Prop :=
  ∃ row ∈ t.webhooks, row.id = hook ∧ row.webhookStatus = status

/-- The log and the rows it is about: a delivery that succeeded is settled. -/
structure LogOk (t : HookTables) (log : List (Attempt × ℕ)) : Prop where
  below : ∀ x ∈ log, x.1.delivery.id < t.nextDelivery
  rows : ∀ x ∈ log, ∀ d ∈ t.deliveries, d.id = x.1.delivery.id →
    d.webhookId = x.1.delivery.webhookId ∧
      (successful x.2 = true → d.deliveryStatus ≠ .retrying)

section Invariant

variable {env : HookEnv} {t t' : HookTables} {l : AttemptLabel} {log : List (Attempt × ℕ)}

theorem logOk_empty : LogOk .empty [] where
  below _ hx := absurd hx List.not_mem_nil
  rows _ hx := absurd hx List.not_mem_nil

theorem LogOk.manage (h : LogOk t log) (hs : QueueStep env t .manage t') : LogOk t' log := by
  obtain ⟨hnext, new, hdeliveries, hnew⟩ := hs.manage_rows
  refine ⟨fun x hx => (h.below x hx).trans_le hnext, ?_⟩
  rw [hdeliveries]
  intro x hx d hd hid
  rcases List.mem_append.1 hd with hd | hd
  · exact h.rows x hx d hd hid
  · have hlow := h.below x hx
    have hhigh := (hnew d hd).1
    omega

theorem answered_status {d : DeliveryRow} {now status : ℕ} (h : successful status = true) :
    (d.answered now status).deliveryStatus ≠ .retrying := by
  rw [DeliveryRow.answered, if_pos h]
  simp

theorem answered_settled {d : DeliveryRow} {now status : ℕ} (h : d.deliveryStatus ≠ .retrying) :
    (d.answered now status).deliveryStatus ≠ .retrying := by
  unfold DeliveryRow.answered
  split_ifs
  · simp
  · simp
  · exact h

theorem LogOk.attempt (h : LogOk t log) (hok : QueueOk env t) {a : Attempt} {status : ℕ}
    (hs : AttemptStep env t (.attempt a status) t') : LogOk t' (log ++ [(a, status)]) := by
  obtain ⟨hmem, hdue, hnext, hrows⟩ := hs.rows hok
  refine ⟨?_, ?_⟩
  · rw [hnext]
    intro x hx
    rcases List.mem_append.1 hx with hx | hx
    · exact h.below x hx
    · rw [List.mem_singleton.1 hx]
      exact hok.below _ hmem
  · rcases hrows with hrows | ⟨rfl, hfailed⟩
    · rw [hrows]
      intro x hx d' hd' hid
      obtain ⟨d, hd, rfl⟩ := List.mem_map.1 hd'
      split_ifs at hid ⊢ with heq
      · obtain rfl : d = a.delivery := List.inj_on_of_nodup_map hok.ids hd hmem heq
        rw [answered_id] at hid
        rw [answered_webhookId]
        rcases List.mem_append.1 hx with hx | hx
        · obtain ⟨hhook, hsettled⟩ := h.rows x hx _ hd hid
          exact ⟨hhook, fun hsuccess => answered_settled (hsettled hsuccess)⟩
        · rw [List.mem_singleton.1 hx]
          exact ⟨rfl, answered_status⟩
      · rcases List.mem_append.1 hx with hx | hx
        · exact h.rows x hx d hd hid
        · rw [List.mem_singleton.1 hx] at hid
          exact absurd hid heq
    · intro x hx d hd hid
      rcases List.mem_append.1 hx with hx | hx
      · exact h.rows x hx d hd hid
      · rw [List.mem_singleton.1 hx] at hid ⊢
        obtain rfl : d = a.delivery := List.inj_on_of_nodup_map hok.ids hd hmem hid
        refine ⟨rfl, fun hsuccess => ?_⟩
        rw [hfailed] at hsuccess
        cases hsuccess

theorem LogOk.step (h : LogOk t log) (hok : QueueOk env t) (hs : AttemptStep env t l t') :
    LogOk t' (log ++ l.sent) := by
  cases l with
  | manage =>
    cases hs with
    | manage hs =>
      rw [AttemptLabel.sent, List.append_nil]
      exact h.manage hs
  | attempt a status => exact h.attempt hok hs

/-! ### What suspends a webhook -/

theorem setStatus_rows {status : WebhookStatus} {p : WebhookRow → Bool} {row : WebhookRow}
    (hrow : row ∈ (t.setStatus status p).webhooks) :
    ∃ r ∈ t.webhooks, r.id = row.id ∧
      (row.webhookStatus = r.webhookStatus ∨ (p r = true ∧ row.webhookStatus = status)) := by
  obtain ⟨r, hr, rfl⟩ := List.mem_map.1 hrow
  refine ⟨r, hr, ?_⟩
  split_ifs with hp
  · exact ⟨rfl, .inr ⟨hp, rfl⟩⟩
  · exact ⟨rfl, .inl rfl⟩

theorem manage_not_suspends {hook : ℕ} (hs : QueueStep env t .manage t')
    (hsuspended : t'.HasStatus hook .suspended) : t.HasStatus hook .suspended := by
  obtain ⟨row, hrow, hid, hstatus⟩ := hsuspended
  cases hs with
  | create hcreate =>
    obtain ⟨events, -, ⟨old, -, -, rfl⟩ | ⟨-, -, -, rfl⟩⟩ := createWebhook_ok hcreate
    · exact ⟨row, hrow, hid, hstatus⟩
    · rcases List.mem_append.1 hrow with hrow | hrow
      · exact ⟨row, hrow, hid, hstatus⟩
      · rw [List.mem_singleton.1 hrow] at hstatus
        cases hstatus
  | delete hdelete =>
    rw [deleteWebhook_ok hdelete] at hrow
    obtain ⟨r, hr, hrid, hsame | ⟨-, hnew⟩⟩ := setStatus_rows hrow
    · exact ⟨r, hr, hrid.trans hid, hsame ▸ hstatus⟩
    · cases hnew.symm.trans hstatus
  | verify hverify =>
    rcases verifyWebhook_cases hverify with rfl | ⟨id, rfl⟩
    · exact ⟨row, hrow, hid, hstatus⟩
    · obtain ⟨r, hr, hrid, hsame | ⟨-, hnew⟩⟩ := setStatus_rows hrow
      · exact ⟨r, hr, hrid.trans hid, hsame ▸ hstatus⟩
      · cases hnew.symm.trans hstatus
  | emitted workspaceId eventType payload now =>
    have hwebhooks := (enqueue_webhooks env eventType payload now
      (t.subscribers workspaceId eventType) t).1
    refine ⟨row, ?_, hid, hstatus⟩
    rw [← hwebhooks]
    exact hrow

/-- An attempt suspends its own webhook, by failing for the last time. -/
theorem attempt_suspends {a : Attempt} {status hook : ℕ} (hkeys : WebhookKeys env t)
    (hs : AttemptStep env t (.attempt a status) t') (hverified : t.HasStatus hook .verified)
    (hsuspended : t'.HasStatus hook .suspended) :
    a.delivery.webhookId = hook ∧ successful status = false ∧
      maxAttempts ≤ a.delivery.attemptCount + 1 := by
  obtain ⟨old, hold, holdid, hv⟩ := hverified
  obtain ⟨row, hrow, hid, hstatus⟩ := hsuspended
  have hnot : ∀ r ∈ t.webhooks, r.id = hook → r.webhookStatus ≠ .suspended := by
    intro r hr hrid heq
    rw [hkeys.ids r hr old hold (hrid.trans holdid.symm), hv] at heq
    cases heq
  cases hs with
  | lost => exact absurd hstatus (hnot row hrow hid)
  | recorded ha hsettle =>
    have hrecord := settle_eq_ok hsettle
    unfold Attempt.record at hrecord
    dsimp only at hrecord
    split_ifs at hrecord with hok hlast
    · cases hrecord
      exact absurd hstatus (hnot row hrow hid)
    · cases hrecord
      obtain ⟨r, hr, hrid, hsame | ⟨hp, -⟩⟩ := setStatus_rows hrow
      · exact absurd (hsame ▸ hstatus) (hnot r hr (hrid.trans hid))
      · simp only [decide_eq_true_eq] at hp
        refine ⟨?_, by simpa using hok, hlast⟩
        rw [← hp.1, hrid, hid]
    · cases hrecord
      exact absurd hstatus (hnot row hrow hid)

/-- In every run of attempts and calls on webhooks, a step that meets the condition takes a
webhook from verified to suspended only after seven days of total failure. -/
theorem suspended_of_seasoned {trace : List (HookTables × AttemptLabel)} {hook : ℕ}
    (hrun : Run (AttemptStep env) .empty trace t) (hs : AttemptStep env t l t')
    (hseasoned : Seasoned (attemptLog trace) t l) (hverified : t.HasStatus hook .verified)
    (hsuspended : t'.HasStatus hook .suspended) :
    ∃ a status, l = .attempt a status ∧ a.delivery.webhookId = hook ∧
      TotalFailure (attemptLog trace ++ [(a, status)]) hook a.now := by
  obtain ⟨hok, hlog⟩ := invariant_of_attempts hrun queueOk_empty logOk_empty
    fun _ _ _ _ hok hI hs => LogOk.step hI hok hs
  rw [List.nil_append] at hlog
  cases l with
  | manage =>
    cases hs with
    | manage hs =>
      obtain ⟨row, hrow, hid, hstatus⟩ := manage_not_suspends hs hsuspended
      obtain ⟨old, hold, holdid, hv⟩ := hverified
      rw [hok.keys.ids row hrow old hold (hid.trans holdid.symm), hv] at hstatus
      cases hstatus
  | attempt a status =>
    obtain ⟨rfl, hfailed, hlast⟩ := attempt_suspends hok.keys hs hverified hsuspended
    obtain ⟨⟨x, hx, hid, hold⟩, hnone⟩ := hseasoned hfailed hlast hverified
    obtain ⟨hmem, hdue, -, -⟩ := hs.rows hok
    obtain ⟨hhook, hsettled⟩ := hlog.rows x hx _ hmem hid.symm
    refine ⟨a, status, rfl, rfl, ?_, x, List.mem_append_left _ hx, hhook.symm, ?_, hold⟩
    · intro y hy hyhook hle hlt
      rcases List.mem_append.1 hy with hy | hy
      · exact hnone y hy hyhook hle hlt
      · rw [List.mem_singleton.1 hy]
        exact hfailed
    · -- The delivery is still retried, so its earlier attempt has failed.
      cases hsuccess : successful x.2 with
      | false => rfl
      | true => exact absurd (DeliveryRow.retrying_of_due hdue) (hsettled hsuccess)

end Invariant

/-! ### A sixth failure, in time and a week later -/

section Sample

variable {env : HookEnv}

def sixthAttempt (env : HookEnv) (now : ℕ) : Attempt :=
  attemptAt env (failedDelivery env 5 (some 500) 117300000005) now

theorem attempts_fiveFailures (hindex : env.indexable 1 figureHook.url [.figureUpdated] = true) :
    ∃ trace, Run (AttemptStep env) .empty trace (afterFive env) ∧
    attemptLog trace = fiveFailures env := by
  obtain ⟨calls, hcalls, hsent⟩ := run_fiveFailures hindex
  obtain ⟨trace, hrun, hlog⟩ := attempts_of_run hcalls
  exact ⟨trace, hrun, hlog.trans hsent⟩

/-- Whenever it comes, the sixth failure drops the delivery and suspends the webhook. -/
theorem step_sixthAttempt {now : ℕ} (hdue : 117300000005 ≤ now) :
    AttemptStep env (afterFive env) (.attempt (sixthAttempt env now) 500)
      (oneHook env .suspended [droppedDelivery env]) := by
  have hcandidate : sixthAttempt env now ∈ (afterFive env).candidates [] now := by
    refine mem_candidates.2 ⟨rfl, List.mem_singleton_self _, ?_, List.not_mem_nil, _,
      List.mem_singleton_self _, rfl, rfl, rfl⟩
    simpa [DeliveryRow.due, sixthAttempt, attemptAt, failedDelivery, figureDelivery] using hdue
  have hsettle : (sixthAttempt env now).settle 500 (afterFive env) =
      .ok (.dropped, oneHook env .suspended [droppedDelivery env]) := by rfl
  exact .recorded hcandidate hsettle

theorem afterFive_verified : (afterFive env).HasStatus 0 .verified :=
  ⟨_, List.mem_singleton_self _, rfl, rfl⟩

theorem sixth_suspended :
    (oneHook env .suspended [droppedDelivery env]).HasStatus 0 .suspended :=
  ⟨_, List.mem_singleton_self _, rfl, rfl⟩

end Sample

/-- The sixth attempt comes a week after the first. -/
theorem suspended_of_seasoned_weekLater : ∃ trace,
    Run (AttemptStep sampleHookEnv) .empty trace (afterFive sampleHookEnv) ∧
      ∃ a status, AttemptLabel.attempt (sixthAttempt sampleHookEnv (5 + week)) 500 =
          .attempt a status ∧ a.delivery.webhookId = 0 ∧
        TotalFailure (attemptLog trace ++ [(a, status)]) 0 a.now := by
  obtain ⟨trace, hrun, hlog⟩ := @attempts_fiveFailures sampleHookEnv rfl
  have hstep := @step_sixthAttempt sampleHookEnv (5 + week) (by decide)
  refine ⟨trace, hrun, suspended_of_seasoned hrun hstep ?_ afterFive_verified sixth_suspended⟩
  rw [hlog]
  intro _ _ _
  refine ⟨⟨_, List.mem_cons_self, rfl, by decide⟩, fun x hx _ _ _ => ?_⟩
  simp only [fiveFailures, List.mem_cons, List.not_mem_nil, or_false] at hx
  obtain rfl | rfl | rfl | rfl | rfl := hx <;> decide

/-- Attempted whenever it is due, a delivery is dropped and its webhook suspended a day and
a half after the first failure. -/
theorem dayAndHalf_suspends : ¬ ∀ trace t l t' hook,
    Run (AttemptStep sampleHookEnv) .empty trace t → AttemptStep sampleHookEnv t l t' →
      t.HasStatus hook .verified → t'.HasStatus hook .suspended →
      ∃ a status, l = .attempt a status ∧ a.delivery.webhookId = hook ∧
        TotalFailure (attemptLog trace ++ [(a, status)]) hook a.now := by
  intro h
  obtain ⟨trace, hrun, hlog⟩ := @attempts_fiveFailures sampleHookEnv rfl
  have hstep := @step_sixthAttempt sampleHookEnv 117300000005 (le_refl _)
  obtain ⟨a, status, hlabel, -, -, x, hx, -, -, hold⟩ :=
    h trace _ _ _ 0 hrun hstep afterFive_verified sixth_suspended
  cases hlabel
  rw [hlog] at hx
  have hlate : (sixthAttempt sampleHookEnv 117300000005).now < week := by decide
  omega

end TrueFigure.Server
