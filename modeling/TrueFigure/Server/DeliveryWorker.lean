import Mathlib.Data.List.MinMax
import TrueFigure.Server.WebhookRuns

/-!
# The delivery worker

A call of `deliver_once` takes the earliest due delivery, attempts it and looks again,
until nothing is due or its limit is reached. Every outcome moves the row out of the due
ones, so a call attempts each of them at most once.
-/
namespace TrueFigure.Server

open TrueFigure.Library TrueFigure.Python

/-- The last instant a `datetime` holds. -/
def datetimeMax : ℕ := 253402300799999999

/-- The greatest `SMALLINT`. -/
def smallintMax : ℕ := 2 ^ 15 - 1

/-- The order in which rows come where the query leaves it open. -/
structure RowOrder where
  order : List Attempt → List Attempt
  rows : ∀ xs, (order xs).Perm xs

/-- `ORDER BY d.next_retry_at … LIMIT 1`. -/
def HookTables.nextDue (t : HookTables) (o : RowOrder) (now : ℕ) : Option Attempt :=
  @List.argmin _ _ Nat.instLinearOrder.toPreorder Nat.instLinearOrder.toDecidableLT
    (fun a => a.delivery.nextRetryAt.getD 0) (o.order (t.candidates [] now))

/-- `_attempt` after the sender has answered: the retry may lie beyond what a `datetime`
holds, and the column takes a `SMALLINT`. -/
def Attempt.settle (a : Attempt) (status : ℕ) (t : HookTables) :
    Except Failure (AttemptOutcome × HookTables) :=
  let result := a.record status t
  if result.1 = .retried ∧
      datetimeMax < a.now + retrySchedule.getD (a.delivery.attemptCount + 1) 0 * 1000000 then
    .error (.python .overflowError)
  else if smallintMax < status then .error (.database .integerOverflow)
  else .ok result

/-- What `deliver_once` returns. -/
structure WorkerCounts where
  delivered : ℕ
  retried : ℕ
  dropped : ℕ
  deriving DecidableEq

def WorkerCounts.add (c : WorkerCounts) : AttemptOutcome → WorkerCounts
  | .delivered => { c with delivered := c.delivered + 1 }
  | .retried => { c with retried := c.retried + 1 }
  | .dropped => { c with dropped := c.dropped + 1 }

def WorkerCounts.total (c : WorkerCounts) : ℕ := c.delivered + c.retried + c.dropped

theorem WorkerCounts.total_add (c : WorkerCounts) (o : AttemptOutcome) :
    (c.add o).total = c.total + 1 := by
  cases o <;> simp only [WorkerCounts.add, WorkerCounts.total] <;> omega

/-- What a call leaves: the tables, the attempts it has sent with the statuses they
got, and what it returns or raises. -/
structure WorkerResult where
  tables : HookTables
  sent : List (Attempt × ℕ)
  result : Except Failure WorkerCounts

section Worker

variable (env : HookEnv) (o : RowOrder) (sender : ℕ → SenderCall → ℕ) (now : ℕ)

/-- The loop of `deliver_once`; `room` is what the counts leave of the limit. The sender
is asked for its `n`-th answer. -/
def deliverLoop : ℕ → WorkerCounts → List (Attempt × ℕ) → HookTables → WorkerResult
  | 0, counts, sent, t => ⟨t, sent, .ok counts⟩
  | room + 1, counts, sent, t =>
    match t.nextDue o now with
    | none => ⟨t, sent, .ok counts⟩
    | some a =>
      match a.call env with
      | none => ⟨t, sent, .error (.python (.valueError (py "not an enc1 token")))⟩
      | some call =>
        let status := sender sent.length call
        match a.settle status t with
        | .error e => ⟨t, sent ++ [(a, status)], .error e⟩
        | .ok (outcome, t') => deliverLoop room (counts.add outcome) (sent ++ [(a, status)]) t'

def deliverOnce (limit : ℤ) (t : HookTables) : WorkerResult :=
  deliverLoop env o sender now limit.toNat ⟨0, 0, 0⟩ [] t

end Worker

/-! ### The rows of the queue -/

/-- A delivery is retried at an instant and with attempts left, or is settled. -/
structure DeliveryRow.Sound (d : DeliveryRow) : Prop where
  count : d.attemptCount ≤ maxAttempts
  retrying : d.deliveryStatus = .retrying →
    d.attemptCount < maxAttempts ∧ d.nextRetryAt.isSome = true
  settled : d.deliveryStatus ≠ .retrying → d.nextRetryAt = none

/-- The constraints of both tables, and every delivery as it should be. -/
structure QueueOk (env : HookEnv) (t : HookTables) : Prop where
  keys : WebhookKeys env t
  below : ∀ d ∈ t.deliveries, d.id < t.nextDelivery
  ids : (t.deliveries.map DeliveryRow.id).Nodup
  hooks : ∀ d ∈ t.deliveries, ∃ row ∈ t.webhooks, row.id = d.webhookId
  sound : ∀ d ∈ t.deliveries, d.Sound

def DeliveryRow.answered (now status : ℕ) (d : DeliveryRow) : DeliveryRow :=
  if successful status then
    { d with
      deliveryStatus := .delivered
      attemptCount := d.attemptCount + 1
      lastHttpStatus := some status
      nextRetryAt := none }
  else if maxAttempts ≤ d.attemptCount + 1 then
    { d with
      deliveryStatus := .dropped
      attemptCount := d.attemptCount + 1
      lastHttpStatus := statusOrNone status
      nextRetryAt := none }
  else
    { d with
      attemptCount := d.attemptCount + 1
      lastHttpStatus := statusOrNone status
      nextRetryAt := some (now + retrySchedule.getD (d.attemptCount + 1) 0 * 1000000) }

def DeliveryRow.outcome (status : ℕ) (d : DeliveryRow) : AttemptOutcome :=
  if successful status then .delivered
  else if maxAttempts ≤ d.attemptCount + 1 then .dropped
  else .retried

section Answered

variable {d : DeliveryRow} {now status : ℕ}

@[simp] theorem answered_id : (d.answered now status).id = d.id := by
  unfold DeliveryRow.answered
  split_ifs <;> rfl

@[simp] theorem answered_webhookId : (d.answered now status).webhookId = d.webhookId := by
  unfold DeliveryRow.answered
  split_ifs <;> rfl

@[simp] theorem answered_attemptCount :
    (d.answered now status).attemptCount = d.attemptCount + 1 := by
  unfold DeliveryRow.answered
  split_ifs <;> rfl

theorem retrySchedule_pos {i : ℕ} (h : i < maxAttempts) : 0 < retrySchedule.getD i 0 := by
  have hall : ∀ i < maxAttempts, 0 < retrySchedule.getD i 0 := by decide
  exact hall i h

theorem answered_not_due : (d.answered now status).due now = false := by
  unfold DeliveryRow.answered DeliveryRow.due
  split_ifs with hok hlast
  · simp
  · simp
  · have hpos := retrySchedule_pos (Nat.lt_of_not_le hlast)
    simp only [Option.mem_def, Option.some.injEq, exists_eq_left', decide_eq_false_iff_not]
    rintro ⟨-, hle⟩
    omega

theorem answered_sound (h : d.Sound) (hstatus : d.deliveryStatus = .retrying) :
    (d.answered now status).Sound := by
  have hcount := (h.retrying hstatus).1
  unfold DeliveryRow.answered
  split_ifs with hok hlast
  · exact ⟨hcount, fun h => (nomatch h), fun _ => rfl⟩
  · exact ⟨hcount, fun h => (nomatch h), fun _ => rfl⟩
  · exact ⟨hcount, fun _ => ⟨Nat.lt_of_not_le hlast, rfl⟩, fun hnot => absurd hstatus hnot⟩

theorem record_outcome (a : Attempt) (t : HookTables) :
    (a.record status t).1 = a.delivery.outcome status := by
  unfold Attempt.record DeliveryRow.outcome
  dsimp only
  split_ifs <;> rfl

/-- Recording an answer is `answered` on the one row of the attempt. -/
theorem record_deliveries_eq {a : Attempt} {t : HookTables} (hmem : a.delivery ∈ t.deliveries)
    (hids : (t.deliveries.map DeliveryRow.id).Nodup) :
    (a.record status t).2.deliveries = t.deliveries.map fun d =>
      if d.id = a.delivery.id then d.answered a.now status else d := by
  obtain ⟨f, hf, hrow⟩ : ∃ f : DeliveryRow → DeliveryRow,
      (a.record status t).2.deliveries =
        t.deliveries.map (fun d => if d.id = a.delivery.id then f d else d) ∧
      f a.delivery = a.delivery.answered a.now status := by
    unfold Attempt.record DeliveryRow.answered
    dsimp only
    split_ifs
    · exact ⟨_, rfl, rfl⟩
    · exact ⟨_, rfl, rfl⟩
    · exact ⟨_, rfl, rfl⟩
  rw [hf]
  refine List.map_congr_left fun d hd => ?_
  by_cases hid : d.id = a.delivery.id
  · obtain rfl : d = a.delivery := List.inj_on_of_nodup_map hids hd hmem hid
    rw [if_pos rfl, if_pos rfl, hrow]
  · rw [if_neg hid, if_neg hid]

end Answered

/-! ### The row taken next -/

section NextDue

variable {t : HookTables} {o : RowOrder} {now : ℕ} {a : Attempt}

theorem mem_of_nextDue (h : t.nextDue o now = some a) : a ∈ t.candidates [] now :=
  (o.rows _).mem_iff.1 (List.argmin_mem (Option.mem_def.2 h))

theorem candidates_of_nextDue_none (h : t.nextDue o now = none) : t.candidates [] now = [] := by
  have hnil := List.argmin_eq_none.1 h
  exact List.Perm.eq_nil (hnil ▸ (o.rows (t.candidates [] now)).symm)

theorem DeliveryRow.retrying_of_due {d : DeliveryRow} (h : d.due now = true) :
    d.deliveryStatus = .retrying := by
  simp only [DeliveryRow.due, decide_eq_true_eq] at h
  exact h.1

end NextDue

/-! ### Sound queues -/

section Queue

variable {env : HookEnv} {t t' : HookTables} {a : Attempt} {status : ℕ}

theorem record_nextDelivery (a : Attempt) (status : ℕ) (t : HookTables) :
    (a.record status t).2.nextDelivery = t.nextDelivery := by
  unfold Attempt.record
  dsimp only
  split_ifs <;> rfl

/-- The webhooks that were there are still there, under their ids. -/
theorem WebhookChange.exists_id (h : WebhookChange env t t') {row : WebhookRow}
    (hrow : row ∈ t.webhooks) : ∃ row' ∈ t'.webhooks, row'.id = row.id := by
  cases h with
  | update g hg hrows hnext =>
    refine ⟨g row, ?_, ?_⟩
    · rw [hrows]
      exact List.mem_map_of_mem hrow
    · rw [hg row]
  | insert new hnew href hexisting hsecret hrows hnext =>
    refine ⟨row, ?_, rfl⟩
    rw [hrows]
    exact List.mem_append_left _ hrow

theorem QueueOk.webhooks (h : QueueOk env t) (hchange : WebhookChange env t t')
    (hdeliveries : t'.deliveries = t.deliveries) (hnext : t'.nextDelivery = t.nextDelivery) :
    QueueOk env t' := by
  refine ⟨h.keys.change hchange, ?_, ?_, ?_, ?_⟩
  · rw [hdeliveries, hnext]
    exact h.below
  · rw [hdeliveries]
    exact h.ids
  · rw [hdeliveries]
    intro d hd
    obtain ⟨row, hrow, hid⟩ := h.hooks d hd
    obtain ⟨row', hrow', hid'⟩ := hchange.exists_id hrow
    exact ⟨row', hrow', hid'.trans hid⟩
  · rw [hdeliveries]
    exact h.sound

theorem QueueOk.record (h : QueueOk env t) (hmem : a.delivery ∈ t.deliveries)
    (hstatus : a.delivery.deliveryStatus = .retrying) : QueueOk env (a.record status t).2 := by
  have hrows := @record_deliveries_eq status a t hmem h.ids
  have hchange := record_webhooks env a status t
  have hold : ∀ d' ∈ (a.record status t).2.deliveries, ∃ d ∈ t.deliveries,
      d'.id = d.id ∧ d'.webhookId = d.webhookId ∧ d'.Sound := by
    rw [hrows]
    intro d' hd'
    obtain ⟨d, hd, rfl⟩ := List.mem_map.1 hd'
    refine ⟨d, hd, ?_⟩
    split_ifs with hid
    · have hrow : d = a.delivery := List.inj_on_of_nodup_map h.ids hd hmem hid
      refine ⟨answered_id, answered_webhookId, answered_sound (h.sound d hd) ?_⟩
      rw [hrow, hstatus]
    · exact ⟨rfl, rfl, h.sound d hd⟩
  refine ⟨h.keys.change hchange, ?_, ?_, ?_, ?_⟩
  · intro d' hd'
    obtain ⟨d, hd, hid, -⟩ := hold d' hd'
    rw [hid, record_nextDelivery]
    exact h.below d hd
  · have hids : (a.record status t).2.deliveries.map DeliveryRow.id =
        t.deliveries.map DeliveryRow.id := by
      rw [hrows, List.map_map]
      refine List.map_congr_left fun d _ => ?_
      simp only [Function.comp_apply]
      split_ifs
      · exact answered_id
      · rfl
    rw [hids]
    exact h.ids
  · intro d' hd'
    obtain ⟨d, hd, -, hwebhook, -⟩ := hold d' hd'
    obtain ⟨row, hrow, hid⟩ := h.hooks d hd
    obtain ⟨row', hrow', hid'⟩ := hchange.exists_id hrow
    exact ⟨row', hrow', by rw [hid', hid, hwebhook]⟩
  · intro d' hd'
    obtain ⟨d, -, -, -, hsound⟩ := hold d' hd'
    exact hsound

/-- The deliveries of an emission are new rows with nothing attempted. -/
theorem QueueOk.enqueue (h : QueueOk env t) {eventType : WebhookEventType} {payload : Dict}
    {now : ℕ} {hooks : List ℕ}
    (hhooks : ∀ hook ∈ hooks, ∃ row ∈ t.webhooks, row.id = hook) :
    QueueOk env (t.enqueue env eventType payload now hooks) := by
  induction hooks generalizing t with
  | nil => exact h
  | cons hook hooks ih =>
    refine ih ⟨⟨h.keys.below, h.keys.ids, h.keys.refs, h.keys.subscriptions, h.keys.secrets⟩,
      ?_, ?_, ?_, ?_⟩ fun k hk => hhooks k (List.mem_cons_of_mem _ hk)
    · intro d hd
      rcases List.mem_append.1 hd with hd | hd
      · exact (h.below d hd).trans (Nat.lt_succ_self _)
      · rw [List.mem_singleton.1 hd]
        exact Nat.lt_succ_self _
    · rw [List.map_append, List.nodup_append]
      refine ⟨h.ids, by simp, ?_⟩
      intro i hi j hj
      obtain ⟨d, hd, rfl⟩ := List.mem_map.1 hi
      simp only [List.map_cons, List.map_nil, List.mem_singleton] at hj
      have := h.below d hd
      omega
    · intro d hd
      rcases List.mem_append.1 hd with hd | hd
      · exact h.hooks d hd
      · rw [List.mem_singleton.1 hd]
        exact hhooks hook List.mem_cons_self
    · intro d hd
      rcases List.mem_append.1 hd with hd | hd
      · exact h.sound d hd
      · rw [List.mem_singleton.1 hd]
        have hzero : 0 < maxAttempts := by decide
        exact ⟨hzero.le, fun _ => ⟨hzero, rfl⟩, fun hnot => absurd rfl hnot⟩

theorem settle_eq_ok {outcome : AttemptOutcome} (h : a.settle status t = .ok (outcome, t')) :
    a.record status t = (outcome, t') := by
  unfold Attempt.settle at h
  dsimp only at h
  split_ifs at h
  exact Except.ok.inj h

theorem QueueOk.call (h : QueueOk env t) {now : ℕ} (ha : a ∈ t.candidates [] now) :
    ∃ call, a.call env = some call := by
  obtain ⟨-, -, -, -, row, hrow, -, -, hsecret⟩ := mem_candidates.1 ha
  obtain ⟨secret, hsecret'⟩ := h.keys.secrets row hrow
  simp only [Attempt.call, ← hsecret, hsecret', SecretBox.decrypt_encrypt, Option.bind_eq_bind,
    Option.bind_some]
  exact ⟨_, rfl⟩

end Queue

/-! ### A call -/

/-- A delivery after the attempts a call has recorded. -/
def advance (now : ℕ) (done : List (Attempt × ℕ)) (d : DeliveryRow) : DeliveryRow :=
  match done.find? fun x => x.1.delivery.id = d.id with
  | some x => d.answered now x.2
  | none => d

section Advance

variable {now : ℕ} {done : List (Attempt × ℕ)} {d : DeliveryRow}

theorem advance_of_notMem (h : ∀ x ∈ done, x.1.delivery.id ≠ d.id) : advance now done d = d := by
  have hnone : (done.find? fun x => x.1.delivery.id = d.id) = none := by
    rw [List.find?_eq_none]
    simpa using h
  simp only [advance, hnone]

theorem advance_of_mem {x : Attempt × ℕ} (hx : x ∈ done) (hid : x.1.delivery.id = d.id)
    (hnodup : (done.map fun y => y.1.delivery.id).Nodup) :
    advance now done d = d.answered now x.2 := by
  have hsome : (done.find? fun y => y.1.delivery.id = d.id).isSome = true := by
    rw [List.find?_isSome]
    exact ⟨x, hx, by simpa using hid⟩
  obtain ⟨y, hy⟩ := Option.isSome_iff_exists.1 hsome
  have hyid : y.1.delivery.id = d.id := by simpa using List.find?_some hy
  have hxy : y = x :=
    List.inj_on_of_nodup_map hnodup (List.mem_of_find?_eq_some hy) hx (hyid.trans hid.symm)
  simp only [advance, hy, hxy]

end Advance

/-- How the loop ends from these tables: the attempts it has recorded are of distinct due
rows, and it stops at its limit, with nothing due, or with an attempt it could not
record. -/
structure LoopEnd (env : HookEnv) (now room : ℕ) (counts : WorkerCounts)
    (sent : List (Attempt × ℕ)) (t : HookTables) (w : WorkerResult) (done : List (Attempt × ℕ)) :
    Prop where
  queue : QueueOk env w.tables
  nodup : (done.map fun x => x.1.delivery.id).Nodup
  due : ∀ x ∈ done, x.1.delivery ∈ t.deliveries ∧ x.1.delivery.due now = true ∧ x.1.now = now
  rows : w.tables.deliveries = t.deliveries.map (advance now done)
  within : done.length ≤ room
  ending : (w.sent = sent ++ done ∧ (∃ c, w.result = .ok c ∧ c.total = counts.total + done.length) ∧
      (done.length = room ∨ w.tables.candidates [] now = [])) ∨
    ∃ x e, w.sent = sent ++ done ++ [x] ∧ w.result = .error e ∧
      x.1 ∈ w.tables.candidates [] now ∧ x.1.settle x.2 w.tables = .error e

section Loop

variable {env : HookEnv} {o : RowOrder} {sender : ℕ → SenderCall → ℕ} {now room : ℕ}
  {counts : WorkerCounts} {sent : List (Attempt × ℕ)} {t t' : HookTables}

theorem loopEnd_nil (h : QueueOk env t) (hstop : 0 = room ∨ t.candidates [] now = []) :
    LoopEnd env now room counts sent t ⟨t, sent, .ok counts⟩ [] where
  queue := h
  nodup := List.nodup_nil
  due _ hx := absurd hx List.not_mem_nil
  rows := by
    have hsame : advance now [] = id := funext fun d => advance_of_notMem (by simp)
    rw [hsame, List.map_id]
  within := Nat.zero_le _
  ending := .inl ⟨(List.append_nil _).symm, ⟨counts, rfl, rfl⟩, hstop⟩

theorem LoopEnd.cons {a : Attempt} {status : ℕ} {outcome : AttemptOutcome} {w : WorkerResult}
    {done : List (Attempt × ℕ)} (hok : QueueOk env t) (ha : a ∈ t.candidates [] now)
    (hsettle : a.settle status t = .ok (outcome, t'))
    (h : LoopEnd env now room (counts.add outcome) (sent ++ [(a, status)]) t' w done) :
    LoopEnd env now (room + 1) counts sent t w ((a, status) :: done) := by
  obtain ⟨hnow, hmem, hdue, -, -⟩ := mem_candidates.1 ha
  have hrows : t'.deliveries = t.deliveries.map fun d =>
      if d.id = a.delivery.id then d.answered now status else d := by
    have hrecord := @record_deliveries_eq status a t hmem hok.ids
    rw [settle_eq_ok hsettle, hnow] at hrecord
    exact hrecord
  -- What is still due after the attempt was due before it, and is another row.
  have hstill : ∀ d ∈ t'.deliveries, d.due now = true → d ∈ t.deliveries ∧ d.id ≠ a.delivery.id := by
    rw [hrows]
    intro d' hd' hdue'
    obtain ⟨d, hd, rfl⟩ := List.mem_map.1 hd'
    split_ifs at hdue' ⊢ with hid
    · rw [answered_not_due] at hdue'
      cases hdue'
    · exact ⟨hd, hid⟩
  have hother : ∀ x ∈ done, x.1.delivery.id ≠ a.delivery.id := by
    intro x hx
    obtain ⟨hxmem, hxdue, -⟩ := h.due x hx
    exact (hstill _ hxmem hxdue).2
  refine ⟨h.queue, ?_, ?_, ?_, ?_, ?_⟩
  · rw [List.map_cons, List.nodup_cons]
    refine ⟨fun hmem' => ?_, h.nodup⟩
    obtain ⟨x, hx, hid⟩ := List.mem_map.1 hmem'
    exact hother x hx hid
  · refine List.forall_mem_cons.2 ⟨⟨hmem, hdue, hnow⟩, fun x hx => ?_⟩
    obtain ⟨hxmem, hxdue, hxnow⟩ := h.due x hx
    exact ⟨(hstill _ hxmem hxdue).1, hxdue, hxnow⟩
  · rw [h.rows, hrows, List.map_map]
    refine List.map_congr_left fun d _ => ?_
    simp only [Function.comp_apply]
    split_ifs with hid
    · have hhead : advance now ((a, status) :: done) d = d.answered now status := by
        simp only [advance, List.find?_cons, hid, decide_true]
      rw [hhead]
      exact advance_of_notMem fun x hx => by rw [answered_id, hid]; exact hother x hx
    · have hskip : decide (a.delivery.id = d.id) = false := decide_eq_false (Ne.symm hid)
      simp only [advance, List.find?_cons, hskip]
  · exact Nat.succ_le_succ h.within
  · refine h.ending.imp ?_ ?_
    · rintro ⟨hsent, ⟨c, hc, htotal⟩, hstop⟩
      refine ⟨by rw [hsent, List.append_assoc, List.singleton_append], ⟨c, hc, ?_⟩, ?_⟩
      · rw [htotal, WorkerCounts.total_add, List.length_cons]
        omega
      · exact hstop.imp_left fun hlength => by rw [List.length_cons, hlength]
    · rintro ⟨x, e, hsent, hrest⟩
      exact ⟨x, e, by rw [hsent, List.append_assoc sent, List.singleton_append], hrest⟩

theorem deliverLoop_ends (hok : QueueOk env t) :
    ∃ done, LoopEnd env now room counts sent t
      (deliverLoop env o sender now room counts sent t) done := by
  induction room generalizing counts sent t with
  | zero => exact ⟨[], loopEnd_nil hok (.inl rfl)⟩
  | succ room ih =>
    cases hnext : t.nextDue o now with
    | none =>
      simp only [deliverLoop, hnext]
      exact ⟨[], loopEnd_nil hok (.inr (candidates_of_nextDue_none hnext))⟩
    | some a =>
      have ha := mem_of_nextDue hnext
      obtain ⟨call, hcall⟩ := hok.call ha
      simp only [deliverLoop, hnext, hcall]
      cases hsettle : a.settle (sender sent.length call) t with
      | error e =>
        have hnil := @loopEnd_nil env now 0 counts sent t hok (.inl rfl)
        exact ⟨[], ⟨hok, hnil.nodup, hnil.due, hnil.rows, Nat.zero_le _,
          .inr ⟨(a, sender sent.length call), e, by rw [List.append_nil], rfl, ha, hsettle⟩⟩⟩
      | ok result =>
        obtain ⟨outcome, t'⟩ := result
        obtain ⟨-, hmem, hdue, -, -⟩ := mem_candidates.1 ha
        have hok' : QueueOk env t' := by
          have hrecord := @QueueOk.record env t a (sender sent.length call) hok hmem
            (DeliveryRow.retrying_of_due hdue)
          rwa [settle_eq_ok hsettle] at hrecord
        obtain ⟨done, hdone⟩ := ih hok'
        exact ⟨_, hdone.cons hok ha hsettle⟩

end Loop

end TrueFigure.Server
