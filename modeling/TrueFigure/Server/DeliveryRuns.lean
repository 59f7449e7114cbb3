import TrueFigure.Server.DeliveryWorker

/-!
# The queue over whole runs

The operations on webhooks and calls of the worker, one after the other. A call attempts
exactly what is due, records every answer and never comes back to a settled delivery, as
long as the answers can be recorded: a retry has to lie within what a `datetime` holds.
-/
namespace TrueFigure.Server

open TrueFigure.Library TrueFigure.Python

/-- A call on the webhooks, or a call of the worker with what it has sent. -/
inductive QueueLabel
  | manage
  | worked (sent : List (Attempt × ℕ))

/-- One call. -/
inductive QueueStep (env : HookEnv) : HookTables → QueueLabel → HookTables → Prop
  | create {t t' : HookTables} {workspaceId : ℕ} {body : WebhookCreate} {ref : String}
      {reply : CreateReply} (h : createWebhook env workspaceId body ref t = .ok (reply, t')) :
      QueueStep env t .manage t'
  | delete {t t' : HookTables} {workspaceId : ℕ} {ref : String}
      (h : deleteWebhook ref workspaceId t = .ok t') : QueueStep env t .manage t'
  | verify {t t' : HookTables} {workspaceId : ℕ} {ref : String} {sender : SenderCall → ℕ}
      {verified : Bool} (h : verifyWebhook env ref workspaceId sender t = .ok (verified, t')) :
      QueueStep env t .manage t'
  | emitted (t : HookTables) (workspaceId : ℕ) (eventType : WebhookEventType) (payload : Dict)
      (now : ℕ) : QueueStep env t .manage (emit env workspaceId eventType payload now t).2
  | work (t : HookTables) (o : RowOrder) (sender : ℕ → SenderCall → ℕ) (now : ℕ) (limit : ℤ) :
      QueueStep env t (.worked (deliverOnce env o sender now limit t).sent)
        (deliverOnce env o sender now limit t).tables

def HookTables.empty : HookTables := ⟨[], [], 0, 0⟩

section Invariant

variable {env : HookEnv} {t t' : HookTables} {l : QueueLabel} {trace : List (HookTables × QueueLabel)}

theorem queueOk_empty : QueueOk env .empty where
  keys := by constructor <;> exact fun _ hr => (List.not_mem_nil hr).elim
  below _ hd := absurd hd List.not_mem_nil
  ids := List.nodup_nil
  hooks _ hd := absurd hd List.not_mem_nil
  sound _ hd := absurd hd List.not_mem_nil

theorem verifyWebhook_cases {workspaceId : ℕ} {ref : String} {sender : SenderCall → ℕ}
    {verified : Bool} (h : verifyWebhook env ref workspaceId sender t = .ok (verified, t')) :
    t' = t ∨ ∃ id, t' = t.markVerified id := by
  unfold verifyWebhook at h
  cases hrow : t.unverified ref workspaceId with
  | none =>
    simp only [hrow, Except.ok.injEq, Prod.mk.injEq] at h
    exact .inl h.2.symm
  | some row =>
    simp only [hrow] at h
    split_ifs at h
    simp only [Except.ok.injEq, Prod.mk.injEq] at h
    exact .inr ⟨row.id, h.2.symm⟩

theorem mem_of_subscriber {workspaceId id : ℕ} {eventType : WebhookEventType}
    (h : id ∈ t.subscribers workspaceId eventType) : ∃ row ∈ t.webhooks, row.id = id := by
  obtain ⟨row, hrow, rfl⟩ := List.mem_map.1 h
  exact ⟨row, (List.mem_filter.1 hrow).1, rfl⟩

theorem QueueStep.manage_cases (hs : QueueStep env t .manage t') :
    (WebhookChange env t t' ∧ t'.deliveries = t.deliveries ∧ t'.nextDelivery = t.nextDelivery) ∨
      ∃ workspaceId eventType payload now, t' = (emit env workspaceId eventType payload now t).2 := by
  cases hs with
  | create hcreate =>
    obtain ⟨events, -, ⟨row, -, -, rfl⟩ | ⟨hnew, href, -, rfl⟩⟩ := createWebhook_ok hcreate
    · exact .inl ⟨.of_eq rfl rfl, rfl, rfl⟩
    · exact .inl ⟨.insert _ rfl href hnew ⟨_, rfl⟩ rfl rfl, rfl, rfl⟩
  | delete hdelete =>
    rw [deleteWebhook_ok hdelete]
    exact .inl ⟨webhookChange_setStatus _ _ _ _, rfl, rfl⟩
  | verify hverify =>
    rcases verifyWebhook_cases hverify with rfl | ⟨id, rfl⟩
    · exact .inl ⟨.of_eq rfl rfl, rfl, rfl⟩
    · exact .inl ⟨webhookChange_setStatus _ _ _ _, rfl, rfl⟩
  | emitted workspaceId eventType payload now => exact .inr ⟨workspaceId, eventType, payload, now, rfl⟩

theorem QueueStep.queueOk (hs : QueueStep env t l t') (h : QueueOk env t) : QueueOk env t' := by
  cases l with
  | manage =>
    rcases hs.manage_cases with ⟨hchange, hdeliveries, hnext⟩ | ⟨ws, ev, payload, now, rfl⟩
    · exact h.webhooks hchange hdeliveries hnext
    · exact h.enqueue fun hook hhook => mem_of_subscriber hhook
  | worked sent =>
    cases hs with
    | work o sender now limit =>
      obtain ⟨done, hdone⟩ := @deliverLoop_ends env o sender now limit.toNat ⟨0, 0, 0⟩ [] t h
      exact hdone.queue

theorem queueOk_reachable (hrun : Run (QueueStep env) .empty trace t) : QueueOk env t :=
  (hrun.invariant queueOk_empty fun _ _ _ h hs => hs.queueOk h).1

end Invariant

/-! ### One call -/

/-- What a call is to do: return its counts, attempt every due delivery once and no other,
count every attempt, and leave the rest alone. -/
structure WorkerCall (t : HookTables) (now : ℕ) (limit : ℤ) (w : WorkerResult) : Prop where
  returns : ∃ c, w.result = .ok c ∧ c.total = w.sent.length
  once : (w.sent.map fun x => x.1.delivery.id).Nodup
  within : w.sent.length ≤ limit.toNat
  due : ∀ x ∈ w.sent, x.1.delivery ∈ t.deliveries ∧ x.1.delivery.due now = true
  complete : ((t.deliveries.filter fun d => d.due now).length : ℤ) ≤ limit →
    ∀ d ∈ t.deliveries, d.due now = true → ∃ x ∈ w.sent, x.1.delivery = d
  attempted : ∀ x ∈ w.sent, ∃ d ∈ w.tables.deliveries, d.id = x.1.delivery.id ∧
    d.attemptCount = x.1.delivery.attemptCount + 1 ∧ d.attemptCount ≤ maxAttempts ∧
    (d.deliveryStatus = .retrying →
      d.attemptCount < retrySchedule.length ∧ ∃ at', d.nextRetryAt = some at' ∧ now < at')
  rest : ∀ d ∈ t.deliveries, (∀ x ∈ w.sent, x.1.delivery.id ≠ d.id) → d ∈ w.tables.deliveries
  rows : w.tables.deliveries.map DeliveryRow.id = t.deliveries.map DeliveryRow.id

/-- Every answer of the sender is an HTTP status the column takes, and every retry lies
within the calendar. -/
structure AnswersFit (sender : ℕ → SenderCall → ℕ) (now : ℕ) : Prop where
  calendar : now + 86400 * 1000000 ≤ datetimeMax
  statuses : ∀ n call, sender n call ≤ smallintMax

section Call

variable {env : HookEnv} {o : RowOrder} {sender : ℕ → SenderCall → ℕ} {now room : ℕ} {limit : ℤ}
  {counts : WorkerCounts} {sent : List (Attempt × ℕ)} {t : HookTables} {d : DeliveryRow}

/-- The statuses in the log are the sender's. -/
theorem mem_deliverLoop {x : Attempt × ℕ}
    (hx : x ∈ (deliverLoop env o sender now room counts sent t).sent) :
    x ∈ sent ∨ ∃ n call, x.2 = sender n call := by
  induction room generalizing counts sent t with
  | zero => exact .inl hx
  | succ room ih =>
    simp only [deliverLoop] at hx
    split at hx
    · exact .inl hx
    · split at hx
      · exact .inl hx
      · split at hx
        · rcases List.mem_append.1 hx with hx | hx
          · exact .inl hx
          · rw [List.mem_singleton.1 hx]
            exact .inr ⟨_, _, rfl⟩
        · rcases ih hx with hx | hx
          · rcases List.mem_append.1 hx with hx | hx
            · exact .inl hx
            · rw [List.mem_singleton.1 hx]
              exact .inr ⟨_, _, rfl⟩
          · exact .inr hx

theorem schedule_le (i : ℕ) : retrySchedule.getD i 0 ≤ 86400 := by
  by_cases h : i < retrySchedule.length
  · have hall : ∀ i < retrySchedule.length, retrySchedule.getD i 0 ≤ 86400 := by decide
    exact hall i h
  · simp [List.getD, List.getElem?_eq_none (Nat.le_of_not_lt h)]

theorem AnswersFit.settle (h : AnswersFit sender now) {a : Attempt} (hnow : a.now = now)
    {n : ℕ} {call : SenderCall} : a.settle (sender n call) t = .ok (a.record (sender n call) t) := by
  have hcalendar := h.calendar
  have hschedule := schedule_le (a.delivery.attemptCount + 1)
  unfold Attempt.settle
  dsimp only
  rw [if_neg, if_neg (Nat.not_lt.2 (h.statuses n call))]
  rintro ⟨-, hlate⟩
  rw [hnow] at hlate
  omega

/-- A due delivery that has not been attempted is still a candidate. -/
theorem LoopEnd.candidates_ne_nil {w : WorkerResult} {done : List (Attempt × ℕ)}
    (h : LoopEnd env now room counts sent t w done) (hd : d ∈ t.deliveries)
    (hdue : d.due now = true) (hnot : ∀ x ∈ done, x.1.delivery.id ≠ d.id) :
    w.tables.candidates [] now ≠ [] := by
  have hmem : d ∈ w.tables.deliveries := by
    rw [h.rows, ← advance_of_notMem hnot]
    exact List.mem_map_of_mem hd
  obtain ⟨row, hrow, hid⟩ := h.queue.hooks d hmem
  have hcandidate : (⟨d, row.url, row.secretHash, now⟩ : Attempt) ∈ w.tables.candidates [] now :=
    mem_candidates.2 ⟨rfl, hmem, hdue, List.not_mem_nil, row, hrow, hid, rfl, rfl⟩
  exact List.ne_nil_of_mem hcandidate

theorem LoopEnd.workerCall {w : WorkerResult} {done : List (Attempt × ℕ)}
    (h : LoopEnd env now limit.toNat ⟨0, 0, 0⟩ [] t w done) (hok : QueueOk env t)
    (hresult : ∃ c, w.result = .ok c) : WorkerCall t now limit w := by
  obtain ⟨hsent, ⟨c, hc, htotal⟩, hstop⟩ : w.sent = [] ++ done ∧
      (∃ c, w.result = .ok c ∧ c.total = (⟨0, 0, 0⟩ : WorkerCounts).total + done.length) ∧
      (done.length = limit.toNat ∨ w.tables.candidates [] now = []) := by
    rcases h.ending with hending | ⟨x, e, -, herror, -⟩
    · exact hending
    · obtain ⟨c, hc⟩ := hresult
      cases hc.symm.trans herror
  rw [List.nil_append] at hsent
  have hmap : ∀ d ∈ t.deliveries, advance now done d ∈ w.tables.deliveries := by
    rw [h.rows]
    exact fun d hd => List.mem_map_of_mem hd
  refine ⟨⟨c, hc, ?_⟩, ?_, ?_, ?_, ?_, ?_, ?_, ?_⟩
  · rw [htotal, hsent]
    exact Nat.zero_add _
  · rw [hsent]
    exact h.nodup
  · rw [hsent]
    exact h.within
  · rw [hsent]
    exact fun x hx => ⟨(h.due x hx).1, (h.due x hx).2.1⟩
  · intro hlimit d hd hdue
    rw [hsent]
    by_contra hnone
    have hnot : ∀ x ∈ done, x.1.delivery.id ≠ d.id := by
      intro x hx hid
      exact hnone ⟨x, hx, List.inj_on_of_nodup_map hok.ids (h.due x hx).1 hd hid⟩
    rcases hstop with hlength | hnil
    · -- The attempted rows and this one are more due rows than there are.
      have hnodup : (d :: done.map fun x => x.1.delivery).Nodup := by
        refine List.nodup_cons.2 ⟨fun hmem => ?_, List.Nodup.of_map DeliveryRow.id ?_⟩
        · obtain ⟨x, hx, hrow⟩ := List.mem_map.1 hmem
          exact hnot x hx (congrArg DeliveryRow.id hrow)
        · rw [List.map_map]
          exact h.nodup
      have hsub : (d :: done.map fun x => x.1.delivery) ⊆
          t.deliveries.filter fun d => d.due now := by
        intro r hr
        rcases List.mem_cons.1 hr with rfl | hr
        · exact List.mem_filter.2 ⟨hd, hdue⟩
        · obtain ⟨x, hx, rfl⟩ := List.mem_map.1 hr
          exact List.mem_filter.2 ⟨(h.due x hx).1, (h.due x hx).2.1⟩
      have hle := (List.Nodup.subperm hnodup hsub).length_le
      rw [List.length_cons, List.length_map, hlength] at hle
      omega
    · exact h.candidates_ne_nil hd hdue hnot hnil
  · intro x hx
    rw [hsent] at hx
    obtain ⟨hmem, hdue, -⟩ := h.due x hx
    have hadvance : advance now done x.1.delivery = x.1.delivery.answered now x.2 :=
      advance_of_mem hx rfl h.nodup
    have hrow := hmap _ hmem
    rw [hadvance] at hrow
    have hsound := h.queue.sound _ hrow
    refine ⟨_, hrow, answered_id, answered_attemptCount, hsound.count, fun hretrying => ?_⟩
    obtain ⟨hlt, hsome⟩ := hsound.retrying hretrying
    obtain ⟨at', hat⟩ := Option.isSome_iff_exists.1 hsome
    refine ⟨hlt, at', hat, Nat.lt_of_not_le fun hle => ?_⟩
    have hnot := @answered_not_due x.1.delivery now x.2
    have hdue' : (x.1.delivery.answered now x.2).due now = true := by
      simp only [DeliveryRow.due, decide_eq_true_eq]
      exact ⟨hretrying, at', hat, hle⟩
    rw [hdue'] at hnot
    cases hnot
  · intro d hd hnot
    rw [hsent] at hnot
    have hrow := hmap d hd
    rwa [advance_of_notMem hnot] at hrow
  · rw [h.rows, List.map_map]
    refine List.map_congr_left fun d _ => ?_
    simp only [Function.comp_apply, advance]
    split
    · exact answered_id
    · rfl

theorem workerCall_of_answersFit (hok : QueueOk env t) (h : AnswersFit sender now) :
    WorkerCall t now limit (deliverOnce env o sender now limit t) := by
  obtain ⟨done, hdone⟩ := @deliverLoop_ends env o sender now limit.toNat ⟨0, 0, 0⟩ [] t hok
  refine hdone.workerCall hok ?_
  rcases hdone.ending with ⟨-, ⟨c, hc, -⟩, -⟩ | ⟨x, e, hsent, -, hcandidate, herror⟩
  · exact ⟨c, hc⟩
  · have hx : x ∈ (deliverLoop env o sender now limit.toNat ⟨0, 0, 0⟩ [] t).sent := by
      rw [hsent]
      exact List.mem_append_right _ List.mem_cons_self
    rcases mem_deliverLoop hx with hx | ⟨n, call, hstatus⟩
    · exact absurd hx List.not_mem_nil
    · rw [hstatus, h.settle (mem_candidates.1 hcandidate).1] at herror
      cases herror

end Call

/-! ### Settled deliveries -/

section Settled

variable {env : HookEnv} {t t' : HookTables} {l : QueueLabel} {d : DeliveryRow}
  {trace : List (HookTables × QueueLabel)}

/-- The call has sent nothing for the delivery. -/
def QueueLabel.Spares (id : ℕ) : QueueLabel → Prop
  | .manage => True
  | .worked sent => ∀ x ∈ sent, x.1.delivery.id ≠ id

theorem DeliveryRow.not_due_of_settled (hd : d.deliveryStatus ≠ .retrying) (now : ℕ) :
    d.due now = false := by
  simp [DeliveryRow.due, hd]

theorem QueueStep.settled (hs : QueueStep env t l t') (hok : QueueOk env t) (hd : d ∈ t.deliveries)
    (hsettled : d.deliveryStatus ≠ .retrying) : d ∈ t'.deliveries ∧ l.Spares d.id := by
  cases l with
  | manage =>
    refine ⟨?_, trivial⟩
    rcases hs.manage_cases with ⟨-, hdeliveries, -⟩ | ⟨ws, ev, payload, now, rfl⟩
    · rwa [hdeliveries]
    · obtain ⟨new, hnew, -⟩ := enqueue_deliveries env ev payload now (t.subscribers ws ev) t
      change d ∈ (t.enqueue env ev payload now (t.subscribers ws ev)).deliveries
      rw [hnew]
      exact List.mem_append_left _ hd
  | worked sent =>
    cases hs with
    | work o sender now limit =>
      obtain ⟨done, hdone⟩ := @deliverLoop_ends env o sender now limit.toNat ⟨0, 0, 0⟩ [] t hok
      have hnot : ∀ x ∈ done, x.1.delivery.id ≠ d.id := by
        intro x hx hid
        obtain ⟨hmem, hdue, -⟩ := hdone.due x hx
        obtain rfl : x.1.delivery = d := List.inj_on_of_nodup_map hok.ids hmem hd hid
        rw [DeliveryRow.not_due_of_settled hsettled now] at hdue
        cases hdue
      have hmem : d ∈ (deliverOnce env o sender now limit t).tables.deliveries := by
        rw [deliverOnce, hdone.rows, ← advance_of_notMem hnot]
        exact List.mem_map_of_mem hd
      refine ⟨hmem, fun x hx hid => ?_⟩
      rcases hdone.ending with ⟨hsent, -⟩ | ⟨y, e, hsent, -, hcandidate, -⟩
      · rw [deliverOnce, hsent, List.nil_append] at hx
        exact hnot x hx hid
      · rw [deliverOnce, hsent, List.nil_append] at hx
        rcases List.mem_append.1 hx with hx | hx
        · exact hnot x hx hid
        · -- The attempt that was not recorded is of a row that is due at the end.
          rw [List.mem_singleton.1 hx] at hid
          obtain ⟨-, hmem', hdue, -⟩ := mem_candidates.1 hcandidate
          obtain rfl : y.1.delivery = d :=
            List.inj_on_of_nodup_map hdone.queue.ids hmem' hmem hid
          rw [DeliveryRow.not_due_of_settled hsettled now] at hdue
          cases hdue

theorem settled_of_run (hrun : Run (QueueStep env) t trace t') (hok : QueueOk env t)
    (hd : d ∈ t.deliveries) (hsettled : d.deliveryStatus ≠ .retrying) :
    d ∈ t'.deliveries ∧ ∀ x ∈ trace, x.2.Spares d.id := by
  induction hrun with
  | refl => exact ⟨hd, fun x hx => absurd hx List.not_mem_nil⟩
  | head hs _ ih =>
    obtain ⟨hmem, hspares⟩ := hs.settled hok hd hsettled
    obtain ⟨hmem', hrest⟩ := ih (hs.queueOk hok) hmem
    exact ⟨hmem', List.forall_mem_cons.2 ⟨hspares, hrest⟩⟩

/-- In every state that calls on webhooks and of the worker reach: a call whose answers can
be recorded attempts every due delivery once, up to its limit, and no other, counts
every attempt, leaves retries for later and never touches a settled delivery. -/
theorem worker_sound {o : RowOrder} {sender : ℕ → SenderCall → ℕ} {now : ℕ} {limit : ℤ}
    (hrun : Run (QueueStep env) .empty trace t) (h : AnswersFit sender now) :
    WorkerCall t now limit (deliverOnce env o sender now limit t) ∧
      ∀ d ∈ t.deliveries, d.deliveryStatus ≠ .retrying → ∀ trace' t',
        Run (QueueStep env) t trace' t' → d ∈ t'.deliveries ∧ ∀ x ∈ trace', x.2.Spares d.id :=
  ⟨workerCall_of_answersFit (queueOk_reachable hrun) h,
    fun _ hd hsettled _ _ hlater => settled_of_run hlater (queueOk_reachable hrun) hd hsettled⟩

end Settled

/-! ### One delivery for one webhook -/

def asGiven : RowOrder := ⟨id, fun _ => .refl _⟩

/-- Answers every call alike. -/
def always (status : ℕ) : ℕ → SenderCall → ℕ := fun _ _ => status

/-- A webhook is subscribed and verified, and a delivery queued for it. -/
def oneHookTrace (env : HookEnv) : List (HookTables × QueueLabel) :=
  [(.empty, .manage), (oneHook env .unverified [], .manage), (oneHook env .verified [], .manage)]

theorem run_oneHook {env : HookEnv}
    (hindex : env.indexable 1 figureHook.url [.figureUpdated] = true) :
    Run (QueueStep env) .empty (oneHookTrace env) (oneHook env .verified [figureDelivery env]) := by
  have hcreate : createWebhook env 1 figureHook "wh_1" .empty =
      .ok (.created "wh_1", oneHook env .unverified []) := createWebhook_figureHook env hindex
  have hverify : verifyWebhook env "wh_1" 1 (fun _ => 200) (oneHook env .unverified []) =
      .ok (true, oneHook env .verified []) := by rfl
  have hemit := @QueueStep.emitted env (oneHook env .verified []) 1 .figureUpdated [] 5
  exact .head (.create hcreate) (.head (.verify hverify) (.single hemit))

theorem answersFit_always : AnswersFit (always 500) 5 := by
  constructor
  · decide
  · have hstatus : 500 ≤ smallintMax := by decide
    exact fun _ _ => hstatus

/-- A call that fails is counted. -/
theorem worker_sound_oneHook : ∃ trace t, Run (QueueStep sampleHookEnv) .empty trace t ∧
    WorkerCall t 5 100 (deliverOnce sampleHookEnv asGiven (always 500) 5 100 t) := by
  have hrun := @run_oneHook sampleHookEnv rfl
  exact ⟨_, _, hrun, (worker_sound hrun answersFit_always).1⟩

/-- On the last day of the calendar the first failure cannot be recorded. -/
theorem lastDay_raises : ¬ ∀ trace t, Run (QueueStep sampleHookEnv) .empty trace t →
    ∀ now sender, WorkerCall t now 100 (deliverOnce sampleHookEnv asGiven sender now 100 t) := by
  intro h
  have hrun := @run_oneHook sampleHookEnv rfl
  obtain ⟨c, hc, -⟩ := (h _ _ hrun datetimeMax (always 500)).returns
  have hok := queueOk_reachable hrun
  have hnext : (oneHook sampleHookEnv .verified [figureDelivery sampleHookEnv]).nextDue asGiven
      datetimeMax = some ⟨figureDelivery sampleHookEnv, "https://hook.example/x",
        sampleHookEnv.encrypt "whsecret", datetimeMax⟩ := by rfl
  obtain ⟨call, hcall⟩ := hok.call (mem_of_nextDue hnext)
  have hraises : (deliverOnce sampleHookEnv asGiven (always 500) datetimeMax 100
      (oneHook sampleHookEnv .verified [figureDelivery sampleHookEnv])).result =
        .error (.python .overflowError) := by
    have hlimit : (100 : ℤ).toNat = 99 + 1 := by decide
    rw [deliverOnce, hlimit, deliverLoop]
    simp only [hnext, hcall]
    rfl
  rw [hraises] at hc
  cases hc

end TrueFigure.Server
