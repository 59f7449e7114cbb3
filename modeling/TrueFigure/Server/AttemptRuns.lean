import TrueFigure.Server.DeliveryRuns

/-!
# Runs of single attempts

A call of the worker is a sequence of attempts, each in a transaction of its own. Runs of
attempts and of calls on webhooks, with the log of what was attempted, so cover every
sequence of calls.
-/
namespace TrueFigure.Server

open TrueFigure.Library TrueFigure.Python

inductive AttemptLabel
  | manage
  | attempt (a : Attempt) (status : ℕ)

/-- A call on the webhooks, or one attempt of a due delivery; an answer that cannot be
recorded is lost with its transaction. -/
inductive AttemptStep (env : HookEnv) : HookTables → AttemptLabel → HookTables → Prop
  | manage {t t' : HookTables} (h : QueueStep env t .manage t') : AttemptStep env t .manage t'
  | recorded {t t' : HookTables} {now status : ℕ} {a : Attempt} {outcome : AttemptOutcome}
      (ha : a ∈ t.candidates [] now) (hsettle : a.settle status t = .ok (outcome, t')) :
      AttemptStep env t (.attempt a status) t'
  | lost {t : HookTables} {now status : ℕ} {a : Attempt} {e : Failure}
      (ha : a ∈ t.candidates [] now) (hsettle : a.settle status t = .error e) :
      AttemptStep env t (.attempt a status) t

def QueueLabel.sent : QueueLabel → List (Attempt × ℕ)
  | .manage => []
  | .worked sent => sent

def AttemptLabel.sent : AttemptLabel → List (Attempt × ℕ)
  | .manage => []
  | .attempt a status => [(a, status)]

/-- The attempts of a run of calls, in order. -/
def sentLog (trace : List (HookTables × QueueLabel)) : List (Attempt × ℕ) :=
  trace.flatMap fun x => x.2.sent

def attemptLog (trace : List (HookTables × AttemptLabel)) : List (Attempt × ℕ) :=
  trace.flatMap fun x => x.2.sent

section Refinement

variable {env : HookEnv} {t t' : HookTables} {l : QueueLabel}

theorem attempts_of_deliverLoop {o : RowOrder} {sender : ℕ → SenderCall → ℕ} {now room : ℕ}
    {counts : WorkerCounts} {sent : List (Attempt × ℕ)} : ∃ trace,
    Run (AttemptStep env) t trace (deliverLoop env o sender now room counts sent t).tables ∧
      (deliverLoop env o sender now room counts sent t).sent = sent ++ attemptLog trace := by
  induction room generalizing counts sent t with
  | zero => exact ⟨[], .refl _, (List.append_nil _).symm⟩
  | succ room ih =>
    cases hnext : t.nextDue o now with
    | none =>
      simp only [deliverLoop, hnext]
      exact ⟨[], .refl _, (List.append_nil _).symm⟩
    | some a =>
      have ha := mem_of_nextDue hnext
      cases hcall : a.call env with
      | none =>
        simp only [deliverLoop, hnext, hcall]
        exact ⟨[], .refl _, (List.append_nil _).symm⟩
      | some call =>
        cases hsettle : a.settle (sender sent.length call) t with
        | error e =>
          simp only [deliverLoop, hnext, hcall, hsettle]
          exact ⟨_, .single (.lost ha hsettle), rfl⟩
        | ok result =>
          obtain ⟨outcome, t'⟩ := result
          simp only [deliverLoop, hnext, hcall, hsettle]
          obtain ⟨trace, hrun, hsent⟩ := @ih t' (counts.add outcome)
            (sent ++ [(a, sender sent.length call)])
          refine ⟨_, .head (.recorded ha hsettle) hrun, ?_⟩
          rw [hsent, List.append_assoc]
          rfl

theorem attempts_of_step (hs : QueueStep env t l t') :
    ∃ trace, Run (AttemptStep env) t trace t' ∧ attemptLog trace = l.sent := by
  cases l with
  | manage => exact ⟨_, .single (.manage hs), rfl⟩
  | worked sent =>
    cases hs with
    | work o sender now limit =>
      obtain ⟨trace, hrun, hsent⟩ := @attempts_of_deliverLoop env t o sender now limit.toNat
        ⟨0, 0, 0⟩ []
      exact ⟨trace, hrun, hsent.symm⟩

theorem attempts_of_run {trace : List (HookTables × QueueLabel)}
    (hrun : Run (QueueStep env) t trace t') :
    ∃ trace', Run (AttemptStep env) t trace' t' ∧ attemptLog trace' = sentLog trace := by
  induction hrun with
  | refl s => exact ⟨[], .refl _, rfl⟩
  | head hs _ ih =>
    obtain ⟨first, hfirst, hsent⟩ := attempts_of_step hs
    obtain ⟨rest, hrest, hlog⟩ := ih
    refine ⟨first ++ rest, hfirst.append hrest, ?_⟩
    rw [attemptLog, List.flatMap_append, ← attemptLog, ← attemptLog, hsent, hlog]
    rfl

end Refinement

section Invariant

variable {env : HookEnv} {t t' : HookTables} {l : AttemptLabel}
  {trace : List (HookTables × AttemptLabel)}

theorem AttemptStep.queueOk (hs : AttemptStep env t l t') (h : QueueOk env t) : QueueOk env t' := by
  cases hs with
  | manage hs => exact hs.queueOk h
  | @recorded _ now status a outcome ha hsettle =>
    obtain ⟨-, hmem, hdue, -, -⟩ := mem_candidates.1 ha
    have hrecord := @QueueOk.record env t a status h hmem (DeliveryRow.retrying_of_due hdue)
    rwa [settle_eq_ok hsettle] at hrecord
  | lost => exact h

theorem invariant_of_attempts {I : HookTables → List (Attempt × ℕ) → Prop}
    {log : List (Attempt × ℕ)} (hrun : Run (AttemptStep env) t trace t') (h : QueueOk env t)
    (hI : I t log)
    (hstep : ∀ t l t' log, QueueOk env t → I t log → AttemptStep env t l t' →
      I t' (log ++ l.sent)) :
    QueueOk env t' ∧ I t' (log ++ attemptLog trace) := by
  induction hrun generalizing log with
  | refl s =>
    rw [attemptLog, List.flatMap_nil, List.append_nil]
    exact ⟨h, hI⟩
  | head hs _ ih =>
    have hrest := ih (hs.queueOk h) (hstep _ _ _ _ h hI hs)
    rwa [List.append_assoc] at hrest

theorem AttemptStep.rows {a : Attempt} {status : ℕ} (h : QueueOk env t)
    (hs : AttemptStep env t (.attempt a status) t') : a.delivery ∈ t.deliveries ∧
      a.delivery.due a.now = true ∧ t'.nextDelivery = t.nextDelivery ∧
      ((t'.deliveries = t.deliveries.map fun d =>
          if d.id = a.delivery.id then d.answered a.now status else d) ∨
        (t' = t ∧ successful status = false)) := by
  cases hs with
  | recorded ha hsettle =>
    obtain ⟨rfl, hmem, hdue, -, -⟩ := mem_candidates.1 ha
    have hrecord := @record_deliveries_eq status a t hmem h.ids
    have hnext := record_nextDelivery a status t
    rw [settle_eq_ok hsettle] at hrecord hnext
    exact ⟨hmem, hdue, hnext, .inl hrecord⟩
  | lost ha hsettle =>
    obtain ⟨rfl, hmem, hdue, -, -⟩ := mem_candidates.1 ha
    refine ⟨hmem, hdue, rfl, .inr ⟨rfl, ?_⟩⟩
    cases hok : successful status with
    | false => rfl
    | true =>
      -- A success is recorded: there is no retry, and its status is small.
      have hsmall : status ≤ smallintMax := by
        simp only [successful, Bool.and_eq_true, decide_eq_true_eq] at hok
        have : 300 ≤ smallintMax := by decide
        omega
      have houtcome : (a.record status t).1 ≠ .retried := by
        rw [record_outcome, DeliveryRow.outcome, if_pos hok]
        decide
      unfold Attempt.settle at hsettle
      dsimp only at hsettle
      rw [if_neg fun h => houtcome h.1, if_neg (Nat.not_lt.2 hsmall)] at hsettle
      cases hsettle

theorem QueueStep.manage_rows (hs : QueueStep env t .manage t') :
    t.nextDelivery ≤ t'.nextDelivery ∧ ∃ new, t'.deliveries = t.deliveries ++ new ∧
      ∀ d ∈ new, t.nextDelivery ≤ d.id ∧ d.attemptCount = 0 := by
  rcases hs.manage_cases with ⟨-, hdeliveries, hnext⟩ | ⟨ws, ev, payload, now, rfl⟩
  · exact ⟨hnext.ge, [], by rw [hdeliveries, List.append_nil], by simp⟩
  · change t.nextDelivery ≤ (t.enqueue env ev payload now (t.subscribers ws ev)).nextDelivery ∧
      ∃ new, (t.enqueue env ev payload now (t.subscribers ws ev)).deliveries =
        t.deliveries ++ new ∧ ∀ d ∈ new, t.nextDelivery ≤ d.id ∧ d.attemptCount = 0
    clear hs
    induction t.subscribers ws ev generalizing t with
    | nil => exact ⟨le_refl _, [], (List.append_nil _).symm, by simp⟩
    | cons hook hooks ih =>
      obtain ⟨hle, new, hnew, hrows⟩ := @ih
        { t with
          deliveries := t.deliveries ++ [⟨t.nextDelivery, hook, ev, .retrying,
            "dl_" ++ env.uuid t.nextDelivery, payload, 0, none, some now⟩]
          nextDelivery := t.nextDelivery + 1 }
      refine ⟨Nat.le_of_succ_le hle, ⟨t.nextDelivery, hook, ev, .retrying,
        "dl_" ++ env.uuid t.nextDelivery, payload, 0, none, some now⟩ :: new, ?_,
        List.forall_mem_cons.2 ⟨⟨le_refl _, rfl⟩, ?_⟩⟩
      · rw [HookTables.enqueue, hnew, List.append_assoc]
        rfl
      · exact fun d hd => ⟨Nat.le_of_succ_le (hrows d hd).1, (hrows d hd).2⟩

end Invariant

end TrueFigure.Server
