import TrueFigure.Server.WebhookRuns

/-!
# Deleting a webhook that is being verified

`verify_webhook` stores the success of its challenge by id alone, whatever has
become of the webhook since it was read. Every other update looks at the status,
so a deleted webhook stays deleted unless such a success is stored after the
deletion.
-/
namespace TrueFigure.Server

open TrueFigure.Library TrueFigure.Python

variable {env : HookEnv} {w w' : HookWorld} {l : HookLabel} {ref : String} {ws : ℕ}
  {t : HookTables} {trace : List (HookWorld × HookLabel)}

/-- The webhook of this reference is there, and deleted. -/
structure HookTables.Deleted (t : HookTables) (ref : String) (ws : ℕ) : Prop where
  stored : ∃ row ∈ t.webhooks, row.webhookRef = ref
  deleted : ∀ row ∈ t.webhooks, row.webhookRef = ref → row.workspaceId = ws →
    row.webhookStatus = .deleted

/-- The step stores the success of the challenge of a webhook that is not
deleted. -/
def VerifiesLive (w w' : HookWorld) : Prop :=
  ∃ before id after, w.verifying = before ++ id :: after ∧
    w' = { w with tables := w.tables.markVerified id, verifying := before ++ after } ∧
    ∀ row ∈ w.tables.webhooks, row.id = id → row.webhookStatus ≠ .deleted

/-- A step that verifies no deleted webhook. -/
def LiveStep (env : HookEnv) (w : HookWorld) (l : HookLabel) (w' : HookWorld) : Prop :=
  HookStep env w l w' ∧ (l = .verify → VerifiesLive w w')

namespace HookTables.Deleted

/-- An update that spares the deleted row. -/
theorem setStatus (h : t.Deleted ref ws) {status : WebhookStatus} {p : WebhookRow → Bool}
    (hp : ∀ row ∈ t.webhooks, row.webhookStatus = .deleted → p row = true → status = .deleted) :
    (t.setStatus status p).Deleted ref ws := by
  have hfields : ∀ row : WebhookRow,
      (if p row then { row with webhookStatus := status } else row).webhookRef = row.webhookRef ∧
      (if p row then { row with webhookStatus := status } else row).workspaceId =
        row.workspaceId := by
    intro row
    split <;> exact ⟨rfl, rfl⟩
  constructor
  · obtain ⟨row, hrow, href⟩ := h.stored
    exact ⟨_, List.mem_map_of_mem hrow, (hfields row).1.trans href⟩
  · intro row' hrow' href hws
    obtain ⟨row, hrow, rfl⟩ := List.mem_map.1 hrow'
    have hdeleted := h.deleted row hrow ((hfields row).1.symm.trans href)
      ((hfields row).2.symm.trans hws)
    split_ifs with hpicked
    · exact hp row hrow hdeleted hpicked
    · exact hdeleted

theorem insert (h : t.Deleted ref ws) {row : WebhookRow} {next : ℕ}
    (href : ∀ r ∈ t.webhooks, r.webhookRef ≠ row.webhookRef) :
    HookTables.Deleted { t with webhooks := t.webhooks ++ [row], nextWebhook := next } ref ws := by
  obtain ⟨old, hold, holdRef⟩ := h.stored
  constructor
  · exact ⟨old, List.mem_append_left _ hold, holdRef⟩
  · intro r hr hrRef hrWs
    rcases List.mem_append.1 hr with hr | hr
    · exact h.deleted r hr hrRef hrWs
    · obtain rfl := List.mem_singleton.1 hr
      exact absurd (holdRef.trans hrRef.symm) (href old hold)

theorem of_webhooks_eq {t' : HookTables} (h : t.Deleted ref ws)
    (heq : t'.webhooks = t.webhooks) : t'.Deleted ref ws := by
  constructor
  · rw [heq]
    exact h.stored
  · rw [heq]
    exact h.deleted

theorem of_delete (h : deleteWebhook ref ws w.tables = .ok t) : t.Deleted ref ws := by
  rw [deleteWebhook_ok h]
  unfold deleteWebhook at h
  split_ifs at h with hany
  obtain ⟨row, hrow, hpicked⟩ := List.any_eq_true.1 hany
  have hcolumns : ∀ r : WebhookRow,
      (if WebhookRow.deletable ref ws r then { r with webhookStatus := .deleted }
        else r).webhookRef = r.webhookRef := by
    intro r
    split <;> rfl
  constructor
  · refine ⟨_, List.mem_map_of_mem hrow, (hcolumns row).trans ?_⟩
    simp only [WebhookRow.deletable, decide_eq_true_eq] at hpicked
    exact hpicked.1
  · intro row' hrow' href hws
    obtain ⟨r, hr, rfl⟩ := List.mem_map.1 hrow'
    split_ifs at href hws ⊢ with hdeletable
    · rfl
    · by_contra hlive
      exact hdeletable (decide_eq_true ⟨href, hws, hlive⟩)

end HookTables.Deleted

theorem LiveStep.deleted (hs : LiveStep env w l w') (h : w.tables.Deleted ref ws) :
    w'.tables.Deleted ref ws := by
  obtain ⟨hs, hlive⟩ := hs
  cases hs with
  | create hcreate =>
    obtain ⟨events, -, ⟨row, -, -, rfl⟩ | ⟨-, href, -, rfl⟩⟩ := createWebhook_ok hcreate
    · exact h
    · exact h.insert href
  | delete hdelete =>
    rw [deleteWebhook_ok hdelete]
    exact h.setStatus fun _ _ _ _ => rfl
  | verify hverifying =>
    obtain ⟨before, id, after, -, heq, hnot⟩ := hlive rfl
    rw [heq]
    refine h.setStatus fun row hrow hdeleted hid => ?_
    exact absurd hdeleted (hnot row hrow (of_decide_eq_true hid))
  | @enqueue before after e hemitting =>
    exact h.of_webhooks_eq
      (enqueue_webhooks env e.eventType e.payload e.now e.hooks w.tables).1
  | @record before after a status hanswered =>
    dsimp only [Attempt.record]
    split_ifs
    · exact h.of_webhooks_eq rfl
    · -- Only a verified webhook is suspended.
      have hupdated : ∀ f, (w.tables.updateDelivery a.delivery.id f).Deleted ref ws :=
        fun _ => h.of_webhooks_eq rfl
      refine (hupdated _).setStatus fun row _ hdeleted hpicked => ?_
      exact absurd (hdeleted.symm.trans (of_decide_eq_true hpicked).2) (by decide)
    · exact h.of_webhooks_eq rfl
  | _ => exact h

/-- Once `delete_webhook` has succeeded, the webhook is deleted in every later
state of a run in which no success of a challenge is stored for a webhook deleted
since it was read. -/
theorem deleted_stays_deleted (hdelete : deleteWebhook ref ws w.tables = .ok t)
    (hrun : Run (LiveStep env) { w with tables := t } trace w') : w'.tables.Deleted ref ws :=
  (hrun.invariant (I := fun v => v.tables.Deleted ref ws) (.of_delete hdelete)
    fun _ _ _ h hs => hs.deleted h).1

/-! ### A deletion during the challenge -/

section Sample

variable (env : HookEnv)

/-- A webhook that has answered its challenge. -/
def challenged (status : WebhookStatus) : HookWorld :=
  ⟨oneHook env status [], [], [0], [], []⟩

theorem run_challenged (hindex : env.indexable 1 figureHook.url [.figureUpdated] = true) :
    ∃ trace, Run (LiveStep env) .initial trace (challenged env .unverified) :=
  ⟨_, .head ⟨step_create env hindex, nofun⟩ (.single ⟨step_challenge env, nofun⟩)⟩

theorem delete_challenged : deleteWebhook "wh_1" 1 (challenged env .unverified).tables =
    .ok (oneHook env .deleted []) := by rfl

end Sample

/-- Deleted before its challenge is stored, and the worker fails. -/
theorem deleted_stays_deleted_abandoned : ∃ trace w t trace' w',
    Run (LiveStep sampleHookEnv) .initial trace w ∧ deleteWebhook "wh_1" 1 w.tables = .ok t ∧
      Run (LiveStep sampleHookEnv) { w with tables := t } trace' w' ∧
      w'.tables.Deleted "wh_1" 1 := by
  obtain ⟨trace, hreach⟩ := run_challenged sampleHookEnv rfl
  have habandon : HookStep sampleHookEnv (challenged sampleHookEnv .deleted) .abandon
      (quiet (oneHook sampleHookEnv .deleted [])) :=
    .abandon (w := challenged sampleHookEnv .deleted) (.refl _) (List.nil_sublist _) (.refl _)
      (.refl _)
  have hrun : Run (LiveStep sampleHookEnv) (challenged sampleHookEnv .deleted) _ _ :=
    .single ⟨habandon, nofun⟩
  exact ⟨_, _, _, _, _, hreach, delete_challenged sampleHookEnv, hrun,
    deleted_stays_deleted (delete_challenged sampleHookEnv) hrun⟩

/-- Deleted before its challenge is stored, the webhook is verified all the
same. -/
theorem deleted_then_verified : ¬ ∀ trace w t trace' w',
    Run (HookStep sampleHookEnv) .initial trace w → deleteWebhook "wh_1" 1 w.tables = .ok t →
      Run (HookStep sampleHookEnv) { w with tables := t } trace' w' →
        w'.tables.Deleted "wh_1" 1 := by
  intro h
  obtain ⟨trace, hreach⟩ := run_challenged sampleHookEnv rfl
  have hverify : HookStep sampleHookEnv (challenged sampleHookEnv .deleted) .verify
      (quiet (oneHook sampleHookEnv .verified [])) :=
    .verify (w := challenged sampleHookEnv .deleted) (show [0] = [] ++ 0 :: [] from rfl)
  have hdeleted := h _ _ _ _ _ (hreach.mono fun _ _ _ hs => hs.1)
    (delete_challenged sampleHookEnv) (.single hverify)
  have hstatus := hdeleted.deleted _ (List.mem_singleton_self _) rfl rfl
  cases hstatus

end TrueFigure.Server
