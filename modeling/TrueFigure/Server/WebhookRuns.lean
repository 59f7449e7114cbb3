import TrueFigure.Library.Runs
import TrueFigure.Server.Webhooks

/-!
# Deliveries to dead subscriptions

The webhook operations in any order, each with the points at which another may
come between. `deliver_once` does not look at the status of the webhook, so a
webhook that leaves `verified` gets what was queued before. Where nothing is
queued when a webhook leaves `verified`, only verified webhooks are called.
-/
namespace TrueFigure.Server

open TrueFigure.Library TrueFigure.Python

/-- An `emit` between its `SELECT` and its inserts. -/
structure Emission where
  eventType : WebhookEventType
  payload : Dict
  now : ℕ
  hooks : List ℕ

/-- The tables, the open emissions, the webhooks that have answered their
challenge, and the attempts before and after the sender has answered. -/
structure HookWorld where
  tables : HookTables
  emitting : List Emission
  verifying : List ℕ
  attempting : List Attempt
  answered : List (Attempt × ℕ)

inductive HookLabel
  | create | delete | challenge | verify | select | enqueue | lock
  | send (a : Attempt) (call : SenderCall)
  | record | abandon

namespace HookWorld

variable (w : HookWorld)

/-- The attempts whose delivery is locked. -/
def held : List Attempt := w.attempting ++ w.answered.map Prod.fst

def Verified (id : ℕ) : Prop :=
  ∃ row ∈ w.tables.webhooks, row.id = id ∧ row.webhookStatus = .verified

/-- Nothing is queued for the webhook and no open emission has selected it. -/
def Drained (id : ℕ) : Prop :=
  (∀ d ∈ w.tables.deliveries, d.webhookId = id → d.deliveryStatus ≠ .retrying) ∧
    ∀ e ∈ w.emitting, id ∉ e.hooks

end HookWorld

variable (env : HookEnv)

/-- One step of one of the operations. -/
inductive HookStep : HookWorld → HookLabel → HookWorld → Prop
  | create {w : HookWorld} {workspaceId : ℕ} {body : WebhookCreate} {ref : String}
      {reply : CreateReply} {t : HookTables}
      (h : createWebhook env workspaceId body ref w.tables = .ok (reply, t)) :
      HookStep w .create { w with tables := t }
  | delete {w : HookWorld} {workspaceId : ℕ} {ref : String} {t : HookTables}
      (h : deleteWebhook ref workspaceId w.tables = .ok t) :
      HookStep w .delete { w with tables := t }
  /-- The challenge is answered with success. -/
  | challenge {w : HookWorld} {workspaceId : ℕ} {ref : String} {row : WebhookRow}
      (h : w.tables.unverified ref workspaceId = some row) :
      HookStep w .challenge { w with verifying := row.id :: w.verifying }
  | verify {w : HookWorld} {before after : List ℕ} {id : ℕ}
      (h : w.verifying = before ++ id :: after) :
      HookStep w .verify
        { w with tables := w.tables.markVerified id, verifying := before ++ after }
  | select (w : HookWorld) (workspaceId : ℕ) (eventType : WebhookEventType) (payload : Dict)
      (now : ℕ) :
      HookStep w .select { w with
        emitting := ⟨eventType, payload, now, w.tables.subscribers workspaceId eventType⟩ ::
          w.emitting }
  | enqueue {w : HookWorld} {before after : List Emission} {e : Emission}
      (h : w.emitting = before ++ e :: after) :
      HookStep w .enqueue { w with
        tables := w.tables.enqueue env e.eventType e.payload e.now e.hooks
        emitting := before ++ after }
  /-- `deliver_once` locks a due delivery that no other session has locked. -/
  | lock {w : HookWorld} {now : ℕ} {a : Attempt}
      (h : a ∈ w.tables.candidates (w.held.map fun b => b.delivery.id) now)
      (hleast : ∀ b ∈ w.tables.candidates (w.held.map fun b => b.delivery.id) now,
        a.delivery.nextRetryAt.getD 0 ≤ b.delivery.nextRetryAt.getD 0) :
      HookStep w .lock { w with attempting := a :: w.attempting }
  /-- The sender is called and answers. -/
  | send {w : HookWorld} {before after : List Attempt} {a : Attempt} {call : SenderCall}
      (status : ℕ) (h : w.attempting = before ++ a :: after) (hcall : a.call env = some call) :
      HookStep w (.send a call)
        { w with attempting := before ++ after, answered := (a, status) :: w.answered }
  | record {w : HookWorld} {before after : List (Attempt × ℕ)} {a : Attempt} {status : ℕ}
      (h : w.answered = before ++ (a, status) :: after) :
      HookStep w .record
        { w with tables := (a.record status w.tables).2, answered := before ++ after }
  /-- A worker fails before its commit. -/
  | abandon {w : HookWorld} {emitting : List Emission} {verifying : List ℕ}
      {attempting : List Attempt} {answered : List (Attempt × ℕ)}
      (hemitting : emitting.Sublist w.emitting) (hverifying : verifying.Sublist w.verifying)
      (hattempting : attempting.Sublist w.attempting) (hanswered : answered.Sublist w.answered) :
      HookStep w .abandon
        { w with
          emitting := emitting
          verifying := verifying
          attempting := attempting
          answered := answered }

/-- A step that takes a webhook out of `verified` only once nothing is queued for it. -/
def DrainedStep (w : HookWorld) (l : HookLabel) (w' : HookWorld) : Prop :=
  HookStep env w l w' ∧ ∀ id, w.Verified id → ¬ w'.Verified id → w'.Drained id

/-- Where the step calls the sender, the webhook is verified. -/
def SendsToVerified (x : HookWorld × HookLabel) : Prop :=
  ∀ a call, x.2 = .send a call →
    ∀ row ∈ x.1.tables.webhooks, row.id = a.delivery.webhookId → row.webhookStatus = .verified

/-- Empty tables and nobody at work. -/
def HookWorld.initial : HookWorld := ⟨⟨[], [], 0, 0⟩, [], [], [], []⟩

/-! ### What a step does to the tables -/

/-- The rows differ in their status at most. -/
def WebhookRow.SameBut (r r' : WebhookRow) : Prop :=
  r' = { r with webhookStatus := r'.webhookStatus }

/-- Webhooks change in their status only, and a new one has the next id, a new
reference and a new subscription. -/
inductive WebhookChange (env : HookEnv) (t t' : HookTables) : Prop
  | update (g : WebhookRow → WebhookRow) (hg : ∀ r : WebhookRow, r.SameBut (g r))
      (hrows : t'.webhooks = t.webhooks.map g) (hnext : t'.nextWebhook = t.nextWebhook)
  | insert (row : WebhookRow) (hrow : row.id = t.nextWebhook)
      (href : ∀ r ∈ t.webhooks, r.webhookRef ≠ row.webhookRef)
      (hnew : t.existing row.workspaceId row.url row.webhookEventType = none)
      (hsecret : ∃ secret, row.secretHash = env.encrypt secret)
      (hrows : t'.webhooks = t.webhooks ++ [row]) (hnext : t'.nextWebhook = t.nextWebhook + 1)

theorem WebhookChange.of_eq {env : HookEnv} {t t' : HookTables} (hrows : t'.webhooks = t.webhooks)
    (hnext : t'.nextWebhook = t.nextWebhook) : WebhookChange env t t' :=
  .update id (fun _ => rfl) (hrows.trans (List.map_id _).symm) hnext

theorem webhookChange_setStatus (env : HookEnv) (t : HookTables) (status : WebhookStatus)
    (p : WebhookRow → Bool) : WebhookChange env t (t.setStatus status p) := by
  refine .update _ (fun r => ?_) rfl rfl
  split <;> rfl

theorem createWebhook_ok {env : HookEnv} {ws : ℕ} {body : WebhookCreate} {ref : String}
    {t t' : HookTables} {reply : CreateReply}
    (h : createWebhook env ws body ref t = .ok (reply, t')) :
    ∃ events, parseEvents body.events = .ok events ∧
      ((∃ row, t.existing ws body.url events = some row ∧ reply = .existing row.webhookRef ∧
          t' = t) ∨
        (t.existing ws body.url events = none ∧ (∀ r ∈ t.webhooks, r.webhookRef ≠ ref) ∧
          reply = .created ref ∧ t' = { t with
            webhooks := t.webhooks ++ [⟨t.nextWebhook, ws, .unverified, events, ref, body.url,
              env.encrypt body.secret⟩]
            nextWebhook := t.nextWebhook + 1 })) := by
  obtain ⟨events, hevents, h⟩ := bind_eq_ok h
  refine ⟨events, hevents, ?_⟩
  obtain ⟨url, hurl, h⟩ := bind_eq_ok h
  have hsame : url = body.url := by
    unfold bindText at hurl
    split_ifs at hurl
    exact (Except.ok.inj hurl).symm
  subst hsame
  split at h
  · rename_i row hrow
    obtain ⟨rfl, rfl⟩ := Prod.mk.inj (Except.ok.inj h)
    exact .inl ⟨row, hrow, rfl, rfl⟩
  · rename_i hnone
    split_ifs at h with hdraw hindex
    obtain ⟨rfl, rfl⟩ := Prod.mk.inj (Except.ok.inj h)
    refine .inr ⟨hnone, fun r hr heq => hdraw ?_, rfl, rfl⟩
    exact List.any_eq_true.2 ⟨r, hr, by simpa using heq⟩

theorem deleteWebhook_ok {ws : ℕ} {ref : String} {t t' : HookTables}
    (h : deleteWebhook ref ws t = .ok t') :
    t' = t.setStatus .deleted (WebhookRow.deletable ref ws) := by
  unfold deleteWebhook at h
  split_ifs at h
  exact (Except.ok.inj h).symm

theorem enqueue_webhooks (env : HookEnv) (eventType : WebhookEventType) (payload : Dict) (now : ℕ)
    (hooks : List ℕ) (t : HookTables) :
    (t.enqueue env eventType payload now hooks).webhooks = t.webhooks ∧
      (t.enqueue env eventType payload now hooks).nextWebhook = t.nextWebhook := by
  induction hooks generalizing t with
  | nil => exact ⟨rfl, rfl⟩
  | cons hook hooks ih => exact ih _

theorem enqueue_deliveries (env : HookEnv) (eventType : WebhookEventType) (payload : Dict)
    (now : ℕ) (hooks : List ℕ) (t : HookTables) :
    ∃ new : List DeliveryRow, (t.enqueue env eventType payload now hooks).deliveries =
        t.deliveries ++ new ∧ new.map DeliveryRow.webhookId = hooks ∧
      ∀ d ∈ new, d.webhookEventType = eventType ∧ d.deliveryStatus = .retrying ∧
        d.payload = payload ∧ d.nextRetryAt = some now ∧ d.attemptCount = 0 := by
  induction hooks generalizing t with
  | nil => exact ⟨[], by simp [HookTables.enqueue], rfl, by simp⟩
  | cons hook hooks ih =>
    obtain ⟨new, hdeliveries, hhooks, hnew⟩ := ih
      { t with
        deliveries := t.deliveries ++ [⟨t.nextDelivery, hook, eventType, .retrying,
          "dl_" ++ env.uuid t.nextDelivery, payload, 0, none, some now⟩]
        nextDelivery := t.nextDelivery + 1 }
    refine ⟨⟨t.nextDelivery, hook, eventType, .retrying, "dl_" ++ env.uuid t.nextDelivery,
      payload, 0, none, some now⟩ :: new, ?_, ?_, ?_⟩
    · rw [HookTables.enqueue, hdeliveries, List.append_assoc]
      rfl
    · rw [List.map_cons, hhooks]
    · exact List.forall_mem_cons.2 ⟨⟨rfl, rfl, rfl, rfl, rfl⟩, hnew⟩

/-- Recording an answer touches the attempt's delivery only, and revives none. -/
theorem record_deliveries (a : Attempt) (status : ℕ) (t : HookTables) :
    ∃ f : DeliveryRow → DeliveryRow,
      (a.record status t).2.deliveries =
        t.deliveries.map (fun d => if d.id = a.delivery.id then f d else d) ∧
      ∀ d, (f d).id = d.id ∧ (f d).webhookId = d.webhookId ∧
        ((f d).deliveryStatus = .retrying → d.deliveryStatus = .retrying) := by
  unfold Attempt.record
  dsimp only
  split_ifs
  · exact ⟨_, rfl, fun d => ⟨rfl, rfl, fun h => by cases h⟩⟩
  · exact ⟨_, rfl, fun d => ⟨rfl, rfl, fun h => by cases h⟩⟩
  · exact ⟨_, rfl, fun d => ⟨rfl, rfl, id⟩⟩

theorem record_webhooks (env : HookEnv) (a : Attempt) (status : ℕ) (t : HookTables) :
    WebhookChange env t (a.record status t).2 := by
  unfold Attempt.record
  dsimp only
  split_ifs
  · exact .of_eq rfl rfl
  · refine .update _ (fun r => ?_) rfl rfl
    split <;> rfl
  · exact .of_eq rfl rfl

theorem mem_candidates {t : HookTables} {lockedIds : List ℕ} {now : ℕ} {a : Attempt} :
    a ∈ t.candidates lockedIds now ↔ a.now = now ∧ a.delivery ∈ t.deliveries ∧
      a.delivery.due now = true ∧ a.delivery.id ∉ lockedIds ∧
      ∃ row ∈ t.webhooks, row.id = a.delivery.webhookId ∧ row.url = a.url ∧
        row.secretHash = a.secretHash := by
  unfold HookTables.candidates
  rw [List.mem_flatMap]
  constructor
  · rintro ⟨d, hd, ha⟩
    split_ifs at ha with hdue
    · obtain ⟨row, hrow, rfl⟩ := List.mem_map.1 ha
      obtain ⟨hmem, hid⟩ := List.mem_filter.1 hrow
      exact ⟨rfl, hd, hdue.1, hdue.2, row, hmem, by simpa using hid, rfl, rfl⟩
    · cases ha
  · rintro ⟨rfl, hd, hdue, hfree, row, hmem, hid, hurl, hsecret⟩
    refine ⟨a.delivery, hd, ?_⟩
    rw [if_pos ⟨hdue, hfree⟩]
    refine List.mem_map.2 ⟨row, List.mem_filter.2 ⟨hmem, by simpa using hid⟩, ?_⟩
    rw [hurl, hsecret]

/-! ### Invariants -/

/-- The constraints of `webhooks`, and what its secrets are. -/
structure WebhookKeys (env : HookEnv) (t : HookTables) : Prop where
  below : ∀ r ∈ t.webhooks, r.id < t.nextWebhook
  ids : ∀ r ∈ t.webhooks, ∀ r' ∈ t.webhooks, r.id = r'.id → r = r'
  refs : ∀ r ∈ t.webhooks, ∀ r' ∈ t.webhooks, r.webhookRef = r'.webhookRef → r = r'
  subscriptions : ∀ r ∈ t.webhooks, ∀ r' ∈ t.webhooks, r.workspaceId = r'.workspaceId →
    r.url = r'.url → r.webhookEventType = r'.webhookEventType → r = r'
  secrets : ∀ r ∈ t.webhooks, ∃ secret, r.secretHash = env.encrypt secret

theorem existing_eq_none {t : HookTables} {ws : ℕ} {url : String} {events : List WebhookEventType} :
    t.existing ws url events = none ↔ ∀ r ∈ t.webhooks,
      ¬ (r.workspaceId = ws ∧ r.url = url ∧ r.webhookEventType = events) := by
  simp [HookTables.existing, List.find?_eq_none]

namespace WebhookKeys

variable {env : HookEnv} {t t' : HookTables}

theorem update (h : WebhookKeys env t) {g : WebhookRow → WebhookRow} (hg : ∀ r : WebhookRow, r.SameBut (g r))
    (hrows : t'.webhooks = t.webhooks.map g) (hnext : t'.nextWebhook = t.nextWebhook) :
    WebhookKeys env t' := by
  have hfields : ∀ r, (g r).id = r.id ∧ (g r).webhookRef = r.webhookRef ∧
      (g r).workspaceId = r.workspaceId ∧ (g r).url = r.url ∧
      (g r).webhookEventType = r.webhookEventType ∧ (g r).secretHash = r.secretHash := by
    intro r
    rw [hg r]
    exact ⟨rfl, rfl, rfl, rfl, rfl, rfl⟩
  have hmem : ∀ r' ∈ t'.webhooks, ∃ r ∈ t.webhooks, g r = r' := by
    intro r' hr'
    rw [hrows] at hr'
    exact List.mem_map.1 hr'
  have hpair : ∀ p : WebhookRow → WebhookRow → Prop,
      (∀ r ∈ t.webhooks, ∀ r' ∈ t.webhooks, p (g r) (g r') → r = r') →
        ∀ r ∈ t'.webhooks, ∀ r' ∈ t'.webhooks, p r r' → r = r' := by
    intro p hp a ha b hb hab
    obtain ⟨r, hr, rfl⟩ := hmem a ha
    obtain ⟨r', hr', rfl⟩ := hmem b hb
    rw [hp r hr r' hr' hab]
  refine ⟨?_, ?_, ?_, ?_, ?_⟩
  · intro r' hr'
    obtain ⟨r, hr, rfl⟩ := hmem r' hr'
    rw [(hfields r).1, hnext]
    exact h.below r hr
  · refine hpair (fun r r' => r.id = r'.id) fun r hr r' hr' heq => h.ids r hr r' hr' ?_
    rwa [(hfields r).1, (hfields r').1] at heq
  · refine hpair (fun r r' => r.webhookRef = r'.webhookRef) fun r hr r' hr' heq =>
      h.refs r hr r' hr' ?_
    rwa [(hfields r).2.1, (hfields r').2.1] at heq
  · have := hpair (fun r r' => r.workspaceId = r'.workspaceId ∧ r.url = r'.url ∧
      r.webhookEventType = r'.webhookEventType) fun r hr r' hr' heq => by
        obtain ⟨-, -, hws, hurl, hevents, -⟩ := hfields r
        obtain ⟨-, -, hws', hurl', hevents', -⟩ := hfields r'
        rw [hws, hurl, hevents, hws', hurl', hevents'] at heq
        exact h.subscriptions r hr r' hr' heq.1 heq.2.1 heq.2.2
    exact fun r hr r' hr' hws hurl hevents => this r hr r' hr' ⟨hws, hurl, hevents⟩
  · intro r' hr'
    obtain ⟨r, hr, rfl⟩ := hmem r' hr'
    rw [(hfields r).2.2.2.2.2]
    exact h.secrets r hr

theorem insert (h : WebhookKeys env t) {row : WebhookRow} (hrow : row.id = t.nextWebhook)
    (href : ∀ r ∈ t.webhooks, r.webhookRef ≠ row.webhookRef)
    (hnew : t.existing row.workspaceId row.url row.webhookEventType = none)
    (hsecret : ∃ secret, row.secretHash = env.encrypt secret)
    (hrows : t'.webhooks = t.webhooks ++ [row]) (hnext : t'.nextWebhook = t.nextWebhook + 1) :
    WebhookKeys env t' := by
  rw [existing_eq_none] at hnew
  have hmem : ∀ r ∈ t'.webhooks, r ∈ t.webhooks ∨ r = row := by
    intro r hr
    rwa [hrows, List.mem_append, List.mem_singleton] at hr
  refine ⟨?_, ?_, ?_, ?_, ?_⟩
  · intro r hr
    rw [hnext]
    rcases hmem r hr with hr | rfl
    · exact (h.below r hr).trans (Nat.lt_succ_self _)
    · omega
  · intro a ha b hb hab
    rcases hmem a ha with ha | rfl <;> rcases hmem b hb with hb | rfl
    · exact h.ids a ha b hb hab
    · have := h.below a ha
      omega
    · have := h.below b hb
      omega
    · rfl
  · intro a ha b hb hab
    rcases hmem a ha with ha | rfl <;> rcases hmem b hb with hb | rfl
    · exact h.refs a ha b hb hab
    · exact absurd hab (href a ha)
    · exact absurd hab.symm (href b hb)
    · rfl
  · intro a ha b hb hws hurl hevents
    rcases hmem a ha with ha | rfl <;> rcases hmem b hb with hb | rfl
    · exact h.subscriptions a ha b hb hws hurl hevents
    · exact absurd ⟨hws, hurl, hevents⟩ (hnew a ha)
    · exact absurd ⟨hws.symm, hurl.symm, hevents.symm⟩ (hnew b hb)
    · rfl
  · intro r hr
    rcases hmem r hr with hr | rfl
    · exact h.secrets r hr
    · exact hsecret

theorem change (h : WebhookKeys env t) (hchange : WebhookChange env t t') : WebhookKeys env t' := by
  cases hchange with
  | update g hg hrows hnext => exact h.update hg hrows hnext
  | insert row hrow href hnew hsecret hrows hnext =>
    exact h.insert hrow href hnew hsecret hrows hnext

end WebhookKeys

variable {env : HookEnv} {w w' : HookWorld} {l : HookLabel}

theorem HookStep.change (hs : HookStep env w l w') : WebhookChange env w.tables w'.tables := by
  cases hs with
  | create hcreate =>
    obtain ⟨events, -, ⟨row, -, -, rfl⟩ | ⟨hnew, href, -, rfl⟩⟩ := createWebhook_ok hcreate
    · exact .of_eq rfl rfl
    · exact .insert _ rfl href hnew ⟨_, rfl⟩ rfl rfl
  | delete hdelete =>
    rw [deleteWebhook_ok hdelete]
    exact webhookChange_setStatus _ _ _ _
  | verify => exact webhookChange_setStatus _ _ _ _
  | @enqueue before after e hemitting =>
    obtain ⟨hwebhooks, hnext⟩ :=
      enqueue_webhooks env e.eventType e.payload e.now e.hooks w.tables
    exact .of_eq hwebhooks hnext
  | record => exact record_webhooks _ _ _ _
  | _ => exact .of_eq rfl rfl

/-- What a verified webhook relies on, whatever the steps. -/
structure HeldOk (env : HookEnv) (w : HookWorld) : Prop where
  keys : WebhookKeys env w.tables
  held : ∀ a ∈ w.held, ∃ d ∈ w.tables.deliveries, d.id = a.delivery.id ∧
    d.webhookId = a.delivery.webhookId ∧ d.deliveryStatus = .retrying
  locks : (w.held.map fun a => a.delivery.id).Nodup

/-- Only verified webhooks have anything queued. -/
structure QueuedOk (env : HookEnv) (w : HookWorld) : Prop extends HeldOk env w where
  queued : ∀ d ∈ w.tables.deliveries, d.deliveryStatus = .retrying → w.Verified d.webhookId
  emissions : ∀ e ∈ w.emitting, ∀ id ∈ e.hooks, w.Verified id

namespace HeldOk

/-- A world with the same attempts and every held delivery in place. -/
theorem congr (h : HeldOk env w) (hkeys : WebhookKeys env w'.tables)
    (hheld : w'.held.Perm w.held)
    (hdeliveries : ∀ d ∈ w.tables.deliveries, d ∈ w'.tables.deliveries) : HeldOk env w' where
  keys := hkeys
  held a ha := by
    obtain ⟨d, hd, h⟩ := h.held a (hheld.subset ha)
    exact ⟨d, hdeliveries d hd, h⟩
  locks := (hheld.map _).nodup_iff.2 h.locks

theorem step (h : HeldOk env w) (hs : HookStep env w l w') : HeldOk env w' := by
  have hkeys := h.keys.change hs.change
  cases hs with
  | create hcreate =>
    obtain ⟨events, -, ⟨row, -, -, rfl⟩ | ⟨-, -, -, rfl⟩⟩ := createWebhook_ok hcreate
    · exact h
    · exact h.congr hkeys (.refl _) fun d hd => hd
  | delete hdelete =>
    refine h.congr hkeys (.refl _) fun d hd => ?_
    rwa [deleteWebhook_ok hdelete]
  | @enqueue before after e hemitting =>
    obtain ⟨new, hnew, -⟩ := enqueue_deliveries env e.eventType e.payload e.now e.hooks w.tables
    refine h.congr hkeys (.refl _) fun d hd => ?_
    rw [hnew]
    exact List.mem_append_left _ hd
  | @lock now a ha hleast =>
    obtain ⟨-, hd, hdue, hfree, -⟩ := mem_candidates.1 ha
    refine ⟨hkeys, ?_, ?_⟩
    · intro b hb
      rcases List.mem_cons.1 hb with rfl | hb
      · simp only [DeliveryRow.due, decide_eq_true_eq] at hdue
        exact ⟨_, hd, rfl, rfl, hdue.1⟩
      · exact h.held b hb
    · exact List.nodup_cons.2 ⟨hfree, h.locks⟩
  | @send before after a call status hattempting hcall =>
    refine h.congr hkeys ?_ fun d hd => hd
    simp only [HookWorld.held, hattempting, List.map_cons]
    calc before ++ after ++ a :: w.answered.map Prod.fst
        _ = before ++ (after ++ a :: w.answered.map Prod.fst) := List.append_assoc _ _ _
        List.Perm _ (before ++ (a :: (after ++ w.answered.map Prod.fst))) :=
          List.Perm.append_left _ List.perm_middle
        _ = before ++ a :: after ++ w.answered.map Prod.fst := by simp
  | @record before after a status hanswered =>
    have hheld : w.held.Perm (a :: (w.attempting ++ (before ++ after).map Prod.fst)) := by
      simp only [HookWorld.held, hanswered, List.map_append, List.map_cons]
      rw [← List.append_assoc, ← List.append_assoc]
      exact List.perm_middle
    have hlocks := (hheld.map fun b => b.delivery.id).nodup_iff.1 h.locks
    rw [List.map_cons, List.nodup_cons] at hlocks
    refine ⟨hkeys, fun b hb => ?_, hlocks.2⟩
    obtain ⟨f, hdeliveries, hf⟩ := record_deliveries a status w.tables
    obtain ⟨d, hd, hid, hwebhook, hstatus⟩ := h.held b (hheld.symm.subset (List.mem_cons_of_mem _ hb))
    refine ⟨d, ?_, hid, hwebhook, hstatus⟩
    rw [hdeliveries]
    refine List.mem_map.2 ⟨d, hd, if_neg fun heq => hlocks.1 ?_⟩
    exact List.mem_map.2 ⟨b, hb, by rw [← hid, heq]⟩
  | abandon _ _ hattempting hanswered =>
    have hsub := hattempting.append (hanswered.map Prod.fst)
    refine ⟨hkeys, fun a ha => h.held a (hsub.subset ha), ?_⟩
    exact h.locks.sublist (hsub.map _)
  | _ => exact h.congr hkeys (.refl _) fun d hd => hd

end HeldOk

section Queue

/-- Whatever is queued after a step was queued before it, or is for a webhook that
an emission has selected. -/
theorem HookStep.queued (hs : HookStep env w l w') {d : DeliveryRow}
    (hd : d ∈ w'.tables.deliveries) (hstatus : d.deliveryStatus = .retrying) :
    (∃ d' ∈ w.tables.deliveries, d'.webhookId = d.webhookId ∧ d'.deliveryStatus = .retrying) ∨
      ∃ e ∈ w.emitting, d.webhookId ∈ e.hooks := by
  cases hs with
  | create hcreate =>
    obtain ⟨events, -, ⟨row, -, -, rfl⟩ | ⟨-, -, -, rfl⟩⟩ := createWebhook_ok hcreate
    · exact .inl ⟨d, hd, rfl, hstatus⟩
    · exact .inl ⟨d, hd, rfl, hstatus⟩
  | delete hdelete =>
    rw [deleteWebhook_ok hdelete] at hd
    exact .inl ⟨d, hd, rfl, hstatus⟩
  | @enqueue before after e hemitting =>
    obtain ⟨new, hnew, hhooks, -⟩ :=
      enqueue_deliveries env e.eventType e.payload e.now e.hooks w.tables
    rw [hnew] at hd
    rcases List.mem_append.1 hd with hd | hd
    · exact .inl ⟨d, hd, rfl, hstatus⟩
    · refine .inr ⟨e, by simp [hemitting], ?_⟩
      rw [← hhooks]
      exact List.mem_map_of_mem hd
  | @record before after a status hanswered =>
    obtain ⟨f, hdeliveries, hf⟩ := record_deliveries a status w.tables
    rw [hdeliveries] at hd
    obtain ⟨d', hd', rfl⟩ := List.mem_map.1 hd
    split_ifs at hstatus ⊢ with hid
    · exact .inl ⟨d', hd', (hf d').2.1.symm, (hf d').2.2 hstatus⟩
    · exact .inl ⟨d', hd', rfl, hstatus⟩
  | _ => exact .inl ⟨d, hd, rfl, hstatus⟩

theorem verified_of_subscriber {id workspaceId : ℕ} {eventType : WebhookEventType}
    (h : id ∈ w.tables.subscribers workspaceId eventType) : w.Verified id := by
  obtain ⟨row, hrow, rfl⟩ := List.mem_map.1 h
  obtain ⟨hmem, hverified⟩ := List.mem_filter.1 hrow
  simp only [decide_eq_true_eq] at hverified
  exact ⟨row, hmem, rfl, hverified.2.1⟩

/-- An emission open after a step was open before it or has just selected
verified webhooks. -/
theorem HookStep.emissions (hs : HookStep env w l w') {e : Emission} (he : e ∈ w'.emitting) :
    e ∈ w.emitting ∨ ∀ id ∈ e.hooks, w.Verified id := by
  cases hs with
  | select workspaceId eventType payload now =>
    rcases List.mem_cons.1 he with rfl | he
    · exact .inr fun id hid => verified_of_subscriber hid
    · exact .inl he
  | @enqueue before after e' hemitting =>
    refine .inl ?_
    rw [hemitting]
    rcases List.mem_append.1 he with he | he
    · exact List.mem_append_left _ he
    · exact List.mem_append_right _ (List.mem_cons_of_mem _ he)
  | abandon hemitting _ _ _ => exact .inl (hemitting.subset he)
  | _ => exact .inl he

theorem QueuedOk.step (h : QueuedOk env w) (hs : DrainedStep env w l w') : QueuedOk env w' := by
  obtain ⟨hs, hdrained⟩ := hs
  refine ⟨h.toHeldOk.step hs, fun d hd hstatus => ?_, fun e he id hid => ?_⟩
  · have hverified : w.Verified d.webhookId := by
      rcases hs.queued hd hstatus with ⟨d', hd', hid, hstatus'⟩ | ⟨e, he, hid⟩
      · rw [← hid]
        exact h.queued d' hd' hstatus'
      · exact h.emissions e he _ hid
    by_contra hnot
    exact (hdrained _ hverified hnot).1 d hd rfl hstatus
  · have hverified : w.Verified id := by
      rcases hs.emissions he with he | hselected
      · exact h.emissions e he id hid
      · exact hselected id hid
    by_contra hnot
    exact (hdrained _ hverified hnot).2 e he hid

theorem webhookKeys_initial : WebhookKeys env HookWorld.initial.tables := by
  constructor <;> exact fun _ hr => (List.not_mem_nil hr).elim

theorem queuedOk_initial : QueuedOk env .initial where
  keys := webhookKeys_initial
  held _ ha := (List.not_mem_nil ha).elim
  locks := .nil
  queued _ hd := (List.not_mem_nil hd).elim
  emissions _ he := (List.not_mem_nil he).elim

/-- Where a webhook leaves `verified` only with nothing queued for it, the sender
is called for verified webhooks only. -/
theorem sendsToVerified_of_drained {trace : List (HookWorld × HookLabel)}
    (hrun : Run (DrainedStep env) .initial trace w) : ∀ x ∈ trace, SendsToVerified x := by
  obtain ⟨-, htrace⟩ := hrun.invariant queuedOk_initial fun _ _ _ h hs => h.step hs
  rintro ⟨v, l⟩ hx a call rfl row hrow hid
  have hok : QueuedOk env v := htrace _ hx
  obtain ⟨u, hs, -⟩ := hrun.step_of_mem hx
  have ha : a ∈ v.held := by
    cases hs with
    | send status hattempting hcall =>
      refine List.mem_append_left _ ?_
      rw [show v.attempting = _ from hattempting]
      simp
  obtain ⟨d, hd, -, hwebhook, hstatus⟩ := hok.held a ha
  obtain ⟨row', hrow', hid', hverified⟩ := hok.queued d hd hstatus
  rw [hok.keys.ids row hrow row' hrow' (by rw [hid, hid', hwebhook])]
  exact hverified

end Queue

/-! ### A subscription that is deleted -/

section Sample

variable (env : HookEnv)

def figureHook : WebhookCreate where
  url := "https://hook.example/x"
  events := ["figure.updated"]
  secret := "whsecret"
  events_ne := by simp

/-- The tables with one webhook and these deliveries. -/
def oneHook (status : WebhookStatus) (deliveries : List DeliveryRow) : HookTables where
  webhooks := [⟨0, 1, status, [.figureUpdated], "wh_1", "https://hook.example/x",
    env.encrypt "whsecret"⟩]
  deliveries := deliveries
  nextWebhook := 1
  nextDelivery := deliveries.length

def figureDelivery : DeliveryRow :=
  ⟨0, 0, .figureUpdated, .retrying, "dl_" ++ env.uuid 0, [], 0, none, some 5⟩

def waiting (status : WebhookStatus) : HookWorld :=
  ⟨oneHook env status [figureDelivery env], [], [], [], []⟩

def figureAttempt : Attempt :=
  ⟨figureDelivery env, "https://hook.example/x", env.encrypt "whsecret", 5⟩

theorem figureAttempt_call : ∃ call, (figureAttempt env).call env = some call := by
  simp only [Attempt.call, figureAttempt, SecretBox.decrypt_encrypt, Option.bind_eq_bind,
    Option.bind_some]
  exact ⟨_, rfl⟩

theorem drainedStep_of_verified {w w' : HookWorld} {l : HookLabel} (hs : HookStep env w l w')
    (h : ∀ id, w.Verified id → w'.Verified id) : DrainedStep env w l w' :=
  ⟨hs, fun id hid hid' => absurd (h id hid) hid'⟩

/-- The first post of the body, where its subscription fits the index. -/
theorem createWebhook_figureHook (hindex : env.indexable 1 figureHook.url [.figureUpdated] = true) :
    createWebhook env 1 figureHook "wh_1" HookWorld.initial.tables =
      .ok (.created "wh_1", oneHook env .unverified []) := by
  have hevents : parseEvents figureHook.events = .ok [.figureUpdated] := by rfl
  have hurl : bindText figureHook.url = .ok figureHook.url := by rfl
  simp only [createWebhook, hevents, hurl, bind, Except.bind, HookWorld.initial,
    HookTables.existing, List.find?_nil, hindex]
  rfl

/-- Nobody at work beside these tables. -/
def quiet (t : HookTables) : HookWorld := ⟨t, [], [], [], []⟩

theorem step_create (hindex : env.indexable 1 figureHook.url [.figureUpdated] = true) :
    HookStep env .initial .create (quiet (oneHook env .unverified [])) :=
  .create (createWebhook_figureHook env hindex)

theorem step_challenge : HookStep env (quiet (oneHook env .unverified [])) .challenge
    ⟨oneHook env .unverified [], [], [0], [], []⟩ := by
  have hrow : (oneHook env .unverified []).unverified "wh_1" 1 = some ⟨0, 1, .unverified,
      [.figureUpdated], "wh_1", "https://hook.example/x", env.encrypt "whsecret"⟩ := by rfl
  exact .challenge (w := quiet (oneHook env .unverified [])) hrow

theorem step_verify : HookStep env ⟨oneHook env .unverified [], [], [0], [], []⟩ .verify
    (quiet (oneHook env .verified [])) :=
  .verify (w := ⟨oneHook env .unverified [], [], [0], [], []⟩)
    (show [0] = [] ++ 0 :: [] from rfl)

theorem step_select : HookStep env (quiet (oneHook env .verified [])) .select
    ⟨oneHook env .verified [], [⟨.figureUpdated, [], 5, [0]⟩], [], [], []⟩ :=
  .select (quiet (oneHook env .verified [])) 1 .figureUpdated [] 5

theorem step_enqueue :
    HookStep env ⟨oneHook env .verified [], [⟨.figureUpdated, [], 5, [0]⟩], [], [], []⟩ .enqueue
      (waiting env .verified) :=
  .enqueue (w := ⟨oneHook env .verified [], [⟨.figureUpdated, [], 5, [0]⟩], [], [], []⟩)
    (show [_] = [] ++ (⟨.figureUpdated, [], 5, [0]⟩ : Emission) :: [] from rfl)

theorem step_delete : HookStep env (waiting env .verified) .delete (waiting env .deleted) := by
  have hdelete : deleteWebhook "wh_1" 1 (oneHook env .verified [figureDelivery env]) =
      .ok (oneHook env .deleted [figureDelivery env]) := by rfl
  exact .delete (w := waiting env .verified) hdelete

def lockedDelivery (status : WebhookStatus) : HookWorld :=
  ⟨oneHook env status [figureDelivery env], [], [], [figureAttempt env], []⟩

theorem step_lock (status : WebhookStatus) :
    HookStep env (waiting env status) .lock (lockedDelivery env status) := by
  have hcandidates : (waiting env status).tables.candidates
      ((waiting env status).held.map fun b => b.delivery.id) 5 = [figureAttempt env] := by rfl
  have hmem : figureAttempt env ∈ (waiting env status).tables.candidates
      ((waiting env status).held.map fun b => b.delivery.id) 5 := by
    rw [hcandidates]
    exact List.mem_singleton_self _
  refine .lock hmem fun b hb => ?_
  rw [hcandidates, List.mem_singleton] at hb
  rw [hb]

theorem step_send (status : WebhookStatus) {call : SenderCall}
    (hcall : (figureAttempt env).call env = some call) :
    HookStep env (lockedDelivery env status) (.send (figureAttempt env) call)
      ⟨oneHook env status [figureDelivery env], [], [], [], [(figureAttempt env, 200)]⟩ :=
  .send (w := lockedDelivery env status) 200
    (show [_] = [] ++ figureAttempt env :: [] from rfl) hcall

/-- A webhook is subscribed and verified, and a delivery queued for it. -/
theorem run_waiting (hindex : env.indexable 1 figureHook.url [.figureUpdated] = true) : ∃ trace, Run (DrainedStep env) .initial trace (waiting env .verified) := by
  have hnone : ∀ t : HookTables, (∀ r ∈ t.webhooks, r.webhookStatus ≠ .verified) →
      ∀ {w w' : HookWorld}, w.tables = t → ∀ id, w.Verified id → w'.Verified id := by
    rintro t ht w w' rfl id ⟨r, hr, -, hverified⟩
    exact absurd hverified (ht r hr)
  refine ⟨_, .head (drainedStep_of_verified env (step_create env hindex) ?_) <|
    .head (drainedStep_of_verified env (step_challenge env) ?_) <|
    .head (drainedStep_of_verified env (step_verify env) ?_) <|
    .head (drainedStep_of_verified env (step_select env) ?_) <|
    .single (drainedStep_of_verified env (step_enqueue env) ?_)⟩
  · exact hnone _ (by simp [HookWorld.initial]) rfl
  · exact hnone _ (by simp [quiet, oneHook]) rfl
  · exact hnone _ (by simp [oneHook]) rfl
  · exact fun id h => h
  · exact fun id h => h

def deliveredDelivery : DeliveryRow :=
  { figureDelivery env with
    deliveryStatus := .delivered
    attemptCount := 1
    lastHttpStatus := some 200
    nextRetryAt := none }

theorem step_record :
    HookStep env ⟨oneHook env .verified [figureDelivery env], [], [], [], [(figureAttempt env, 200)]⟩
      .record (quiet (oneHook env .verified [deliveredDelivery env])) :=
  .record (w := ⟨oneHook env .verified [figureDelivery env], [], [], [],
    [(figureAttempt env, 200)]⟩) (show [_] = [] ++ (figureAttempt env, 200) :: [] from rfl)

/-- Nothing is queued any more when the webhook goes. -/
theorem drainedStep_delete :
    DrainedStep env (quiet (oneHook env .verified [deliveredDelivery env])) .delete
      (quiet (oneHook env .deleted [deliveredDelivery env])) := by
  have hdelete : deleteWebhook "wh_1" 1 (oneHook env .verified [deliveredDelivery env]) =
      .ok (oneHook env .deleted [deliveredDelivery env]) := by rfl
  refine ⟨.delete (w := quiet (oneHook env .verified [deliveredDelivery env])) hdelete,
    fun id _ _ => ⟨fun d hd _ => ?_, fun e he => ?_⟩⟩
  · rw [List.mem_singleton.1 hd]
    simp [deliveredDelivery]
  · cases he

/-- The delivery goes out whatever has become of the webhook. -/
theorem run_send (status : WebhookStatus) : ∃ trace w call,
    Run (DrainedStep env) (waiting env status) trace w ∧
      (lockedDelivery env status, .send (figureAttempt env) call) ∈ trace := by
  obtain ⟨call, hcall⟩ := figureAttempt_call env
  refine ⟨_, _, call, .head (drainedStep_of_verified env (step_lock env status) fun id h => h) <|
    .single (drainedStep_of_verified env (step_send env status hcall) fun id h => h), ?_⟩
  simp

end Sample

def sampleHookEnv : HookEnv where
  sha256 _ := List.replicate 32 0
  hmacSha256 _ _ := List.replicate 32 0
  secretKey := ""
  sha256_length _ := rfl
  hmac_length _ _ := rfl
  dumps _ := "\x7b\x7d"
  uuid := toString
  indexable _ _ _ := true

/-- A run that sends, and deletes the webhook once its delivery has arrived. -/
theorem sendsToVerified_of_drained_sample : ∃ trace call,
    Run (DrainedStep sampleHookEnv) .initial trace
      (quiet (oneHook sampleHookEnv .deleted [deliveredDelivery sampleHookEnv])) ∧
      (lockedDelivery sampleHookEnv .verified, .send (figureAttempt sampleHookEnv) call) ∈ trace ∧
      ∀ x ∈ trace, SendsToVerified x := by
  obtain ⟨trace, hwaiting⟩ := run_waiting sampleHookEnv rfl
  obtain ⟨call, hcall⟩ := figureAttempt_call sampleHookEnv
  have hrun := hwaiting.append <|
    .head (drainedStep_of_verified _ (step_lock sampleHookEnv .verified) fun id h => h) <|
    .head (drainedStep_of_verified _ (step_send sampleHookEnv .verified hcall) fun id h => h) <|
    .head (drainedStep_of_verified _ (step_record sampleHookEnv) fun id h => h) <|
    .single (drainedStep_delete sampleHookEnv)
  exact ⟨_, call, hrun, by simp, sendsToVerified_of_drained hrun⟩

/-- The webhook is deleted with a delivery queued, which is then sent. -/
theorem deleted_webhook_called : ¬ ∀ trace w,
    Run (HookStep sampleHookEnv) .initial trace w → ∀ x ∈ trace, SendsToVerified x := by
  intro h
  obtain ⟨trace, hwaiting⟩ := run_waiting sampleHookEnv rfl
  obtain ⟨trace', w, call, hsend, hmem⟩ := run_send sampleHookEnv .deleted
  have hsteps : ∀ w l w', DrainedStep sampleHookEnv w l w' → HookStep sampleHookEnv w l w' :=
    fun _ _ _ hs => hs.1
  have hrun := (hwaiting.mono hsteps).append (.head (step_delete sampleHookEnv) (hsend.mono hsteps))
  have hverified := h _ w hrun _ (List.mem_append_right _ (List.mem_cons_of_mem _ hmem))
  have hdeleted := hverified _ call rfl _ (List.mem_singleton_self _) rfl
  cases hdeleted

end TrueFigure.Server
