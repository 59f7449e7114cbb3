import TrueFigure.Server.WebhookRuns

/-!
# Subscribing again

What a post and a successful challenge leave. The post looks an existing webhook
up by its array of event types and returns it as it is: deleted or suspended, and
with its old secret. Another order of the same event types is another webhook; and
a deleted webhook is back once the success of an older challenge is stored for it.
-/
namespace TrueFigure.Server

open TrueFigure.Library TrueFigure.Python

variable {env : HookEnv} {ws : ℕ} {body : WebhookCreate} {events : List WebhookEventType}
  {ref : String} {row : WebhookRow} {t t' : HookTables} {w w' : HookWorld}

/-- The row is a verified webhook of the body's url, events and secret: emissions
reach it, and what they queue is sent to its url under its secret. -/
structure LiveSubscription (env : HookEnv) (ws : ℕ) (body : WebhookCreate)
    (events : List WebhookEventType) (row : WebhookRow) (t : HookTables) : Prop where
  stored : row ∈ t.webhooks
  workspace : row.workspaceId = ws
  url : row.url = body.url
  types : ∀ e, e ∈ row.webhookEventType ↔ e ∈ events
  verified : row.webhookStatus = .verified
  secret : env.decrypt row.secretHash = some body.secret
  enqueues : ∀ e ∈ events, ∀ payload now, ∃ new,
    (emit env ws e payload now t).2.deliveries = t.deliveries ++ new ∧
      ∃ d ∈ new, d.webhookId = row.id ∧ d.webhookEventType = e ∧ d.payload = payload ∧
        d.deliveryStatus = .retrying ∧ d.nextRetryAt = some now
  signed : ∀ e payload now, ∀ lockedIds now',
    ∀ a ∈ (emit env ws e payload now t).2.candidates lockedIds now',
      a.delivery.webhookId = row.id → ∃ call, a.call env = some call ∧ call.url = body.url ∧
        ("X-TrueFigure-Signature", env.sign body.secret (now' / 1000000)
          (encodeUtf8 (env.dumps a.delivery.payload))) ∈ call.headers

/-- A post of the body succeeds, and with a successful challenge of the webhook it
returns leaves a live subscription. -/
def Revived (env : HookEnv) (ws : ℕ) (body : WebhookCreate) (events : List WebhookEventType)
    (ref : String) (t : HookTables) : Prop :=
  ∃ reply t₁, createWebhook env ws body ref t = .ok (reply, t₁) ∧
    ∀ sender : SenderCall → ℕ, (∀ call, successful (sender call) = true) →
      ∃ answer t₂ row, verifyWebhook env reply.webhookId ws sender t₁ = .ok (answer, t₂) ∧
        row.webhookRef = reply.webhookId ∧ LiveSubscription env ws body events row t₂

/-- A new row can be stored: its reference is new and its subscription fits the index. -/
def HookFits (env : HookEnv) (ws : ℕ) (url : String) (events : List WebhookEventType)
    (ref : String) (t : HookTables) : Prop :=
  (∀ r ∈ t.webhooks, r.webhookRef ≠ ref) ∧ env.indexable ws url events = true

/-! ### Rows -/

theorem existing_eq_some (h : t.existing ws body.url events = some row) :
    row ∈ t.webhooks ∧ row.workspaceId = ws ∧ row.url = body.url ∧
      row.webhookEventType = events := by
  have hmatch := List.find?_some h
  simp only [decide_eq_true_eq] at hmatch
  exact ⟨List.mem_of_find?_eq_some h, hmatch⟩

theorem WebhookKeys.existing_of_mem (h : WebhookKeys env t) (hrow : row ∈ t.webhooks) :
    t.existing row.workspaceId row.url row.webhookEventType = some row := by
  cases hfind : t.existing row.workspaceId row.url row.webhookEventType with
  | none => exact absurd ⟨rfl, rfl, rfl⟩ (existing_eq_none.1 hfind row hrow)
  | some row' =>
    have hmatch := List.find?_some hfind
    simp only [decide_eq_true_eq] at hmatch
    rw [h.subscriptions row' (List.mem_of_find?_eq_some hfind) row hrow hmatch.1 hmatch.2.1
      hmatch.2.2]

theorem WebhookKeys.unverified_eq (h : WebhookKeys env t) (hrow : row ∈ t.webhooks) :
    t.unverified row.webhookRef row.workspaceId =
      if row.webhookStatus = .unverified then some row else none := by
  split_ifs with hstatus
  · cases hfind : t.unverified row.webhookRef row.workspaceId with
    | none =>
      rw [HookTables.unverified, List.find?_eq_none] at hfind
      exact absurd (by simp [hstatus]) (hfind row hrow)
    | some row' =>
      have hmatch := List.find?_some hfind
      simp only [decide_eq_true_eq] at hmatch
      rw [h.refs row' (List.mem_of_find?_eq_some hfind) row hrow hmatch.1]
  · rw [HookTables.unverified, List.find?_eq_none]
    intro row' hrow' hmatch
    simp only [decide_eq_true_eq] at hmatch
    rw [h.refs row' hrow' row hrow hmatch.1] at hmatch
    exact hstatus hmatch.2.2

theorem WebhookChange.persists (h : WebhookChange env t t') (hrow : row ∈ t.webhooks) :
    ∃ row' ∈ t'.webhooks, row.SameBut row' := by
  cases h with
  | update g hg hrows _ =>
    rw [hrows]
    exact ⟨g row, List.mem_map_of_mem hrow, hg row⟩
  | insert _ _ _ _ _ hrows _ =>
    rw [hrows]
    exact ⟨row, List.mem_append_left _ hrow, rfl⟩

theorem Run.webhookKeys {trace : List (HookWorld × HookLabel)}
    (hrun : Run (HookStep env) w trace w') (h : WebhookKeys env w.tables) :
    WebhookKeys env w'.tables :=
  (hrun.invariant (I := fun v => WebhookKeys env v.tables) h
    fun _ _ _ hkeys hs => hkeys.change hs.change).1

theorem Run.persists {trace : List (HookWorld × HookLabel)}
    (hrun : Run (HookStep env) w trace w') (hrow : row ∈ w.tables.webhooks) :
    ∃ row' ∈ w'.tables.webhooks, row.SameBut row' := by
  refine (hrun.invariant (I := fun v => ∃ row' ∈ v.tables.webhooks, row.SameBut row')
    ⟨row, hrow, rfl⟩ ?_).1
  rintro v l v' ⟨r, hr, hsame⟩ hs
  obtain ⟨r', hr', hsame'⟩ := hs.change.persists hr
  refine ⟨r', hr', ?_⟩
  rw [WebhookRow.SameBut, hsame', hsame]

/-! ### One post -/

theorem Attempt.call_eq {a : Attempt} {secret : String}
    (h : env.decrypt a.secretHash = some secret) : ∃ call, a.call env = some call ∧
      call.url = a.url ∧ ("X-TrueFigure-Signature", env.sign secret (a.now / 1000000)
        (encodeUtf8 (env.dumps a.delivery.payload))) ∈ call.headers := by
  simp only [Attempt.call, h, Option.bind_eq_bind, Option.bind_some]
  exact ⟨_, rfl, rfl, by simp⟩

theorem liveSubscription (hkeys : WebhookKeys env t) (hrow : row ∈ t.webhooks)
    (hws : row.workspaceId = ws) (hurl : row.url = body.url) (htypes : row.webhookEventType = events)
    (hverified : row.webhookStatus = .verified)
    (hsecret : env.decrypt row.secretHash = some body.secret) :
    LiveSubscription env ws body events row t where
  stored := hrow
  workspace := hws
  url := hurl
  types e := by rw [htypes]
  verified := hverified
  secret := hsecret
  enqueues e he payload now := by
    obtain ⟨new, hdeliveries, hhooks, hnew⟩ :=
      enqueue_deliveries env e payload now (t.subscribers ws e) t
    have hsubscribed : row.id ∈ t.subscribers ws e := by
      refine List.mem_map.2 ⟨row, List.mem_filter.2 ⟨hrow, ?_⟩, rfl⟩
      simp only [decide_eq_true_eq]
      exact ⟨hws, hverified, by rwa [htypes]⟩
    rw [← hhooks] at hsubscribed
    obtain ⟨d, hd, hid⟩ := List.mem_map.1 hsubscribed
    obtain ⟨htype, hstatus, hpayload, hnext, -⟩ := hnew d hd
    exact ⟨new, hdeliveries, d, hd, hid, htype, hpayload, hstatus, hnext⟩
  signed e payload now lockedIds now' a ha hid := by
    obtain ⟨hnow, -, -, -, row', hrow', hid', hurl', hsecret'⟩ := mem_candidates.1 ha
    rw [emit, (enqueue_webhooks env e payload now (t.subscribers ws e) t).1] at hrow'
    have hsame : row' = row := hkeys.ids row' hrow' row hrow (by rw [hid', hid])
    subst hsame
    rw [hsecret'] at hsecret
    obtain ⟨call, hcall, hto, hheader⟩ := Attempt.call_eq hsecret
    rw [hnow] at hheader
    exact ⟨call, hcall, hto.trans (hurl'.symm.trans hurl), hheader⟩

theorem createWebhook_existing (hevents : parseEvents body.events = .ok events)
    (hurl : bindText body.url = .ok body.url) (hrow : t.existing ws body.url events = some row) :
    createWebhook env ws body ref t = .ok (.existing row.webhookRef, t) := by
  simp only [createWebhook, hevents, hurl, bind, Except.bind, hrow]

/-- A post succeeds with a `url` that can be bound, and a webhook it finds or can store. -/
theorem createWebhook_isOk (hevents : parseEvents body.events = .ok events) :
    (∃ reply t₁, createWebhook env ws body ref t = .ok (reply, t₁)) ↔
      bindText body.url = .ok body.url ∧
        (t.existing ws body.url events = none → HookFits env ws body.url events ref t) := by
  constructor
  · rintro ⟨reply, t₁, h⟩
    have hbind : bindText body.url = .ok body.url := by
      unfold bindText
      split_ifs with hnul
      · simp only [createWebhook, hevents, bindText, if_pos hnul, bind, Except.bind] at h
        cases h
      · rfl
    refine ⟨hbind, fun hnone => ?_⟩
    simp only [createWebhook, hevents, hbind, bind, Except.bind, hnone] at h
    split_ifs at h with hdraw hindex
    exact ⟨fun r hr heq => hdraw (List.any_eq_true.2 ⟨r, hr, decide_eq_true heq⟩),
      by simpa using hindex⟩
  · rintro ⟨hbind, hstorable⟩
    cases hrow : t.existing ws body.url events with
    | some row => exact ⟨_, _, createWebhook_existing hevents hbind hrow⟩
    | none =>
      obtain ⟨hnew, hindex⟩ := hstorable hrow
      have hdraw : ¬ (t.webhooks.any fun w => w.webhookRef = ref) = true := by simpa using hnew
      simp only [createWebhook, hevents, hbind, bind, Except.bind, hrow, if_neg hdraw, hindex]
      exact ⟨_, _, rfl⟩

/-- A challenge that succeeds leaves the webhook verified, where it was
unverified or verified before. -/
theorem verifyWebhook_ok (hkeys : WebhookKeys env t) (hrow : row ∈ t.webhooks)
    (hstatus : row.webhookStatus = .unverified ∨ row.webhookStatus = .verified)
    (sender : SenderCall → ℕ) (hsender : ∀ call, successful (sender call) = true) :
    ∃ answer t₂ row', verifyWebhook env row.webhookRef row.workspaceId sender t =
        .ok (answer, t₂) ∧ row.SameBut row' ∧ row' ∈ t₂.webhooks ∧
      row'.webhookStatus = .verified ∧ WebhookKeys env t₂ := by
  unfold verifyWebhook
  rw [hkeys.unverified_eq hrow]
  rcases hstatus with hstatus | hstatus
  · rw [if_pos hstatus]
    dsimp only
    rw [if_pos (hsender _)]
    refine ⟨_, _, { row with webhookStatus := .verified }, rfl, rfl, ?_, rfl,
      hkeys.change (webhookChange_setStatus _ _ _ _)⟩
    exact List.mem_map.2 ⟨row, hrow, by simp⟩
  · rw [if_neg (by simp [hstatus])]
    exact ⟨_, _, row, rfl, rfl, hrow, hstatus, hkeys⟩

/-- A post finds the webhook of its url and array, and the challenge verifies it
where it is unverified. -/
theorem revived_iff (hkeys : WebhookKeys env t) (hevents : parseEvents body.events = .ok events) :
    Revived env ws body events ref t ↔ bindText body.url = .ok body.url ∧
      (t.existing ws body.url events = none → HookFits env ws body.url events ref t) ∧
      ∀ old, t.existing ws body.url events = some old →
        (old.webhookStatus = .unverified ∨ old.webhookStatus = .verified) ∧
          env.decrypt old.secretHash = some body.secret := by
  rw [← and_assoc, ← @createWebhook_isOk env ws body events ref t hevents]
  constructor
  · rintro ⟨reply, t₁, hcreate, h⟩
    refine ⟨⟨reply, t₁, hcreate⟩, fun old hold => ?_⟩
    have hurl := ((createWebhook_isOk hevents).1 ⟨reply, t₁, hcreate⟩).1
    obtain ⟨rfl, rfl⟩ := Prod.mk.inj (Except.ok.inj
      ((createWebhook_existing hevents hurl hold).symm.trans hcreate))
    obtain ⟨hrow, hws, -, -⟩ := existing_eq_some hold
    obtain ⟨answer, t₂, row, hverify, href, hlive⟩ := h (fun _ => 200) fun _ => rfl
    have hread := hkeys.unverified_eq hrow
    rw [hws] at hread
    have hok : successful 200 = true := rfl
    by_cases hstatus : old.webhookStatus = .unverified
    · rw [if_pos hstatus] at hread
      simp only [verifyWebhook, CreateReply.webhookId, hread, if_pos hok] at hverify
      obtain ⟨rfl, rfl⟩ := Prod.mk.inj (Except.ok.inj hverify)
      obtain ⟨row', hrow', hsame⟩ :=
        (webhookChange_setStatus env t .verified fun w => w.id = old.id).persists hrow
      have hkeys' := hkeys.change (webhookChange_setStatus env t .verified fun w => w.id = old.id)
      have heq : row = row' := by
        refine hkeys'.refs row hlive.stored row' hrow' ?_
        rw [href, hsame]
        rfl
      have hsecret := hlive.secret
      rw [heq, hsame] at hsecret
      exact ⟨.inl hstatus, hsecret⟩
    · rw [if_neg hstatus] at hread
      simp only [verifyWebhook, CreateReply.webhookId, hread] at hverify
      obtain ⟨rfl, rfl⟩ := Prod.mk.inj (Except.ok.inj hverify)
      obtain rfl : row = old := hkeys.refs row hlive.stored old hrow href
      exact ⟨.inr hlive.verified, hlive.secret⟩
  · rintro ⟨⟨reply, t₁, hcreate⟩, h⟩
    refine ⟨reply, t₁, hcreate, fun sender hsender => ?_⟩
    obtain ⟨events', hevents', hcases⟩ := createWebhook_ok hcreate
    obtain rfl : events = events' := Except.ok.inj (hevents.symm.trans hevents')
    rcases hcases with ⟨old, hold, rfl, rfl⟩ | ⟨hnone, href, rfl, rfl⟩
    · obtain ⟨hrow, hws, hurl', htypes⟩ := existing_eq_some hold
      obtain ⟨hstatus, hsecret⟩ := h old hold
      obtain ⟨answer, t₂, row, hverify, hsame, hmem, hverified, hkeys₂⟩ :=
        verifyWebhook_ok hkeys hrow hstatus sender hsender
      rw [hws] at hverify
      refine ⟨answer, t₂, row, hverify, by rw [hsame]; rfl, ?_⟩
      refine liveSubscription hkeys₂ hmem ?_ ?_ ?_ hverified ?_ <;> rw [hsame] <;> assumption
    · have hkeys₁ : WebhookKeys env { t with
          webhooks := t.webhooks ++ [⟨t.nextWebhook, ws, .unverified, events, ref, body.url,
            env.encrypt body.secret⟩]
          nextWebhook := t.nextWebhook + 1 } :=
        hkeys.insert rfl href hnone ⟨_, rfl⟩ rfl rfl
      obtain ⟨answer, t₂, row, hverify, hsame, hmem, hverified, hkeys₂⟩ :=
        verifyWebhook_ok hkeys₁ (List.mem_append_right _ (List.mem_singleton_self _)) (.inl rfl)
          sender hsender
      refine ⟨answer, t₂, row, hverify, by rw [hsame]; rfl, ?_⟩
      refine liveSubscription hkeys₂ hmem ?_ ?_ ?_ hverified ?_ <;> rw [hsame]
      exact env.decrypt_encrypt body.secret

/-! ### Two posts -/

theorem createWebhook_row {reply : CreateReply} (hevents : parseEvents body.events = .ok events)
    (h : createWebhook env ws body ref t = .ok (reply, t')) :
    ∃ row ∈ t'.webhooks, row.webhookRef = reply.webhookId ∧ row.workspaceId = ws ∧
      row.url = body.url ∧ row.webhookEventType = events ∧
      ((t.existing ws body.url events = some row ∧ t' = t) ∨
        (t.existing ws body.url events = none ∧ row.webhookStatus = .unverified)) := by
  obtain ⟨events', hevents', hcases⟩ := createWebhook_ok h
  obtain rfl : events = events' := Except.ok.inj (hevents.symm.trans hevents')
  rcases hcases with ⟨old, hold, rfl, rfl⟩ | ⟨hnone, href, rfl, rfl⟩
  · obtain ⟨hrow, hws, hurl, htypes⟩ := existing_eq_some hold
    exact ⟨old, hrow, rfl, hws, hurl, htypes, .inl ⟨hold, rfl⟩⟩
  · exact ⟨_, List.mem_append_right _ (List.mem_singleton_self _), rfl, rfl, rfl, rfl,
      .inr ⟨hnone, rfl⟩⟩

theorem createWebhook_keeps {reply : CreateReply}
    (h : createWebhook env ws body ref t = .ok (reply, t')) (hrow : row ∈ t.webhooks) :
    row ∈ t'.webhooks := by
  obtain ⟨events', -, ⟨_, _, -, rfl⟩ | ⟨-, -, -, rfl⟩⟩ := createWebhook_ok h
  · exact hrow
  · exact List.mem_append_left _ hrow

/-- The replies of two posts name two live webhooks. -/
def Twins (reply₁ reply₂ : CreateReply) (t : HookTables) : Prop :=
  ∃ r₁ ∈ t.webhooks, ∃ r₂ ∈ t.webhooks, r₁.webhookRef = reply₁.webhookId ∧
    r₂.webhookRef = reply₂.webhookId ∧ r₁ ≠ r₂ ∧
    r₁.webhookStatus ≠ .deleted ∧ r₂.webhookStatus ≠ .deleted

/-- Some run from here comes to two live webhooks of the two posts. -/
def LeadsToTwins (env : HookEnv) (reply₁ reply₂ : CreateReply) (w : HookWorld) : Prop :=
  ∃ trace w', Run (HookStep env) w trace w' ∧ Twins reply₁ reply₂ w'.tables

/-- The webhook of this reference is deleted, and no success of a challenge waits to be
stored for it. -/
def HookWorld.Gone (w : HookWorld) (ref : String) : Prop :=
  ∃ row ∈ w.tables.webhooks, row.webhookRef = ref ∧ row.webhookStatus = .deleted ∧
    row.id ∉ w.verifying

/-- The webhook of this url and array is gone. -/
def HookWorld.Retired (w : HookWorld) (ws : ℕ) (url : String) (events : List WebhookEventType) :
    Prop :=
  ∃ row, w.tables.existing ws url events = some row ∧ w.Gone row.webhookRef

theorem mem_setStatus {status : WebhookStatus} {p : WebhookRow → Bool} (hrow : row ∈ t.webhooks)
    (hp : p row = true → row.webhookStatus = status) : row ∈ (t.setStatus status p).webhooks := by
  refine List.mem_map.2 ⟨row, hrow, ?_⟩
  split_ifs with hpicked
  · rw [← hp hpicked]
  · rfl

theorem HookStep.gone {l : HookLabel} (hkeys : WebhookKeys env w.tables)
    (hs : HookStep env w l w') (h : w.Gone ref) : w'.Gone ref := by
  obtain ⟨row, hrow, href, hdeleted, hpending⟩ := h
  cases hs with
  | create hcreate => exact ⟨row, createWebhook_keeps hcreate hrow, href, hdeleted, hpending⟩
  | delete hdelete =>
    rw [deleteWebhook_ok hdelete]
    exact ⟨row, mem_setStatus hrow fun _ => hdeleted, href, hdeleted, hpending⟩
  | @challenge workspaceId challenged read hread =>
    refine ⟨row, hrow, href, hdeleted, fun hid => ?_⟩
    have hmatch := List.find?_some hread
    simp only [decide_eq_true_eq] at hmatch
    rcases List.mem_cons.1 hid with hid | hid
    · rw [hkeys.ids row hrow read (List.mem_of_find?_eq_some hread) hid] at hdeleted
      cases hdeleted.symm.trans hmatch.2.2
    · exact hpending hid
  | @verify before after id hverifying =>
    rw [hverifying] at hpending
    refine ⟨row, mem_setStatus hrow fun hid => ?_, href, hdeleted, ?_⟩
    · exact absurd (by simp [of_decide_eq_true hid]) hpending
    · exact fun hid => hpending (by simpa using Or.imp_right Or.inr (List.mem_append.1 hid))
  | @enqueue before after e hemitting =>
    have hsame := (enqueue_webhooks env e.eventType e.payload e.now e.hooks w.tables).1
    exact ⟨row, hsame.symm ▸ hrow, href, hdeleted, hpending⟩
  | @record before after a status hanswered =>
    refine ⟨row, ?_, href, hdeleted, hpending⟩
    dsimp only [Attempt.record]
    split_ifs
    · exact hrow
    · -- Only a verified webhook is suspended.
      refine mem_setStatus hrow fun hpicked => ?_
      exact absurd (hdeleted.symm.trans (of_decide_eq_true hpicked).2) (by decide)
    · exact hrow
  | abandon _ hverifying _ _ =>
    exact ⟨row, hrow, href, hdeleted, fun hid => hpending (hverifying.subset hid)⟩
  | _ => exact ⟨row, hrow, href, hdeleted, hpending⟩

theorem Run.gone {trace : List (HookWorld × HookLabel)} (hrun : Run (HookStep env) w trace w')
    (hkeys : WebhookKeys env w.tables) (h : w.Gone ref) : w'.Gone ref :=
  (hrun.invariant (I := fun v => WebhookKeys env v.tables ∧ v.Gone ref) ⟨hkeys, h⟩
    fun _ _ _ hv hs => ⟨hv.1.change hs.change, HookStep.gone hv.1 hs hv.2⟩).1.2

/-- A webhook that is not gone is live after one step more at most; the others are as they
were, and so are the successes that wait for them. -/
theorem comesBack (hrow : row ∈ w.tables.webhooks)
    (h : row.webhookStatus = .deleted → row.id ∈ w.verifying) :
    ∃ trace w' row', Run (HookStep env) w trace w' ∧ row' ∈ w'.tables.webhooks ∧
      row.SameBut row' ∧ row'.webhookStatus ≠ .deleted ∧
      ∀ r ∈ w.tables.webhooks, r.id ≠ row.id →
        r ∈ w'.tables.webhooks ∧ (r.id ∈ w.verifying → r.id ∈ w'.verifying) := by
  by_cases hdeleted : row.webhookStatus = .deleted
  · obtain ⟨before, after, hverifying⟩ := List.append_of_mem (h hdeleted)
    refine ⟨_, _, { row with webhookStatus := .verified }, .single (.verify hverifying),
      List.mem_map.2 ⟨row, hrow, by simp⟩, rfl, by simp, fun r hr hne => ⟨?_, fun hid => ?_⟩⟩
    · exact mem_setStatus hr fun hid => absurd (of_decide_eq_true hid) hne
    · rw [hverifying] at hid
      simpa [hne] using hid
  · exact ⟨[], w, row, .refl w, hrow, rfl, hdeleted, fun r hr _ => ⟨hr, id⟩⟩

/-- Two different webhooks can both be live again as long as neither is gone. -/
theorem leadsToTwins_iff {reply₁ reply₂ : CreateReply} {row₁ row₂ : WebhookRow}
    (hkeys : WebhookKeys env w.tables) (hrow₁ : row₁ ∈ w.tables.webhooks)
    (hrow₂ : row₂ ∈ w.tables.webhooks) (href₁ : row₁.webhookRef = reply₁.webhookId)
    (href₂ : row₂.webhookRef = reply₂.webhookId) :
    LeadsToTwins env reply₁ reply₂ w ↔
      row₁ ≠ row₂ ∧ ¬ w.Gone reply₁.webhookId ∧ ¬ w.Gone reply₂.webhookId := by
  constructor
  · rintro ⟨trace, w', hrun, r₁, hr₁, r₂, hr₂, hr₁ref, hr₂ref, hne, hlive₁, hlive₂⟩
    have hkeys' := Run.webhookKeys hrun hkeys
    refine ⟨?_, fun hgone => ?_, fun hgone => ?_⟩
    · rintro rfl
      refine hne (hkeys'.refs r₁ hr₁ r₂ hr₂ ?_)
      rw [hr₁ref, hr₂ref, ← href₁, href₂]
    · obtain ⟨r, hr, hrRef, hdeleted, -⟩ := Run.gone hrun hkeys hgone
      rw [hkeys'.refs r hr r₁ hr₁ (hrRef.trans hr₁ref.symm)] at hdeleted
      exact hlive₁ hdeleted
    · obtain ⟨r, hr, hrRef, hdeleted, -⟩ := Run.gone hrun hkeys hgone
      rw [hkeys'.refs r hr r₂ hr₂ (hrRef.trans hr₂ref.symm)] at hdeleted
      exact hlive₂ hdeleted
  · rintro ⟨hne, hgone₁, hgone₂⟩
    have hpending : ∀ {row reply}, row ∈ w.tables.webhooks → row.webhookRef = reply →
        ¬ w.Gone reply → row.webhookStatus = .deleted → row.id ∈ w.verifying :=
      fun hrow href hgone hdeleted =>
        not_not.1 fun hid => hgone ⟨_, hrow, href, hdeleted, hid⟩
    have hids : row₂.id ≠ row₁.id := fun heq => hne (hkeys.ids _ hrow₂ _ hrow₁ heq).symm
    obtain ⟨trace, v, r₁, hrun, hr₁, hsame₁, hlive₁, hkept⟩ :=
      @comesBack env row₁ w hrow₁ (hpending hrow₁ href₁ hgone₁)
    obtain ⟨hrow₂', hpending₂⟩ := hkept row₂ hrow₂ hids
    obtain ⟨trace', v', r₂, hrun', hr₂, hsame₂, hlive₂, hkept'⟩ := @comesBack env row₂ v hrow₂'
      fun hdeleted => hpending₂ (hpending hrow₂ href₂ hgone₂ hdeleted)
    have hid₁ : r₁.id = row₁.id := by rw [hsame₁]
    have hid₂ : r₂.id = row₂.id := by rw [hsame₂]
    refine ⟨_, v', hrun.append hrun', r₁, (hkept' r₁ hr₁ ?_).1, r₂, hr₂, ?_, ?_, ?_, hlive₁, hlive₂⟩
    · rw [hid₁]
      exact hids.symm
    · rw [hsame₁]
      exact href₁
    · rw [hsame₂]
      exact href₂
    · rintro rfl
      exact hids (hid₂.symm.trans hid₁)

theorem retired_iff (hkeys : WebhookKeys env w.tables) (hrow : row ∈ w.tables.webhooks) :
    w.Retired row.workspaceId row.url row.webhookEventType ↔ w.Gone row.webhookRef := by
  constructor
  · rintro ⟨found, hfound, hgone⟩
    rwa [Option.some.inj ((hkeys.existing_of_mem hrow).symm.trans hfound)]
  · exact fun hgone => ⟨row, hkeys.existing_of_mem hrow, hgone⟩

theorem gone_createWebhook_iff {reply : CreateReply} (hkeys : WebhookKeys env w.tables)
    (h : createWebhook env ws body ref w.tables = .ok (reply, t')) (other : String) :
    HookWorld.Gone { w with tables := t' } other ↔ w.Gone other := by
  have hstep : HookStep env w .create { w with tables := t' } := .create h
  refine ⟨?_, fun hgone => HookStep.gone hkeys hstep hgone⟩
  rintro ⟨r, hr, href, hdeleted, hpending⟩
  obtain ⟨events', -, ⟨_, _, -, rfl⟩ | ⟨-, -, -, rfl⟩⟩ := createWebhook_ok h
  · exact ⟨r, hr, href, hdeleted, hpending⟩
  · rcases List.mem_append.1 hr with hr | hr
    · exact ⟨r, hr, href, hdeleted, hpending⟩
    · rw [List.mem_singleton.1 hr] at hdeleted
      cases hdeleted

/-- Two posts of one url never lead to two live webhooks exactly where their arrays are the
same or one of the two webhooks is gone when the second comes. -/
theorem twins_iff {body₂ : WebhookCreate} {ref₂ : String} {reply₁ reply₂ : CreateReply}
    {events₂ : List WebhookEventType} {t₁ t₂ : HookTables} {trace : List (HookWorld × HookLabel)}
    (hkeys : WebhookKeys env w.tables)
    (hevents : parseEvents body.events = .ok events)
    (hevents₂ : parseEvents body₂.events = .ok events₂) (hurl : body.url = body₂.url)
    (h₁ : createWebhook env ws body ref w.tables = .ok (reply₁, t₁))
    (hrun : Run (HookStep env) { w with tables := t₁ } trace w')
    (h₂ : createWebhook env ws body₂ ref₂ w'.tables = .ok (reply₂, t₂)) :
    ¬ LeadsToTwins env reply₁ reply₂ { w' with tables := t₂ } ↔
      events = events₂ ∨ w'.Retired ws body.url events ∨ w'.Retired ws body₂.url events₂ := by
  have hstep₁ : HookStep env w .create { w with tables := t₁ } := .create h₁
  have hkeys' : WebhookKeys env w'.tables := Run.webhookKeys hrun (hkeys.change hstep₁.change)
  have hstep₂ : HookStep env w' .create { w' with tables := t₂ } := .create h₂
  have hkeys₂ : WebhookKeys env t₂ := hkeys'.change hstep₂.change
  obtain ⟨row₁, hrow₁, href₁, hws₁, hurl₁, htypes₁, -⟩ := createWebhook_row hevents h₁
  obtain ⟨row', hrow', hsame'⟩ := Run.persists hrun hrow₁
  obtain ⟨row₂, hrow₂, href₂, hws₂, hurl₂, htypes₂, hcases⟩ := createWebhook_row hevents₂ h₂
  obtain ⟨href', hws', hurl', htypes'⟩ : row'.webhookRef = reply₁.webhookId ∧
      row'.workspaceId = ws ∧ row'.url = body.url ∧ row'.webhookEventType = events := by
    rw [hsame']
    exact ⟨href₁, hws₁, hurl₁, htypes₁⟩
  have hkept : row' ∈ t₂.webhooks := createWebhook_keeps h₂ hrow'
  have hsameRow : row' = row₂ ↔ events = events₂ := by
    constructor
    · rintro rfl
      exact htypes'.symm.trans htypes₂
    · rintro rfl
      refine hkeys₂.subscriptions row' hkept row₂ hrow₂ (hws'.trans hws₂.symm) ?_
        (htypes'.trans htypes₂.symm)
      rw [hurl', hurl₂, hurl]
  have hfirst : w'.Gone reply₁.webhookId ↔ w'.Retired ws body.url events := by
    rw [← href', ← retired_iff hkeys' hrow', hws', hurl', htypes']
  have hsecond : w'.Gone reply₂.webhookId ↔ w'.Retired ws body₂.url events₂ := by
    rcases hcases with ⟨hold, -⟩ | ⟨hnone, hunverified⟩
    · rw [← href₂, ← retired_iff hkeys' (existing_eq_some hold).1, hws₂, hurl₂, htypes₂]
    · constructor
      · rintro ⟨r, hr, href, hdeleted, -⟩
        rw [hkeys₂.refs r (createWebhook_keeps h₂ hr) row₂ hrow₂ (href.trans href₂.symm)]
          at hdeleted
        cases hdeleted.symm.trans hunverified
      · rintro ⟨r, hfound, -⟩
        cases hnone.symm.trans hfound
  rw [leadsToTwins_iff hkeys₂ hkept hrow₂ href' href₂, Ne, hsameRow,
    gone_createWebhook_iff hkeys' h₂, gone_createWebhook_iff hkeys' h₂, hfirst, hsecond]
  tauto

/-- From every reachable state: a post and a successful challenge leave a live
subscription exactly when the url can be bound and either no webhook has this url and
array and a new row can be stored, or the one that has them is neither deleted nor
suspended and has the same secret; and two posts of one url never lead to two live
webhooks exactly when their arrays are the same or one of the two is gone when the
second comes. -/
theorem subscription_iff {body₂ : WebhookCreate} {events₂ : List WebhookEventType}
    {trace : List (HookWorld × HookLabel)} (hreach : Run (HookStep env) .initial trace w)
    (hevents : parseEvents body.events = .ok events)
    (hevents₂ : parseEvents body₂.events = .ok events₂) (hurl : body.url = body₂.url) :
    (Revived env ws body events ref w.tables ↔ bindText body.url = .ok body.url ∧
      (w.tables.existing ws body.url events = none →
        HookFits env ws body.url events ref w.tables) ∧
      ∀ old, w.tables.existing ws body.url events = some old →
        (old.webhookStatus = .unverified ∨ old.webhookStatus = .verified) ∧
          env.decrypt old.secretHash = some body.secret) ∧
    ∀ reply₁ t₁, createWebhook env ws body ref w.tables = .ok (reply₁, t₁) →
      ∀ trace' w', Run (HookStep env) { w with tables := t₁ } trace' w' →
        ∀ ref₂ reply₂ t₂, createWebhook env ws body₂ ref₂ w'.tables = .ok (reply₂, t₂) →
          (¬ LeadsToTwins env reply₁ reply₂ { w' with tables := t₂ } ↔
            events = events₂ ∨ w'.Retired ws body.url events ∨
              w'.Retired ws body₂.url events₂) := by
  have hkeys : WebhookKeys env w.tables := Run.webhookKeys hreach webhookKeys_initial
  exact ⟨revived_iff hkeys hevents, fun reply₁ t₁ h₁ trace' w' hrun ref₂ reply₂ t₂ h₂ =>
    twins_iff hkeys hevents hevents₂ hurl h₁ hrun h₂⟩

/-- `figureHook` with its event type twice. -/
def repeatedHook : WebhookCreate where
  url := "https://hook.example/x"
  events := ["figure.updated", "figure.updated"]
  secret := "whsecret"
  events_ne := by simp

/-- A post of a verified subscription finds it alive. Deleted with nothing pending before
the event types come again in another array, it is no twin of the new webhook. -/
theorem subscription_iff_repeatedHook : ∃ trace reply t₂,
    Run (HookStep sampleHookEnv) .initial trace (waiting sampleHookEnv .verified) ∧
    Revived sampleHookEnv 1 figureHook [.figureUpdated] "wh_2"
      (waiting sampleHookEnv .verified).tables ∧
    createWebhook sampleHookEnv 1 repeatedHook "wh_2" (waiting sampleHookEnv .deleted).tables =
      .ok (reply, t₂) ∧
    ¬ LeadsToTwins sampleHookEnv (.existing "wh_1") reply
      { waiting sampleHookEnv .deleted with tables := t₂ } := by
  obtain ⟨trace, hwaiting⟩ := run_waiting sampleHookEnv rfl
  have hreach := hwaiting.mono fun _ _ _ hs => hs.1
  have hevents : parseEvents figureHook.events = .ok [.figureUpdated] := by rfl
  have hevents₂ : parseEvents repeatedHook.events = .ok [.figureUpdated, .figureUpdated] := by rfl
  have hbind : bindText figureHook.url = .ok figureHook.url := by rfl
  have hkeys := Run.webhookKeys hreach webhookKeys_initial
  have hold := hkeys.existing_of_mem (List.mem_singleton_self _)
  have hrepeat := @createWebhook_existing sampleHookEnv 1 figureHook _ "wh_2" _ _ hevents hbind
    hold
  obtain ⟨hrevived, htwins⟩ := @subscription_iff sampleHookEnv 1 figureHook _ "wh_2" _ repeatedHook
    _ _ hreach hevents hevents₂ rfl
  obtain ⟨reply, t₂, hcreate⟩ : ∃ reply t₂, createWebhook sampleHookEnv 1 repeatedHook "wh_2"
      (waiting sampleHookEnv .deleted).tables = .ok (reply, t₂) := ⟨_, _, rfl⟩
  refine ⟨trace, reply, t₂, hreach, hrevived.2 ⟨hbind, fun hnone => ?_, fun old hfound => ?_⟩,
    hcreate, ?_⟩
  · cases hold.symm.trans hnone
  · obtain rfl := Option.some.inj (hold.symm.trans hfound)
    exact ⟨.inr rfl, sampleHookEnv.decrypt_encrypt _⟩
  · refine (htwins _ _ hrepeat _ _ (.single (step_delete sampleHookEnv)) "wh_2" reply t₂
      hcreate).2 (.inr (.inl ⟨_, ?_, _, List.mem_singleton_self _, rfl, rfl, List.not_mem_nil⟩))
    rfl

/-- A post of a deleted subscription returns the deleted webhook, and no challenge
verifies it. -/
theorem deleted_not_revived : ¬ ∀ trace w, Run (HookStep sampleHookEnv) .initial trace w →
    Revived sampleHookEnv 1 figureHook [.figureUpdated] "wh_2" w.tables := by
  intro h
  obtain ⟨trace, hwaiting⟩ := run_waiting sampleHookEnv rfl
  have hrun : Run (HookStep sampleHookEnv) .initial _ (waiting sampleHookEnv .deleted) :=
    (hwaiting.mono fun _ _ _ hs => hs.1).append (.single (step_delete sampleHookEnv))
  have hevents : parseEvents figureHook.events = .ok [.figureUpdated] := by rfl
  have hkeys := Run.webhookKeys hrun webhookKeys_initial
  have hold := hkeys.existing_of_mem (List.mem_singleton_self _)
  obtain ⟨hstatus | hstatus, -⟩ := ((revived_iff hkeys hevents).1 (h _ _ hrun)).2.2 _ hold
  · cases hstatus
  · cases hstatus

end TrueFigure.Server
