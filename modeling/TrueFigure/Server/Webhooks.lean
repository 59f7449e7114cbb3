import TrueFigure.Server.Outcomes
import TrueFigure.Server.SecretBox

/-!
# Webhooks

The subscription and delivery tables, and `create_webhook`, `verify_webhook`,
`delete_webhook`, `emit` and `deliver_once` over them.
-/
namespace TrueFigure.Server

open TrueFigure.Python

/-! ### Rows -/

inductive WebhookStatus
  | unverified | verified | suspended | deleted
  deriving DecidableEq, Repr

inductive WebhookEventType
  | figureUpdated | refusalLifted | alertRaised | reportIssued
  deriving DecidableEq, Repr

def WebhookEventType.wire : WebhookEventType → String
  | .figureUpdated => "figure.updated"
  | .refusalLifted => "refusal.lifted"
  | .alertRaised => "alert.raised"
  | .reportIssued => "report.issued"

/-- The event type of this name; `create_webhook` knows the same four. -/
def WebhookEventType.ofWire? (s : String) : Option WebhookEventType :=
  [.figureUpdated, .refusalLifted, .alertRaised, .reportIssued].find? fun e => e.wire = s

inductive DeliveryStatus
  | retrying | delivered | dropped
  deriving DecidableEq, Repr

/-- A row of `webhooks`; `secret_hash` holds what the secret box makes of the secret. -/
structure WebhookRow where
  id : ℕ
  workspaceId : ℕ
  webhookStatus : WebhookStatus
  webhookEventType : List WebhookEventType
  webhookRef : String
  url : String
  secretHash : String
  deriving DecidableEq

/-- A row of `webhook_deliveries`; instants are microseconds since 1970. -/
structure DeliveryRow where
  id : ℕ
  webhookId : ℕ
  webhookEventType : WebhookEventType
  deliveryStatus : DeliveryStatus
  deliveryRef : String
  payload : Dict
  attemptCount : ℕ
  lastHttpStatus : Option ℕ
  nextRetryAt : Option ℕ

/-- Both tables with their identity sequences. -/
structure HookTables where
  webhooks : List WebhookRow
  deliveries : List DeliveryRow
  nextWebhook : ℕ
  nextDelivery : ℕ

/-- The secret box, `json.dumps` with sorted keys and no blanks, and the uuids
the database draws for its deliveries. -/
structure HookEnv extends SecretBox where
  dumps : Dict → String
  uuid : ℕ → String
  /-- A subscription fits an entry of `uq_webhooks_workspace_url_events`. -/
  indexable : ℕ → String → List WebhookEventType → Bool

/-- `UPDATE webhooks SET webhook_status = … WHERE …`. -/
def HookTables.setStatus (t : HookTables) (status : WebhookStatus) (p : WebhookRow → Bool) :
    HookTables :=
  { t with
    webhooks := t.webhooks.map fun w => if p w then { w with webhookStatus := status } else w }

/-- `UPDATE webhook_deliveries … WHERE id = …`. -/
def HookTables.updateDelivery (t : HookTables) (id : ℕ) (f : DeliveryRow → DeliveryRow) :
    HookTables :=
  { t with deliveries := t.deliveries.map fun d => if d.id = id then f d else d }

@[simp] theorem HookTables.setStatus_deliveries (t : HookTables) (status : WebhookStatus)
    (p : WebhookRow → Bool) : (t.setStatus status p).deliveries = t.deliveries := rfl

@[simp] theorem HookTables.setStatus_nextWebhook (t : HookTables) (status : WebhookStatus)
    (p : WebhookRow → Bool) : (t.setStatus status p).nextWebhook = t.nextWebhook := rfl

@[simp] theorem HookTables.updateDelivery_webhooks (t : HookTables) (id : ℕ)
    (f : DeliveryRow → DeliveryRow) : (t.updateDelivery id f).webhooks = t.webhooks := rfl

@[simp] theorem HookTables.updateDelivery_nextWebhook (t : HookTables) (id : ℕ)
    (f : DeliveryRow → DeliveryRow) : (t.updateDelivery id f).nextWebhook = t.nextWebhook := rfl

/-! ### Subscriptions -/

/-- A validated request body. -/
structure WebhookCreate where
  url : String
  events : List String
  secret : String
  events_ne : events ≠ []

/-- The body of the response; an existing webhook is answered with 200. -/
inductive CreateReply
  | existing (webhookId : String)
  | created (webhookId : String)
  deriving DecidableEq

def CreateReply.webhookId : CreateReply → String
  | .existing ref => ref
  | .created ref => ref

/-- The event types of the body, or the first that is unknown. -/
def parseEvents : List String → Except Failure (List WebhookEventType)
  | [] => .ok []
  | ev :: events =>
    match WebhookEventType.ofWire? ev with
    | none => .error (.tfError ⟨.cfg007, some (py "events"), some (py ("unknown event type " ++ ev))⟩)
    | some e => do
      let es ← parseEvents events
      .ok (e :: es)

/-- A `str` bound to a `text` parameter. -/
def bindText (s : String) : Except Failure String :=
  if s.toList.contains (Char.ofNat 0) then .error (.database .invalidText) else .ok s

/-- The webhook `create_webhook` finds. -/
def HookTables.existing (t : HookTables) (workspaceId : ℕ) (url : String)
    (events : List WebhookEventType) : Option WebhookRow :=
  t.webhooks.find? fun w =>
    w.workspaceId = workspaceId ∧ w.url = url ∧ w.webhookEventType = events

/-- `create_webhook`; `ref` is the reference it draws. -/
def createWebhook (env : HookEnv) (workspaceId : ℕ) (body : WebhookCreate) (ref : String)
    (t : HookTables) : Except Failure (CreateReply × HookTables) := do
  let events ← parseEvents body.events
  let url ← bindText body.url
  match t.existing workspaceId url events with
  | some w => .ok (.existing w.webhookRef, t)
  | none =>
    if t.webhooks.any fun w => w.webhookRef = ref then .error (.database .uniqueViolation)
    else if !env.indexable workspaceId url events then .error (.database .indexRowSize)
    else
      let row : WebhookRow :=
        { id := t.nextWebhook
          workspaceId := workspaceId
          webhookStatus := .unverified
          webhookEventType := events
          webhookRef := ref
          url := url
          secretHash := env.encrypt body.secret }
      .ok (.created ref,
        { t with webhooks := t.webhooks ++ [row], nextWebhook := t.nextWebhook + 1 })

/-- The row `delete_webhook` updates. -/
def WebhookRow.deletable (ref : String) (workspaceId : ℕ) (w : WebhookRow) : Bool :=
  w.webhookRef = ref ∧ w.workspaceId = workspaceId ∧ w.webhookStatus ≠ .deleted

def deleteWebhook (ref : String) (workspaceId : ℕ) (t : HookTables) : Except Failure HookTables :=
  if t.webhooks.any (WebhookRow.deletable ref workspaceId) then
    .ok (t.setStatus .deleted (WebhookRow.deletable ref workspaceId))
  else .error (.tfError ⟨.read001, none, some (py "webhook not found")⟩)

/-! ### Verification -/

structure SenderCall where
  method : String
  url : String
  headers : List (String × String)
  body : Bytes
  deriving DecidableEq

def successful (status : ℕ) : Bool := 200 ≤ status && status < 300

/-- The row `verify_webhook` reads. -/
def HookTables.unverified (t : HookTables) (ref : String) (workspaceId : ℕ) : Option WebhookRow :=
  t.webhooks.find? fun w =>
    w.webhookRef = ref ∧ w.workspaceId = workspaceId ∧ w.webhookStatus = .unverified

def challengeCall (env : HookEnv) (ref : String) (row : WebhookRow) : SenderCall where
  method := "GET"
  url := row.url ++ "?challenge=" ++
    String.ofList ((hexDigits (env.sha256 (encodeUtf8 ref))).toList.take 16)
  headers := []
  body := []

/-- The update after a successful challenge. -/
def HookTables.markVerified (t : HookTables) (id : ℕ) : HookTables :=
  t.setStatus .verified fun w => w.id = id

/-- `verify_webhook` with nothing between its two transactions. -/
def verifyWebhook (env : HookEnv) (ref : String) (workspaceId : ℕ) (sender : SenderCall → ℕ)
    (t : HookTables) : Except Failure (Bool × HookTables) :=
  match t.unverified ref workspaceId with
  | none => .ok (false, t)
  | some row =>
    let status := sender (challengeCall env ref row)
    if successful status then .ok (true, t.markVerified row.id)
    else .error (.tfError ⟨.cfg005, none, some (py ("webhook " ++ ref ++
      " failed verification challenge (status " ++ toString status ++ ")"))⟩)

/-! ### Deliveries -/

/-- The subscribers `emit` selects. -/
def HookTables.subscribers (t : HookTables) (workspaceId : ℕ) (eventType : WebhookEventType) :
    List ℕ :=
  (t.webhooks.filter fun w => w.workspaceId = workspaceId ∧ w.webhookStatus = .verified ∧
    eventType ∈ w.webhookEventType).map WebhookRow.id

/-- The deliveries `emit` inserts. -/
def HookTables.enqueue (env : HookEnv) (eventType : WebhookEventType) (payload : Dict) (now : ℕ) :
    List ℕ → HookTables → HookTables
  | [], t => t
  | hook :: hooks, t =>
    let row : DeliveryRow :=
      { id := t.nextDelivery
        webhookId := hook
        webhookEventType := eventType
        deliveryStatus := .retrying
        deliveryRef := "dl_" ++ env.uuid t.nextDelivery
        payload := payload
        attemptCount := 0
        lastHttpStatus := none
        nextRetryAt := some now }
    enqueue env eventType payload now hooks
      { t with deliveries := t.deliveries ++ [row], nextDelivery := t.nextDelivery + 1 }

/-- `emit` with nothing between its statements. -/
def emit (env : HookEnv) (workspaceId : ℕ) (eventType : WebhookEventType) (payload : Dict)
    (now : ℕ) (t : HookTables) : ℕ × HookTables :=
  let hooks := t.subscribers workspaceId eventType
  (hooks.length, t.enqueue env eventType payload now hooks)

/-- `RETRY_SCHEDULE`, in seconds. -/
def retrySchedule : List ℕ := [60, 300, 1800, 7200, 21600, 86400]

def maxAttempts : ℕ := retrySchedule.length

/-- A delivery with the columns of its webhook, as `deliver_once` selects it. -/
structure Attempt where
  delivery : DeliveryRow
  url : String
  secretHash : String
  now : ℕ

def DeliveryRow.due (now : ℕ) (d : DeliveryRow) : Bool :=
  d.deliveryStatus = .retrying ∧ ∃ at' ∈ d.nextRetryAt, at' ≤ now

/-- The due deliveries that no other session has locked, each with its webhook. -/
def HookTables.candidates (t : HookTables) (lockedIds : List ℕ) (now : ℕ) : List Attempt :=
  t.deliveries.flatMap fun d =>
    if d.due now ∧ d.id ∉ lockedIds then
      (t.webhooks.filter fun w => w.id = d.webhookId).map fun w => ⟨d, w.url, w.secretHash, now⟩
    else []

/-- The call `_attempt` makes; `none` where the secret cannot be decrypted. -/
def Attempt.call (env : HookEnv) (a : Attempt) : Option SenderCall := do
  let ts := a.now / 1000000
  let raw := encodeUtf8 (env.dumps a.delivery.payload)
  let secret ← env.decrypt a.secretHash
  some {
    method := "POST"
    url := a.url
    headers := [("Content-Type", "application/json"), ("X-TrueFigure-Timestamp", toString ts),
      ("X-TrueFigure-Signature", env.sign secret ts raw),
      ("X-TrueFigure-Delivery", a.delivery.deliveryRef)]
    body := raw }

inductive AttemptOutcome
  | delivered | retried | dropped
  deriving DecidableEq

def statusOrNone (status : ℕ) : Option ℕ := if status = 0 then none else some status

/-- What `_attempt` writes once the sender has answered; 0 stands for an exception. -/
def Attempt.record (a : Attempt) (status : ℕ) (t : HookTables) : AttemptOutcome × HookTables :=
  let attempt := a.delivery.attemptCount + 1
  if successful status then
    (.delivered, t.updateDelivery a.delivery.id fun d => { d with
      deliveryStatus := .delivered
      attemptCount := attempt
      lastHttpStatus := some status
      nextRetryAt := none })
  else if maxAttempts ≤ attempt then
    (.dropped, (t.updateDelivery a.delivery.id fun d => { d with
      deliveryStatus := .dropped
      attemptCount := attempt
      lastHttpStatus := statusOrNone status
      nextRetryAt := none }).setStatus .suspended fun w =>
        w.id = a.delivery.webhookId ∧ w.webhookStatus = .verified)
  else
    (.retried, t.updateDelivery a.delivery.id fun d => { d with
      attemptCount := attempt
      lastHttpStatus := statusOrNone status
      nextRetryAt := some (a.now + retrySchedule.getD attempt 0 * 1000000) })

end TrueFigure.Server
