import TrueFigure.Server.Outcomes

/-!
# The post-ingestion pipeline

`run_pipeline` of `domain/policies/pipeline.py`, one statement at a time: claim
an accepted event, resolve its identity, join its work item, advance the event
and fold it into the daily aggregates.
-/
namespace TrueFigure.Server

open TrueFigure.Library TrueFigure.Python

/-- What the pipeline's connection decides: the calendar day of an instant in
the session time zone, the row a `LIMIT 1` without `ORDER BY` returns, and
whether the entry of a new row fits a page of its unique index. -/
structure Connection where
  dayOf : ℤ → ℤ
  limitOne : List ℕ → Option ℕ
  indexable : RowKey → Bool

/-- An upsert whose key holds a text from a payload. Source tags need no such
check: `ix_events_source_ref` has taken them when the event was stored. -/
def Connection.indexed (conn : Connection) (k : RowKey)
    (update : Option (Row k) → Except Failure (Row k)) (before : Option (Row k)) :
    Except Failure (Row k) :=
  match update before with
  | .error e => .error e
  | .ok row =>
    if before.isNone && !conn.indexable k then .error (.database .indexRowSize) else .ok row

theorem Connection.indexed_eq_ok {conn : Connection} {k : RowKey}
    {update : Option (Row k) → Except Failure (Row k)} {before : Option (Row k)} {row : Row k} :
    conn.indexed k update before = .ok row ↔
      update before = .ok row ∧ (before = none → conn.indexable k = true) := by
  unfold indexed
  cases update before with
  | error e => simp
  | ok row' => cases before <;> cases conn.indexable k <;> simp

/-- The columns `run_pipeline` selects of the event it has locked. -/
structure ClaimedEvent where
  workspaceId : ℕ
  eventKey : PyStr
  occurredAt : ℤ
  row : EventRow

namespace ClaimedEvent

/-- `ev["source_ref"] or ""`. -/
def sourceRef (ev : ClaimedEvent) : PyStr := ev.row.sourceRef.getD []

/-- `payload.get(field)`. -/
def get (ev : ClaimedEvent) (field : PyStr) : Json := ev.row.payload.getD field .null

/-- The event was sent with a person reference. -/
def idBearing (ev : ClaimedEvent) : Bool :=
  (ev.get (py "user_ref")).truthy || (ev.get (py "assignee_ref")).truthy

end ClaimedEvent

def activeNamespace (s : Db) (workspaceId : ℕ) (deploymentId : Option ℕ) (field : IdField)
    (sourceRef : PyStr) : Option NamespaceRow :=
  s.lookup (RowKey.identifierNamespace workspaceId deploymentId field sourceRef)

/-- The active declaration that applies to a field: a deployment's before the
workspace's, a source's before the untagged one. -/
def applicableNamespace (s : Db) (workspaceId deploymentId : ℕ) (field : IdField)
    (sourceRef : PyStr) : Option NamespaceRow :=
  activeNamespace s workspaceId (some deploymentId) field sourceRef
    <|> activeNamespace s workspaceId (some deploymentId) field []
    <|> activeNamespace s workspaceId none field sourceRef
    <|> activeNamespace s workspaceId none field []

/-- The user an active identifier of a namespace belongs to. -/
def userByIdentifier (s : Db) (workspaceId : ℕ) (ns value : PyStr) : Option ℕ :=
  (s.lookup (RowKey.userIdentifier workspaceId ns value)).map UserIdentifierRow.userId

/-- The users of the active identifiers with this value, in table order. -/
def usersByIdentifier (s : Db) (workspaceId : ℕ) (value : PyStr) : List ℕ :=
  s.entries.filterMap fun
    | ⟨.userIdentifier ws _ v, row⟩ =>
      if ws = workspaceId ∧ v = value then some (row : UserIdentifierRow).userId else none
    | _ => none

def userById (s : Db) (userId : ℕ) : Option UserRow :=
  s.entries.findSome? fun
    | ⟨.user _ _, row⟩ => if (row : UserRow).id = userId then some row else none
    | _ => none

def exclusionByType : UserType → Option ExclusionReason
  | .user => none
  | .shared => some .sharedAccount
  | .service => some .serviceAccount
  | .bot => some .botAccount

section

variable (conn : Connection)

/-- The roster's verdict on a user the event's reference led to. -/
def classifyUser (ev : ClaimedEvent) (userId : ℕ)
    (next : Option ℕ → Option ExclusionReason → Transaction) : Transaction :=
  .read fun s =>
    match userById s userId with
    | none => .throw (.python .assertionError)
    | some u =>
      if u.userStatus = .blocked then next (some userId) (some .unresolvedIdentity)
      else if u.effectiveTo.any fun last => last < conn.dayOf ev.occurredAt then next none none
      else next (some userId) (exclusionByType u.userType)

/-- The identifier row decides; without one the reference is tried as `user_ref`. -/
def matchUser (ev : ClaimedEvent) (value : PyStr) (found : Option ℕ)
    (next : Option ℕ → Option ExclusionReason → Transaction) : Transaction :=
  match found with
  | some userId => classifyUser conn ev userId next
  | none => .read fun s =>
    match s.lookup (.user ev.workspaceId value) with
    | some u => classifyUser conn ev (u : UserRow).id next
    | none => next none none

def resolveIdentity (ev : ClaimedEvent)
    (next : Option ℕ → Option ExclusionReason → Transaction) : Transaction :=
  let field : IdField := if ev.row.eventType = .activity then .userRef else .assigneeRef
  let value := ev.get field.wire
  if value.truthy then
    match value with
    | .str value =>
      .read fun s =>
        match applicableNamespace s ev.workspaceId ev.row.deploymentId field ev.sourceRef with
        | some declared => .read fun s =>
          matchUser conn ev value (userByIdentifier s ev.workspaceId declared.ns value) next
        | none => .read fun s =>
          matchUser conn ev value (conn.limitOne (usersByIdentifier s ev.workspaceId value)) next
    | _ => .throw (.database .invalidType)
  else next none none

end

/-- A nullable `TEXT` parameter taken from a payload. -/
def textParam : Json → Except DbError (Option PyStr)
  | .null => .ok none
  | .str s => .ok (some s)
  | _ => .error .invalidType

/-- A nullable `size_type` parameter taken from a payload. -/
def sizeParam : Json → Except DbError (Option SizeType)
  | .null => .ok none
  | .str s =>
    match SizeType.ofWire? s with
    | some size => .ok (some size)
    | none => .error .invalidText
  | _ => .error .invalidType

/-- `INSERT INTO work_items … ON CONFLICT DO UPDATE`: a carried attribute wins
over the stored one. -/
def upsertWorkItem (id : ℕ) (size category : Json) (before : Option WorkItemRow) :
    Except DbError WorkItemRow := do
  let size ← sizeParam size
  let category ← textParam category
  match before with
  | none => .ok { id := id, sizeType := size, category := category }
  | some row =>
    .ok { row with sizeType := size <|> row.sizeType, category := category <|> row.category }

def EventType.itemBearing : EventType → Bool
  | .costMeter => false
  | _ => true

def joinWorkItem (conn : Connection) (ev : ClaimedEvent) (next : Option ℕ → Transaction) : Transaction :=
  let ref := ev.get (py "work_item_id")
  if ev.row.eventType.itemBearing ∧ ref.truthy then
    match ref with
    | .str ref =>
      let isLifecycle := ev.row.eventType = .lifecycle
      let size := if isLifecycle then ev.get (py "size_band") else .null
      let category := if isLifecycle then ev.get (py "category") else .null
      .fresh fun id =>
        .write (.workItem ev.workspaceId ref)
          (conn.indexed _ fun before => liftDb (upsertWorkItem id size category before))
          fun row => next (some (row : WorkItemRow).id)
    | _ => .throw (.database .invalidType)
  else next none

/-- The status an event leaves `accepted` with. -/
def settledStatus (exclusionReason : Option ExclusionReason) (workItemId : Option ℕ) :
    PipelineStatus :=
  if exclusionReason.isSome then .excluded
  else if workItemId.isSome then .joined
  else .resolved

/-- `UPDATE events SET …` on the claimed row, which is locked and so still there. -/
def settleEvent (resolvedUserId : Option ℕ) (exclusionReason : Option ExclusionReason)
    (workItemId : Option ℕ) : Option EventRow → Except DbError EventRow
  | some row => .ok
    { row with
      pipelineStatus := settledStatus exclusionReason workItemId
      resolvedUserId := resolvedUserId
      workItemId := workItemId
      exclusionReason := exclusionReason }
  | none => .error .interrupted

/-- The row of `ingestion_stats_daily` an event alone makes. -/
def statsOf (ev : ClaimedEvent) (countedResolved : Bool) (workItemId : Option ℕ) :
    IngestionStatsRow where
  acceptedCount := 1
  identityBearingCount := ev.idBearing.toNat
  resolvedCount := countedResolved.toNat
  activityCount := (decide (ev.row.eventType = .activity)).toNat
  joinedCount := workItemId.isSome.toNat
  lastEventAt := ev.occurredAt

def upsertStats (excluded : IngestionStatsRow) :
    Option IngestionStatsRow → Except DbError IngestionStatsRow
  | none => .ok excluded
  | some row => do
    let acceptedCount ← addInt bigintMax row.acceptedCount 1
    let identityBearingCount ←
      addInt bigintMax row.identityBearingCount excluded.identityBearingCount
    let resolvedCount ← addInt bigintMax row.resolvedCount excluded.resolvedCount
    let activityCount ← addInt bigintMax row.activityCount excluded.activityCount
    let joinedCount ← addInt bigintMax row.joinedCount excluded.joinedCount
    .ok { acceptedCount, identityBearingCount, resolvedCount, activityCount, joinedCount
          lastEventAt := max row.lastEventAt excluded.lastEventAt }

def upsertActivity : Option UserActivityRow → Except DbError UserActivityRow
  | none => .ok ⟨1⟩
  | some row => do
    let eventCount ← addInt integerMax row.eventCount 1
    .ok ⟨eventCount⟩

/-- A `NUMERIC(20,6)` parameter taken from a payload. The payload schema admits
numbers only. -/
def quantityParam : Json → Except DbError (Option Numeric)
  | .null => .ok none
  | .num n => (Numeric.ofNum n).map some
  | _ => .error .invalidType

/-- The check constraints on the quantities of a bucket. -/
def checkQuantity (q : Numeric) : Except DbError Numeric :=
  if 0 ≤ q.micros then .ok q else .error .checkViolation

/-- `gauge_last = EXCLUDED.gauge_last`. -/
def upsertGauge (qty : Json) (before : Option MeterUsageRow) : Except DbError MeterUsageRow := do
  let reading ← quantityParam qty
  let reading ← reading.mapM checkQuantity
  match before with
  | none => .ok ⟨.zero, reading⟩
  | some row => .ok { row with gaugeLast := reading }

/-- `quantity_sum = quantity_sum + EXCLUDED.quantity_sum`. -/
def upsertCounter (qty : Json) (before : Option MeterUsageRow) :
    Except DbError MeterUsageRow := do
  let delta ← quantityParam qty
  match delta with
  | none => .error .notNullViolation
  | some delta =>
    let delta ← checkQuantity delta
    match before with
    | none => .ok ⟨delta, none⟩
    | some row =>
      let quantitySum ← row.quantitySum.add delta
      let quantitySum ← checkQuantity quantitySum
      .ok { row with quantitySum := quantitySum }

/-- `_GAUGE_METERS`. -/
def MeterType.isGauge : MeterType → Bool
  | .seatsActive | .storageGb => true
  | _ => false

def upsertMeter (meter : MeterType) (qty : Json) :
    Option MeterUsageRow → Except DbError MeterUsageRow :=
  if meter.isGauge then upsertGauge qty else upsertCounter qty

/-- `payload.get("meter_ref", "") or ""`, as the `meter_ref` parameter. -/
def meterRefParam (ref : Json) : Except DbError PyStr :=
  if ref.truthy then
    match ref with
    | .str ref => .ok ref
    | _ => .error .invalidType
  else .ok []

/-- `payload["meter"]`, looked up among the gauges and bound as `meter_type`. -/
def meterParam : Option Json → Except Failure MeterType
  | none => .error (.python (.keyError (py "meter")))
  | some (.arr _) | some (.obj _) => .error (.python .typeError)
  | some (.str meter) =>
    match MeterType.ofWire? meter with
    | some meter => .ok meter
    | none => .error (.database .invalidText)
  | some .null => .error (.database .notNullViolation)
  | some _ => .error (.database .invalidType)

/-- The fold into `meter_usage_daily`, for a cost meter. -/
def updateMeterUsage (conn : Connection) (ev : ClaimedEvent) (day : ℤ) (next : Transaction) :
    Transaction :=
  if ev.row.eventType = .costMeter then
    match meterParam (ev.row.payload.get? (py "meter")) with
    | .error e => .throw e
    | .ok meter =>
      match meterRefParam (ev.row.payload.getD (py "meter_ref") (.str [])) with
      | .error e => .throw (.database e)
      | .ok meterRef =>
        .write (.meterUsage ev.row.deploymentId meter meterRef day)
          (conn.indexed _ fun before => liftDb
            (upsertMeter meter (ev.row.payload.getD (py "quantity") (.num (.int 0))) before))
          fun _ => next
  else next

/-- The fold into `user_activity_daily`, for a resolved, non-excluded activity. -/
def updateUserActivity (ev : ClaimedEvent) (day : ℤ) (resolvedUserId : Option ℕ)
    (exclusionReason : Option ExclusionReason) (next : Transaction) : Transaction :=
  match resolvedUserId, exclusionReason with
  | some userId, none =>
    if ev.row.eventType = .activity then
      .write (.userActivity ev.row.deploymentId userId day)
        (fun before => liftDb (upsertActivity before)) fun _ => next
    else next
  | _, _ => next

def updateAggregates (conn : Connection) (ev : ClaimedEvent) (resolvedUserId : Option ℕ)
    (exclusionReason : Option ExclusionReason) (workItemId : Option ℕ) (next : Transaction) :
    Transaction :=
  let day := conn.dayOf ev.occurredAt
  let countedResolved := resolvedUserId.isSome && exclusionReason.isNone
  .write (.ingestionStats ev.row.deploymentId ev.sourceRef day)
    (fun before => liftDb (upsertStats (statsOf ev countedResolved workItemId) before)) fun _ =>
      updateUserActivity ev day resolvedUserId exclusionReason
        (updateMeterUsage conn ev day next)

/-- What `_process_event` returns for a status. -/
def PipelineStatus.outcome : PipelineStatus → PipelineOutcome
  | .excluded => .excluded
  | .joined => .joined
  | _ => .resolved

def processEvent (conn : Connection) (ev : ClaimedEvent) : Transaction :=
  resolveIdentity conn ev fun resolvedUserId exclusionReason =>
    joinWorkItem conn ev fun workItemId =>
      .write (.event ev.workspaceId ev.eventKey ev.occurredAt)
        (fun before => liftDb (settleEvent resolvedUserId exclusionReason workItemId before))
        fun _ => updateAggregates conn ev resolvedUserId exclusionReason workItemId
          (.pure (.processed (settledStatus exclusionReason workItemId).outcome))

/-- `WHERE pipeline_status = 'accepted' ORDER BY occurred_at`. -/
def acceptedRank : (k : RowKey) → Row k → Option ℤ
  | .event _ _ occurredAt, row =>
    if (row : EventRow).pipelineStatus = .accepted then some occurredAt else none
  | _, _ => none

/-- One transaction of the worker: the next accepted event, if any. -/
def processNext (conn : Connection) : Transaction :=
  .claim acceptedRank fun
    | some ⟨.event workspaceId eventKey occurredAt, row⟩ =>
      processEvent conn ⟨workspaceId, eventKey, occurredAt, row⟩
    | _ => .pure .noEvent

/-- `counts["processed"] += 1` and the count of the outcome. -/
def Counts.add (c : Counts) : PipelineOutcome → Counts
  | .resolved => { c with processed := c.processed + 1, resolved := c.resolved + 1 }
  | .joined => { c with processed := c.processed + 1, joined := c.joined + 1 }
  | .excluded => { c with processed := c.processed + 1, excluded := c.excluded + 1 }

/-- The worker's loop with this many events still to process. -/
def runPipelineFrom (conn : Connection) : ℕ → Counts → Process
  | 0, counts => .done (.counts counts)
  | remaining + 1, counts =>
    .txn (processNext conn) fun
      | .ok (.processed outcome) => runPipelineFrom conn remaining (counts.add outcome)
      | .ok _ => .done (.counts counts)
      | .error e => .done (.raised e)

/-- `run_pipeline(limit)`. -/
def runPipeline (conn : Connection) (limit : ℕ) : Process :=
  runPipelineFrom conn limit ⟨0, 0, 0, 0⟩

end TrueFigure.Server
