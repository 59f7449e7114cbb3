import TrueFigure.Library.Transactions
import TrueFigure.Python.Values
import Mathlib.Data.Rat.Floor
import Mathlib.Data.Int.Log

/-!
# The tables

The rows of `supabase/migrations/0001_certified_schema.sql` that the write plane
and the pipeline touch, each under the columns of the unique constraint that
identifies it. Audit columns, surrogate ids nothing reads and tables of other
planes are left out. Instants are milliseconds and days are ordinals.
-/
namespace TrueFigure.Server

open TrueFigure.Library TrueFigure.Python

inductive EventType
  | activity | lifecycle | costMeter | qualitySignal | revenueSignal
  deriving DecidableEq, Repr

inductive OriginType
  | customerSystem | vendorProduct
  deriving DecidableEq, Repr

inductive PipelineStatus
  | accepted | resolved | joined | excluded
  deriving DecidableEq, Repr

inductive ExclusionReason
  | sharedAccount | serviceAccount | botAccount | unresolvedIdentity
  deriving DecidableEq, Repr

inductive UserType
  | user | shared | service | bot
  deriving DecidableEq, Repr

inductive UserStatus
  | active | inactive | blocked
  deriving DecidableEq, Repr

inductive DeploymentType
  | saasTool | inHouse | agent | decisionAi
  deriving DecidableEq, Repr

inductive DeploymentStatus
  | active | paused | archived
  deriving DecidableEq, Repr

/-- `identifier_field_type`. -/
inductive IdField
  | userRef | workItemId | assigneeRef
  deriving DecidableEq, Repr

inductive MeterType
  | tokensIn | tokensOut | apiCalls | computeSeconds | seatsActive | storageGb
  deriving DecidableEq, Repr

inductive SizeType
  | xs | s | m | l | xl
  deriving DecidableEq, Repr

def EventType.wire : EventType → PyStr
  | .activity => py "activity"
  | .lifecycle => py "lifecycle"
  | .costMeter => py "cost_meter"
  | .qualitySignal => py "quality_signal"
  | .revenueSignal => py "revenue_signal"

def EventType.all : List EventType :=
  [.activity, .lifecycle, .costMeter, .qualitySignal, .revenueSignal]

def EventType.ofWire? (s : PyStr) : Option EventType := EventType.all.find? fun t => t.wire = s

def OriginType.wire : OriginType → PyStr
  | .customerSystem => py "customer_system"
  | .vendorProduct => py "vendor_product"

def OriginType.ofWire? (s : PyStr) : Option OriginType :=
  [OriginType.customerSystem, .vendorProduct].find? fun o => o.wire = s

def IdField.wire : IdField → PyStr
  | .userRef => py "user_ref"
  | .workItemId => py "work_item_id"
  | .assigneeRef => py "assignee_ref"

def MeterType.wire : MeterType → PyStr
  | .tokensIn => py "tokens_in"
  | .tokensOut => py "tokens_out"
  | .apiCalls => py "api_calls"
  | .computeSeconds => py "compute_seconds"
  | .seatsActive => py "seats_active"
  | .storageGb => py "storage_gb"

def MeterType.all : List MeterType :=
  [.tokensIn, .tokensOut, .apiCalls, .computeSeconds, .seatsActive, .storageGb]

def MeterType.ofWire? (s : PyStr) : Option MeterType := MeterType.all.find? fun m => m.wire = s

def SizeType.wire : SizeType → PyStr
  | .xs => py "xs"
  | .s => py "s"
  | .m => py "m"
  | .l => py "l"
  | .xl => py "xl"

def SizeType.ofWire? (s : PyStr) : Option SizeType :=
  [SizeType.xs, .s, .m, .l, .xl].find? fun z => z.wire = s

/-- Errors Postgres or the driver raises for a statement. -/
inductive DbError
  | uniqueViolation
  | checkViolation
  | notNullViolation
  | numericOverflow
  | integerOverflow
  | foreignKeyViolation
  | invalidText
  | invalidType
  | invalidJson
  /-- An index entry that does not fit a page. -/
  | indexRowSize
  /-- The connection is lost or the backend cancels the transaction. -/
  | interrupted
  deriving DecidableEq

/-- A `NUMERIC(20,6)` value: millionths, with at most fourteen digits before
the point. -/
structure Numeric where
  micros : ℤ
  bounded : micros.natAbs < 10 ^ 20
  deriving DecidableEq

namespace Numeric

@[ext] theorem ext {a b : Numeric} (h : a.micros = b.micros) : a = b := by
  cases a
  cases b
  simp_all

/-- The value, where the column can hold it. -/
def ofMicros (n : ℤ) : Except DbError Numeric :=
  if h : n.natAbs < 10 ^ 20 then .ok ⟨n, h⟩ else .error .numericOverflow

def zero : Numeric := ⟨0, by decide⟩

/-- The sum as the column stores it; both sides are already in millionths. -/
def add (a b : Numeric) : Except DbError Numeric := ofMicros (a.micros + b.micros)

theorem ofMicros_eq_ok {n : ℤ} {a : Numeric} (h : ofMicros n = .ok a) : a.micros = n := by
  unfold ofMicros at h
  split_ifs at h
  cases h
  rfl

theorem add_eq_ok {a b c : Numeric} (h : a.add b = .ok c) :
    c.micros = a.micros + b.micros :=
  ofMicros_eq_ok h

/-- Rounding half away from zero, as `numeric` does. -/
def roundHalfAway (q : ℚ) : ℤ := if 0 ≤ q then ⌊q + 1 / 2⌋ else ⌈q - 1 / 2⌉

/-- The decimal a `float8` becomes when cast to `numeric`: fifteen significant
digits. -/
def ofFloat8 (q : ℚ) : ℚ :=
  let scale : ℚ := (10 : ℚ) ^ (14 - Int.log 10 |q|)
  roundHalfEven (q * scale) / scale

/-- A JSON number bound to a `NUMERIC(20,6)` column. A payload read back from
`jsonb` holds no infinity and no `NaN`; they overflow here. -/
def ofNum : PyNum → Except DbError Numeric
  | .int n => ofMicros (n * 10 ^ 6)
  | .float q => ofMicros (roundHalfAway (ofFloat8 q * 10 ^ 6))
  | _ => .error .numericOverflow

end Numeric

/-- A counter column that fails rather than exceed its integer type. -/
def addInt (limit a b : ℕ) : Except DbError ℕ :=
  if a + b ≤ limit then .ok (a + b) else .error .integerOverflow

/-- The greatest `BIGINT`. -/
def bigintMax : ℕ := 2 ^ 63 - 1

/-- The greatest `INTEGER`. -/
def integerMax : ℕ := 2 ^ 31 - 1

theorem addInt_eq_ok {limit a b c : ℕ} (h : addInt limit a b = .ok c) : c = a + b := by
  unfold addInt at h
  split_ifs at h
  cases h
  rfl

structure DeploymentRow where
  id : ℕ
  workspaceId : ℕ
  deploymentStatus : DeploymentStatus

/-- An active row of `identifier_namespaces`. -/
structure NamespaceRow where
  ns : PyStr
  formatRegex : Option PyStr

/-- A row of `users`; days are ordinals. -/
structure UserRow where
  id : ℕ
  userType : UserType
  userStatus : UserStatus
  displayName : Option PyStr
  jobRole : Option PyStr
  team : Option PyStr
  effectiveFrom : Option ℤ
  effectiveTo : Option ℤ

/-- An active row of `user_identifiers`. -/
structure UserIdentifierRow where
  userId : ℕ

structure EventRow where
  deploymentId : ℕ
  eventType : EventType
  originType : OriginType
  pipelineStatus : PipelineStatus
  schemaVersion : PyStr
  sourceRef : Option PyStr
  payload : Dict
  resolvedUserId : Option ℕ
  workItemId : Option ℕ
  exclusionReason : Option ExclusionReason

structure RejectedEventRow where
  workspaceId : ℕ
  eventType : Option EventType
  deploymentRef : Option PyStr
  eventKey : Option PyStr
  errorCode : PyStr
  fieldPath : Option PyStr
  sourceRef : Option PyStr

structure WorkItemRow where
  id : ℕ
  sizeType : Option SizeType
  category : Option PyStr

/-- A row of `ingestion_stats_daily`. -/
structure IngestionStatsRow where
  acceptedCount : ℕ
  identityBearingCount : ℕ
  resolvedCount : ℕ
  activityCount : ℕ
  joinedCount : ℕ
  lastEventAt : ℤ
  deriving DecidableEq

/-- A row of `user_activity_daily`. -/
structure UserActivityRow where
  eventCount : ℕ
  deriving DecidableEq

/-- A row of `meter_usage_daily`. -/
structure MeterUsageRow where
  quantitySum : Numeric
  gaugeLast : Option Numeric
  deriving DecidableEq

/-- The columns that identify a row, by table. -/
inductive RowKey
  | deployment (deploymentRef : PyStr)
  | identifierNamespace (workspaceId : ℕ) (deploymentId : Option ℕ) (field : IdField)
      (sourceRef : PyStr)
  | user (workspaceId : ℕ) (userRef : PyStr)
  | userIdentifier (workspaceId : ℕ) (ns : PyStr) (value : PyStr)
  | event (workspaceId : ℕ) (eventKey : PyStr) (occurredAt : ℤ)
  | rejectedEvent (id : ℕ)
  | workItem (workspaceId : ℕ) (workItemRef : PyStr)
  | ingestionStats (deploymentId : ℕ) (sourceRef : PyStr) (day : ℤ)
  | userActivity (deploymentId userId : ℕ) (day : ℤ)
  | meterUsage (deploymentId : ℕ) (meter : MeterType) (meterRef : PyStr) (day : ℤ)
  deriving DecidableEq

@[reducible] def Row : RowKey → Type
  | .deployment _ => DeploymentRow
  | .identifierNamespace .. => NamespaceRow
  | .user .. => UserRow
  | .userIdentifier .. => UserIdentifierRow
  | .event .. => EventRow
  | .rejectedEvent _ => RejectedEventRow
  | .workItem .. => WorkItemRow
  | .ingestionStats .. => IngestionStatsRow
  | .userActivity .. => UserActivityRow
  | .meterUsage .. => MeterUsageRow

/-- The database. -/
abbrev Db := Store Row

end TrueFigure.Server
