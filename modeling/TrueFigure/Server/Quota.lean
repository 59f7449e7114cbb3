import TrueFigure.Library.Aggregates
import TrueFigure.Server.ImportEvaluation

/-!
# The two lanes

`ingest_events` with its gates: the size of the body, its shape, the rate limit
and the plan quota of `platform/billing/ratelimit.py`, each checked once before
the first event. `run_import` has none of them.
-/
namespace TrueFigure.Server

open TrueFigure.Library TrueFigure.Python

def planQuota : PlanType → ℕ
  | .free => 20
  | .team => 100000
  | .organization => 1000000
  | .enterprise => 10000000
  | .vendor => 10000000

def PlanType.wire : PlanType → PyStr
  | .free => py "free"
  | .team => py "team"
  | .organization => py "organization"
  | .enterprise => py "enterprise"
  | .vendor => py "vendor"

/-- The server with its request counters, by workspace and minute. -/
structure LaneWorld extends ImportWorld where
  windowHits : List ((ℕ × ℕ) × ℕ)

/-- `_minute`, counted from year 1. -/
def minuteOf (now : ℕ) : ℕ := now / 60000000

/-- `check_rate`. The request is counted, whether it passes or not. -/
def checkRate (w : LaneWorld) (workspaceId rpm now : ℕ) : Except TFError Unit × LaneWorld :=
  let key := (workspaceId, minuteOf now)
  let count := (w.windowHits.lookup key).getD 0 + 1
  let counted := { w with windowHits := (key, count) :: w.windowHits }
  if rpm < count then
    (.error ⟨.rate001, none,
      some (py "per-tenant rate limit " ++ py (toString rpm) ++ py "/min exceeded")⟩, counted)
  else (.ok (), counted)

section Session

-- The calendar month of an instant, in milliseconds, in the session time zone.
variable (monthOf : ℤ → ℤ)

def monthAt (now : ℕ) : ℤ := monthOf ((now / 1000 : ℕ) : ℤ)

/-- One for an event of the workspace that occurred in the month. -/
def stampedIn (workspaceId : ℕ) (month : ℤ) : Sigma Row → ℕ
  | ⟨.event ws _ t, _⟩ => if ws = workspaceId ∧ monthOf t = month then 1 else 0
  | _ => 0

/-- `used`, the events of a workspace that occurred in a month. -/
def usedIn (s : Db) (workspaceId : ℕ) (month : ℤ) : ℕ := tally (stampedIn monthOf workspaceId month) s

def checkQuota (w : LaneWorld) (workspaceId now : ℕ) : Except TFError Unit :=
  match w.workspace? workspaceId with
  | none => .ok ()
  | some row =>
    let quota := planQuota row.planType
    if quota ≤ usedIn monthOf w.rows.1 workspaceId (monthAt monthOf now) then
      .error ⟨.rate002, none, some (py "plan '" ++ row.planType.wire ++ py "' event quota (" ++
        py (toString quota) ++ py ") exhausted")⟩
    else .ok ()

def maxBodyBytes : ℕ := 1048576

def batchEvents (loads : Decoder) (raw : ByteArray) : Except Failure (List Json) := do
  if maxBodyBytes < raw.size then
    .error (.tfError ⟨.evt007, none, some (py "request body exceeds 1 MiB")⟩)
  let text ← (if raw.size = 0 then .ok (py "\x7b\x7d") else utf8Decode raw).mapError .python
  let body ← (loads text).mapError fun
    | .decode => .tfError ⟨.evt003, none, some (py "body is not valid JSON")⟩
    | .digits => .python (.valueError
        (py "Exceeds the limit (4300 digits) for integer string conversion"))
    | .recursion => .python .recursionError
  match body.dictOrEmpty.getD (py "events") .null with
  | .arr events =>
    if maxBatch < events.length then
      .error (.tfError ⟨.evt007, none, some (py "batch exceeds 500 events")⟩)
    else .ok events
  | _ => .error (.tfError ⟨.evt003, some (py "events"), some (py "events[] required")⟩)

/-- A request to `/v1/events:batch`: when its gates are passed, when its events are
checked, by whose key, and its body. -/
structure LaneRequest where
  principal : Principal
  sourceRef : PyStr
  now : ℕ
  clock : ℕ → ℕ
  body : ByteArray
  sourceRef_ok : textOk sourceRef = true

def LaneRequest.intake (req : LaneRequest) (w : ImportWorld) : Intake where
  principal := req.principal
  sourceRef := req.sourceRef
  horizonDays := w.backfillHorizon req.principal.workspaceId
  sourceRef_ok := req.sourceRef_ok

/-- The events with the clocks at which they are checked. -/
def submissionsFrom (clock : ℕ → ℕ) (start : ℕ) : List Json → List Submission
  | [] => []
  | event :: events => ⟨event, clock start⟩ :: submissionsFrom clock (start + 1) events

/-- The gates of `ingest_events`: the events it goes on with. -/
def passGates (loads : Decoder) (w : LaneWorld) (req : LaneRequest) : Except Failure (List Json) × LaneWorld :=
  match batchEvents loads req.body with
  | .error e => (.error e, w)
  | .ok events =>
    let rpm := ((w.workspace? req.principal.workspaceId).map WorkspaceRow.rateLimitRpm).getD 600
    match checkRate w req.principal.workspaceId rpm req.now with
    | (.error e, w') => (.error (.tfError e), w')
    | (.ok _, w') =>
      match checkQuota monthOf w' req.principal.workspaceId req.now with
      | .error e => (.error (.tfError e), w')
      | .ok _ => (.ok events, w')

/-- `ingest_events`. -/
def ingestRequest (loads : Decoder) (env : Env) (req : LaneRequest) (w : LaneWorld) : Outcome × LaneWorld :=
  match passGates monthOf loads w req with
  | (.error e, w') => (.raised e, w')
  | (.ok events, w') =>
    let r := (ingestLoop env (req.intake w.toImportWorld)
      (submissionsFrom req.clock 0 events) []).run w.rows.1 w.rows.2
    (r.1, { w' with rows := r.2 })

end Session

end TrueFigure.Server
