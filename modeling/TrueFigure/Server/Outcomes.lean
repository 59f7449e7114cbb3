import TrueFigure.Server.Tables

/-!
# Errors and results

The exceptions that cross a transaction, the entries of
`contract/error-codes.json` the ingestion path raises, and the results its
requests and the pipeline answer with.
-/
namespace TrueFigure.Server

open TrueFigure.Library TrueFigure.Python

/-- The registry codes the modelled paths raise. -/
inductive ErrorCode
  | evt001 | evt002 | evt003 | evt004 | evt005 | evt006 | evt007 | evt008 | evt009
  | cfg001 | cfg002 | cfg003 | cfg004 | cfg005 | cfg007 | read001 | auth002 | rate001 | rate002
  | srv001 | srv002
  deriving DecidableEq, Repr

/-- A registry entry, as far as `to_error_object` reads it. -/
structure CodeDefinition where
  code : PyStr
  name : PyStr
  retryable : Bool
  message : PyStr

def ErrorCode.definition : ErrorCode → CodeDefinition
  | .evt001 => ⟨py "TF-EVT-001", py "SCHEMA_VERSION_UNSUPPORTED", false,
      py "Envelope schema_version is not supported by this server."⟩
  | .evt002 => ⟨py "TF-EVT-002", py "UNKNOWN_DEPLOYMENT", false,
      py "deployment_id is not registered."⟩
  | .evt003 => ⟨py "TF-EVT-003", py "MALFORMED_FIELD", false,
      py "A field failed validation. See field_path, expected, received."⟩
  | .evt004 => ⟨py "TF-EVT-004", py "UNKNOWN_ID_NAMESPACE", false,
      py "user_ref or work_item_id namespace is not registered for this deployment."⟩
  | .evt005 => ⟨py "TF-EVT-005", py "DUPLICATE_EVENT", false,
      py "Idempotent no-op: an event with this natural key already exists. Not a failure."⟩
  | .evt006 => ⟨py "TF-EVT-006", py "CONTENT_FIELD_REJECTED", false,
      py "Payload contains a field that could carry prompt/response content. " ++
        py "Structurally forbidden (BR-001)."⟩
  | .evt007 => ⟨py "TF-EVT-007", py "BATCH_LIMIT_EXCEEDED", true,
      py "Batch exceeds max_batch_size. Split and resend; idempotency makes resends safe."⟩
  | .evt008 => ⟨py "TF-EVT-008", py "VALUE_ASSERTION_REJECTED", false,
      py "Payload contains a value/savings/ROI assertion field. " ++
        py "The SDK witnesses facts; it never accepts valuations."⟩
  | .evt009 => ⟨py "TF-EVT-009", py "TIMESTAMP_OUT_OF_RANGE", false,
      py "Event timestamp is in the future or beyond the accepted backfill horizon."⟩
  | .cfg001 => ⟨py "TF-CFG-001", py "PARAMETER_OVERLAP", false,
      py "Effective-date range overlaps an existing parameter version " ++
        py "(BR: overlap-free windows)."⟩
  | .cfg002 => ⟨py "TF-CFG-002", py "ROLE_DENIED", false,
      py "Caller lacks the required role (e.g., FINANCE_PARAMS for parameter writes)."⟩
  | .cfg003 => ⟨py "TF-CFG-003", py "DEPLOYMENT_EXISTS", false,
      py "Deployment with this external reference already registered."⟩
  | .cfg004 => ⟨py "TF-CFG-004", py "NAMESPACE_CONFLICT", false,
      py "Id-namespace mapping conflicts with an existing mapping."⟩
  | .cfg005 => ⟨py "TF-CFG-005", py "WEBHOOK_UNREACHABLE", true,
      py "Webhook endpoint failed verification challenge."⟩
  | .cfg007 => ⟨py "TF-CFG-007", py "MALFORMED_FIELD", false,
      py "Config-plane body field failed validation. See field_path, expected, received."⟩
  | .read001 => ⟨py "TF-READ-001", py "FIGURE_NOT_FOUND", false,
      py "No figure with this id/period for the deployment."⟩
  | .auth002 => ⟨py "TF-AUTH-002", py "KEY_SCOPE_EXCEEDED", false,
      py "Key is not scoped to this deployment or plane."⟩
  | .rate001 => ⟨py "TF-RATE-001", py "RATE_LIMITED", true,
      py "Per-tenant rate limit exceeded. Honor retry_after; client buffering + idempotent " ++
        py "replay is the designed behavior."⟩
  | .rate002 => ⟨py "TF-RATE-002", py "QUOTA_EXCEEDED", false,
      py "Plan-level event quota exhausted for the period."⟩
  | .srv001 => ⟨py "TF-SRV-001", py "INTERNAL", true,
      py "Platform-side failure. Retry with backoff; report request_id if persistent."⟩
  | .srv002 => ⟨py "TF-SRV-002", py "INGESTION_PAUSED", true,
      py "Ingestion temporarily paused (correctness over liveness, e.g., checkpoint store " ++
        py "unavailable). Buffer and replay."⟩

/-- The HTTP status of a registry entry. -/
def ErrorCode.http : ErrorCode → ℕ
  | .evt001 | .evt003 | .evt004 | .evt006 | .evt008 | .evt009 | .cfg007 => 400
  | .evt002 | .read001 => 404
  | .evt005 => 200
  | .evt007 => 413
  | .cfg001 | .cfg003 | .cfg004 => 409
  | .cfg005 => 422
  | .auth002 | .cfg002 => 403
  | .rate001 | .rate002 => 429
  | .srv001 => 500
  | .srv002 => 503

/-- A `TFError` with the context the ingestion path gives it. -/
structure TFError where
  code : ErrorCode
  fieldPath : Option PyStr
  detail : Option PyStr
  deriving DecidableEq

/-- The error object of a response. -/
structure ErrorObject where
  code : PyStr
  name : PyStr
  message : PyStr
  retryable : Bool
  fieldPath : Option PyStr
  detail : Option PyStr
  deriving DecidableEq

def TFError.message (e : TFError) : PyStr := e.code.definition.message

def TFError.toErrorObject (e : TFError) : ErrorObject :=
  { code := e.code.definition.code
    name := e.code.definition.name
    message := e.message
    retryable := e.code.definition.retryable
    fieldPath := e.fieldPath
    detail := e.detail }

/-- What can be raised: the internal `_Reject` with its error, a `TFError`, a
Python exception or a database error. -/
inductive Failure
  | reject (err : TFError)
  | tfError (err : TFError)
  | python (e : PyErr)
  | database (e : DbError)
  deriving DecidableEq

/-- Raise what the column type raises. -/
def liftDb {α : Type} : Except DbError α → Except Failure α
  | .ok a => .ok a
  | .error e => .error (.database e)

theorem liftDb_eq_ok {α : Type} {x : Except DbError α} {a : α} (h : liftDb x = .ok a) :
    x = .ok a := by
  cases x with
  | error e => cases h
  | ok b =>
    cases h
    rfl

inductive EventStatus
  | accepted | duplicate | rejected
  deriving DecidableEq, Repr

/-- The parse echo of a test-mode result. -/
structure Echo where
  accepted : Bool
  reason : Option PyStr
  matchedWorkItem : Json
  actionClass : Option Json
  interpretedAs : Option Json

/-- What a result says about its event. -/
structure Verdict where
  status : EventStatus
  eventKey : Option PyStr
  code : Option PyStr
  error : Option ErrorObject
  echo : Option Echo

/-- One entry of `results[]`. -/
structure EventResult extends Verdict where
  index : ℕ

/-- What `_process_event` reports. -/
inductive PipelineOutcome
  | resolved | joined | excluded
  deriving DecidableEq, Repr

/-- The counts `run_pipeline` returns. -/
structure Counts where
  processed : ℕ
  resolved : ℕ
  joined : ℕ
  excluded : ℕ
  deriving DecidableEq

/-- What a transaction hands back to its caller. -/
inductive Reply
  | done
  | noEvent
  | processed (outcome : PipelineOutcome)
  | result (r : EventResult)

/-- The counts `run_import` returns. -/
structure ImportCounts where
  received : ℕ
  accepted : ℕ
  duplicate : ℕ
  rejected : ℕ
  deriving DecidableEq

/-- One entry of the results of `upsert_roster`: upserted, or rejected with an
error. -/
structure RosterResult where
  userRef : PyStr
  error : Option ErrorObject
  deriving DecidableEq

/-- How a request or a worker ends. -/
inductive Outcome
  | counts (c : Counts)
  | results (rs : List EventResult)
  | imported (c : ImportCounts)
  | roster (rs : List RosterResult)
  | raised (e : Failure)

/-- The statuses of the results, where there are results. -/
def Outcome.statuses : Outcome → Option (List EventStatus)
  | .results rs => some (rs.map fun r => r.status)
  | _ => none

abbrev Transaction := Txn Row Failure Reply

/-- A request or a worker of the server. -/
abbrev Process := Proc Row Failure Reply Outcome

end TrueFigure.Server
