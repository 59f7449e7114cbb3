import TrueFigure.Python.JsonText
import TrueFigure.Python.Lines
import TrueFigure.Server.BatchIsolation

/-!
# Import jobs

`run_import` of `api/routes/imports.py`: the status of the job, the lines of its
upload through `_process_one`, the error report and the final counts. A line that
raises takes the whole call down.
-/
namespace TrueFigure.Server

open TrueFigure.Library TrueFigure.Python

inductive ImportStatus
  | queued | processing | completed | completedWithRejects | failed
  deriving DecidableEq, Repr

/-- `IMPORT_TERMINAL` of the client. -/
def ImportStatus.terminal : ImportStatus → Bool
  | .completed | .completedWithRejects | .failed => true
  | _ => false

/-- A row of `import_jobs`; the counts are its four counters. -/
structure ImportJobRow where
  id : ℕ
  workspaceId : ℕ
  importStatus : ImportStatus
  importRef : PyStr
  sourceRef : Option PyStr
  uploadPath : PyStr
  counts : ImportCounts
  errorReportPath : Option PyStr
  sourceRef_ok : textOk (sourceRef.getD []) = true

inductive PlanType
  | free | team | organization | enterprise | vendor
  deriving DecidableEq, Repr

/-- A row of `workspaces`, with the plan of its organization. -/
structure WorkspaceRow where
  id : ℕ
  planType : PlanType
  rateLimitRpm : ℕ
  backfillHorizonDays : ℕ
  deriving DecidableEq

/-- The database and the object storage, as an import finds them. -/
structure ImportWorld where
  rows : Db × ℕ
  workspaces : List WorkspaceRow
  jobs : List ImportJobRow
  /-- The stored objects by bucket and path. -/
  objects : List ((PyStr × PyStr) × ByteArray)

def uploadBucket : PyStr := py "import-uploads"

def errorBucket : PyStr := py "import-error-reports"

namespace ImportWorld

variable (w : ImportWorld)

def job? (importRef : PyStr) : Option ImportJobRow :=
  w.jobs.find? fun job => job.importRef = importRef

def workspace? (id : ℕ) : Option WorkspaceRow := w.workspaces.find? fun ws => ws.id = id

/-- The object at a path; `none` where `store.exists` says no. -/
def get (bucket path : PyStr) : Option ByteArray := w.objects.lookup (bucket, path)

/-- `store.put`. -/
def put (bucket path : PyStr) (data : ByteArray) : ImportWorld :=
  { w with objects := ((bucket, path), data) :: w.objects }

/-- `UPDATE import_jobs SET … WHERE id = …`. -/
def updateJob (id : ℕ) (f : ImportJobRow → ImportJobRow) : ImportWorld :=
  { w with jobs := w.jobs.map fun job => if job.id = id then f job else job }

/-- `_set_status`, and `_set_processing` with `processing`. -/
def setStatus (id : ℕ) (status : ImportStatus) : ImportWorld :=
  w.updateJob id fun job => { job with importStatus := status }

def finalize (id : ℕ) (status : ImportStatus) (counts : ImportCounts)
    (errorReportPath : Option PyStr) : ImportWorld :=
  w.updateJob id fun job =>
    { job with importStatus := status, counts := counts, errorReportPath := errorReportPath }

def backfillHorizon (workspaceId : ℕ) : ℕ :=
  ((w.workspace? workspaceId).map WorkspaceRow.backfillHorizonDays).getD 400

end ImportWorld

/-- `_process_one` alone: its result, and the rows and the sequence it leaves. -/
def processAlone (env : Env) (intake : Intake) (index : ℕ) (sub : Submission) (st : Db × ℕ) :
    Except Failure EventResult × Db × ℕ :=
  let alone := processOne env intake index sub fun
    | .ok r => .done (.results [r])
    | .error e => .done (.raised e)
  match alone.run st.1 st.2 with
  | (.results [r], st') => (.ok r, st')
  | (.raised e, st') => (.error e, st')
  | (_, st') => (.error (.python .assertionError), st')

/-! ### The lines -/

/-- `counts` and `error_lines`. -/
structure ImportProgress where
  counts : ImportCounts
  errorLines : List PyStr

def ImportProgress.start : ImportProgress := ⟨⟨0, 0, 0, 0⟩, []⟩

def ErrorObject.json (e : ErrorObject) : Json :=
  .obj ([(py "code", .str e.code), (py "name", .str e.name), (py "message", .str e.message),
      (py "retryable", .bool e.retryable)] ++
    (e.fieldPath.map fun path => (py "field_path", Json.str path)).toList ++
    (e.detail.map fun detail => (py "detail", Json.str detail)).toList)

def undecodableLine (env : Env) (lineNo : ℕ) : PyStr :=
  jsonDumps env.rt (.obj [(py "line", .num (.int lineNo)),
    (py "error", .obj [(py "code", .str (py "TF-EVT-003")),
      (py "message", .str (py "line is not valid JSON"))])])

def rejectedLine (env : Env) (lineNo : ℕ) (r : EventResult) : PyStr :=
  jsonDumps env.rt (.obj [(py "line", .num (.int lineNo)),
    (py "event_key", (r.eventKey.map Json.str).getD .null),
    (py "error", (r.error.map ErrorObject.json).getD .null)])

/-- `json.JSONDecodeError`. -/
def ImportProgress.undecodable (env : Env) (p : ImportProgress) (lineNo : ℕ) : ImportProgress :=
  ⟨p.counts.count .rejected, p.errorLines ++ [undecodableLine env lineNo]⟩

def ImportProgress.record (env : Env) (p : ImportProgress) (lineNo : ℕ) (r : EventResult) :
    ImportProgress :=
  ⟨p.counts.count r.status,
    if r.status = .rejected then p.errorLines ++ [rejectedLine env lineNo r] else p.errorLines⟩

/-- The loop of `run_import` over the numbered lines; line `i` is checked at
`clock i`. -/
def importLines (loads : Decoder) (env : Env) (intake : Intake) (clock : ℕ → ℕ) :
    List (ℕ × PyStr) → ImportProgress → Db × ℕ → Except Failure ImportProgress × Db × ℕ
  | [], p, st => (.ok p, st)
  | (lineNo, line) :: lines, p, st =>
    if blank line then importLines loads env intake clock lines p st
    else
      match loads line with
      | .error .decode => importLines loads env intake clock lines (p.undecodable env lineNo) st
      | .error .digits => (.error (.python (.valueError
          (py "Exceeds the limit (4300 digits) for integer string conversion"))), st)
      | .error .recursion => (.error (.python .recursionError), st)
      | .ok event =>
        match processAlone env intake lineNo ⟨event, clock lineNo⟩ st with
        | (.ok r, st') => importLines loads env intake clock lines (p.record env lineNo r) st'
        | (.error e, st') => (.error e, st')

/-- `enumerate(raw.splitlines())`. -/
def numberedLines (raw : PyStr) : List (ℕ × PyStr) :=
  (splitlines raw).zipIdx.map Prod.swap

/-! ### The job -/

def ImportWorld.intake (w : ImportWorld) (job : ImportJobRow) : Intake where
  principal := jobPrincipal job.workspaceId
  sourceRef := job.sourceRef.getD []
  horizonDays := w.backfillHorizon job.workspaceId
  sourceRef_ok := job.sourceRef_ok

def errorReportPathOf (job : ImportJobRow) : PyStr :=
  py (toString job.workspaceId) ++ py "/" ++ job.importRef ++ py ".errors.ndjson"

/-- `("\n".join(error_lines) + "\n").encode("utf-8")`. -/
def errorReport (errorLines : List PyStr) : Except PyErr ByteArray :=
  utf8Encode (joinLines errorLines ++ [0x0A])

/-- The end of `run_import`, once the loop is through. -/
def finishImport (w : ImportWorld) (job : ImportJobRow) (p : ImportProgress) :
    Except Failure ImportCounts × ImportWorld :=
  let final : ImportStatus := if p.counts.rejected ≠ 0 then .completedWithRejects else .completed
  if p.errorLines = [] then (.ok p.counts, w.finalize job.id final p.counts none)
  else
    match errorReport p.errorLines with
    | .error e => (.error (.python e), w)
    | .ok report =>
      let path := errorReportPathOf job
      (.ok p.counts, (w.put errorBucket path report).finalize job.id final p.counts (some path))

def runImportJob (loads : Decoder) (env : Env) (clock : ℕ → ℕ) (importRef : PyStr) (w : ImportWorld) :
    Except Failure ImportCounts × ImportWorld :=
  match w.job? importRef with
  | none => (.error (.tfError ⟨.read001, none,
      some (py "import " ++ importRef ++ py " not found")⟩), w)
  | some job =>
    match w.get uploadBucket job.uploadPath with
    | none => (.error (.tfError ⟨.srv001, none, some (py "upload not found for import job")⟩),
        w.setStatus job.id .failed)
    | some data =>
      let processing := w.setStatus job.id .processing
      match utf8Decode data with
      | .error e => (.error (.python e), processing)
      | .ok raw =>
        match importLines loads env (w.intake job) clock (numberedLines raw) .start w.rows with
        | (.error e, rows) => (.error e, { processing with rows := rows })
        | (.ok p, rows) => finishImport { processing with rows := rows } job p

end TrueFigure.Server
