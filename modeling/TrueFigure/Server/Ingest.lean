import TrueFigure.Server.EventKey
import TrueFigure.Server.Pipeline
import TrueFigure.Server.Schema

/-!
# The write plane

`ingest_events` and `_process_one` of `api/routes/ingest.py`, and the loop of
`run_import` that shares them: forbidden fields, structure, timestamp, then in
one transaction deployment, namespaces, key and duplicate check, and for a
rejected event a second transaction that quarantines it.
-/
namespace TrueFigure.Server

open TrueFigure.Library TrueFigure.Python

/-- What the path calls outside the repository: the runtime's `repr`, the
digest, `re.search`, the validator's messages and the driver's adaptation of
values that are not strings to a `TEXT` column. -/
structure Env where
  rt : Runtime
  digest : PyStr → PyStr
  /-- `re.search(pattern, value) is not None`; `none` is an `re.error`. -/
  reSearch : PyStr → PyStr → Option Bool
  schemaMessage : SchemaError → PyStr
  adaptOther : Json → Except DbError (Option PyStr)
  sound : rt.Sound
  digest_encodable : ∀ raw, utf8Encodable (digest raw) = true
  /-- Messages show instances by `repr`. -/
  message_encodable : ∀ e, utf8Encodable (schemaMessage e) = true

inductive KeyMode
  | production | test
  deriving DecidableEq, Repr

inductive KeyScope
  | workspace | deployment
  deriving DecidableEq, Repr

/-- `Principal`, as far as ingestion reads it. -/
structure Principal where
  workspaceId : ℕ
  mode : KeyMode
  scope : KeyScope
  grantedDeploymentIds : List ℕ

def Principal.isTest (p : Principal) : Bool := p.mode = .test

/-- `require_deployment` lets the key through. -/
def Principal.mayTouch (p : Principal) (deploymentId : ℕ) : Bool :=
  p.scope = .workspace || p.grantedDeploymentIds.contains deploymentId

/-- What a request or an import job brings to each of its events. -/
structure Intake where
  principal : Principal
  sourceRef : PyStr
  horizonDays : ℕ
  /-- Header values are Latin-1 without NUL; a job's is read from a column. -/
  sourceRef_ok : textOk sourceRef = true

/-- A submitted event and the clock when it is checked, in microseconds. -/
structure Submission where
  event : Json
  now : ℕ

/-! ### Before the transaction -/

def valueFields : List PyStr :=
  [py "value", py "value_usd", py "savings", py "roi", py "amount", py "price", py "dollars",
    py "revenue_usd", py "cost_usd"]

/-- The first forbidden key of an object. -/
def forbiddenField (scopeName : PyStr) : Dict → Option TFError
  | [] => none
  | (key, _) :: fields =>
    if key = py "content" then
      some ⟨.evt006, some (scopeName ++ py "content"), some (py "content is never accepted")⟩
    else if valueFields.contains key then
      some ⟨.evt008, some (scopeName ++ key),
        some (py "the SDK witnesses facts; it never accepts asserted value")⟩
    else forbiddenField scopeName fields

def scanForbiddenFields (event : Dict) : Except Failure Unit :=
  let payload := (event.getD (py "payload") .null).dictOrEmpty
  match forbiddenField [] event <|> forbiddenField (py "payload.") payload with
  | some err => .error (.reject err)
  | none => .ok ()

/-- `".".join(path) or "(root)"`. -/
def dottedPath (path : List PyStr) : PyStr :=
  if path = [] then py "(root)" else (py ".").intercalate path

def validateStructure (env : Env) (event : Dict) : Except Failure Unit :=
  let sv := (event.getD (py "schema_version") .null).str?
  match sv.filter fun sv => !schemaVersionOk sv with
  | some sv => .error (.reject ⟨.evt001, some (py "schema_version"),
      some (py "unsupported schema_version " ++ sv)⟩)
  | none =>
    match firstError (schemaErrors event) with
    | some first => .error (.reject ⟨.evt003, some (dottedPath first.path),
        some (env.schemaMessage first)⟩)
    | none => .ok ()

def checkTimestamp (env : Env) (payload : Dict) (horizonDays now : ℕ) : Except Failure PyStr :=
  match canonicalTs env.rt (payload.getD (py "timestamp") .null) with
  | .error (.timestampError message) =>
    .error (.reject ⟨.evt003, some (py "payload.timestamp"), some message⟩)
  | .error e => .error (.python e)
  | .ok ts =>
    match strptimeMillis ts with
    | none => .error (.python (.valueError (py "time data " ++ reprStr env.rt ts ++
        py " does not match format '%Y-%m-%dT%H:%M:%S.%fZ'")))
    | some millis =>
      if microsEnd ≤ now + microsPerDay then .error (.python .overflowError)
      else if now + microsPerDay < millis * 1000 then
        .error (.reject ⟨.evt009, some (py "payload.timestamp"),
          some (py "timestamp is in the future")⟩)
      else if now < horizonDays * microsPerDay then .error (.python .overflowError)
      else if millis * 1000 < now - horizonDays * microsPerDay then
        .error (.reject ⟨.evt009, some (py "payload.timestamp"),
          some (py "timestamp older than backfill horizon (" ++ py (toString horizonDays) ++
            py "d)")⟩)
      else .ok ts

/-- An event that reaches the transaction, with its canonical timestamp. -/
structure Admitted where
  event : Dict
  ts : PyStr

namespace Admitted

variable (adm : Admitted)

def text (key : PyStr) : PyStr := envelopeText adm.event key

def payload : Dict := (adm.event.getD (py "payload") .null).dictOrEmpty

/-- `eventkey.event_key(event["deployment_id"], event_type, payload, scope)`. -/
def key (env : Env) : Except PyErr PyStr := (KeyArgs.ofEnvelope adm.event).key env.rt env.digest

/-- The `occurred_at` the column reads from the timestamp. -/
def occurredAt : ℤ := (strptimeMillis adm.ts).getD 0

end Admitted

/-- The checks of `_process_one` before it opens a transaction. -/
def examine (env : Env) (intake : Intake) (sub : Submission) : Except Failure Admitted :=
  match sub.event with
  | .obj event => do
    scanForbiddenFields event
    validateStructure env event
    let payload := (Dict.getD event (py "payload") .null).dictOrEmpty
    let ts ← checkTimestamp env payload intake.horizonDays sub.now
    .ok ⟨event, ts⟩
  | _ => .error (.reject ⟨.evt003, some (py "(root)"), some (py "event must be an object")⟩)

/-! ### The transaction -/

/-- A `str` passed as a `text` parameter. -/
def textArgument (s : PyStr) : Except Failure PyStr :=
  if utf8Encodable s then if textOk s then .ok s else .error (.database .invalidText)
  else .error (.python .unicodeEncodeError)

/-- What `_resolve_dep` makes of the row it read. -/
def admitDeployment (principal : Principal) (wireId : PyStr) :
    Option DeploymentRow → Except Failure DeploymentRow
  | none => .error (.reject ⟨.evt002, some (py "deployment_id"),
      some (py "unknown deployment " ++ wireId)⟩)
  | some row =>
    if !principal.mayTouch row.id then
      .error (.tfError ⟨.auth002, none,
        some (py "key not scoped to deployment " ++ py (toString row.id))⟩)
    else if row.deploymentStatus = .paused then
      .error (.tfError ⟨.srv002, none, some (py "ingestion paused for " ++ wireId)⟩)
    else .ok row

/-- The deployment of this reference in the workspace. -/
def deploymentOf (s : Db) (workspaceId : ℕ) (wireId : PyStr) : Option DeploymentRow :=
  (s.lookup (.deployment wireId)).filter fun row => row.workspaceId = workspaceId

def resolveDep (principal : Principal) (wireId : PyStr) (next : DeploymentRow → Transaction) :
    Transaction :=
  match textArgument wireId with
  | .error e => .throw e
  | .ok ref => .read fun s =>
    match admitDeployment principal wireId (deploymentOf s principal.workspaceId ref) with
    | .error e => .throw e
    | .ok dep => next dep

/-- The fault a declared format finds in an id value. -/
def formatFault (env : Env) (field : IdField) (value : PyStr) :
    Option NamespaceRow → Option Failure
  | some ⟨_, some regex⟩ =>
    if regex = [] then none
    else
      match env.reSearch regex value with
      | none => some (.python .reError)
      | some true => none
      | some false => some (.reject ⟨.evt004, some (py "payload." ++ field.wire),
          some (py "value " ++ reprStr env.rt value ++ py " fails namespace format for " ++
            field.wire)⟩)
  | _ => none

/-- `_check_namespaces` over the id fields still to check. -/
def checkNamespaces (env : Env) (intake : Intake) (deploymentId : ℕ) (next : Transaction) :
    List (IdField × PyStr) → Transaction
  | [] => next
  | (field, value) :: fields => .read fun s =>
    match formatFault env field value
      (applicableNamespace s intake.principal.workspaceId deploymentId field intake.sourceRef) with
    | some e => .throw e
    | none => checkNamespaces env intake deploymentId next fields

/-- `a or b`. -/
def pyOr (a b : Json) : Json := if a.truthy then a else b

def echoOf (eventType : Json) (payload : Dict) (accepted : Bool) (reason : Option PyStr) : Echo :=
  let get := fun key => payload.getD key .null
  let isActivity := eventType.str? = some (py "activity")
  { accepted := accepted
    reason := reason
    matchedWorkItem := get (py "work_item_id")
    actionClass := if isActivity then some (get (py "action_type")) else none
    interpretedAs := if isActivity then none
      else some (pyOr (pyOr (get (py "meter")) (get (py "event"))) (get (py "signal"))) }

def acceptedVerdict (key : PyStr) : Verdict where
  status := .accepted
  eventKey := some key
  code := none
  error := none
  echo := none

def duplicateVerdict (key : PyStr) : Verdict where
  status := .duplicate
  eventKey := some key
  code := some (py "TF-EVT-005")
  error := none
  echo := none

/-- The accepted verdict of a test-mode key. -/
def echoedVerdict (key : PyStr) (adm : Admitted) : Verdict :=
  { acceptedVerdict key with
    echo := some (echoOf (.str (adm.text (py "event_type"))) adm.payload true none) }

/-- `SELECT 1 FROM events WHERE workspace_id = … AND event_key = …`. -/
def hasEvent (s : Db) (workspaceId : ℕ) (key : PyStr) : Bool :=
  s.entries.any fun
    | ⟨.event ws k _, _⟩ => ws = workspaceId ∧ k = key
    | _ => false

def eventRow (intake : Intake) (adm : Admitted) (dep : DeploymentRow) (eventType : EventType)
    (origin : OriginType) : EventRow where
  deploymentId := dep.id
  eventType := eventType
  originType := origin
  pipelineStatus := .accepted
  schemaVersion := adm.text (py "schema_version")
  sourceRef := if intake.sourceRef = [] then none else some intake.sourceRef
  payload := adm.payload
  resolvedUserId := none
  workItemId := none
  exclusionReason := none

/-- The values of `INSERT INTO events`, as its columns take them. -/
def eventValues (intake : Intake) (adm : Admitted) (dep : DeploymentRow) :
    Except DbError EventRow :=
  match EventType.ofWire? (adm.text (py "event_type")), OriginType.ofWire? (adm.text (py "origin")) with
  | some eventType, some origin =>
    if jsonbOk (.obj adm.payload) then .ok (eventRow intake adm dep eventType origin)
    else .error .invalidJson
  | _, _ => .error .invalidText

/-- An insert into a table whose unique constraint this row may meet. -/
def insertNew {α : Type} (row : α) : Option α → Except DbError α
  | none => .ok row
  | some _ => .error .uniqueViolation

def insertEvent (intake : Intake) (adm : Admitted) (dep : DeploymentRow)
    (before : Option EventRow) : Except DbError EventRow := do
  let row ← eventValues intake adm dep
  insertNew row before

/-- The end of the transaction, once the key is known. -/
def storeOrEcho (intake : Intake) (index : ℕ) (adm : Admitted) (dep : DeploymentRow)
    (key : PyStr) : Transaction :=
  let answer := fun verdict : Verdict => Reply.result { verdict with index := index }
  if intake.principal.isTest then .pure (answer (echoedVerdict key adm))
  else .read fun s =>
    if hasEvent s intake.principal.workspaceId key then .pure (answer (duplicateVerdict key))
    else
      .write (.event intake.principal.workspaceId key adm.occurredAt)
        (fun before => liftDb (insertEvent intake adm dep before))
        fun _ => .pure (answer (acceptedVerdict key))

/-- The transaction of `_process_one`. -/
def storeOne (env : Env) (intake : Intake) (index : ℕ) (adm : Admitted) : Transaction :=
  resolveDep intake.principal (adm.text (py "deployment_id")) fun dep =>
    checkNamespaces env intake dep.id
      (match adm.key env with
        | .error e => .throw (.python e)
        | .ok key => storeOrEcho intake index adm dep key)
      (idFields adm.payload)

/-! ### Rejected events -/

def safeKey (env : Env) : Json → Except PyErr (Option PyStr)
  | .obj event =>
    let text := fun name => pyStr env.rt (Dict.getD event name (.str []))
    let payload := (Dict.getD event (py "payload") .null).dictOrEmpty
    let scope := Dict.getD event (py "idempotency_scope") .null
    match eventKey env.rt env.digest (text (py "deployment_id")) (text (py "event_type")) payload
        scope with
    | .ok key => .ok (some key)
    | .error (.keyError _) => .ok none
    | .error e => if e.isValueError then .ok none else .error e
  | _ => .ok none

/-- `_maybe_enum`; a `list` or a `dict` has no hash. -/
def maybeEnum : Json → Except PyErr (Option EventType)
  | .str s => .ok (EventType.ofWire? s)
  | .arr _ => .error .typeError
  | .obj _ => .error .typeError
  | _ => .ok none

/-- `ev.get("deployment_id")` bound to a `TEXT` column. -/
def deploymentRefArgument (env : Env) : Json → Except Failure (Option PyStr)
  | .null => .ok none
  | .str s => (textArgument s).map some
  | other => liftDb (env.adaptOther other)

/-- The values of `INSERT INTO rejected_events`. -/
def quarantineRow (env : Env) (intake : Intake) (event : Json) (err : TFError)
    (key : Option PyStr) : Except Failure RejectedEventRow := do
  let ev := event.dictOrEmpty
  let eventType ← (maybeEnum (ev.getD (py "event_type") .null)).mapError .python
  let deploymentRef ← deploymentRefArgument env (ev.getD (py "deployment_id") .null)
  .ok {
    workspaceId := intake.principal.workspaceId
    eventType := eventType
    deploymentRef := deploymentRef
    eventKey := key
    errorCode := err.code.definition.code
    fieldPath := err.fieldPath
    sourceRef := if intake.sourceRef = [] then none else some intake.sourceRef }

def quarantine (env : Env) (intake : Intake) (event : Json) (err : TFError)
    (key : Option PyStr) : Transaction :=
  match quarantineRow env intake event err key with
  | .error e => .throw e
  | .ok row => .fresh fun id =>
    .write (.rejectedEvent id) (fun before => liftDb (insertNew row before)) fun _ => .pure .done

def rejectedVerdict (intake : Intake) (event : Json) (err : TFError) (key : Option PyStr) :
    Verdict where
  status := .rejected
  eventKey := key
  code := none
  error := some err.toErrorObject
  echo :=
    let ev := event.dictOrEmpty
    match ev.getD (py "payload") .null with
    | .obj payload =>
      if intake.principal.isTest then
        some (echoOf (ev.getD (py "event_type") (.str [])) payload false (some err.message))
      else none
    | _ => none

/-- `except _Reject`. -/
def rejectOne (env : Env) (intake : Intake) (index : ℕ) (event : Json) (err : TFError)
    (next : Except Failure EventResult → Process) : Process :=
  match safeKey env event with
  | .error e => next (.error (.python e))
  | .ok key =>
    let result : EventResult := { rejectedVerdict intake event err key with index := index }
    if intake.principal.isTest then next (.ok result)
    else
      .txn (quarantine env intake event err key) fun
        | .ok _ => next (.ok result)
        | .error e => next (.error e)

/-! ### Events, requests and imports -/

def processOne (env : Env) (intake : Intake) (index : ℕ) (sub : Submission)
    (next : Except Failure EventResult → Process) : Process :=
  match examine env intake sub with
  | .error (.reject err) => rejectOne env intake index sub.event err next
  | .error e => next (.error e)
  | .ok adm =>
    .txn (storeOne env intake index adm) fun
      | .ok (.result r) => next (.ok r)
      | .ok _ => next (.error (.python .assertionError))
      | .error (.reject err) => rejectOne env intake index sub.event err next
      | .error e => next (.error e)

/-- The strings of a result that come from the event. -/
def Verdict.texts (v : Verdict) : List PyStr :=
  v.eventKey.toList ++ (v.error.bind ErrorObject.fieldPath).toList ++
    (v.error.bind ErrorObject.detail).toList

def Echo.values (echo : Echo) : List Json :=
  echo.matchedWorkItem :: (echo.actionClass.toList ++ echo.interpretedAs.toList)

/-- `json.dumps(…, allow_nan=False)` accepts the echo. -/
def Echo.compliant (echo : Echo) : Bool :=
  echo.values.all (Json.all PyNum.finite fun _ => true)

def Echo.encodable (echo : Echo) : Bool :=
  echo.values.all (Json.all (fun _ => true) utf8Encodable)

def Verdict.compliant (v : Verdict) : Bool := v.echo.all Echo.compliant

def Verdict.encodable (v : Verdict) : Bool :=
  v.texts.all utf8Encodable && v.echo.all Echo.encodable

/-- `JSONResponse` renders without `NaN` and as UTF-8. -/
def renderError (results : List EventResult) : Option PyErr :=
  if !results.all fun r => r.toVerdict.compliant then
    some (.valueError (py "Out of range float values are not JSON compliant"))
  else if !results.all fun r => r.toVerdict.encodable then some .unicodeEncodeError
  else none

/-- `ok(request, {"results": results})`. -/
def respond (results : List EventResult) : Process :=
  match renderError results with
  | some e => .done (.raised (.python e))
  | none => .done (.results results)

/-- The loop of `ingest_events`. -/
def ingestLoop (env : Env) (intake : Intake) : List Submission → List EventResult → Process
  | [], results => respond results
  | sub :: subs, results => processOne env intake results.length sub fun
    | .ok r => ingestLoop env intake subs (results ++ [r])
    | .error e => .done (.raised e)

def maxBatch : ℕ := 500

/-- `ingest_events`, once the body is read and rate and quota are checked. -/
def ingestEvents (env : Env) (intake : Intake) (events : List Submission) : Process :=
  if maxBatch < events.length then
    .done (.raised (.tfError ⟨.evt007, none, some (py "batch exceeds 500 events")⟩))
  else ingestLoop env intake events []

def jobPrincipal (workspaceId : ℕ) : Principal where
  workspaceId := workspaceId
  mode := .production
  scope := .workspace
  grantedDeploymentIds := []

/-- `counts["received"] += 1` and the count of the status. -/
def ImportCounts.count (c : ImportCounts) : EventStatus → ImportCounts
  | .accepted => { c with received := c.received + 1, accepted := c.accepted + 1 }
  | .duplicate => { c with received := c.received + 1, duplicate := c.duplicate + 1 }
  | .rejected => { c with received := c.received + 1, rejected := c.rejected + 1 }

/-- The loop of `run_import` over the non-blank lines with their line numbers; a
line that is no JSON has no submission. -/
def importLoop (env : Env) (intake : Intake) :
    List (ℕ × Option Submission) → ImportCounts → Process
  | [], counts => .done (.imported counts)
  | (_, none) :: lines, counts =>
    importLoop env intake lines (counts.count .rejected)
  | (lineNo, some sub) :: lines, counts => processOne env intake lineNo sub fun
    | .ok r => importLoop env intake lines (counts.count r.status)
    | .error e => .done (.raised e)

/-- `run_import`, from its loop on. -/
def runImport (env : Env) (intake : Intake) (lines : List (ℕ × Option Submission)) : Process :=
  importLoop env { intake with principal := jobPrincipal intake.principal.workspaceId } lines
    ⟨0, 0, 0, 0⟩

end TrueFigure.Server
