import TrueFigure.Library.Fields
import TrueFigure.Python.IsoFormat
import TrueFigure.Python.Text
import TrueFigure.Server.Tables

/-!
# The event key

`canonical_ts`, `event_key` and `id_fields` of `domain/entities/eventkey.py`.
The digest is SHA-256 cut to 32 hex digits; it enters as a function on the
joined text.
-/
namespace TrueFigure.Server

open TrueFigure.Library TrueFigure.Python

section Timestamps

variable (rt : Runtime)

/-- The instant `canonical_ts` canonicalizes, in milliseconds since year 1. -/
def canonicalMillis (ts : Json) : Except PyErr ℕ :=
  match ts with
  | .str ts =>
    let raw := strip ts
    let raw := if raw.getLast? = some (chr 'Z') ∨ raw.getLast? = some (chr 'z')
      then raw.dropLast ++ py "+00:00" else raw
    match fromisoformat raw with
    | none => .error (.timestampError (py "timestamp not ISO-8601: " ++ reprStr rt ts))
    | some parsed =>
      match parsed.offset with
      | none => .error (.timestampError (py "timestamp must carry a timezone (spec 1.1)"))
      | some offset => (astimezoneUtc parsed.micros offset).map fun utc => utc / 1000
  | _ => .error (.timestampError (py "timestamp must be an ISO-8601 string"))

def canonicalTs (ts : Json) : Except PyErr PyStr := (canonicalMillis rt ts).map renderMillis

variable {rt}

theorem canonicalMillis_lt {ts : Json} {millis : ℕ} (h : canonicalMillis rt ts = .ok millis) :
    millis < millisEnd := by
  unfold canonicalMillis at h
  split at h
  · extract_lets raw raw' at h
    split at h
    · cases h
    split at h
    · cases h
    rename_i parsed _ _ offset _
    cases hutc : astimezoneUtc parsed.micros offset with
    | error e => simp [hutc, Except.map] at h
    | ok utc =>
      simp only [hutc, Except.map, Except.ok.injEq] at h
      rw [← h]
      exact millis_lt (astimezoneUtc_lt hutc)
  · cases h

theorem canonicalTs_eq_ok {ts : Json} {text : PyStr} (h : canonicalTs rt ts = .ok text) :
    ∃ millis, canonicalMillis rt ts = .ok millis ∧ text = renderMillis millis := by
  unfold canonicalTs at h
  cases hm : canonicalMillis rt ts with
  | error e => simp [hm, Except.map] at h
  | ok millis =>
    rw [hm] at h
    exact ⟨millis, rfl, (Except.ok.inj h).symm⟩

end Timestamps

/-- `payload[key]`. -/
def subscript (payload : Dict) (key : PyStr) : Except PyErr Json :=
  match payload.get? key with
  | some value => .ok value
  | none => .error (.keyError key)

/-- The dedup parts of an event, in the order of its family. -/
def keyParts (deploymentId eventType : PyStr) (payload : Dict) (ts : PyStr) :
    Except PyErr (List Json) :=
  if eventType = py "activity" then do
    let userRef ← subscript payload (py "user_ref")
    let workItemId ← subscript payload (py "work_item_id")
    let actionType ← subscript payload (py "action_type")
    .ok [.str deploymentId, userRef, workItemId, .str ts, actionType]
  else if eventType = py "cost_meter" then do
    let meter ← subscript payload (py "meter")
    .ok [.str deploymentId, meter, .str ts, payload.getD (py "meter_ref") (.str [])]
  else if eventType = py "lifecycle" then do
    let workItemId ← subscript payload (py "work_item_id")
    let event ← subscript payload (py "event")
    .ok [workItemId, event, .str ts, payload.getD (py "status_to") (.str [])]
  else if eventType = py "quality_signal" then do
    let workItemId ← subscript payload (py "work_item_id")
    let signal ← subscript payload (py "signal")
    .ok [workItemId, signal, .str ts]
  else if eventType = py "revenue_signal" then do
    let workItemId ← subscript payload (py "work_item_id")
    let revenueRef ← subscript payload (py "revenue_ref")
    .ok [workItemId, revenueRef, .str ts]
  else .error (.valueError (py "unknown event_type " ++ eventType))

/-- The strings of a list that `str.join` accepts. -/
def joinable : List Json → Except PyErr (List PyStr)
  | [] => .ok []
  | .str s :: xs => do
    let rest ← joinable xs
    .ok (s :: rest)
  | _ => .error .typeError

/-- The character the parts are joined with. -/
def bar : CodePoint := chr '|'

/-- The joined parts, before they are encoded. -/
def keyFields (rt : Runtime) (deploymentId eventType : PyStr) (payload : Dict) (scope : Json) :
    Except PyErr (List PyStr) := do
  let timestamp ← subscript payload (py "timestamp")
  let ts ← canonicalTs rt timestamp
  let parts ← keyParts deploymentId eventType payload ts
  joinable (.str eventType :: parts ++ if scope.truthy then [scope] else [])

def eventKey (rt : Runtime) (digest : PyStr → PyStr) (deploymentId eventType : PyStr)
    (payload : Dict) (scope : Json) : Except PyErr PyStr := do
  let fields ← keyFields rt deploymentId eventType payload scope
  let raw := joined bar fields
  if utf8Encodable raw then .ok (digest raw) else .error .unicodeEncodeError

theorem subscript_eq_ok {payload : Dict} {key : PyStr} {value : Json}
    (h : subscript payload key = .ok value) : payload.get? key = some value := by
  unfold subscript at h
  split at h
  · cases h
    assumption
  · cases h

/-- `str.join` accepts exactly strings. -/
theorem joinable_eq_ok {xs : List Json} {fields : List PyStr} (h : joinable xs = .ok fields) :
    xs = fields.map .str := by
  induction xs generalizing fields with
  | nil =>
    cases h
    rfl
  | cons x xs ih =>
    cases x with
    | str s =>
      obtain ⟨rest, hrest, hfields⟩ := bind_eq_ok h
      cases hfields
      rw [ih hrest]
      rfl
    | _ => cases h

theorem joinable_texts (fields : List PyStr) : joinable (fields.map .str) = .ok fields := by
  induction fields with
  | nil => rfl
  | cons f fields ih =>
    rw [List.map_cons, joinable, ih]
    rfl

theorem utf8Encodable_joined {fields : List PyStr} (h : ∀ f ∈ fields, utf8Encodable f = true) :
    utf8Encodable (joined bar fields) = true := by
  apply List.all_eq_true.2
  intro c hc
  rcases mem_joined hc with rfl | ⟨f, hf, hmem⟩
  · decide
  · exact List.all_eq_true.1 (h f hf) c hmem

/-- The arguments of `event_key`. -/
structure KeyArgs where
  deploymentId : PyStr
  eventType : PyStr
  payload : Dict
  scope : Json

def KeyArgs.key (args : KeyArgs) (rt : Runtime) (digest : PyStr → PyStr) : Except PyErr PyStr :=
  eventKey rt digest args.deploymentId args.eventType args.payload args.scope

def envelopeText (event : Dict) (key : PyStr) : PyStr := ((event.getD key .null).str?).getD []

def KeyArgs.ofEnvelope (event : Dict) : KeyArgs where
  deploymentId := envelopeText event (py "deployment_id")
  eventType := envelopeText event (py "event_type")
  payload := (event.getD (py "payload") .null).dictOrEmpty
  scope := event.getD (py "idempotency_scope") .null

/-- `id_fields`: the id-bearing fields present, with their values. -/
def idFields (payload : Dict) : List (IdField × PyStr) :=
  [IdField.userRef, .workItemId, .assigneeRef].filterMap fun field =>
    match payload.get? field.wire with
    | some (.str value) => some (field, value)
    | _ => none

end TrueFigure.Server
