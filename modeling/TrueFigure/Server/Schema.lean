import TrueFigure.Python.DateTime
import TrueFigure.Server.Tables

/-!
# The event contract

The envelope and the five payload families of `contract/events.schema.json`, and
the errors their validation yields in the order the validator finds them. The
`format` of timestamps is an annotation only.
-/
namespace TrueFigure.Server

open TrueFigure.Python

/-- `^1\.[0-9]+$`, which Python also matches before one trailing newline. -/
def schemaVersionOk (s : PyStr) : Bool :=
  let body := if s.getLast? = some (chr '\n') then s.dropLast else s
  body.take 2 = py "1." && !(body.drop 2).isEmpty && (body.drop 2).all isDigit

/-- What the schema says about a payload property. -/
inductive PropertySchema
  | string
  | enum (values : List PyStr)
  /-- A number that is at least 0. -/
  | quantity

/-- `minimum: 0` refuses the number; `NaN` compares with nothing. -/
def PyNum.negative : PyNum → Bool
  | .int n => n < 0
  | .float q => q < 0
  | .negInf => true
  | _ => false

def PropertySchema.accepts : PropertySchema → Json → Bool
  | .string, .str _ => true
  | .enum values, .str s => values.contains s
  | .quantity, .num n => !PyNum.negative n
  | _, _ => false

/-- An object schema without additional properties. -/
structure Family where
  required : List PyStr
  properties : List (PyStr × PropertySchema)

def Family.accepts (f : Family) : Json → Bool
  | .obj fields =>
    (f.required.all fun key => (Dict.get? fields key).isSome) &&
      fields.all fun entry => ((f.properties.lookup entry.1).map fun p => p.accepts entry.2).getD false
  | _ => false

def activityFamily : Family where
  required := [py "user_ref", py "timestamp", py "work_item_id", py "action_type"]
  properties := [(py "user_ref", .string), (py "timestamp", .string), (py "work_item_id", .string),
    (py "action_type", .enum [py "suggestion_shown", py "suggestion_accepted",
      py "suggestion_rejected", py "draft_generated", py "autocomplete_used",
      py "case_handled_autonomous", py "escalated_to_human", py "lookup_performed",
      py "classification_applied", py "other_assist"]),
    (py "model_version_ref", .string), (py "session_ref", .string)]

def lifecycleFamily : Family where
  required := [py "work_item_id", py "event", py "timestamp"]
  properties := [(py "work_item_id", .string),
    (py "event", .enum [py "created", py "status_change", py "assigned", py "completed",
      py "reopened", py "escalated", py "transferred"]),
    (py "timestamp", .string), (py "status_from", .string), (py "status_to", .string),
    (py "assignee_ref", .string), (py "category", .string),
    (py "size_band", .enum [py "xs", py "s", py "m", py "l", py "xl"])]

def costMeterFamily : Family where
  required := [py "meter", py "quantity", py "timestamp"]
  properties := [(py "meter", .enum [py "tokens_in", py "tokens_out", py "api_calls",
      py "compute_seconds", py "seats_active", py "storage_gb"]),
    (py "quantity", .quantity), (py "timestamp", .string), (py "meter_ref", .string)]

def qualitySignalFamily : Family where
  required := [py "work_item_id", py "signal", py "timestamp"]
  properties := [(py "work_item_id", .string),
    (py "signal", .enum [py "error_found", py "rework_required", py "qa_label",
      py "customer_bounce", py "sla_breach"]),
    (py "timestamp", .string), (py "label_schema_ref", .string), (py "label_value", .string),
    (py "error_class", .string)]

def revenueSignalFamily : Family where
  required := [py "work_item_id", py "revenue_ref", py "timestamp"]
  properties := [(py "work_item_id", .string), (py "revenue_ref", .string),
    (py "timestamp", .string),
    (py "touchpoint", .enum [py "created", py "influenced", py "closed_adjacent"])]

def families : List Family :=
  [activityFamily, lifecycleFamily, costMeterFamily, qualitySignalFamily, revenueSignalFamily]

/-- A keyword of the schema an instance violates. -/
inductive Violation
  | type (expected : PyStr) (found : Json)
  | required (key : PyStr)
  | additionalProperties (keys : List PyStr)
  | pattern (found : PyStr)
  | minLength (found : PyStr)
  | enum (found : Json)
  | oneOf (found : Json)

/-- A validation error: the path of the offending instance and what it violates. -/
structure SchemaError where
  path : List PyStr
  violation : Violation

def typeString (value : Json) : List Violation :=
  if value.isStr then [] else [.type (py "string") value]

def enumOf (values : List PyStr) (value : Json) : List Violation :=
  if (value.str?).any values.contains then [] else [.enum value]

/-- The properties of the envelope and the violations of each, keyword by keyword. -/
def envelopeProperties : List (PyStr × (Json → List Violation)) :=
  [(py "schema_version", fun v => typeString v ++
      ((v.str?).filter fun s => !schemaVersionOk s).toList.map .pattern),
    (py "deployment_id", fun v => typeString v ++
      ((v.str?).filter fun s => s.isEmpty).toList.map .minLength),
    (py "event_type", fun v => typeString v ++ enumOf (EventType.all.map EventType.wire) v),
    (py "origin", fun v => typeString v ++ enumOf [py "customer_system", py "vendor_product"] v),
    (py "idempotency_scope", typeString),
    (py "payload", fun v =>
      if (families.filter fun f => f.accepts v).length = 1 then [] else [.oneOf v])]

def envelopeRequired : List PyStr :=
  [py "schema_version", py "deployment_id", py "event_type", py "origin", py "payload"]

/-- The errors of an event object, in the validator's order. -/
def schemaErrors (event : Dict) : List SchemaError :=
  let missing := envelopeRequired.filter fun key => (event.get? key).isNone
  let extra := (event.map Prod.fst).filter fun key => (envelopeProperties.lookup key).isNone
  (missing.map fun key => ⟨[], .required key⟩) ++
    (if extra.isEmpty then [] else [⟨[], .additionalProperties extra⟩]) ++
    envelopeProperties.flatMap fun property =>
      match event.get? property.1 with
      | none => []
      | some value => (property.2 value).map fun v => ⟨[property.1], v⟩

/-- The head of the errors sorted by path: of those with the least path, the
first found. -/
def firstError : List SchemaError → Option SchemaError
  | [] => none
  | e :: es =>
    match firstError es with
    | none => some e
    | some f => if f.path < e.path then some f else some e

theorem firstError_mem {errors : List SchemaError} {e : SchemaError}
    (h : firstError errors = some e) : e ∈ errors := by
  induction errors generalizing e with
  | nil => cases h
  | cons d errors ih =>
    unfold firstError at h
    split at h
    · cases h
      exact List.mem_cons_self
    · rename_i f hf
      split_ifs at h
      · cases h
        exact List.mem_cons_of_mem _ (ih hf)
      · cases h
        exact List.mem_cons_self

theorem firstError_eq_none {errors : List SchemaError} (h : firstError errors = none) :
    errors = [] := by
  cases errors with
  | nil => rfl
  | cons d errors =>
    unfold firstError at h
    split at h
    · cases h
    · split_ifs at h

/-! ### Valid envelopes -/

section Valid

variable {event payload : Dict}

theorem schemaErrors_nil_required (h : schemaErrors event = []) (key : PyStr)
    (hkey : key ∈ envelopeRequired) : ∃ value, event.get? key = some value := by
  simp only [schemaErrors, List.append_eq_nil_iff, List.map_eq_nil_iff, List.filter_eq_nil_iff] at h
  have := h.1.1 key hkey
  exact Option.ne_none_iff_exists'.1 (by simpa using this)

theorem schemaErrors_nil_property (h : schemaErrors event = [])
    {property : PyStr × (Json → List Violation)} (hproperty : property ∈ envelopeProperties)
    {value : Json} (hvalue : event.get? property.1 = some value) : property.2 value = [] := by
  simp only [schemaErrors, List.append_eq_nil_iff, List.flatMap_eq_nil_iff] at h
  have := h.2 property hproperty
  simpa [hvalue] using this

/-- A string property with an enumeration holds one of its values. -/
theorem mem_of_enumOf {values : List PyStr} {value : Json}
    (h : typeString value ++ enumOf values value = []) : ∃ s ∈ values, value = .str s := by
  obtain ⟨htype, henum⟩ := List.append_eq_nil_iff.1 h
  cases value with
  | str s =>
    refine ⟨s, ?_, rfl⟩
    unfold enumOf at henum
    split_ifs at henum with hs
    simpa [Json.str?] using hs
  | _ => simp [typeString, Json.isStr] at htype

theorem valid_eventType (h : schemaErrors event = []) :
    ∃ t : EventType, event.get? (py "event_type") = some (.str t.wire) := by
  obtain ⟨value, hvalue⟩ := schemaErrors_nil_required h (py "event_type")
    (.tail _ (.tail _ (.head _)))
  obtain ⟨s, hs, rfl⟩ := mem_of_enumOf
    (schemaErrors_nil_property h (.tail _ (.tail _ (.head _))) hvalue)
  obtain ⟨t, -, rfl⟩ := List.mem_map.1 hs
  exact ⟨t, hvalue⟩

theorem valid_origin (h : schemaErrors event = []) :
    ∃ o : OriginType, event.get? (py "origin") = some (.str o.wire) := by
  obtain ⟨value, hvalue⟩ := schemaErrors_nil_required h (py "origin")
    (.tail _ (.tail _ (.tail _ (.head _))))
  obtain ⟨s, hs, rfl⟩ := mem_of_enumOf
    (schemaErrors_nil_property h (.tail _ (.tail _ (.tail _ (.head _)))) hvalue)
  simp only [List.mem_cons, List.not_mem_nil, or_false] at hs
  rcases hs with rfl | rfl
  · exact ⟨.customerSystem, hvalue⟩
  · exact ⟨.vendorProduct, hvalue⟩

theorem valid_payload (h : schemaErrors event = []) :
    ∃ payload : Dict, event.get? (py "payload") = some (.obj payload) ∧
      ∃ f ∈ families, f.accepts (.obj payload) = true := by
  obtain ⟨value, hvalue⟩ := schemaErrors_nil_required h (py "payload")
    (.tail _ (.tail _ (.tail _ (.tail _ (.head _)))))
  have hone := schemaErrors_nil_property h
    (.tail _ (.tail _ (.tail _ (.tail _ (.tail _ (.head _)))))) hvalue
  dsimp only at hone
  split_ifs at hone with hlength
  obtain ⟨f, hf⟩ := List.length_eq_one_iff.1 hlength
  obtain ⟨hmem, haccepts⟩ := List.mem_filter.1 (hf.symm ▸ List.mem_singleton_self f)
  cases value with
  | obj payload => exact ⟨payload, hvalue, f, hmem, haccepts⟩
  | _ => cases haccepts

theorem Family.accepts_get {f : Family} (h : f.accepts (.obj payload) = true) {key : PyStr}
    {value : Json} (hvalue : payload.get? key = some value) :
    ∃ p, f.properties.lookup key = some p ∧ p.accepts value = true := by
  simp only [Family.accepts, Bool.and_eq_true, List.all_eq_true] at h
  have hmem : (key, value) ∈ payload := mem_of_get? hvalue
  have := h.2 _ hmem
  cases hp : f.properties.lookup key with
  | none => simp [hp] at this
  | some p => exact ⟨p, rfl, by simpa [hp] using this⟩

/-- An enumeration of texts that can be encoded. -/
def PropertySchema.closed : PropertySchema → Bool
  | .enum values => values.all utf8Encodable
  | _ => false

theorem PropertySchema.closed_accepts {p : PropertySchema} (hp : p.closed = true) {value : Json}
    (h : p.accepts value = true) : ∃ s, value = .str s ∧ utf8Encodable s = true := by
  cases p with
  | enum values =>
    cases value with
    | str s => exact ⟨s, rfl, List.all_eq_true.1 hp s (by simpa [accepts] using h)⟩
    | _ => cases h
  | _ => cases hp

end Valid

end TrueFigure.Server
