import TrueFigure.Python.JsonRoundTrip
import TrueFigure.Server.AtRest

/-!
# Events of the builders

The builders of `events.py` shape an envelope and check nothing. What they shape is
nevertheless of the family its event type names, whatever else is forwarded: the
server accepts its structure exactly where the contract of that family accepts the
arguments, each for itself.
-/
namespace TrueFigure.Sdk

open TrueFigure.Library TrueFigure.Python TrueFigure.Server

/-! ### Builders -/

/-- `value is not None`. -/
def isGiven : Json → Bool
  | .null => false
  | _ => true

/-- `out.update(extra)`. -/
def dictUpdate (out extra : Dict) : Dict :=
  extra.foldl (fun out entry => out.set entry.1 entry.2) out

def shapePayload (fixed extra : Dict) : Dict :=
  dictUpdate (fixed.filter fun entry => isGiven entry.2) extra

def buildEvent (deploymentId : Json) (eventType : PyStr) (payload : Dict)
    (origin idempotencyScope : Json) : Dict :=
  [(py "schema_version", .str (py "1.0")), (py "deployment_id", deploymentId),
    (py "event_type", .str eventType), (py "origin", origin), (py "payload", .obj payload)] ++
    if isGiven idempotencyScope then [(py "idempotency_scope", idempotencyScope)] else []

/-- The keyword arguments of every builder. -/
structure Keywords where
  origin : Json
  idempotencyScope : Json
  /-- `**extra`. -/
  extra : Dict
  distinct : (extra.map Prod.fst).Nodup

section Builders

variable (deploymentId : Json) (kw : Keywords)

def activity (userRef timestamp workItemId actionType : Json) : Dict :=
  buildEvent deploymentId (py "activity")
    (shapePayload [(py "user_ref", userRef), (py "timestamp", timestamp),
      (py "work_item_id", workItemId), (py "action_type", actionType)] kw.extra)
    kw.origin kw.idempotencyScope

def lifecycle (workItemId event timestamp : Json) : Dict :=
  buildEvent deploymentId (py "lifecycle")
    (shapePayload [(py "work_item_id", workItemId), (py "event", event),
      (py "timestamp", timestamp)] kw.extra)
    kw.origin kw.idempotencyScope

def costMeter (meter quantity timestamp : Json) : Dict :=
  buildEvent deploymentId (py "cost_meter")
    (shapePayload [(py "meter", meter), (py "quantity", quantity),
      (py "timestamp", timestamp)] kw.extra)
    kw.origin kw.idempotencyScope

def qualitySignal (workItemId signal timestamp : Json) : Dict :=
  buildEvent deploymentId (py "quality_signal")
    (shapePayload [(py "work_item_id", workItemId), (py "signal", signal),
      (py "timestamp", timestamp)] kw.extra)
    kw.origin kw.idempotencyScope

def revenueSignal (workItemId revenueRef timestamp : Json) : Dict :=
  buildEvent deploymentId (py "revenue_signal")
    (shapePayload [(py "work_item_id", workItemId), (py "revenue_ref", revenueRef),
      (py "timestamp", timestamp)] kw.extra)
    kw.origin kw.idempotencyScope

end Builders

/-- The arguments a builder names. -/
inductive OwnArguments
  | activity (userRef timestamp workItemId actionType : Json)
  | lifecycle (workItemId event timestamp : Json)
  | costMeter (meter quantity timestamp : Json)
  | qualitySignal (workItemId signal timestamp : Json)
  | revenueSignal (workItemId revenueRef timestamp : Json)

namespace OwnArguments

def eventType : OwnArguments → EventType
  | .activity .. => .activity
  | .lifecycle .. => .lifecycle
  | .costMeter .. => .costMeter
  | .qualitySignal .. => .qualitySignal
  | .revenueSignal .. => .revenueSignal

/-- The `fixed` of the builder. -/
def fixed : OwnArguments → Dict
  | .activity userRef timestamp workItemId actionType =>
    [(py "user_ref", userRef), (py "timestamp", timestamp), (py "work_item_id", workItemId),
      (py "action_type", actionType)]
  | .lifecycle workItemId event timestamp =>
    [(py "work_item_id", workItemId), (py "event", event), (py "timestamp", timestamp)]
  | .costMeter meter quantity timestamp =>
    [(py "meter", meter), (py "quantity", quantity), (py "timestamp", timestamp)]
  | .qualitySignal workItemId signal timestamp =>
    [(py "work_item_id", workItemId), (py "signal", signal), (py "timestamp", timestamp)]
  | .revenueSignal workItemId revenueRef timestamp =>
    [(py "work_item_id", workItemId), (py "revenue_ref", revenueRef), (py "timestamp", timestamp)]

end OwnArguments

/-- A call of a builder. Python binds a name once, so `extra` holds none of the
builder's own. -/
structure BuilderCall where
  own : OwnArguments
  keywords : Keywords
  apart : ∀ name ∈ keywords.extra.map Prod.fst, name ∉ own.fixed.map Prod.fst

/-- `_dep`. -/
def chosenDeployment (override deploymentId : Json) : Except PyErr Json :=
  if (pyOr override deploymentId).truthy then .ok (pyOr override deploymentId)
  else .error (.valueError (py "deployment_id required (constructor default or per-call)"))

namespace BuilderCall

variable (call : BuilderCall)

def event (deploymentId : Json) : Dict :=
  match call.own with
  | .activity userRef timestamp workItemId actionType =>
    Sdk.activity deploymentId call.keywords userRef timestamp workItemId actionType
  | .lifecycle workItemId event timestamp =>
    Sdk.lifecycle deploymentId call.keywords workItemId event timestamp
  | .costMeter meter quantity timestamp =>
    Sdk.costMeter deploymentId call.keywords meter quantity timestamp
  | .qualitySignal workItemId signal timestamp =>
    Sdk.qualitySignal deploymentId call.keywords workItemId signal timestamp
  | .revenueSignal workItemId revenueRef timestamp =>
    Sdk.revenueSignal deploymentId call.keywords workItemId revenueRef timestamp

/-- What `track_activity` and its siblings enqueue. -/
def tracked (override deploymentId : Json) : Except PyErr Dict :=
  (chosenDeployment override deploymentId).map call.event

def arguments : Dict := call.own.fixed ++ call.keywords.extra

/-- No argument that the builder names is `None`. -/
def Given : Prop := ∀ entry ∈ call.own.fixed, isGiven entry.2 = true

/-- The contract accepts the arguments, each for itself. -/
structure Conforms (deploymentId : Json) : Prop where
  deployment : deploymentId.isStr = true
  origin : ∃ o : OriginType, call.keywords.origin = .str o.wire
  scope : isGiven call.keywords.idempotencyScope = true →
    call.keywords.idempotencyScope.isStr = true
  arguments : ∀ entry ∈ call.arguments, ∃ p,
    call.own.eventType.family.properties.lookup entry.1 = some p ∧ p.accepts entry.2 = true

end BuilderCall

/-! ### The envelope -/

section Envelope

variable {call : BuilderCall} {deploymentId : Json}

theorem dictUpdate_eq {out extra : Dict} (hdistinct : (extra.map Prod.fst).Nodup)
    (hapart : ∀ name ∈ extra.map Prod.fst, name ∉ out.map Prod.fst) :
    dictUpdate out extra = out ++ extra := by
  induction extra generalizing out with
  | nil => exact (List.append_nil out).symm
  | cons entry extra ih =>
    obtain ⟨hnew, hdistinct⟩ := List.nodup_cons.1 hdistinct
    rw [List.map_cons, List.forall_mem_cons] at hapart
    have hset := set_new hapart.1 entry.2
    unfold dictUpdate at ih ⊢
    rw [List.foldl_cons, hset, ih hdistinct]
    · rw [List.append_assoc]
      rfl
    · intro name hname
      rw [List.map_append, List.mem_append, not_or]
      refine ⟨hapart.2 name hname, ?_⟩
      intro hsame
      rw [List.map_singleton, List.mem_singleton] at hsame
      exact hnew (hsame ▸ hname)

theorem BuilderCall.event_eq : call.event deploymentId =
    buildEvent deploymentId call.own.eventType.wire
      (shapePayload call.own.fixed call.keywords.extra) call.keywords.origin
      call.keywords.idempotencyScope := by
  unfold BuilderCall.event
  cases call.own <;> rfl

theorem BuilderCall.Given.payload (h : call.Given) :
    shapePayload call.own.fixed call.keywords.extra = call.arguments := by
  have hall : call.own.fixed.filter (fun entry => isGiven entry.2) = call.own.fixed :=
    List.filter_eq_self.2 h
  unfold shapePayload
  rw [hall]
  exact dictUpdate_eq call.keywords.distinct call.apart

theorem BuilderCall.ownField_mem : call.own.eventType.ownField ∈ call.own.fixed.map Prod.fst := by
  cases call.own <;> simp [OwnArguments.fixed, OwnArguments.eventType, EventType.ownField]

theorem BuilderCall.required_mem :
    ∀ name ∈ call.own.eventType.family.required, name ∈ call.own.fixed.map Prod.fst := by
  cases call.own <;> exact fun name hname => hname

variable {t : EventType} {payload : Dict} {origin scope : Json}

theorem buildEvent_scope :
    (buildEvent deploymentId t.wire payload origin scope).get? (py "idempotency_scope") =
      if isGiven scope then some scope else none := by
  unfold buildEvent
  split_ifs <;> rfl

theorem buildEvent_missing :
    (envelopeRequired.filter fun key =>
      ((buildEvent deploymentId t.wire payload origin scope).get? key).isNone) = [] := by
  rfl

theorem buildEvent_additional :
    ((buildEvent deploymentId t.wire payload origin scope).map Prod.fst).filter
      (fun key => (envelopeProperties.lookup key).isNone) = [] := by
  unfold buildEvent
  split_ifs <;> rfl

theorem typeString_eq_nil {value : Json} : typeString value = [] ↔ value.isStr = true := by
  unfold typeString
  split_ifs with h <;> simp [h]

theorem enumOf_eq_nil {values : List PyStr} {value : Json} :
    typeString value ++ enumOf values value = [] ↔ ∃ s ∈ values, value = .str s := by
  constructor
  · exact mem_of_enumOf
  · rintro ⟨s, hs, rfl⟩
    simp [typeString, enumOf, Json.isStr, Json.str?, hs]

theorem text_eq_nil {value : Json} :
    typeString value ++ ((value.str?).filter fun s => s.isEmpty).toList.map .minLength = [] ↔
      value.isStr = true ∧ value ≠ .str [] := by
  rw [List.append_eq_nil_iff, typeString_eq_nil]
  apply and_congr_right
  intro hstr
  cases value with
  | str s => cases s <;> simp [Json.str?]
  | _ => cases hstr

theorem originOf_eq_nil {value : Json} :
    typeString value ++ enumOf [py "customer_system", py "vendor_product"] value = [] ↔
      ∃ o : OriginType, value = .str o.wire := by
  rw [enumOf_eq_nil]
  constructor
  · rintro ⟨s, hs, rfl⟩
    rcases List.mem_pair.1 hs with rfl | rfl
    · exact ⟨.customerSystem, rfl⟩
    · exact ⟨.vendorProduct, rfl⟩
  · rintro ⟨o, rfl⟩
    refine ⟨o.wire, ?_, rfl⟩
    cases o <;> simp [OriginType.wire]

/-- Every property of the envelope stands for itself. -/
theorem schemaErrors_buildEvent :
    schemaErrors (buildEvent deploymentId t.wire payload origin scope) = [] ↔
    (deploymentId.isStr = true ∧ deploymentId ≠ .str []) ∧
      (∃ o : OriginType, origin = .str o.wire) ∧ (isGiven scope = true → scope.isStr = true) ∧
        (families.filter fun f => f.accepts (.obj payload)).length = 1 := by
  have hversion : (buildEvent deploymentId t.wire payload origin scope).get? (py "schema_version") =
      some (.str (py "1.0")) := rfl
  have hdeployment : (buildEvent deploymentId t.wire payload origin scope).get?
      (py "deployment_id") = some deploymentId := rfl
  have htype : (buildEvent deploymentId t.wire payload origin scope).get? (py "event_type") =
      some (.str t.wire) := rfl
  have horigin : (buildEvent deploymentId t.wire payload origin scope).get? (py "origin") =
      some origin := rfl
  have hpayload : (buildEvent deploymentId t.wire payload origin scope).get? (py "payload") =
      some (.obj payload) := rfl
  unfold schemaErrors
  rw [buildEvent_missing, buildEvent_additional]
  simp only [List.map_nil, List.isEmpty_nil, if_true, List.nil_append, List.flatMap_eq_nil_iff,
    envelopeProperties, List.forall_mem_cons, hversion, hdeployment, htype, horigin, hpayload,
    buildEvent_scope, List.map_eq_nil_iff]
  rw [text_eq_nil, originOf_eq_nil]
  constructor
  · rintro ⟨-, hdep, -, horigin, hscope, hfamily, -⟩
    refine ⟨hdep, horigin, ?_, ?_⟩
    · intro hgiven
      rw [if_pos hgiven] at hscope
      exact typeString_eq_nil.1 (List.map_eq_nil_iff.1 hscope)
    · by_contra hne
      rw [if_neg hne] at hfamily
      cases hfamily
  · rintro ⟨hdep, horigin, hscope, hfamily⟩
    have hwire : t.wire ∈ EventType.all.map EventType.wire := by
      apply List.mem_map_of_mem
      cases t <;> decide
    rw [if_pos hfamily]
    refine ⟨rfl, hdep, enumOf_eq_nil.2 ⟨t.wire, hwire, rfl⟩, horigin, ?_, rfl,
      fun x hx => absurd hx List.not_mem_nil⟩
    split
    · rfl
    · rename_i value hvalue
      split_ifs at hvalue with hgiven
      obtain rfl := Option.some.inj hvalue
      exact List.map_eq_nil_iff.2 (typeString_eq_nil.2 (hscope hgiven))

end Envelope

/-! ### The contract of a family -/

section Contract

variable {env : Env} {call : BuilderCall} {deploymentId : Json} {t : EventType} {payload : Dict}

theorem one_family_iff (hown : (payload.get? t.ownField).isSome = true) :
    (families.filter fun f => f.accepts (.obj payload)).length = 1 ↔
      t.family.accepts (.obj payload) = true := by
  obtain ⟨value, hvalue⟩ := Option.isSome_iff_exists.1 hown
  have hsole : ∀ f ∈ families, f.accepts (.obj payload) = true → f = t.family := by
    intro f hf haccepts
    obtain ⟨p, hp, -⟩ := Family.accepts_get haccepts hvalue
    apply family_of_ownField t hf
    rw [hp]
    rfl
  constructor
  · intro h
    obtain ⟨f, hfilter⟩ := List.length_eq_one_iff.1 h
    obtain ⟨hf, haccepts⟩ := List.mem_filter.1 (hfilter ▸ List.mem_singleton_self f)
    exact hsole f hf haccepts ▸ haccepts
  · intro h
    have hsame : families.filter (fun f => f.accepts (.obj payload)) =
        families.filter fun f => (f.properties.lookup t.ownField).isSome := by
      apply List.filter_congr
      intro f hf
      cases haccepts : f.accepts (.obj payload) with
      | true =>
        obtain ⟨p, hp, -⟩ := Family.accepts_get haccepts hvalue
        rw [hp]
        rfl
      | false =>
        symm
        by_contra hknown
        rw [family_of_ownField t hf (eq_true_of_ne_false hknown), h] at haccepts
        cases haccepts
    rw [hsame]
    cases t <;> rfl

theorem BuilderCall.accepts_iff : call.own.eventType.family.accepts (.obj call.arguments) = true ↔
    ∀ entry ∈ call.arguments, ∃ p,
      call.own.eventType.family.properties.lookup entry.1 = some p ∧ p.accepts entry.2 = true := by
  have hrequired : (call.own.eventType.family.required.all fun key =>
      (Dict.get? call.arguments key).isSome) = true := by
    apply List.all_eq_true.2
    intro name hname
    rw [isSome_get?_iff, BuilderCall.arguments, List.map_append]
    exact List.mem_append_left _ (BuilderCall.required_mem name hname)
  simp only [Family.accepts]
  rw [hrequired, Bool.true_and, List.all_eq_true]
  apply forall₂_congr
  intro entry hentry
  cases call.own.eventType.family.properties.lookup entry.1 with
  | none => simp
  | some p => simp

theorem BuilderCall.isSome_ownField :
    (Dict.get? call.arguments call.own.eventType.ownField).isSome = true := by
  rw [isSome_get?_iff, BuilderCall.arguments, List.map_append]
  exact List.mem_append_left _ BuilderCall.ownField_mem

theorem BuilderCall.Given.event (h : call.Given) : call.event deploymentId =
    buildEvent deploymentId call.own.eventType.wire call.arguments call.keywords.origin
      call.keywords.idempotencyScope := by
  rw [BuilderCall.event_eq, h.payload]

theorem BuilderCall.Given.payloadOf (h : call.Given) :
    payloadOf (call.event deploymentId) = call.arguments := by
  rw [h.event]
  rfl

theorem known_not_forbidden {p : PropertySchema} {name : PyStr}
    (h : t.family.properties.lookup name = some p) : ¬ Forbidden name := by
  have hknown : ∀ t : EventType, (py "content" :: valueFields).all
      (fun name => (t.family.properties.lookup name).isNone) = true := by
    intro t
    cases t <;> decide +kernel
  intro hforbidden
  have hmem : name ∈ py "content" :: valueFields := List.mem_cons.2 hforbidden
  have hnone := List.all_eq_true.1 (hknown t) name hmem
  rw [h] at hnone
  cases hnone

theorem envelope_not_forbidden {origin scope : Json} :
    ∀ entry ∈ buildEvent deploymentId t.wire payload origin scope, ¬ Forbidden entry.1 := by
  have hnames : ∀ name ∈ [py "schema_version", py "deployment_id", py "event_type", py "origin",
      py "payload", py "idempotency_scope"], name ∉ py "content" :: valueFields := by
    decide +kernel
  intro entry hentry hforbidden
  apply hnames entry.1 ?_ (List.mem_cons.2 hforbidden)
  have hname := List.mem_map_of_mem (f := Prod.fst) hentry
  unfold buildEvent at hname
  rw [List.map_append, List.mem_append] at hname
  rcases hname with hname | hname
  · exact List.mem_append_left [py "idempotency_scope"] hname
  · apply List.mem_append_right [py "schema_version", py "deployment_id", py "event_type",
      py "origin", py "payload"]
    split_ifs at hname
    · exact hname
    · cases hname

theorem validateStructure_buildEvent {origin scope : Json}
    (h : schemaErrors (buildEvent deploymentId t.wire payload origin scope) = []) :
    validateStructure env (buildEvent deploymentId t.wire payload origin scope) = .ok () := by
  have hversion : (((buildEvent deploymentId t.wire payload origin scope).getD
      (py "schema_version") .null).str?).filter (fun sv => !schemaVersionOk sv) = none := rfl
  unfold validateStructure
  simp only [hversion, h, firstError]

theorem tracked_eq_ok {override chosen : Json} {event : Dict}
    (h : call.tracked override chosen = .ok event) :
    (pyOr override chosen).truthy = true ∧ event = call.event (pyOr override chosen) := by
  unfold BuilderCall.tracked chosenDeployment at h
  split_ifs at h with htruthy
  · exact ⟨htruthy, (Except.ok.inj h).symm⟩
  · cases h

theorem builder_conforms_iff (hgiven : call.Given) (htruthy : deploymentId.truthy = true) :
    WellShaped env (call.event deploymentId) ↔ call.Conforms deploymentId := by
  have hfamily : (families.filter fun f => f.accepts (.obj call.arguments)).length = 1 ↔
      ∀ entry ∈ call.arguments, ∃ p,
        call.own.eventType.family.properties.lookup entry.1 = some p ∧
          p.accepts entry.2 = true :=
    (one_family_iff BuilderCall.isSome_ownField).trans BuilderCall.accepts_iff
  constructor
  · intro h
    have hvalid := h.schemaErrors_nil
    rw [hgiven.event, schemaErrors_buildEvent] at hvalid
    obtain ⟨⟨hdeployment, -⟩, horigin, hscope, hone⟩ := hvalid
    exact ⟨hdeployment, horigin, hscope, hfamily.1 hone⟩
  · intro h
    have hvalid : schemaErrors (call.event deploymentId) = [] := by
      rw [hgiven.event, schemaErrors_buildEvent]
      refine ⟨⟨h.deployment, ?_⟩, h.origin, h.scope, hfamily.2 h.arguments⟩
      intro hempty
      rw [hempty] at htruthy
      cases htruthy
    constructor
    · rw [scanForbiddenFields_ok_iff]
      rintro (⟨entry, hentry, hforbidden⟩ | ⟨entry, hentry, hforbidden⟩)
      · rw [hgiven.event] at hentry
        exact envelope_not_forbidden entry hentry hforbidden
      · rw [hgiven.payloadOf] at hentry
        obtain ⟨p, hp, -⟩ := h.arguments entry hentry
        exact known_not_forbidden hp hforbidden
    · rw [hgiven.event] at hvalid ⊢
      exact validateStructure_buildEvent hvalid

/-- What a builder shapes from given arguments passes the structural checks exactly
where the contract of its own family accepts the arguments. -/
theorem builder_wellShaped_iff (hgiven : call.Given) {override chosen : Json} {event : Dict}
    (htracked : call.tracked override chosen = .ok event) :
    WellShaped env event ↔ call.Conforms (pyOr override chosen) := by
  obtain ⟨htruthy, rfl⟩ := tracked_eq_ok htracked
  exact builder_conforms_iff hgiven htruthy

end Contract

/-! ### A metering event -/

/-- `track_cost(meter="tokens_in", quantity=1, timestamp=…, meter_ref="m")`. -/
def januaryMeter : BuilderCall where
  own := .costMeter (.str (py "tokens_in")) (.num (.int 1)) (.str (py "2026-01-02T00:00:00Z"))
  keywords :=
    { origin := .str (py "customer_system")
      idempotencyScope := .null
      extra := [(py "meter_ref", .str (py "m"))]
      distinct := List.nodup_singleton _ }
  apart := by decide

theorem given_januaryMeter : januaryMeter.Given := by
  intro entry hentry
  simp only [januaryMeter, OwnArguments.fixed, List.mem_cons, List.not_mem_nil, or_false] at hentry
  rcases hentry with rfl | rfl | rfl <;> rfl

theorem builder_wellShaped_iff_januaryMeter :
    WellShaped sampleEnv (januaryMeter.event (.str (py "d"))) ↔
      januaryMeter.Conforms (pyOr .null (.str (py "d"))) :=
  builder_wellShaped_iff given_januaryMeter rfl

end TrueFigure.Sdk
