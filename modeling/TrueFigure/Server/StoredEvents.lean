import TrueFigure.Server.Arrivals
import TrueFigure.Server.Rendering

/-!
# What the pipeline finds in a stored event

`_process_one` stores an event only with its key, and the key asks for a field
no other family knows. So the payload of a stored event is of the family its
event type names, and every field the pipeline binds is absent or of its
parameter's type.
-/
namespace TrueFigure.Server

open TrueFigure.Library TrueFigure.Python

/-- A row `_process_one` inserts for some submission. -/
def Ingested (row : EventRow) : Prop :=
  ∃ env intake sub adm dep key, examine env intake sub = .ok adm ∧ adm.key env = .ok key ∧
    eventValues intake adm dep = .ok row

theorem runs_checkNamespaces {env : Env} {intake : Intake} {deploymentId : ℕ} {next : Transaction}
    {fields : List (IdField × PyStr)} {log : List (Change Row)} {a : Reply}
    (h : Runs (checkNamespaces env intake deploymentId next fields) log (.ok a)) :
    Runs next log (.ok a) := by
  induction fields with
  | nil => exact h
  | cons f fields ih =>
    obtain ⟨field, value⟩ := f
    obtain ⟨s, h⟩ := Runs.of_read h
    split at h
    · exact h.not_throw.elim
    · exact ih h

/-- Whatever it reads, the transaction of `_process_one` inserts such a row or
nothing. -/
theorem runs_storeOne {env : Env} {intake : Intake} {index : ℕ} {sub : Submission} {adm : Admitted}
    (hexamine : examine env intake sub = .ok adm) {log : List (Change Row)} {a : Reply}
    (h : Runs (storeOne env intake index adm) log (.ok a)) :
    log = [] ∨ ∃ key row, Ingested row ∧
      log = [⟨.event intake.principal.workspaceId key adm.occurredAt, none, row⟩] := by
  unfold storeOne resolveDep at h
  split at h
  · exact h.not_throw.elim
  obtain ⟨s, h⟩ := h.of_read
  split at h
  · exact h.not_throw.elim
  rename_i dep hdep
  have hchecked := runs_checkNamespaces h
  split at hchecked
  · exact hchecked.not_throw.elim
  rename_i key hkey
  unfold storeOrEcho at hchecked
  extract_lets answer at hchecked
  split_ifs at hchecked
  · exact .inl hchecked.of_pure.1
  obtain ⟨t, hinsert⟩ := hchecked.of_read
  split_ifs at hinsert
  · exact .inl hinsert.of_pure.1
  obtain ⟨before, row, more, hu, rfl, hdone⟩ := hinsert.of_write
  obtain ⟨rfl, hrow⟩ := insertEvent_eq_ok intake (liftDb_eq_ok hu)
  obtain ⟨rfl, -⟩ := hdone.of_pure
  exact .inr ⟨key, row, ⟨env, intake, sub, adm, dep, key, hexamine, hkey, hrow⟩, rfl⟩

def EventType.family : EventType → Family
  | .activity => activityFamily
  | .lifecycle => lifecycleFamily
  | .costMeter => costMeterFamily
  | .qualitySignal => qualitySignalFamily
  | .revenueSignal => revenueSignalFamily

/-- The required field no other family knows. -/
def EventType.ownField : EventType → PyStr
  | .activity => py "action_type"
  | .lifecycle => py "event"
  | .costMeter => py "meter"
  | .qualitySignal => py "signal"
  | .revenueSignal => py "revenue_ref"

theorem family_of_ownField (t : EventType) {f : Family} (hf : f ∈ families)
    (h : (f.properties.lookup t.ownField).isSome = true) : f = t.family := by
  simp only [families, List.mem_cons, List.not_mem_nil, or_false] at hf
  rcases hf with rfl | rfl | rfl | rfl | rfl <;> cases t <;>
    first
      | rfl
      | exact absurd h (by decide)

theorem EventType.ofWire?_eq_some {s : PyStr} {t : EventType}
    (h : EventType.ofWire? s = some t) : s = t.wire := by
  have := List.find?_some h
  exact (of_decide_eq_true this).symm

theorem EventType.wire_injective {t t' : EventType} (h : t.wire = t'.wire) : t = t' := by
  cases t <;> cases t' <;>
    first
      | rfl
      | exact absurd h (by decide)

theorem keyParts_ownField {t : EventType} {deploymentId ts : PyStr} {payload : Dict}
    {parts : List Json} (h : keyParts deploymentId t.wire payload ts = .ok parts) :
    ∃ value, payload.get? t.ownField = some value := by
  unfold keyParts at h
  split_ifs at h with hactivity hcost hlifecycle hquality hrevenue
  · obtain rfl : t = .activity := EventType.wire_injective hactivity
    obtain ⟨_, -, h⟩ := bind_eq_ok h
    obtain ⟨_, -, h⟩ := bind_eq_ok h
    obtain ⟨value, hvalue, -⟩ := bind_eq_ok h
    exact ⟨value, subscript_eq_ok hvalue⟩
  · obtain rfl : t = .costMeter := EventType.wire_injective hcost
    obtain ⟨value, hvalue, -⟩ := bind_eq_ok h
    exact ⟨value, subscript_eq_ok hvalue⟩
  · obtain rfl : t = .lifecycle := EventType.wire_injective hlifecycle
    obtain ⟨_, -, h⟩ := bind_eq_ok h
    obtain ⟨value, hvalue, -⟩ := bind_eq_ok h
    exact ⟨value, subscript_eq_ok hvalue⟩
  · obtain rfl : t = .qualitySignal := EventType.wire_injective hquality
    obtain ⟨_, -, h⟩ := bind_eq_ok h
    obtain ⟨value, hvalue, -⟩ := bind_eq_ok h
    exact ⟨value, subscript_eq_ok hvalue⟩
  · obtain rfl : t = .revenueSignal := EventType.wire_injective hrevenue
    obtain ⟨_, -, h⟩ := bind_eq_ok h
    obtain ⟨value, hvalue, -⟩ := bind_eq_ok h
    exact ⟨value, subscript_eq_ok hvalue⟩

variable {row : EventRow}

/-- The payload of a stored event is of the family its event type names. -/
theorem Ingested.family (h : Ingested row) :
    row.eventType.family.accepts (.obj row.payload) = true := by
  obtain ⟨env, intake, sub, adm, dep, key, hexamine, hkey, hrow⟩ := h
  obtain ⟨payload, hpayload, f, hf, haccepts⟩ :=
    valid_payload (examine_ok hexamine).2.1.schemaErrors_nil
  have hadm : adm.payload = payload := by
    simp [Admitted.payload, Dict.getD, hpayload, Json.dictOrEmpty]
  unfold eventValues at hrow
  split at hrow
  · rename_i eventType origin htype horigin
    split_ifs at hrow
    cases hrow
    obtain ⟨parts, ts, fields, hparts, -⟩ := admitted_key_ok hkey
    rw [EventType.ofWire?_eq_some htype] at hparts
    obtain ⟨value, hvalue⟩ := keyParts_ownField hparts
    rw [hadm] at hvalue
    obtain ⟨p, hp, -⟩ := Family.accepts_get haccepts hvalue
    have hfamily : f = eventType.family := family_of_ownField _ hf (by rw [hp]; rfl)
    show eventType.family.accepts (.obj adm.payload) = true
    rw [hadm, ← hfamily]
    exact haccepts
  · cases hrow

/-! ### Texts, enumerations and quantities -/

def PropertySchema.isQuantity : PropertySchema → Bool
  | .quantity => true
  | _ => false

/-- A field the family knows as a text, or does not know. -/
def Family.textual (f : Family) (name : PyStr) : Bool :=
  (f.properties.lookup name).all fun p => !p.isQuantity

theorem Family.accepts_textual {f : Family} {payload : Dict} {name : PyStr}
    (h : f.accepts (.obj payload) = true) (hname : f.textual name = true) {default : Json}
    (hdefault : default = .null ∨ ∃ s, default = .str s) :
    payload.getD name default = .null ∨ ∃ s, payload.getD name default = .str s := by
  unfold Dict.getD
  cases hget : payload.get? name with
  | none => exact hdefault
  | some value =>
    obtain ⟨p, hp, hvalue⟩ := Family.accepts_get h hget
    rw [Family.textual, hp] at hname
    cases value with
    | str s => exact .inr ⟨s, rfl⟩
    | num n =>
      cases p with
      | quantity => cases hname
      | _ => cases hvalue
    | _ => cases p <;> cases hvalue

theorem Family.accepts_required {f : Family} {payload : Dict} {name : PyStr}
    (h : f.accepts (.obj payload) = true) (hname : name ∈ f.required) :
    ∃ value p, payload.get? name = some value ∧ f.properties.lookup name = some p ∧
      p.accepts value = true := by
  have hrequired := h
  simp only [Family.accepts, Bool.and_eq_true, List.all_eq_true] at hrequired
  obtain ⟨value, hvalue⟩ := Option.isSome_iff_exists.1 (hrequired.1 name hname)
  obtain ⟨p, hp, haccepts⟩ := Family.accepts_get h hvalue
  exact ⟨value, p, hvalue, hp, haccepts⟩

/-- An enumeration's value is one of its texts. -/
theorem PropertySchema.accepts_enum {values : List PyStr} {value : Json}
    (h : (PropertySchema.enum values).accepts value = true) : ∃ s ∈ values, value = .str s := by
  cases value with
  | str s => exact ⟨s, by simpa [accepts] using h, rfl⟩
  | _ => cases h

/-- Every parameter the pipeline takes from the payload can be bound; only a
quantity may still be too large for its column. -/
structure Digestible (row : EventRow) : Prop where
  /-- A text, wherever the pipeline looks for one. -/
  texts : ∀ name ∈ [py "user_ref", py "assignee_ref", py "work_item_id"],
    row.payload.getD name .null = .null ∨ ∃ s, row.payload.getD name .null = .str s
  size : row.eventType = .lifecycle → ∃ size,
    sizeParam (row.payload.getD (py "size_band") .null) = .ok size
  category : row.eventType = .lifecycle → ∃ category,
    textParam (row.payload.getD (py "category") .null) = .ok category
  meter : row.eventType = .costMeter → ∃ meter,
    meterParam (row.payload.get? (py "meter")) = .ok meter
  meterRef : row.eventType = .costMeter → ∃ ref,
    meterRefParam (row.payload.getD (py "meter_ref") (.str [])) = .ok ref
  quantity : row.eventType = .costMeter → ∃ n,
    row.payload.getD (py "quantity") (.num (.int 0)) = .num n ∧ PyNum.negative n = false

theorem Ingested.digestible (h : Ingested row) : Digestible row := by
  have hfamily := h.family
  have htextual : ∀ (t : EventType), ∀ name ∈ [py "user_ref", py "assignee_ref",
      py "work_item_id", py "category", py "meter_ref"], t.family.textual name = true := by
    intro t
    cases t <;> decide
  constructor
  · intro name hname
    refine Family.accepts_textual hfamily (htextual _ name ?_) (.inl rfl)
    simp only [List.mem_cons, List.not_mem_nil, or_false] at hname ⊢
    rcases hname with rfl | rfl | rfl <;> simp
  · intro htype
    rw [htype] at hfamily
    unfold Dict.getD
    cases hget : row.payload.get? (py "size_band") with
    | none => exact ⟨none, rfl⟩
    | some value =>
      obtain ⟨p, hp, hvalue⟩ := Family.accepts_get hfamily hget
      obtain rfl : PropertySchema.enum [py "xs", py "s", py "m", py "l", py "xl"] = p :=
        Option.some.inj hp
      obtain ⟨s, hs, rfl⟩ := PropertySchema.accepts_enum hvalue
      have hsizes : ∀ s ∈ [py "xs", py "s", py "m", py "l", py "xl"],
        (SizeType.ofWire? s).isSome := by decide
      obtain ⟨size, hsize⟩ := Option.isSome_iff_exists.1 (hsizes s hs)
      exact ⟨some size, by simp [sizeParam, hsize]⟩
  · intro htype
    rcases Family.accepts_textual hfamily (htextual _ (py "category") (by simp)) (.inl rfl)
      with hnull | ⟨s, hs⟩
    · exact ⟨none, by rw [hnull]; rfl⟩
    · exact ⟨some s, by rw [hs]; rfl⟩
  · intro htype
    rw [htype] at hfamily
    obtain ⟨value, p, hget, hp, hvalue⟩ := Family.accepts_required hfamily (.head _)
    obtain rfl : PropertySchema.enum (MeterType.all.map MeterType.wire) = p := Option.some.inj hp
    obtain ⟨s, hs, rfl⟩ := PropertySchema.accepts_enum hvalue
    obtain ⟨meter, -, rfl⟩ := List.mem_map.1 hs
    rw [hget]
    exact ⟨meter, by cases meter <;> rfl⟩
  · intro htype
    rcases Family.accepts_textual hfamily
      (htextual _ (py "meter_ref") (by simp)) (.inr ⟨[], rfl⟩) with hnull | ⟨s, hs⟩
    · exact ⟨[], by rw [hnull]; rfl⟩
    · rw [hs]
      cases s with
      | nil => exact ⟨[], rfl⟩
      | cons c s => exact ⟨c :: s, rfl⟩
  · intro htype
    rw [htype] at hfamily
    obtain ⟨value, p, hget, hp, hvalue⟩ := Family.accepts_required hfamily (.tail _ (.head _))
    obtain rfl : PropertySchema.quantity = p := Option.some.inj hp
    cases value with
    | num n => exact ⟨n, by rw [Dict.getD, hget]; rfl, by simpa [PropertySchema.accepts] using hvalue⟩
    | _ => cases hvalue

end TrueFigure.Server
