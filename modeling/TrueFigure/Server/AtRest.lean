import TrueFigure.Server.StoredEvents
import TrueFigure.Server.VerdictEffects

/-!
# What a stored event can hold

The envelope schema takes any payload family under any event type; it is the key
that ties the two. A stored payload is therefore flat, of its own family, and
neither it nor its envelope carries content or an asserted value. An event that
carries one is refused for it, unless recording the refusal raises.
-/
namespace TrueFigure.Server

open TrueFigure.Library TrueFigure.Python

variable {env : Env} {intake : Intake} {sub : Submission} {st : Db × ℕ} {event : Dict}

/-- A field `_scan_forbidden_fields` looks for. -/
def Forbidden (name : PyStr) : Prop := name = py "content" ∨ name ∈ valueFields

/-- The envelope or the payload has a forbidden field. -/
def CarriesForbidden (event : Dict) : Prop :=
  (∃ f ∈ event, Forbidden f.1) ∨ ∃ f ∈ payloadOf event, Forbidden f.1

theorem forbiddenField_eq_none {scopeName : PyStr} {fields : Dict} :
    forbiddenField scopeName fields = none ↔ ∀ f ∈ fields, ¬ Forbidden f.1 := by
  induction fields with
  | nil => simp [forbiddenField]
  | cons f fields ih =>
    obtain ⟨key, value⟩ := f
    unfold forbiddenField
    by_cases hcontent : key = py "content"
    · simp [hcontent, Forbidden]
    by_cases hvalue : key ∈ valueFields
    · simp [hcontent, hvalue, Forbidden]
    · simp [hcontent, hvalue, Forbidden, ih]

theorem forbiddenField_code {scopeName : PyStr} {fields : Dict} {err : TFError}
    (h : forbiddenField scopeName fields = some err) : err.code = .evt006 ∨ err.code = .evt008 := by
  induction fields with
  | nil => cases h
  | cons f fields ih =>
    obtain ⟨key, value⟩ := f
    unfold forbiddenField at h
    split_ifs at h
    · cases h
      exact .inl rfl
    · cases h
      exact .inr rfl
    · exact ih h

theorem scanForbiddenFields_ok_iff :
    scanForbiddenFields event = .ok () ↔ ¬ CarriesForbidden event := by
  have hnone : (forbiddenField [] event <|> forbiddenField (py "payload.") (payloadOf event)) =
      none ↔ ¬ CarriesForbidden event := by
    rw [Option.orElse_eq_none, forbiddenField_eq_none, forbiddenField_eq_none]
    simp [CarriesForbidden, not_or]
  rw [← hnone]
  unfold scanForbiddenFields
  extract_lets payload
  change _ ↔ (forbiddenField [] event <|> forbiddenField (py "payload.") payload) = none
  split
  · rename_i err herr
    rw [herr]
    simp
  · rename_i hnone
    rw [hnone]
    simp

/-- A forbidden field is refused with its own code. -/
theorem rejectedBy_of_carries (hevent : sub.event = .obj event) (h : CarriesForbidden event) :
    ∃ err, RejectedBy env intake st.1 sub err ∧ (err.code = .evt006 ∨ err.code = .evt008) := by
  cases hscan : scanForbiddenFields event with
  | ok _ => exact absurd h (scanForbiddenFields_ok_iff.1 hscan)
  | error e =>
    have hexamine : examine env intake sub = .error e := by
      simp only [examine, hevent, hscan, bind, Except.bind]
    unfold scanForbiddenFields at hscan
    extract_lets payload at hscan
    split at hscan
    · rename_i err herr
      cases hscan
      refine ⟨err, .early hexamine, ?_⟩
      rcases (Option.orElse_eq_some _ _ _).1 herr with herr | ⟨-, herr⟩
      · exact forbiddenField_code herr
      · exact forbiddenField_code herr
    · cases hscan

/-- A stored row, with the envelope it came in. -/
structure AtRest (event : Dict) (row : EventRow) : Prop where
  required : ∀ name ∈ row.eventType.family.required, (row.payload.get? name).isSome
  known : ∀ f ∈ row.payload, ∃ p, row.eventType.family.properties.lookup f.1 = some p ∧
    p.accepts f.2 = true
  /-- No value has a part. -/
  flat : ∀ f ∈ row.payload, (∃ s, f.2 = .str s) ∨ ∃ n, f.2 = .num n
  envelope : ∀ f ∈ event, ¬ Forbidden f.1
  payload : ∀ f ∈ row.payload, ¬ Forbidden f.1

theorem PropertySchema.accepts_flat {p : PropertySchema} {value : Json}
    (h : p.accepts value = true) : (∃ s, value = .str s) ∨ ∃ n, value = .num n := by
  cases value with
  | str s => exact .inl ⟨s, rfl⟩
  | num n => exact .inr ⟨n, rfl⟩
  | _ => cases p <;> cases h

theorem eventValues_payload {adm : Admitted} {dep : DeploymentRow} {row : EventRow}
    (h : eventValues intake adm dep = .ok row) : row.payload = adm.payload := by
  unfold eventValues at h
  split at h
  · split_ifs at h
    cases h
    rfl
  · cases h

theorem Keyed.atRest {adm : Admitted} {dep : DeploymentRow} {key : PyStr} {row : EventRow}
    (hkeyed : Keyed env intake st.1 sub adm dep key) (hrow : eventValues intake adm dep = .ok row) :
    AtRest adm.event row := by
  have hingested : Ingested row :=
    ⟨env, intake, sub, adm, dep, key, hkeyed.examined, hkeyed.keyed, hrow⟩
  have hfamily := hingested.family
  simp only [Family.accepts, Bool.and_eq_true, List.all_eq_true] at hfamily
  have hknown : ∀ f ∈ row.payload, ∃ p, row.eventType.family.properties.lookup f.1 = some p ∧
      p.accepts f.2 = true := by
    intro f hf
    have haccepts := hfamily.2 f hf
    cases hp : row.eventType.family.properties.lookup f.1 with
    | none => simp [hp] at haccepts
    | some p => exact ⟨p, rfl, by simpa [hp] using haccepts⟩
  have hscan : ¬ CarriesForbidden adm.event :=
    scanForbiddenFields_ok_iff.1 (examine_ok hkeyed.examined).2.1.scanned
  constructor
  · exact hfamily.1
  · exact hknown
  · intro f hf
    obtain ⟨p, -, haccepts⟩ := hknown f hf
    exact p.accepts_flat haccepts
  · intro f hf hforbidden
    exact hscan (.inl ⟨f, hf, hforbidden⟩)
  · intro f hf hforbidden
    rw [eventValues_payload hrow] at hf
    exact hscan (.inr ⟨f, hf, hforbidden⟩)

/-- What an accepted event stores is at rest, and an event that carries a
forbidden field is rejected for it. -/
structure StructuralGuarantee (env : Env) (intake : Intake) (st : Db × ℕ) (sub : Submission) :
    Prop where
  stored : ∀ index r st', Returns env intake index sub st r st' → r.status = .accepted →
    intake.principal.mode = .production → ∃ event key occurredAt row, sub.event = .obj event ∧
      st'.1 = st.1.insert (.event intake.principal.workspaceId key occurredAt) row ∧
      AtRest event row
  refused : ∀ event, sub.event = .obj event → CarriesForbidden event →
    ∀ index, ∃ r st' err, Returns env intake index sub st r st' ∧ r.status = .rejected ∧
      r.error = some err ∧ (err.code = py "TF-EVT-006" ∨ err.code = py "TF-EVT-008")

theorem stored_atRest (hseq : SequenceAhead st) {index : ℕ} {r : EventResult} {st' : Db × ℕ}
    (h : Returns env intake index sub st r st') (hstatus : r.status = .accepted)
    (hmode : intake.principal.mode = .production) :
    ∃ event key occurredAt row, sub.event = .obj event ∧
      st'.1 = st.1.insert (.event intake.principal.workspaceId key occurredAt) row ∧
      AtRest event row := by
  obtain ⟨x, hx, rfl, rfl⟩ := (returns_iff hseq).1 h
  cases settle_exit hx with
  | stored hkeyed _ _ hrow =>
    exact ⟨_, _, _, _, (examine_ok hkeyed.examined).1, rfl, hkeyed.atRest hrow⟩
  | echoed _ htest => simp [Principal.isTest, hmode] at htest
  | refused _ htest => simp [Principal.isTest, hmode] at htest
  | duplicate => cases hstatus
  | quarantined => cases hstatus

/-- The guarantee holds of an event exactly if it carries no forbidden field or
its refusal can be recorded: its second key raises nothing but what `_safe_key`
catches, and under a production key the quarantine takes it. -/
theorem structural_guarantee_iff (hseq : SequenceAhead st) :
    StructuralGuarantee env intake st sub ↔
      ∀ event, sub.event = .obj event → CarriesForbidden event →
        (∃ key, safeKey env sub.event = .ok key) ∧
          (intake.principal.isTest = false → Quarantinable env sub.event) := by
  constructor
  · intro hguarantee event hevent hcarries
    obtain ⟨err, hrejected, -⟩ := @rejectedBy_of_carries env intake sub st event hevent hcarries
    obtain ⟨r, st', _, hreturns, -⟩ := hguarantee.refused event hevent hcarries 0
    obtain ⟨x, hx, -⟩ := (returns_iff hseq).1 hreturns
    have hrefuse := hrejected.settle_eq.symm.trans hx
    obtain ⟨key, hkey, -⟩ := refuse_ok hrefuse
    refine ⟨⟨key, hkey⟩, fun hmode => ?_⟩
    exact (hrejected.production_iff hmode hkey).1 ⟨x, hx⟩
  · intro hrecordable
    constructor
    · intro index r st' hreturns hstatus hmode
      exact stored_atRest hseq hreturns hstatus hmode
    · intro event hevent hcarries index
      obtain ⟨err, hrejected, hcode⟩ :=
        @rejectedBy_of_carries env intake sub st event hevent hcarries
      obtain ⟨⟨key, hkey⟩, hquarantinable⟩ := hrecordable event hevent hcarries
      have hsettled : ∃ x, settle env intake st.1 sub = .ok x := by
        cases hmode : intake.principal.isTest with
        | true => exact ⟨_, by rw [hrejected.settle_eq, refuse, hkey]; exact if_pos hmode⟩
        | false => exact (hrejected.production_iff hmode hkey).2 (hquarantinable hmode)
      obtain ⟨x, hx⟩ := hsettled
      obtain ⟨_, -, hverdict, -⟩ := refuse_ok (hrejected.settle_eq.symm.trans hx)
      refine ⟨_, _, err.toErrorObject, (returns_iff hseq).2 ⟨x, hx, rfl, rfl⟩, ?_, ?_, ?_⟩
      · rw [hverdict]
        rfl
      · rw [hverdict]
        rfl
      · rcases hcode with hcode | hcode
        · exact .inl (by rw [TFError.toErrorObject, hcode]; rfl)
        · exact .inr (by rw [TFError.toErrorObject, hcode]; rfl)

/-- An object with content whose `event_type` is a list. -/
def listTypeContent : Dict :=
  [(py "content", .str (py "x")), (py "event_type", .arr [])]

/-- A meter event that asserts an amount. -/
def pricedMeterEvent : Dict :=
  [(py "schema_version", .str (py "1.0")), (py "deployment_id", .str (py "d")),
    (py "event_type", .str (py "cost_meter")), (py "origin", .str (py "vendor_product")),
    (py "payload", .obj [(py "meter", .str (py "tokens_in")), (py "quantity", .num (.int 3)),
      (py "timestamp", .str (py "2026-01-02T04:04:05.678901+01:00")),
      (py "amount", .num (.int 12))])]

/-- It is rejected for the amount. -/
theorem structural_guarantee_iff_meterEvent : CarriesForbidden pricedMeterEvent ∧
    StructuralGuarantee sampleEnv sampleIntake sampleRows ⟨.obj pricedMeterEvent, sampleNow⟩ ∧
    ∃ r st', Returns sampleEnv sampleIntake 0 ⟨.obj pricedMeterEvent, sampleNow⟩ sampleRows r st' ∧
      r.status = .rejected := by
  have hcarries : CarriesForbidden pricedMeterEvent :=
    .inr ⟨_, .tail _ (.tail _ (.tail _ (.head _))), .inr (by decide)⟩
  have hkey : (safeKey sampleEnv (.obj pricedMeterEvent)).isOk = true := by decide +kernel
  have hguarantee : StructuralGuarantee sampleEnv sampleIntake sampleRows
      ⟨.obj pricedMeterEvent, sampleNow⟩ :=
    (structural_guarantee_iff sequenceAhead_sampleRows).2 fun event _ _ =>
      ⟨exists_of_isOk hkey, fun _ => ⟨⟨_, rfl⟩, ⟨_, rfl⟩⟩⟩
  obtain ⟨r, st', err, hreturns, hstatus, -⟩ := hguarantee.refused pricedMeterEvent rfl hcarries 0
  exact ⟨hcarries, hguarantee, r, st', hreturns, hstatus⟩

/-- The quarantine of the list raises. -/
theorem listTypeContent_not_refused :
    ¬ StructuralGuarantee sampleEnv sampleIntake sampleRows ⟨.obj listTypeContent, sampleNow⟩ := by
  intro hguarantee
  have hcarries : CarriesForbidden listTypeContent := .inl ⟨_, .head _, .inl rfl⟩
  obtain ⟨r, st', err, hreturns, -⟩ := hguarantee.refused _ rfl hcarries 0
  have hnone : ((processOne sampleEnv sampleIntake 0 ⟨.obj listTypeContent, sampleNow⟩
      answered).run sampleRows.1 sampleRows.2).1.statuses = none := by decide +kernel
  rw [show _ = _ from hreturns] at hnone
  cases hnone

end TrueFigure.Server
