import TrueFigure.Server.IngestEvaluation

/-!
# What makes an event raise

Only `_Reject` is caught, so an event fails its whole request where anything
else is raised: by the arithmetic of its timestamp, by the deployment, by a
declared pattern, by the key, by the insert, by the second, best-effort key of a
rejected event, by its quarantine or when the response is rendered. The list is
complete: every other event comes to a result that renders.
-/
namespace TrueFigure.Server

open TrueFigure.Library TrueFigure.Python

/-- An event object in which nothing is forbidden and which the schema accepts. -/
structure WellShaped (env : Env) (event : Dict) : Prop where
  scanned : scanForbiddenFields event = .ok ()
  valid : validateStructure env event = .ok ()

/-- The payload of an event object, where it has one. -/
def payloadOf (event : Dict) : Dict := (event.getD (py "payload") .null).dictOrEmpty

/-- The instant leaves the years 1 to 9999 in UTC, or a bound it is compared
with does. -/
def Overflows (env : Env) (payload : Dict) (horizonDays now : ℕ) : Prop :=
  canonicalMillis env.rt (payload.getD (py "timestamp") .null) = .error .overflowError ∨
    ∃ millis, canonicalMillis env.rt (payload.getD (py "timestamp") .null) = .ok millis ∧
      (microsEnd ≤ now + microsPerDay ∨
        (millis * 1000 ≤ now + microsPerDay ∧ now < horizonDays * microsPerDay))

def Echo.renders (echo : Echo) : Bool := echo.compliant && echo.encodable

def Verdict.renders (v : Verdict) : Bool := v.compliant && v.encodable

section

variable (env : Env) (intake : Intake) (s : Db) (sub : Submission)

/-- The event has passed `_resolve_dep`. -/
structure Deployed (adm : Admitted) (dep : DeploymentRow) : Prop where
  examined : examine env intake sub = .ok adm
  text : textOk (adm.text (py "deployment_id")) = true
  found : deploymentOf s intake.principal.workspaceId (adm.text (py "deployment_id")) = some dep
  granted : intake.principal.mayTouch dep.id = true
  running : dep.deploymentStatus ≠ .paused

/-- The event has passed every check and has its key. -/
structure Keyed (adm : Admitted) (dep : DeploymentRow) (key : PyStr) : Prop
    extends Deployed env intake s sub adm dep where
  formats : namespaceFault env intake s dep.id (idFields adm.payload) = none
  keyed : adm.key env = .ok key

/-- A check refuses the event with this error. -/
inductive RejectedBy : TFError → Prop
  | early {err : TFError} (h : examine env intake sub = .error (.reject err)) : RejectedBy err
  | unknownDeployment {adm : Admitted} (hexamine : examine env intake sub = .ok adm)
      (htext : textOk (adm.text (py "deployment_id")) = true)
      (h : deploymentOf s intake.principal.workspaceId (adm.text (py "deployment_id")) = none) :
      RejectedBy ⟨.evt002, some (py "deployment_id"),
        some (py "unknown deployment " ++ adm.text (py "deployment_id"))⟩
  | format {adm : Admitted} {dep : DeploymentRow} {err : TFError}
      (hdep : Deployed env intake s sub adm dep)
      (h : namespaceFault env intake s dep.id (idFields adm.payload) = some (.reject err)) :
      RejectedBy err

/-- The ways an event raises. -/
inductive Raises : Prop
  /-- The timestamp, the clock or the horizon overflows. -/
  | overflow {event : Dict} (hevent : sub.event = .obj event) (hshape : WellShaped env event)
      (h : Overflows env (payloadOf event) intake.horizonDays sub.now)
  /-- `deployment_id` holds a NUL or a lone surrogate. -/
  | deploymentText {adm : Admitted} (hexamine : examine env intake sub = .ok adm)
      (h : textOk (adm.text (py "deployment_id")) = false)
  /-- The key is not granted the deployment. -/
  | ungranted {adm : Admitted} {dep : DeploymentRow} (hexamine : examine env intake sub = .ok adm)
      (hfound : deploymentOf s intake.principal.workspaceId (adm.text (py "deployment_id")) =
        some dep)
      (h : intake.principal.mayTouch dep.id = false)
  /-- The deployment is paused. -/
  | paused {adm : Admitted} {dep : DeploymentRow} (hexamine : examine env intake sub = .ok adm)
      (hfound : deploymentOf s intake.principal.workspaceId (adm.text (py "deployment_id")) =
        some dep)
      (h : dep.deploymentStatus = .paused)
  /-- The first declared format that does not match is no pattern. -/
  | badRegex {adm : Admitted} {dep : DeploymentRow} (hdep : Deployed env intake s sub adm dep)
      (h : namespaceFault env intake s dep.id (idFields adm.payload) = some (.python .reError))
  /-- The payload is of another family than `event_type`, or a field of the key
  holds a lone surrogate. -/
  | noKey {adm : Admitted} {dep : DeploymentRow} {e : PyErr}
      (hdep : Deployed env intake s sub adm dep)
      (hformats : namespaceFault env intake s dep.id (idFields adm.payload) = none)
      (h : adm.key env = .error e)
  /-- A new event's payload is no `jsonb`. -/
  | unstorable {adm : Admitted} {dep : DeploymentRow} {key : PyStr}
      (hkeyed : Keyed env intake s sub adm dep key) (hmode : intake.principal.isTest = false)
      (hnew : hasEvent s intake.principal.workspaceId key = false)
      (h : jsonbOk (.obj adm.payload) = false)
  /-- The second key of a rejected event raises what `_safe_key` does not catch. -/
  | safeKey {err : TFError} {e : PyErr} (hrejected : RejectedBy env intake s sub err)
      (h : Server.safeKey env sub.event = .error e)
  /-- A rejected event's `event_type` is a list or an object. -/
  | unhashableType {err : TFError} {e : PyErr} (hrejected : RejectedBy env intake s sub err)
      (hmode : intake.principal.isTest = false)
      (h : maybeEnum (sub.event.dictOrEmpty.getD (py "event_type") .null) = .error e)
  /-- A rejected event's `deployment_id` fits no `TEXT` column. -/
  | deploymentRef {err : TFError} {e : Failure} (hrejected : RejectedBy env intake s sub err)
      (hmode : intake.principal.isTest = false)
      (h : deploymentRefArgument env (sub.event.dictOrEmpty.getD (py "deployment_id") .null) =
        .error e)

/-- The ways a result of an event cannot be rendered. -/
inductive Unrenderable : Prop
  /-- The unsupported version a rejection quotes holds a lone surrogate. -/
  | version {event : Dict} {sv : PyStr} (hevent : sub.event = .obj event)
      (hscan : scanForbiddenFields event = .ok ())
      (hversion : event.get? (py "schema_version") = some (.str sv))
      (hunsupported : schemaVersionOk sv = false) (h : utf8Encodable sv = false)
  /-- The echo of a rejected event repeats a `NaN`, an infinity or a lone
  surrogate. -/
  | echo {err : TFError} {payload : Dict} (hrejected : RejectedBy env intake s sub err)
      (hmode : intake.principal.isTest = true)
      (hpayload : sub.event.dictOrEmpty.getD (py "payload") .null = .obj payload)
      (h : (echoOf (sub.event.dictOrEmpty.getD (py "event_type") (.str [])) payload false
        none).renders = false)

/-- The event fails its request. -/
def Hazard : Prop := Raises env intake s sub ∨ Unrenderable env intake s sub

end

/-! ### Texts that can be encoded -/

/-- The field path and the detail of an error can be encoded. -/
def TFError.encodable (err : TFError) : Bool :=
  err.fieldPath.all utf8Encodable && err.detail.all utf8Encodable

theorem utf8Encodable_of_joined {sep : CodePoint} {fields : List PyStr}
    (h : utf8Encodable (joined sep fields) = true) : ∀ f ∈ fields, utf8Encodable f = true := by
  induction fields with
  | nil => simp
  | cons f fields ih =>
    rcases eq_or_ne fields [] with rfl | hne
    · simpa [joined] using h
    · simp only [joined, List.intercalate_cons_of_ne_nil hne, utf8Encodable_append,
        Bool.and_eq_true] at h
      rintro g (_ | ⟨_, hg⟩)
      · exact h.1.1
      · exact ih h.2 g hg

theorem scanForbiddenFields_error {event : Dict} {e : Failure}
    (h : scanForbiddenFields event = .error e) :
    ∃ err, e = .reject err ∧ err.encodable = true := by
  have hfield : ∀ (scopeName : PyStr) (fields : Dict) (err : TFError),
      utf8Encodable scopeName = true → forbiddenField scopeName fields = some err →
        err.encodable = true := by
    intro scopeName fields err hscope herr
    induction fields with
    | nil => cases herr
    | cons f fields ih =>
      obtain ⟨key, value⟩ := f
      simp only [forbiddenField] at herr
      split_ifs at herr with hcontent hvalue
      · cases herr
        simp [TFError.encodable, hscope, utf8Encodable_py]
      · cases herr
        have hkey : utf8Encodable key = true := by
          have : ∀ k ∈ valueFields, utf8Encodable k = true := by decide
          exact this key (by simpa using hvalue)
        simp [TFError.encodable, hscope, hkey, utf8Encodable_py]
      · exact ih herr
  unfold scanForbiddenFields at h
  extract_lets payload at h
  split at h
  · rename_i err herr
    cases h
    refine ⟨err, rfl, ?_⟩
    rcases (Option.orElse_eq_some _ _ _).1 herr with hev | ⟨-, hpay⟩
    · exact hfield [] event err rfl hev
    · exact hfield _ _ err (utf8Encodable_py _) hpay
  · cases h

theorem schemaErrors_path {event : Dict} {e : SchemaError} (h : e ∈ schemaErrors event) :
    utf8Encodable (dottedPath e.path) = true := by
  have hname : ∀ property ∈ envelopeProperties, utf8Encodable property.1 = true := by
    intro property hproperty
    simp only [envelopeProperties, List.mem_cons, List.not_mem_nil, or_false] at hproperty
    rcases hproperty with rfl | rfl | rfl | rfl | rfl | rfl <;> exact utf8Encodable_py _
  simp only [schemaErrors, List.mem_append, List.mem_map, List.mem_flatMap] at h
  rcases h with (⟨key, -, rfl⟩ | hextra) | ⟨property, hproperty, hviolation⟩
  · exact utf8Encodable_py _
  · split_ifs at hextra
    · cases hextra
    · obtain rfl := List.mem_singleton.1 hextra
      exact utf8Encodable_py _
  · split at hviolation
    · cases hviolation
    · obtain ⟨v, -, rfl⟩ := List.mem_map.1 hviolation
      simpa [dottedPath] using hname property hproperty

section

variable {env : Env} {event payload : Dict} {e : Failure} {err : TFError}

/-- A structural error quotes an unsupported version as it was sent; all else is
shown by `repr`. -/
theorem validateStructure_error (h : validateStructure env event = .error e) :
    ∃ err, e = .reject err ∧ (err.encodable = true ∨
      ∃ sv, event.get? (py "schema_version") = some (.str sv) ∧ schemaVersionOk sv = false ∧
        utf8Encodable sv = false ∧ err.detail = some (py "unsupported schema_version " ++ sv)) := by
  unfold validateStructure at h
  extract_lets sv at h
  split at h
  · rename_i found hfound
    cases h
    refine ⟨_, rfl, ?_⟩
    obtain ⟨hsv, hunsupported⟩ := Option.filter_eq_some_iff.1 hfound
    cases hencodable : utf8Encodable found with
    | true => exact .inl (by simp [TFError.encodable, utf8Encodable_py, hencodable])
    | false =>
      refine .inr ⟨found, ?_, by simpa using hunsupported, hencodable, rfl⟩
      simp only [sv, Dict.getD] at hsv
      cases hget : event.get? (py "schema_version") with
      | none => simp [hget, Json.str?] at hsv
      | some value =>
        cases value <;> simp_all [Json.str?]
  · split at h
    · rename_i first hfirst
      cases h
      refine ⟨_, rfl, .inl ?_⟩
      simp [TFError.encodable, env.message_encodable, schemaErrors_path (firstError_mem hfirst)]
    · cases h

theorem astimezoneUtc_error {micros : ℕ} {offset : ℤ} {e : PyErr}
    (h : astimezoneUtc micros offset = .error e) : e = .overflowError := by
  unfold astimezoneUtc at h
  extract_lets utc at h
  split_ifs at h
  exact (Except.error.inj h).symm

theorem canonicalMillis_error {rt : Runtime} (hrt : rt.Sound) {ts : Json} {e : PyErr}
    (h : canonicalMillis rt ts = .error e) :
    e = .overflowError ∨ ∃ message, e = .timestampError message ∧ utf8Encodable message = true := by
  unfold canonicalMillis at h
  split at h
  · extract_lets raw raw' at h
    split at h
    · refine .inr ⟨_, (Except.error.inj h).symm, ?_⟩
      rw [utf8Encodable_append, utf8Encodable_py, utf8Encodable_reprStr hrt, Bool.and_self]
    split at h
    · exact .inr ⟨_, (Except.error.inj h).symm, utf8Encodable_py _⟩
    rename_i parsed _ _ offset _
    cases hutc : astimezoneUtc parsed.micros offset with
    | error e' =>
      rw [hutc] at h
      obtain rfl := Except.error.inj h
      exact .inl (astimezoneUtc_error hutc)
    | ok utc => simp [hutc, Except.map] at h
  · exact .inr ⟨_, (Except.error.inj h).symm, utf8Encodable_py _⟩

/-- The timestamp check refuses with a text that can be encoded, or overflows. -/
theorem checkTimestamp_error {horizonDays now : ℕ}
    (h : checkTimestamp env payload horizonDays now = .error e) :
    (∃ err, e = .reject err ∧ err.encodable = true) ∨
      (e = .python .overflowError ∧ Overflows env payload horizonDays now) := by
  unfold checkTimestamp canonicalTs at h
  cases hmillis : canonicalMillis env.rt (payload.getD (py "timestamp") .null) with
  | error e' =>
    simp only [hmillis, Except.map] at h
    rcases canonicalMillis_error env.sound hmillis with rfl | ⟨message, rfl, hmessage⟩
    · exact .inr ⟨(Except.error.inj h).symm, .inl hmillis⟩
    · refine .inl ⟨_, (Except.error.inj h).symm, ?_⟩
      simp [TFError.encodable, utf8Encodable_py, hmessage]
  | ok millis =>
    simp only [hmillis, Except.map, strptime_render (canonicalMillis_lt hmillis)] at h
    split_ifs at h with hend hfuture hhorizon hold
    · exact .inr ⟨(Except.error.inj h).symm, .inr ⟨millis, hmillis, .inl hend⟩⟩
    · refine .inl ⟨_, (Except.error.inj h).symm, ?_⟩
      simp [TFError.encodable, utf8Encodable_py]
    · exact .inr ⟨(Except.error.inj h).symm, .inr ⟨millis, hmillis, .inr ⟨by omega, hhorizon⟩⟩⟩
    · refine .inl ⟨_, (Except.error.inj h).symm, ?_⟩
      simp [TFError.encodable, utf8Encodable_py]

theorem checkTimestamp_of_overflows {horizonDays now : ℕ}
    (h : Overflows env payload horizonDays now) :
    checkTimestamp env payload horizonDays now = .error (.python .overflowError) := by
  unfold checkTimestamp canonicalTs
  rcases h with hmillis | ⟨millis, hmillis, hbound⟩
  · simp only [hmillis, Except.map]
  · simp only [hmillis, Except.map, strptime_render (canonicalMillis_lt hmillis)]
    rcases hbound with hend | ⟨hpast, hhorizon⟩
    · rw [if_pos hend]
    · split_ifs
      · rfl
      · omega
      · rfl

theorem checkTimestamp_ok {horizonDays now : ℕ} {ts : PyStr}
    (h : checkTimestamp env payload horizonDays now = .ok ts) :
    ∃ millis, canonicalMillis env.rt (payload.getD (py "timestamp") .null) = .ok millis ∧
      ts = renderMillis millis := by
  unfold checkTimestamp canonicalTs at h
  cases hmillis : canonicalMillis env.rt (payload.getD (py "timestamp") .null) with
  | error e' =>
    simp only [hmillis, Except.map] at h
    rcases canonicalMillis_error env.sound hmillis with rfl | ⟨message, rfl, -⟩ <;> cases h
  | ok millis =>
    simp only [hmillis, Except.map, strptime_render (canonicalMillis_lt hmillis)] at h
    split_ifs at h
    exact ⟨millis, rfl, (Except.ok.inj h).symm⟩

end

/-! ### Where an event stops -/

section

variable {env : Env} {intake : Intake} {s : Db} {sub : Submission} {adm : Admitted}
  {dep : DeploymentRow} {key : PyStr} {err : TFError}

theorem examine_ok (h : examine env intake sub = .ok adm) :
    sub.event = .obj adm.event ∧ WellShaped env adm.event ∧
      checkTimestamp env adm.payload intake.horizonDays sub.now = .ok adm.ts := by
  unfold examine at h
  split at h
  · rename_i event hevent
    obtain ⟨_, hscan, h⟩ := bind_eq_ok h
    obtain ⟨_, hvalid, h⟩ := bind_eq_ok h
    obtain ⟨ts, hts, h⟩ := bind_eq_ok h
    cases h
    exact ⟨hevent, ⟨hscan, hvalid⟩, hts⟩
  · cases h

/-- Before the transaction an event is refused with a text that can be encoded or
for a version that cannot, or its timestamp overflows. -/
theorem examine_error {e : Failure} (h : examine env intake sub = .error e) :
    (∃ err, e = .reject err ∧ (err.encodable = true ∨ Unrenderable env intake s sub)) ∨
      (∃ p, e = .python p) ∧ Raises env intake s sub := by
  unfold examine at h
  split at h
  · rename_i event hevent
    cases hscan : scanForbiddenFields event with
    | error e' =>
      obtain ⟨err, rfl, herr⟩ := scanForbiddenFields_error hscan
      simp only [hscan, bind, Except.bind] at h
      exact .inl ⟨err, (Except.error.inj h).symm, .inl herr⟩
    | ok _ =>
      cases hvalid : validateStructure env event with
      | error e' =>
        obtain ⟨err, rfl, herr⟩ := validateStructure_error hvalid
        simp only [hscan, hvalid, bind, Except.bind] at h
        refine .inl ⟨err, (Except.error.inj h).symm, herr.imp_right ?_⟩
        rintro ⟨sv, hversion, hunsupported, hsv, -⟩
        exact .version hevent hscan hversion hunsupported hsv
      | ok _ =>
        simp only [hscan, hvalid, bind, Except.bind] at h
        split at h
        · rename_i e' htimestamp
          obtain rfl := Except.error.inj h
          rcases checkTimestamp_error htimestamp with ⟨err, rfl, herr⟩ | ⟨rfl, hoverflow⟩
          · exact .inl ⟨err, rfl, .inl herr⟩
          · exact .inr ⟨⟨_, rfl⟩, .overflow hevent ⟨hscan, hvalid⟩ hoverflow⟩
        · cases h
  · refine .inl ⟨_, (Except.error.inj h).symm, .inl ?_⟩
    simp [TFError.encodable, utf8Encodable_py]

theorem textArgument_ok {t : PyStr} (h : textOk t = true) : textArgument t = .ok t := by
  rw [textArgument, if_pos (utf8Encodable_of_textOk h), if_pos h]

theorem textArgument_error {t : PyStr} (h : textOk t = false) :
    ∃ e, textArgument t = .error e ∧ ∀ err, e ≠ .reject err := by
  unfold textArgument
  split_ifs with hencodable htext
  · rw [h] at htext
    cases htext
  · exact ⟨_, rfl, by simp⟩
  · exact ⟨_, rfl, by simp⟩

theorem admitDeployment_ok {wireId : PyStr} (hgranted : intake.principal.mayTouch dep.id = true)
    (hrunning : dep.deploymentStatus ≠ .paused) :
    admitDeployment intake.principal wireId (some dep) = .ok dep := by
  simp [admitDeployment, hgranted, hrunning]

/-- A format names a fault by its error or by an invalid pattern. -/
theorem namespaceFault_some {deploymentId : ℕ} {fields : List (IdField × PyStr)} {e : Failure}
    (h : namespaceFault env intake s deploymentId fields = some e) :
    e = .python .reError ∨ ∃ err, e = .reject err ∧ err.encodable = true := by
  obtain ⟨⟨field, value⟩, -, hfault⟩ := List.exists_of_findSome?_eq_some h
  unfold formatFault at hfault
  split at hfault
  · split_ifs at hfault
    split at hfault
    · exact .inl (Option.some.inj hfault).symm
    · cases hfault
    · refine .inr ⟨_, (Option.some.inj hfault).symm, ?_⟩
      have hfield : utf8Encodable field.wire = true := by
        cases field <;> exact utf8Encodable_py _
      simp [TFError.encodable, utf8Encodable_py, utf8Encodable_reprStr env.sound, hfield]
  · cases hfault

theorem Deployed.transact_eq (h : Deployed env intake s sub adm dep) :
    transact env intake s adm =
      match namespaceFault env intake s dep.id (idFields adm.payload) with
      | some e => .error e
      | none =>
        match adm.key env with
        | .error e => .error (.python e)
        | .ok key => store intake s adm dep key := by
  have hadmitted : admitDeployment intake.principal (adm.text (py "deployment_id"))
      (deploymentOf s intake.principal.workspaceId (adm.text (py "deployment_id"))) = .ok dep := by
    rw [h.found]
    exact admitDeployment_ok h.granted h.running
  dsimp only [transact]
  rw [textArgument_ok h.text]
  dsimp only [bind, Except.bind]
  exact hadmitted ▸ rfl

theorem RejectedBy.settle_eq (h : RejectedBy env intake s sub err) :
    settle env intake s sub = refuse env intake sub.event err := by
  unfold settle
  cases h with
  | early h => rw [h]
  | unknownDeployment hexamine htext h =>
    simp only [hexamine, transact, textArgument_ok htext, bind, Except.bind, h, admitDeployment]
  | format hdep h =>
    simp only [hdep.examined, hdep.transact_eq, h]

theorem Keyed.settle_eq (h : Keyed env intake s sub adm dep key) :
    settle env intake s sub = store intake s adm dep key := by
  unfold settle
  simp only [h.examined, h.toDeployed.transact_eq, h.formats, h.keyed]
  unfold store
  split_ifs
  · rfl
  · rfl
  · cases eventValues intake adm dep <;> rfl

/-- What the transaction raises, other than a rejection, the event raises. -/
theorem settle_of_transact_error {e : Failure} (hexamine : examine env intake sub = .ok adm)
    (h : transact env intake s adm = .error e) (hne : ∀ err, e ≠ .reject err) :
    settle env intake s sub = .error e := by
  unfold settle
  simp only [hexamine, h]
  split
  · rename_i err herr
    exact absurd (Except.error.inj herr) (hne err)
  · rfl

/-- An ungranted or paused deployment raises, and is no rejection. -/
theorem ungranted_or_paused
    (hfound : deploymentOf s intake.principal.workspaceId (adm.text (py "deployment_id")) =
      some dep)
    (h : intake.principal.mayTouch dep.id = false ∨ dep.deploymentStatus = .paused) :
    ∃ e, transact env intake s adm = .error e ∧ ∀ err, e ≠ .reject err := by
  cases htext : textOk (adm.text (py "deployment_id")) with
  | false =>
    obtain ⟨e, he, hne⟩ := textArgument_error htext
    exact ⟨e, by simp only [transact, he, bind, Except.bind], hne⟩
  | true =>
    simp only [transact, textArgument_ok htext, bind, Except.bind, hfound, admitDeployment]
    cases hgranted : intake.principal.mayTouch dep.id with
    | false => exact ⟨_, by simp; rfl, by simp⟩
    | true =>
      have hpaused : dep.deploymentStatus = .paused := by simpa [hgranted] using h
      exact ⟨_, by simp [hpaused]; rfl, by simp⟩

theorem settle_cases_deployed (hdep : Deployed env intake s sub adm dep) :
    (∃ err, RejectedBy env intake s sub err ∧
        (err.encodable = true ∨ Unrenderable env intake s sub)) ∨
      (∃ adm dep key, Keyed env intake s sub adm dep key) ∨ Raises env intake s sub := by
  cases hfault : namespaceFault env intake s dep.id (idFields adm.payload) with
  | some e =>
    rcases namespaceFault_some hfault with rfl | ⟨err, rfl, herr⟩
    · exact .inr (.inr (.badRegex hdep hfault))
    · exact .inl ⟨err, .format hdep hfault, .inl herr⟩
  | none =>
    cases hkey : adm.key env with
    | error e => exact .inr (.inr (.noKey hdep hfault hkey))
    | ok key => exact .inr (.inl ⟨adm, dep, key, hdep, hfault, hkey⟩)

/-- An event is rejected, has its key or raises for a reason of the list. -/
theorem settle_cases (env : Env) (intake : Intake) (s : Db) (sub : Submission) :
    (∃ err, RejectedBy env intake s sub err ∧
        (err.encodable = true ∨ Unrenderable env intake s sub)) ∨
      (∃ adm dep key, Keyed env intake s sub adm dep key) ∨ Raises env intake s sub := by
  cases hexamine : examine env intake sub with
  | error e =>
    rcases examine_error (s := s) hexamine with ⟨err, rfl, herr⟩ | ⟨-, hraises⟩
    · exact .inl ⟨err, .early hexamine, herr⟩
    · exact .inr (.inr hraises)
  | ok adm =>
    cases htext : textOk (adm.text (py "deployment_id")) with
    | false =>
      exact .inr (.inr (.deploymentText hexamine htext))
    | true =>
      cases hfound : deploymentOf s intake.principal.workspaceId
          (adm.text (py "deployment_id")) with
      | none =>
        refine .inl ⟨_, .unknownDeployment hexamine htext hfound, .inl ?_⟩
        simp [TFError.encodable, utf8Encodable_py, utf8Encodable_of_textOk htext]
      | some dep =>
        by_cases hgranted : intake.principal.mayTouch dep.id = true
        · by_cases hrunning : dep.deploymentStatus = .paused
          · exact .inr (.inr (.paused hexamine hfound hrunning))
          · have hdep : Deployed env intake s sub adm dep :=
              ⟨hexamine, htext, hfound, hgranted, hrunning⟩
            exact settle_cases_deployed hdep
        · exact .inr (.inr (.ungranted hexamine hfound (eq_false_of_ne_true hgranted)))

end

end TrueFigure.Server
