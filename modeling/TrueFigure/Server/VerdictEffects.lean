import TrueFigure.Server.TestMode

/-!
# A verdict and what it leaves

The tables `_process_one` leaves are determined by the status it answers with.
A test-mode key answers as a production key would, except where the production
key raises: at the insert of the event, or at the quarantine of a rejected one.
-/
namespace TrueFigure.Server

open TrueFigure.Library TrueFigure.Python

variable {env : Env} {intake : Intake} {index : ℕ} {sub : Submission} {st st' : Db × ℕ}
  {r : EventResult} {x : Settled}

/-- What a caller of `_process_one` alone gets. -/
def answered : Except Failure EventResult → Process
  | .ok r => .done (.results [r])
  | .error e => .done (.raised e)

/-- `_process_one` returns this result and leaves these tables. -/
def Returns (env : Env) (intake : Intake) (index : ℕ) (sub : Submission) (st : Db × ℕ)
    (r : EventResult) (st' : Db × ℕ) : Prop :=
  (processOne env intake index sub answered).run st.1 st.2 = (.results [r], st')

theorem returns_iff (hseq : SequenceAhead st) :
    Returns env intake index sub st r st' ↔ ∃ x, settle env intake st.1 sub = .ok x ∧
      r = { x.verdict with index := index } ∧
      st' = x.persisted.apply intake.principal.workspaceId st := by
  unfold Returns
  rw [run_processOne hseq]
  cases hsettle : settle env intake st.1 sub with
  | error e => simp [proceed, answered, Proc.run]
  | ok x =>
    simp only [proceed, answered, Proc.run, Prod.mk.injEq, Outcome.results.injEq,
      List.cons.injEq, and_true, Except.ok.injEq, exists_eq_left']
    constructor
    · rintro ⟨hr, hst⟩
      exact ⟨hr.symm, hst.symm⟩
    · rintro ⟨hr, hst⟩
      exact ⟨hr.symm, hst.symm⟩

def Intake.underProduction (intake : Intake) : Intake :=
  { intake with principal := { intake.principal with mode := .production } }

/-- One row of `events` is added, under the key of the result, with the origin of
the event and its canonical timestamp. -/
def AddsEvent (env : Env) (intake : Intake) (sub : Submission) (st : Db × ℕ) (r : EventResult)
    (st' : Db × ℕ) : Prop :=
  ∃ event key ts occurredAt row, sub.event = .obj event ∧ r.eventKey = some key ∧
    canonicalTs env.rt ((payloadOf event).getD (py "timestamp") .null) = .ok ts ∧
    strptimeMillis ts = some occurredAt ∧
    Dict.getD event (py "origin") .null = .str row.originType.wire ∧
    hasEvent st.1 intake.principal.workspaceId key = false ∧
    st' = (st.1.insert (.event intake.principal.workspaceId key occurredAt) row, st.2)

/-- Nothing changes, and the key of the result was in the table. -/
def FindsEvent (intake : Intake) (st : Db × ℕ) (r : EventResult) (st' : Db × ℕ) : Prop :=
  st' = st ∧ ∃ key occurredAt row, r.eventKey = some key ∧
    st.1.lookup (.event intake.principal.workspaceId key occurredAt) = some row

/-- One row of `rejected_events` is added, with the code and the key of the
result. -/
def AddsRejection (intake : Intake) (st : Db × ℕ) (r : EventResult) (st' : Db × ℕ) : Prop :=
  ∃ err row, r.error = some err ∧ row.errorCode = err.code ∧ row.eventKey = r.eventKey ∧
    row.workspaceId = intake.principal.workspaceId ∧
    st.1.lookup (.rejectedEvent st.2) = none ∧
    st' = (st.1.insert (.rejectedEvent st.2) row, st.2 + 1)

/-- The verdict is accepted exactly when that of a production key is accepted or
duplicate, and rejected with the code of that. -/
structure AgreesWithProduction (env : Env) (intake : Intake) (sub : Submission) (st : Db × ℕ)
    (r : EventResult) : Prop where
  accepted : r.status = .accepted ↔ ∃ index r' st',
    Returns env intake.underProduction index sub st r' st' ∧
      (r'.status = .accepted ∨ r'.status = .duplicate)
  rejected : r.status = .rejected → ∃ index r' st' err err',
    Returns env intake.underProduction index sub st r' st' ∧ r'.status = .rejected ∧
      r.error = some err ∧ r'.error = some err' ∧ err.code = err'.code

/-- The change `_process_one` makes is the one its status stands for. -/
def EffectMatches (env : Env) (intake : Intake) (sub : Submission) (st : Db × ℕ) (r : EventResult)
    (st' : Db × ℕ) : Prop :=
  match intake.principal.mode, r.status with
  | .production, .accepted => AddsEvent env intake sub st r st'
  | .production, .duplicate => FindsEvent intake st r st'
  | .production, .rejected => AddsRejection intake st r st'
  | .test, _ => st' = st ∧ AgreesWithProduction env intake sub st r

/-- The quarantine takes the event: its type has a hash and its deployment fits
a `TEXT` column. -/
structure Quarantinable (env : Env) (event : Json) : Prop where
  hashable : ∃ t, maybeEnum (event.dictOrEmpty.getD (py "event_type") .null) = .ok t
  ref : ∃ ref, deploymentRefArgument env (event.dictOrEmpty.getD (py "deployment_id") .null) =
    .ok ref

/-- A production key can record the event: a new one has a payload `jsonb`
takes, and a rejected one can be quarantined. -/
structure Recordable (env : Env) (intake : Intake) (s : Db) (sub : Submission) : Prop where
  stored : ∀ adm dep key, Keyed env intake s sub adm dep key →
    hasEvent s intake.principal.workspaceId key = true ∨ jsonbOk (.obj adm.payload) = true
  quarantined : ∀ err, RejectedBy env intake s sub err → Quarantinable env sub.event

/-! ### The mode has no part in the checks -/

section Modes

variable {s : Db} {adm : Admitted} {dep : DeploymentRow} {key : PyStr} {err : TFError}

theorem Deployed.underProduction (h : Deployed env intake s sub adm dep) :
    Deployed env intake.underProduction s sub adm dep :=
  ⟨h.examined, h.text, h.found, h.granted, h.running⟩

theorem Keyed.underProduction (h : Keyed env intake s sub adm dep key) :
    Keyed env intake.underProduction s sub adm dep key :=
  ⟨h.toDeployed.underProduction, h.formats, h.keyed⟩

theorem RejectedBy.underProduction (h : RejectedBy env intake s sub err) :
    RejectedBy env intake.underProduction s sub err := by
  cases h with
  | early h => exact .early h
  | unknownDeployment hexamine htext h =>
    exact @RejectedBy.unknownDeployment env intake.underProduction s sub _ hexamine htext h
  | format hdep h => exact .format hdep.underProduction h

theorem Quarantinable.row (h : Quarantinable env sub.event) (key : Option PyStr) :
    ∃ row, quarantineRow env intake sub.event err key = .ok row := by
  obtain ⟨t, ht⟩ := h.hashable
  obtain ⟨ref, href⟩ := h.ref
  unfold quarantineRow
  simp only [ht, href, bind, Except.bind, Except.mapError]
  exact ⟨_, rfl⟩

theorem quarantinable_of_row {event : Json} {key : Option PyStr} {row : RejectedEventRow}
    (h : quarantineRow env intake event err key = .ok row) : Quarantinable env event := by
  obtain ⟨t, ht, h⟩ := bind_eq_ok h
  obtain ⟨ref, href, -⟩ := bind_eq_ok h
  constructor
  · cases htype : maybeEnum (event.dictOrEmpty.getD (py "event_type") .null) with
    | error e => simp [htype, Except.mapError] at ht
    | ok t => exact ⟨t, rfl⟩
  · exact ⟨ref, href⟩

/-- A production key accepts a keyed event or finds it stored, exactly if `jsonb`
takes a new payload. -/
theorem Keyed.production_iff (hkeyed : Keyed env intake s sub adm dep key)
    (hmode : intake.principal.isTest = false) :
    (∃ x, settle env intake s sub = .ok x ∧
        (x.verdict.status = .accepted ∨ x.verdict.status = .duplicate)) ↔
      hasEvent s intake.principal.workspaceId key = true ∨ jsonbOk (.obj adm.payload) = true := by
  rw [hkeyed.settle_eq]
  unfold store
  simp only [hmode, Bool.false_eq_true, if_false]
  cases hdup : hasEvent s intake.principal.workspaceId key with
  | true => exact iff_of_true ⟨_, rfl, .inr rfl⟩ (.inl rfl)
  | false =>
    cases hjsonb : jsonbOk (.obj adm.payload) with
    | true =>
      cases hvalues : eventValues intake adm dep with
      | error e =>
        have hbad := eventValues_error hkeyed.toDeployed.valid hvalues
        rw [hjsonb] at hbad
        cases hbad
      | ok row => exact iff_of_true ⟨_, rfl, .inl rfl⟩ (.inr rfl)
    | false =>
      obtain ⟨e, he⟩ := eventValues_of_not_jsonbOk hjsonb intake dep
      simp [he, liftDb, Except.map]

/-- A production key rejects a refused event, exactly if the quarantine takes
it. -/
theorem RejectedBy.production_iff (hrejected : RejectedBy env intake s sub err)
    (hmode : intake.principal.isTest = false) {key : Option PyStr}
    (hkey : safeKey env sub.event = .ok key) :
    (∃ x, settle env intake s sub = .ok x) ↔ Quarantinable env sub.event := by
  rw [hrejected.settle_eq]
  simp only [refuse, hkey, hmode, Bool.false_eq_true, if_false]
  constructor
  · rintro ⟨x, hx⟩
    cases hrow : quarantineRow env intake sub.event err key with
    | error e => simp [hrow, Except.map] at hx
    | ok row => exact quarantinable_of_row hrow
  · intro hquarantinable
    obtain ⟨row, hrow⟩ := @Quarantinable.row env intake sub err hquarantinable key
    exact ⟨_, by rw [hrow]; rfl⟩

end Modes

/-! ### Effects -/

theorem addsEvent {adm : Admitted} {dep : DeploymentRow} {key : PyStr} {row : EventRow}
    (hkeyed : Keyed env intake st.1 sub adm dep key)
    (hnew : hasEvent st.1 intake.principal.workspaceId key = false)
    (hrow : eventValues intake adm dep = .ok row) :
    AddsEvent env intake sub st { acceptedVerdict key with index := index }
      (st.1.insert (.event intake.principal.workspaceId key adm.occurredAt) row, st.2) := by
  obtain ⟨hevent, hshape, hchecked⟩ := examine_ok hkeyed.examined
  obtain ⟨millis, hmillis, hts⟩ := checkTimestamp_ok hchecked
  have hparsed : strptimeMillis adm.ts = some millis := by
    rw [hts, strptime_render (canonicalMillis_lt hmillis)]
  have horigin : adm.event.getD (py "origin") .null = .str row.originType.wire := by
    obtain ⟨origin, horigin⟩ := valid_origin hshape.schemaErrors_nil
    have htext : adm.text (py "origin") = origin.wire := by
      simp [Admitted.text, envelopeText, Dict.getD, horigin, Json.str?]
    have hwire : OriginType.ofWire? origin.wire = some origin := by cases origin <;> decide
    have hstored : row.originType = origin := by
      unfold eventValues at hrow
      rw [htext, hwire] at hrow
      split at hrow
      · rename_i heq
        split_ifs at hrow
        cases hrow
        exact (Option.some.inj heq).symm
      · cases hrow
    rw [Dict.getD, horigin, hstored]
    rfl
  refine ⟨adm.event, key, adm.ts, millis, row, hevent, rfl, ?_, hparsed, horigin, hnew, ?_⟩
  · show canonicalTs env.rt (adm.payload.getD (py "timestamp") .null) = .ok adm.ts
    rw [canonicalTs, hmillis, hts]
    rfl
  · rw [Admitted.occurredAt, hparsed]
    rfl

theorem effect_production (hseq : SequenceAhead st) (hmode : intake.principal.isTest = false)
    (hx : Exit env intake st.1 sub x) :
    EffectMatches env intake sub st { x.verdict with index := index }
      (x.persisted.apply intake.principal.workspaceId st) := by
  have hproduction : intake.principal.mode = .production := by
    cases h : intake.principal.mode with
    | production => rfl
    | test => simp [Principal.isTest, h] at hmode
  cases hx with
  | echoed _ htest => exact absurd (htest.symm.trans hmode) (by decide)
  | refused _ htest => exact absurd (htest.symm.trans hmode) (by decide)
  | duplicate _ _ hstored =>
    obtain ⟨t, hsome⟩ := hasEvent_iff.1 hstored
    obtain ⟨row, hrow⟩ := Option.isSome_iff_exists.1 hsome
    simp only [EffectMatches, hproduction]
    exact ⟨rfl, _, t, row, rfl, hrow⟩
  | stored hkeyed _ hnew hrow =>
    simp only [EffectMatches, hproduction]
    exact addsEvent hkeyed hnew hrow
  | @quarantined err key row _ _ _ hrow =>
    simp only [EffectMatches, hproduction]
    obtain ⟨_, -, hrow⟩ := bind_eq_ok hrow
    obtain ⟨_, -, hrow⟩ := bind_eq_ok hrow
    cases hrow
    exact ⟨_, _, rfl, rfl, rfl, rfl, hseq _ le_rfl, rfl⟩

/-- What returns under a production key, without its index. -/
theorem exists_returns_iff (hseq : SequenceAhead st) {p : Verdict → Prop} :
    (∃ index r' st', Returns env intake index sub st r' st' ∧ p r'.toVerdict) ↔
      ∃ x, settle env intake st.1 sub = .ok x ∧ p x.verdict := by
  constructor
  · rintro ⟨index, r', st', hreturns, hp⟩
    obtain ⟨x, hx, rfl, -⟩ := (returns_iff hseq).1 hreturns
    exact ⟨x, hx, hp⟩
  · rintro ⟨x, hx, hp⟩
    exact ⟨0, _, _, (returns_iff hseq).2 ⟨x, hx, rfl, rfl⟩, hp⟩

section TestKeys

variable {s : Db} {adm adm' : Admitted} {dep dep' : DeploymentRow} {key key' : PyStr} {err : TFError}

theorem Keyed.unique (h : Keyed env intake s sub adm dep key)
    (h' : Keyed env intake s sub adm' dep' key') : adm' = adm ∧ dep' = dep ∧ key' = key := by
  obtain rfl : adm' = adm := Except.ok.inj (h'.examined.symm.trans h.examined)
  obtain rfl : dep' = dep := Option.some.inj (h'.found.symm.trans h.found)
  obtain rfl : key' = key := Except.ok.inj (h'.keyed.symm.trans h.keyed)
  exact ⟨rfl, rfl, rfl⟩

/-- An event that passes every check is not refused by one. -/
theorem Keyed.not_rejectedBy (hkeyed : Keyed env intake s sub adm dep key)
    (hmode : intake.principal.isTest = true) : ¬ RejectedBy env intake s sub err := by
  intro hrejected
  have hstore : store intake s adm dep key = .ok ⟨echoedVerdict key adm, .nothing⟩ := by
    rw [store, if_pos hmode]
  have hrefuse := hrejected.settle_eq.symm.trans (hkeyed.settle_eq.trans hstore)
  obtain ⟨_, -, hverdict, -⟩ := refuse_ok hrefuse
  cases congrArg Verdict.status hverdict

/-- What a test-mode key needs of an accepted event is that a production key
stores it or finds it. -/
theorem agrees_echoed (hseq : SequenceAhead st) (hmode : intake.principal.isTest = true)
    (hkeyed : Keyed env intake st.1 sub adm dep key) :
    AgreesWithProduction env intake sub st { echoedVerdict key adm with index := index } ↔
      Recordable env intake st.1 sub := by
  have hstores := hkeyed.underProduction.production_iff rfl
  have hreturns := @exists_returns_iff env intake.underProduction sub st hseq
    fun v => v.status = .accepted ∨ v.status = .duplicate
  constructor
  · intro hagrees
    constructor
    · intro adm' dep' key' hkeyed'
      obtain ⟨rfl, rfl, rfl⟩ := hkeyed.unique hkeyed'
      exact hstores.1 (hreturns.1 (hagrees.accepted.1 rfl))
    · intro err hrejected
      exact absurd hrejected (hkeyed.not_rejectedBy hmode)
  · intro hrecordable
    constructor
    · exact iff_of_true rfl (hreturns.2 (hstores.2 (hrecordable.stored adm dep key hkeyed)))
    · exact nofun

/-- What a test-mode key needs of a rejected event is that the quarantine takes
it. -/
theorem agrees_refused (hseq : SequenceAhead st) (hmode : intake.principal.isTest = true)
    (hrejected : RejectedBy env intake st.1 sub err) {key : Option PyStr}
    (hkey : safeKey env sub.event = .ok key) :
    AgreesWithProduction env intake sub st
        { rejectedVerdict intake sub.event err key with index := index } ↔
      Recordable env intake st.1 sub := by
  have hrefuses := hrejected.underProduction.production_iff rfl hkey
  have hverdict : ∀ y, settle env intake.underProduction st.1 sub = .ok y →
      y.verdict.status = .rejected ∧ y.verdict.error = some err.toErrorObject := by
    intro y hy
    obtain ⟨_, -, hy, -⟩ := refuse_ok (hrejected.underProduction.settle_eq.symm.trans hy)
    rw [hy]
    exact ⟨rfl, rfl⟩
  constructor
  · intro hagrees
    constructor
    · intro adm dep key hkeyed
      exact absurd hrejected (hkeyed.not_rejectedBy hmode)
    · intro _ _
      obtain ⟨index, r', st', _, _, hreturns, -⟩ := hagrees.rejected rfl
      obtain ⟨y, hy, -⟩ := (returns_iff hseq).1 hreturns
      exact hrefuses.1 ⟨y, hy⟩
  · intro hrecordable
    obtain ⟨y, hy⟩ := hrefuses.2 (hrecordable.quarantined err hrejected)
    obtain ⟨hstatus, herror⟩ := hverdict y hy
    constructor
    · refine iff_of_false (by simp [rejectedVerdict]) ?_
      rintro ⟨_, r', st', hreturns, hr⟩
      obtain ⟨y', hy', rfl, -⟩ := (returns_iff hseq).1 hreturns
      rw [(hverdict y' hy').1] at hr
      simp at hr
    · intro _
      exact ⟨0, _, _, _, _, (returns_iff hseq).2 ⟨y, hy, rfl, rfl⟩, hstatus, rfl, herror, rfl⟩

end TestKeys

/-- A test-mode key of workspace 1. -/
def testIntake : Intake :=
  { sampleIntake with principal := { sampleIntake.principal with mode := .test } }

theorem returns_of_statuses {status : EventStatus}
    (h : ((processOne env intake index sub answered).run st.1 st.2).1.statuses = some [status]) :
    ∃ r st', Returns env intake index sub st r st' ∧ r.status = status := by
  unfold Returns
  cases hrun : (processOne env intake index sub answered).run st.1 st.2 with
  | mk outcome st' =>
    rw [hrun] at h
    cases outcome with
    | results rs =>
      obtain ⟨r, rfl, hr⟩ := List.map_eq_singleton_iff.1 (Option.some.inj h)
      exact ⟨r, st', rfl, hr⟩
    | _ => cases h

/-- A metering event whose quantity is not a number. -/
def nanEvent : Dict :=
  [(py "schema_version", .str (py "1.0")), (py "deployment_id", .str (py "d")),
    (py "event_type", .str (py "cost_meter")), (py "origin", .str (py "vendor_product")),
    (py "payload", .obj [(py "meter", .str (py "api_calls")), (py "quantity", .num .nan),
      (py "timestamp", .str (py "2026-01-02T03:04:05.678Z"))])]

end TrueFigure.Server
