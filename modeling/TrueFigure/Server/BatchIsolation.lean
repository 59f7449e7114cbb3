import TrueFigure.Server.DedupIdentity
import TrueFigure.Server.Rendering

/-!
# Isolation of a batch

An event comes to no result, or to one that cannot be rendered, exactly where it
is hazardous. A batch therefore completes, with one result an event and as if
its rejected events were not there, exactly when no event is hazardous at the
rows its predecessors left.
-/
namespace TrueFigure.Server

open TrueFigure.Library TrueFigure.Python

variable {env : Env} {intake : Intake} {s : Db} {sub : Submission} {adm : Admitted}
  {dep : DeploymentRow} {key : PyStr} {err : TFError} {x : Settled}

/-! ### Rejected events -/

theorem safeKey_encodable {event : Json} {key : Option PyStr} (h : safeKey env event = .ok key) :
    key.all utf8Encodable = true := by
  unfold safeKey at h
  split at h
  · extract_lets text payload scope at h
    split at h
    · rename_i key' hkey
      cases h
      obtain ⟨fields, -, hdigest⟩ := bind_eq_ok hkey
      dsimp only at hdigest
      split_ifs at hdigest
      rw [Option.all_some, ← Except.ok.inj hdigest]
      exact env.digest_encodable _
    · cases h
      rfl
    · split_ifs at h
      cases h
      rfl
  · cases h
    rfl

theorem quarantineRow_error {event : Json} {key : Option PyStr} {e : Failure}
    (h : quarantineRow env intake event err key = .error e) :
    (∃ e, maybeEnum (event.dictOrEmpty.getD (py "event_type") .null) = .error e) ∨
      ∃ e, deploymentRefArgument env (event.dictOrEmpty.getD (py "deployment_id") .null) =
        .error e := by
  unfold quarantineRow at h
  extract_lets ev at h
  cases htype : maybeEnum (ev.getD (py "event_type") .null) with
  | error e => exact .inl ⟨e, rfl⟩
  | ok eventType =>
    cases href : deploymentRefArgument env (ev.getD (py "deployment_id") .null) with
    | error e => exact .inr ⟨e, rfl⟩
    | ok ref => simp [htype, href, bind, Except.bind, Except.mapError] at h

theorem quarantineRow_of_error {event : Json} {key : Option PyStr}
    (h : (∃ e, maybeEnum (event.dictOrEmpty.getD (py "event_type") .null) = .error e) ∨
      ∃ e, deploymentRefArgument env (event.dictOrEmpty.getD (py "deployment_id") .null) =
        .error e) :
    ∃ e, quarantineRow env intake event err key = .error e := by
  unfold quarantineRow
  extract_lets ev
  rcases h with ⟨e, he⟩ | ⟨e, he⟩
  · exact ⟨_, by simp only [ev, he, bind, Except.bind, Except.mapError]; rfl⟩
  · cases htype : maybeEnum (ev.getD (py "event_type") .null) with
    | error e' => exact ⟨_, by simp only [bind, Except.bind, Except.mapError]; rfl⟩
    | ok eventType => exact ⟨e, by simp only [ev, he, bind, Except.bind, Except.mapError]⟩

theorem RejectedBy.raises_of_error (h : RejectedBy env intake s sub err) {e : Failure}
    (he : refuse env intake sub.event err = .error e) : Raises env intake s sub := by
  unfold refuse at he
  split at he
  · rename_i hkey
    exact .safeKey h hkey
  · rename_i key hkey
    split_ifs at he with htest
    cases hrow : quarantineRow env intake sub.event err key with
    | error e' =>
      rcases quarantineRow_error hrow with ⟨e, htype⟩ | ⟨e, href⟩
      · exact .unhashableType h (eq_false_of_ne_true htest) htype
      · exact .deploymentRef h (eq_false_of_ne_true htest) href
    | ok row => simp [hrow, Except.map] at he

theorem refuse_ok {event : Json} (h : refuse env intake event err = .ok x) :
    ∃ key, safeKey env event = .ok key ∧ x.verdict = rejectedVerdict intake event err key ∧
      (x.persisted = .nothing ∨ ∃ row, x.persisted = .quarantine row) := by
  unfold refuse at h
  split at h
  · cases h
  · rename_i key hkey
    split_ifs at h
    · cases h
      exact ⟨key, hkey, rfl, .inl rfl⟩
    · cases hrow : quarantineRow env intake event err key with
      | error e => simp [hrow, Except.map] at h
      | ok row =>
        simp only [hrow, Except.map, Except.ok.injEq] at h
        subst h
        exact ⟨key, hkey, rfl, .inr ⟨row, rfl⟩⟩

theorem rejectedVerdict_echo {event : Json} {key : Option PyStr} {e : Echo}
    (h : (rejectedVerdict intake event err key).echo = some e) :
    intake.principal.isTest = true ∧ ∃ payload,
      event.dictOrEmpty.getD (py "payload") .null = .obj payload ∧
      e = echoOf (event.dictOrEmpty.getD (py "event_type") (.str [])) payload false
        (some err.message) := by
  simp only [rejectedVerdict] at h
  split at h
  · rename_i payload hpayload
    split_ifs at h with htest
    exact ⟨htest, payload, hpayload, (Option.some.inj h).symm⟩
  · cases h

theorem RejectedBy.renders (h : RejectedBy env intake s sub err) (herr : err.encodable = true)
    {key : Option PyStr} (hkey : key.all utf8Encodable = true) :
    (rejectedVerdict intake sub.event err key).renders = true ∨ Unrenderable env intake s sub := by
  have htexts : (rejectedVerdict intake sub.event err key).texts.all utf8Encodable = true := by
    simp only [TFError.encodable, Bool.and_eq_true] at herr
    cases key <;> cases hpath : err.fieldPath <;> cases hdetail : err.detail <;>
      simp_all [Verdict.texts, rejectedVerdict, TFError.toErrorObject]
  cases hecho : (rejectedVerdict intake sub.event err key).echo with
  | none => exact .inl (by simp [Verdict.renders, Verdict.compliant, Verdict.encodable, hecho, htexts])
  | some e =>
    obtain ⟨htest, payload, hpayload, rfl⟩ := rejectedVerdict_echo hecho
    cases hrenders : (echoOf (sub.event.dictOrEmpty.getD (py "event_type") (.str [])) payload
        false none).renders with
    | false => exact .inr (.echo h htest hpayload hrenders)
    | true =>
      have hsame : (echoOf (sub.event.dictOrEmpty.getD (py "event_type") (.str [])) payload
        false (some err.message)).renders = true := hrenders
      simp only [Echo.renders, Bool.and_eq_true] at hsame
      exact .inl (by
        simp [Verdict.renders, Verdict.compliant, Verdict.encodable, hecho, htexts, hsame])

theorem eventValues_error {e : DbError} (hvalid : schemaErrors adm.event = [])
    (h : eventValues intake adm dep = .error e) : jsonbOk (.obj adm.payload) = false := by
  obtain ⟨eventType, htype⟩ := valid_eventType hvalid
  obtain ⟨origin, horigin⟩ := valid_origin hvalid
  have htext : adm.text (py "event_type") = eventType.wire := by
    simp [Admitted.text, envelopeText, Dict.getD, htype, Json.str?]
  have htext' : adm.text (py "origin") = origin.wire := by
    simp [Admitted.text, envelopeText, Dict.getD, horigin, Json.str?]
  have hwire : EventType.ofWire? eventType.wire = some eventType := by
    cases eventType <;> decide
  have hwire' : OriginType.ofWire? origin.wire = some origin := by
    cases origin <;> decide
  unfold eventValues at h
  simp only [htext, htext', hwire, hwire'] at h
  split_ifs at h with hok
  exact eq_false_of_ne_true hok

theorem eventValues_of_not_jsonbOk (h : jsonbOk (.obj adm.payload) = false) (intake : Intake)
    (dep : DeploymentRow) :
    ∃ e, eventValues intake adm dep = .error e := by
  unfold eventValues
  split
  · exact ⟨_, if_neg (by simp [h])⟩
  · exact ⟨_, rfl⟩

theorem validateStructure_unsupported (env : Env) {event : Dict} {sv : PyStr}
    (hversion : event.get? (py "schema_version") = some (.str sv))
    (hunsupported : schemaVersionOk sv = false) :
    ∃ err, validateStructure env event = .error (.reject err) ∧
      err.detail = some (py "unsupported schema_version " ++ sv) := by
  refine ⟨⟨.evt001, some (py "schema_version"), some (py "unsupported schema_version " ++ sv)⟩,
    ?_, rfl⟩
  simp [validateStructure, Dict.getD, hversion, Json.str?, Option.filter, hunsupported]

theorem refuse_of_safeKey {event : Json} {e : PyErr} (h : safeKey env event = .error e) :
    refuse env intake event err = .error (.python e) := by
  simp only [refuse, h]

/-- An event whose row the quarantine does not take raises, if not for its key. -/
theorem refuse_of_quarantine {event : Json} (htest : intake.principal.isTest = false)
    (h : (∃ e, maybeEnum (event.dictOrEmpty.getD (py "event_type") .null) = .error e) ∨
      ∃ e, deploymentRefArgument env (event.dictOrEmpty.getD (py "deployment_id") .null) =
        .error e) :
    ∃ e, refuse env intake event err = .error e := by
  cases hkey : safeKey env event with
  | error e => exact ⟨_, refuse_of_safeKey hkey⟩
  | ok key =>
    obtain ⟨e, he⟩ : ∃ e, quarantineRow env intake event err key = .error e :=
      quarantineRow_of_error h
    refine ⟨e, ?_⟩
    simp only [refuse, hkey, htest, Bool.false_eq_true, if_false, he, Except.map]

/-- An event raises exactly for a reason of the list. -/
theorem settle_error_iff :
    (∃ e, settle env intake s sub = .error e) ↔ Raises env intake s sub := by
  constructor
  · rintro ⟨e, he⟩
    rcases settle_cases env intake s sub with ⟨err, hrejected, -⟩ | ⟨adm, dep, key, hkeyed⟩ | h
    · exact hrejected.raises_of_error (hrejected.settle_eq.symm.trans he)
    · rw [hkeyed.settle_eq] at he
      unfold store at he
      split_ifs at he with htest hdup
      cases hvalues : eventValues intake adm dep with
      | error e' =>
        exact .unstorable hkeyed (eq_false_of_ne_true htest) (eq_false_of_ne_true hdup)
          (eventValues_error hkeyed.toDeployed.valid hvalues)
      | ok row => simp [hvalues, liftDb, Except.map] at he
    · exact h
  · intro h
    cases h with
    | overflow hevent hshape hoverflow =>
      have hexamine : examine env intake sub = .error (.python .overflowError) := by
        unfold examine
        rw [hevent]
        simp only [hshape.scanned, hshape.valid, bind, Except.bind]
        rw [show (Dict.getD _ (py "payload") .null).dictOrEmpty = payloadOf _ from rfl,
          checkTimestamp_of_overflows hoverflow]
      exact ⟨_, by unfold settle; rw [hexamine]⟩
    | @deploymentText adm hexamine htext =>
      obtain ⟨e, he, hne⟩ := textArgument_error htext
      have htransact : transact env intake s adm = .error e := by
        simp only [transact, he, bind, Except.bind]
      exact ⟨e, settle_of_transact_error hexamine htransact hne⟩
    | ungranted hexamine hfound hrefused =>
      obtain ⟨e, he, hne⟩ := ungranted_or_paused hfound (.inl hrefused)
      exact ⟨e, settle_of_transact_error hexamine he hne⟩
    | paused hexamine hfound hpaused =>
      obtain ⟨e, he, hne⟩ := ungranted_or_paused hfound (.inr hpaused)
      exact ⟨e, settle_of_transact_error hexamine he hne⟩
    | badRegex hdep hfault =>
      have htransact := hdep.transact_eq
      simp only [hfault] at htransact
      exact ⟨_, settle_of_transact_error hdep.examined htransact (by simp)⟩
    | noKey hdep hformats hkey =>
      have htransact := hdep.transact_eq
      simp only [hformats, hkey] at htransact
      exact ⟨_, settle_of_transact_error hdep.examined htransact (by simp)⟩
    | @unstorable adm dep key hkeyed hmode hnew hjsonb =>
      obtain ⟨e, he⟩ := eventValues_of_not_jsonbOk hjsonb intake dep
      have hstore : store intake s adm dep key = .error (.database e) := by
        simp only [store, hmode, hnew, Bool.false_eq_true, if_false, he, liftDb, Except.map]
      exact ⟨_, hkeyed.settle_eq.trans hstore⟩
    | safeKey hrejected hkey =>
      exact ⟨_, hrejected.settle_eq.trans (refuse_of_safeKey hkey)⟩
    | unhashableType hrejected hmode htype =>
      obtain ⟨e, he⟩ := refuse_of_quarantine hmode (.inl ⟨_, htype⟩)
      exact ⟨e, hrejected.settle_eq.trans he⟩
    | deploymentRef hrejected hmode href =>
      obtain ⟨e, he⟩ := refuse_of_quarantine hmode (.inr ⟨_, href⟩)
      exact ⟨e, hrejected.settle_eq.trans he⟩

/-- The exits of `_process_one` that return, with what each answers and leaves. -/
inductive Exit (env : Env) (intake : Intake) (s : Db) (sub : Submission) : Settled → Prop
  | echoed {adm : Admitted} {dep : DeploymentRow} {key : PyStr}
      (hkeyed : Keyed env intake s sub adm dep key) (hmode : intake.principal.isTest = true) :
      Exit env intake s sub ⟨echoedVerdict key adm, .nothing⟩
  | duplicate {adm : Admitted} {dep : DeploymentRow} {key : PyStr}
      (hkeyed : Keyed env intake s sub adm dep key) (hmode : intake.principal.isTest = false)
      (hstored : hasEvent s intake.principal.workspaceId key = true) :
      Exit env intake s sub ⟨duplicateVerdict key, .nothing⟩
  | stored {adm : Admitted} {dep : DeploymentRow} {key : PyStr} {row : EventRow}
      (hkeyed : Keyed env intake s sub adm dep key) (hmode : intake.principal.isTest = false)
      (hnew : hasEvent s intake.principal.workspaceId key = false)
      (hrow : eventValues intake adm dep = .ok row) :
      Exit env intake s sub ⟨acceptedVerdict key, .event key adm.occurredAt row⟩
  | refused {err : TFError} {key : Option PyStr} (hrejected : RejectedBy env intake s sub err)
      (hmode : intake.principal.isTest = true) (hkey : safeKey env sub.event = .ok key) :
      Exit env intake s sub ⟨rejectedVerdict intake sub.event err key, .nothing⟩
  | quarantined {err : TFError} {key : Option PyStr} {row : RejectedEventRow}
      (hrejected : RejectedBy env intake s sub err) (hmode : intake.principal.isTest = false)
      (hkey : safeKey env sub.event = .ok key)
      (hrow : quarantineRow env intake sub.event err key = .ok row) :
      Exit env intake s sub ⟨rejectedVerdict intake sub.event err key, .quarantine row⟩

theorem RejectedBy.exit (hrejected : RejectedBy env intake s sub err)
    (h : refuse env intake sub.event err = .ok x) : Exit env intake s sub x := by
  unfold refuse at h
  split at h
  · cases h
  · rename_i key hkey
    split_ifs at h with htest
    · cases h
      exact .refused hrejected htest hkey
    · cases hrow : quarantineRow env intake sub.event err key with
      | error e => simp [hrow, Except.map] at h
      | ok row =>
        simp only [hrow, Except.map, Except.ok.injEq] at h
        rw [← h]
        exact .quarantined hrejected (eq_false_of_ne_true htest) hkey hrow

theorem Keyed.exit (hkeyed : Keyed env intake s sub adm dep key)
    (h : store intake s adm dep key = .ok x) : Exit env intake s sub x := by
  unfold store at h
  split_ifs at h with htest hdup
  · cases h
    exact .echoed hkeyed htest
  · cases h
    exact .duplicate hkeyed (eq_false_of_ne_true htest) hdup
  · cases hvalues : eventValues intake adm dep with
    | error e => simp [hvalues, liftDb, Except.map] at h
    | ok row =>
      simp only [hvalues, liftDb, Except.map, Except.ok.injEq] at h
      rw [← h]
      exact .stored hkeyed (eq_false_of_ne_true htest) (eq_false_of_ne_true hdup) hvalues

/-- An event that raises nothing leaves through one of the exits. -/
theorem settle_exit (h : settle env intake s sub = .ok x) : Exit env intake s sub x := by
  rcases settle_cases env intake s sub with
    ⟨err, hrejected, -⟩ | ⟨adm, dep, key, hkeyed⟩ | hraises
  · exact hrejected.exit (hrejected.settle_eq.symm.trans h)
  · exact hkeyed.exit (hkeyed.settle_eq.symm.trans h)
  · obtain ⟨e, he⟩ := settle_error_iff.2 hraises
    cases he.symm.trans h

/-- A result renders unless the event is on the second list. -/
theorem renders_or_unrenderable (hx : settle env intake s sub = .ok x) :
    x.verdict.renders = true ∨ Unrenderable env intake s sub := by
  rcases settle_cases env intake s sub with ⟨err, hrejected, herr⟩ | ⟨adm, dep, key, hkeyed⟩ | h
  · obtain ⟨key, hkey, hverdict, -⟩ := refuse_ok (hrejected.settle_eq.symm.trans hx)
    rw [hverdict]
    rcases herr with herr | hversion
    · exact hrejected.renders herr (safeKey_encodable hkey)
    · exact .inr hversion
  · exact .inl (hkeyed.store_renders (hkeyed.settle_eq.symm.trans hx))
  · obtain ⟨e, he⟩ := settle_error_iff.2 h
    cases he.symm.trans hx

/-- The result of an event on the second list does not render. -/
theorem Unrenderable.not_renders (h : Unrenderable env intake s sub)
    (hx : settle env intake s sub = .ok x) : x.verdict.renders = false := by
  cases h with
  | version hevent hscan hversion hunsupported hsv =>
    obtain ⟨err, herr, hdetail⟩ := validateStructure_unsupported env hversion hunsupported
    have hrejected : RejectedBy env intake s sub err := by
      apply RejectedBy.early
      unfold examine
      rw [hevent]
      simp only [hscan, herr, bind, Except.bind]
    obtain ⟨key, -, hverdict, -⟩ := refuse_ok (hrejected.settle_eq.symm.trans hx)
    rw [hverdict]
    simp [Verdict.renders, Verdict.encodable, Verdict.texts, rejectedVerdict,
      TFError.toErrorObject, hdetail, hsv]
  | @echo err payload hrejected hmode hpayload hecho =>
    obtain ⟨key, -, hverdict, -⟩ := refuse_ok (hrejected.settle_eq.symm.trans hx)
    rw [hverdict]
    have hsame : (echoOf (sub.event.dictOrEmpty.getD (py "event_type") (.str [])) payload false
        (some err.message)).renders = false := hecho
    simp only [Echo.renders, Bool.and_eq_false_iff] at hsame
    rcases hsame with h | h <;>
      simp [Verdict.renders, Verdict.compliant, Verdict.encodable, rejectedVerdict, hpayload,
        hmode, h]

/-- The event comes to a result that renders. -/
def Comes (env : Env) (intake : Intake) (s : Db) (sub : Submission) (x : Settled) : Prop :=
  settle env intake s sub = .ok x ∧ x.verdict.renders = true

/-- Every event comes to a result that renders or fails its request. -/
theorem comes_or_hazard (env : Env) (intake : Intake) (s : Db) (sub : Submission) :
    (∃ x, Comes env intake s sub x) ∨ Hazard env intake s sub := by
  cases hsettle : settle env intake s sub with
  | error e => exact .inr (.inl (settle_error_iff.1 ⟨e, hsettle⟩))
  | ok x =>
    rcases renders_or_unrenderable hsettle with hrenders | h
    · exact .inl ⟨x, hsettle, hrenders⟩
    · exact .inr (.inr h)

theorem Hazard.not_comes (h : Hazard env intake s sub) : ¬ Comes env intake s sub x := by
  rintro ⟨hsettle, hrenders⟩
  rcases h with h | h
  · obtain ⟨e, he⟩ := settle_error_iff.2 h
    cases he.symm.trans hsettle
  · rw [h.not_renders hsettle] at hrenders
    cases hrenders

/-! ### Batches -/

theorem settle_rejected (h : settle env intake s sub = .ok x)
    (hx : x.verdict.status = .rejected) :
    x.persisted = .nothing ∨ ∃ row, x.persisted = .quarantine row := by
  cases settle_exit h with
  | echoed => cases hx
  | duplicate => cases hx
  | stored => cases hx
  | refused => exact .inl rfl
  | quarantined => exact .inr ⟨_, rfl⟩

/-- Some rejected events are taken out of a batch. -/
inductive Thins : List (Submission × Settled) → List (Submission × Settled) → Prop
  | nil : Thins [] []
  | keep (x : Submission × Settled) {l kept} (h : Thins l kept) : Thins (x :: l) (x :: kept)
  | drop {x : Submission × Settled} {l kept} (hx : x.2.verdict.status = .rejected)
      (h : Thins l kept) : Thins (x :: l) kept

theorem Thins.sublist {l kept : List (Submission × Settled)} (h : Thins l kept) :
    kept.Sublist l := by
  induction h with
  | nil => exact .slnil
  | keep x _ ih => exact ih.cons_cons x
  | drop _ _ ih => exact ih.cons _

theorem settleAll_length {st : Db × ℕ} {subs : List Submission}
    (h : (settleAll env intake st subs).2 = none) :
    (settleAll env intake st subs).1.length = subs.length := by
  induction subs generalizing st with
  | nil => rfl
  | cons sub subs ih =>
    unfold settleAll at h ⊢
    cases hsettle : settle env intake st.1 sub with
    | error e => simp [hsettle] at h
    | ok x =>
      simp only [hsettle] at h
      simp only [List.length_cons, ih h]

theorem settleAll_thins {st st' : Db × ℕ} (hsame : SameData st.1 st'.1)
    {subs : List Submission} {xs : List Settled} (h : settleAll env intake st subs = (xs, none))
    {kept : List (Submission × Settled)} (hkept : Thins (subs.zip xs) kept) :
    settleAll env intake st' (kept.map Prod.fst) = (kept.map Prod.snd, none) := by
  induction subs generalizing st st' xs kept with
  | nil =>
    cases hkept
    rfl
  | cons sub subs ih =>
    unfold settleAll at h
    cases hsettle : settle env intake st.1 sub with
    | error e => simp [hsettle] at h
    | ok x =>
      simp only [hsettle, Prod.mk.injEq] at h
      obtain ⟨rfl, hrest⟩ := h
      have hall : settleAll env intake (x.persisted.apply intake.principal.workspaceId st) subs =
          (_, none) := Prod.ext rfl hrest
      cases hkept with
      | keep _ hkept =>
        have hsettle' : settle env intake _ sub = settle env intake _ sub := hsame.settle sub
        rw [hsettle] at hsettle'
        have hnext := ih (hsame.apply intake.principal.workspaceId x.persisted) hall hkept
        simp only [List.map_cons, settleAll, ← hsettle', hnext]
      | drop hx hkept =>
        refine ih ?_ hall hkept
        intro k hk
        rcases settle_rejected hsettle hx with hnothing | ⟨row, hrow⟩
        · rw [hnothing]
          exact hsame k hk
        · rw [hrow, Persisted.apply, AList.lookup_insert_ne (hk _)]
          exact hsame k hk

/-- The rows an event finds once these events of its batch are done. -/
def rowsAfter (env : Env) (intake : Intake) (st : Db × ℕ) (done : List Submission) : Db :=
  ((ingestEvents env intake done).run st.1 st.2).2.1

/-- No event is hazardous at the rows its predecessors left. -/
def Smooth (env : Env) (intake : Intake) (st : Db × ℕ) (events : List Submission) : Prop :=
  ∀ done sub rest, events = done ++ sub :: rest →
    ¬ Hazard env intake (rowsAfter env intake st done) sub

/-- The request completes with result `i` for event `i`, and taking out rejected
events changes neither what the others come to nor what they leave. -/
def Isolated (env : Env) (intake : Intake) (st : Db × ℕ) (events : List Submission) : Prop :=
  ∃ xs : List Settled, xs.length = events.length ∧
    (ingestEvents env intake events).run st.1 st.2 =
      (.results (resultsFrom 0 xs), persistAll intake.principal.workspaceId xs st) ∧
    ∀ kept, Thins (events.zip xs) kept →
      (ingestEvents env intake (kept.map Prod.fst)).run st.1 st.2 =
        (.results (resultsFrom 0 (kept.map Prod.snd)),
          persistAll intake.principal.workspaceId (kept.map Prod.snd) st)

theorem renderError_eq_none {start : ℕ} {xs : List Settled} :
    renderError (resultsFrom start xs) = none ↔ ∀ x ∈ xs, x.verdict.renders = true := by
  have hall : ∀ p : Verdict → Bool, ((resultsFrom start xs).all fun r => p r.toVerdict) =
      xs.all fun x => p x.verdict := by
    intro p
    induction xs generalizing start with
    | nil => rfl
    | cons x xs ih => simp only [resultsFrom, List.all_cons, ih]
  simp only [renderError, hall, Verdict.renders, Bool.and_eq_true]
  constructor
  · intro h x hx
    split_ifs at h with hcompliant hencodable
    simp only [Bool.not_eq_true', Bool.not_eq_false, List.all_eq_true] at hcompliant hencodable
    exact ⟨hcompliant x hx, hencodable x hx⟩
  · intro h
    rw [if_neg, if_neg]
    · simpa using fun x hx => (h x hx).2
    · simpa using fun x hx => (h x hx).1

theorem requestOutcome_results {results rs : List EventResult} {raised : Option Failure}
    (h : requestOutcome results raised = .results rs) :
    raised = none ∧ renderError results = none := by
  unfold requestOutcome at h
  split at h
  · cases h
  · split at h
    · cases h
    · rename_i hnone
      exact ⟨rfl, hnone⟩

/-- Every event of a batch comes to a result that renders exactly when none is
hazardous at the rows its predecessors left. -/
theorem settleAll_smooth (st : Db × ℕ) (events : List Submission) :
    ((settleAll env intake st events).2 = none ∧
        ∀ x ∈ (settleAll env intake st events).1, x.verdict.renders = true) ↔
      ∀ done sub rest, events = done ++ sub :: rest → ¬ Hazard env intake
        (persistAll intake.principal.workspaceId (settleAll env intake st done).1 st).1 sub := by
  induction events generalizing st with
  | nil => simp [settleAll]
  | cons sub subs ih =>
    constructor
    · rintro ⟨hnone, hrenders⟩ done sub' rest hsplit
      cases hsettle : settle env intake st.1 sub with
      | error e => simp [settleAll, hsettle] at hnone
      | ok x =>
        simp only [settleAll, hsettle, List.forall_mem_cons] at hnone hrenders
        cases done with
        | nil =>
          obtain ⟨rfl, rfl⟩ := List.cons.inj hsplit
          exact fun hhazard => hhazard.not_comes ⟨hsettle, hrenders.1⟩
        | cons d done =>
          obtain ⟨rfl, rfl⟩ := List.cons.inj hsplit
          simp only [settleAll, hsettle]
          exact (ih _).1 ⟨hnone, hrenders.2⟩ done sub' rest rfl
    · intro h
      rcases comes_or_hazard env intake st.1 sub with ⟨x, hsettle, hx⟩ | hhazard
      · have hrest := (ih (x.persisted.apply intake.principal.workspaceId st)).2 fun done sub' rest
            hsplit => by
          have := h (sub :: done) sub' rest (by rw [hsplit]; rfl)
          simp only [settleAll, hsettle] at this
          exact this
        simp only [settleAll, hsettle, List.forall_mem_cons]
        exact ⟨hrest.1, hx, hrest.2⟩
      · exact absurd hhazard (h [] sub subs rfl)

theorem smooth_iff {st : Db × ℕ} (hseq : SequenceAhead st) {events : List Submission}
    (hlen : events.length ≤ maxBatch) : Smooth env intake st events ↔
      (settleAll env intake st events).2 = none ∧
        ∀ x ∈ (settleAll env intake st events).1, x.verdict.renders = true := by
  rw [settleAll_smooth]
  unfold Smooth
  constructor
  · intro h done sub rest hsplit
    have hdone : done.length ≤ maxBatch := by simp [hsplit] at hlen; omega
    simpa only [rowsAfter, run_ingestEvents hseq hdone] using h done sub rest hsplit
  · intro h done sub rest hsplit
    have hdone : done.length ≤ maxBatch := by simp [hsplit] at hlen; omega
    simpa only [rowsAfter, run_ingestEvents hseq hdone] using h done sub rest hsplit

theorem smooth_of_results {st : Db × ℕ} (hseq : SequenceAhead st) {events : List Submission}
    (hlen : events.length ≤ maxBatch) {rs : List EventResult}
    (h : ((ingestEvents env intake events).run st.1 st.2).1 = .results rs) :
    Smooth env intake st events := by
  rw [run_ingestEvents hseq hlen] at h
  obtain ⟨hnone, hrender⟩ := requestOutcome_results h
  exact (smooth_iff hseq hlen).2 ⟨hnone, renderError_eq_none.1 hrender⟩

theorem Smooth.isolated {st : Db × ℕ} (hseq : SequenceAhead st) {events : List Submission}
    (hlen : events.length ≤ maxBatch) (h : Smooth env intake st events) :
    Isolated env intake st events := by
  obtain ⟨hnone, hrenders⟩ := (smooth_iff hseq hlen).1 h
  have hall : settleAll env intake st events = ((settleAll env intake st events).1, none) :=
    Prod.ext rfl hnone
  refine ⟨(settleAll env intake st events).1, settleAll_length hnone, ?_, fun kept hkept => ?_⟩
  · rw [run_ingestEvents hseq hlen]
    simp only [hnone, requestOutcome, renderError_eq_none.2 hrenders]
  · have hkeptAll := settleAll_thins (SameData.refl st.1) hall hkept
    have hkeptLen := hkept.sublist.length_le
    rw [run_ingestEvents hseq (by simp at hkeptLen ⊢; omega)]
    have hkeptRenders : ∀ x ∈ kept.map Prod.snd, x.verdict.renders = true := by
      intro x hx
      obtain ⟨y, hy, rfl⟩ := List.mem_map.1 hx
      exact hrenders _ (List.of_mem_zip (hkept.sublist.subset hy)).2
    simp only [hkeptAll, requestOutcome, renderError_eq_none.2 hkeptRenders]

/-! ### A small workspace -/

/-- The outside of small runs: ASCII texts, the sample digests, no declared
pattern and the message of a missing property. -/
def sampleEnv : Env where
  rt := asciiRuntime
  digest := sampleDigest
  reSearch _ _ := some true
  schemaMessage e :=
    match e.violation with
    | .required key => reprStr asciiRuntime key ++ py " is a required property"
    | _ => []
  adaptOther _ := .error .invalidType
  sound := asciiRuntime_sound
  digest_encodable := by
    intro raw
    unfold sampleDigest
    split_ifs
    · exact utf8Encodable_py _
    · exact utf8Encodable_py _
    · rfl
  message_encodable := by
    intro e
    split
    · rw [utf8Encodable_append, utf8Encodable_reprStr asciiRuntime_sound, utf8Encodable_py,
        Bool.and_self]
    · rfl

/-- A production key of workspace 1. -/
def sampleIntake : Intake where
  principal := ⟨1, .production, .workspace, []⟩
  sourceRef := []
  horizonDays := 400
  sourceRef_ok := textOk_nil

theorem sampleIntake_workspace : sampleIntake.principal.workspaceId = 1 := rfl

theorem sampleIntake_mode : sampleIntake.principal.isTest = false := rfl

/-- Workspace 1 has one deployment, `d`. -/
def sampleRows : Db × ℕ := ((∅ : Db).insert (.deployment (py "d")) ⟨1, 1, .active⟩, 0)

theorem sequenceAhead_sampleRows : SequenceAhead sampleRows := by
  intro id _
  exact AList.lookup_insert_ne (by simp)

/-- Midnight of 3 January 2026. -/
def sampleNow : ℕ := 63902995200000000

end TrueFigure.Server
