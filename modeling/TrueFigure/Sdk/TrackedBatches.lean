import TrueFigure.Sdk.EventBuilders
import TrueFigure.Server.Reconciliation
import TrueFigure.Server.RequestIsolation

/-!
# Batches of tracked events

An event a builder shaped from texts names a family and is of it, so its key is
there whenever its instant is, and whatever the server makes of it can be stored and
rendered. What can still fail its request is the instant, the clock and what the
operators have set up for its deployment; and none of these is changed by a batch.
-/
namespace TrueFigure.Sdk

open TrueFigure.Library TrueFigure.Python TrueFigure.Server

/-- The arguments are texts a column can hold; only a quantity is a number. -/
structure BuilderCall.Textual (call : BuilderCall) (deploymentId : Json) : Prop where
  deployment : ∃ s, deploymentId = .str s ∧ textOk s = true
  scope : call.keywords.idempotencyScope = .null ∨
    ∃ s, call.keywords.idempotencyScope = .str s ∧ textOk s = true
  arguments : ∀ entry ∈ call.arguments, (∃ s, entry.2 = .str s ∧ textOk s = true) ∨
    entry.1 = py "quantity" ∧ ∃ n, entry.2 = .num n ∧ n.finite = true

/-- What can still fail the request of an event: its instant, the clock, and what
the operators have set up for its deployment. -/
inductive Troubled (env : Env) (intake : Intake) (s : Db) (sub : Submission) : Prop
  /-- The instant leaves the years 1 to 9999 in UTC. -/
  | instant {event : Dict} (hevent : sub.event = .obj event)
      (h : canonicalMillis env.rt ((payloadOf event).getD (py "timestamp") .null) =
        .error .overflowError)
  /-- The clock or the horizon does. -/
  | clock {event : Dict} (hevent : sub.event = .obj event) (hshape : WellShaped env event)
      (h : Overflows env (payloadOf event) intake.horizonDays sub.now)
  | ungranted {adm : Admitted} {dep : DeploymentRow} (hexamine : examine env intake sub = .ok adm)
      (hfound : deploymentOf s intake.principal.workspaceId (adm.text (py "deployment_id")) =
        some dep)
      (h : intake.principal.mayTouch dep.id = false)
  | paused {adm : Admitted} {dep : DeploymentRow} (hexamine : examine env intake sub = .ok adm)
      (hfound : deploymentOf s intake.principal.workspaceId (adm.text (py "deployment_id")) =
        some dep)
      (h : dep.deploymentStatus = .paused)
  /-- The format declared for an id is no pattern. -/
  | badRegex {adm : Admitted} {dep : DeploymentRow} (hdep : Deployed env intake s sub adm dep)
      (h : namespaceFault env intake s dep.id (idFields adm.payload) = some (.python .reError))

section Requests

variable {env : Env} {intake : Intake} {s : Db} {sub : Submission} {call : BuilderCall}
  {deploymentId : Json} {rt : Runtime} {digest : PyStr → PyStr}

theorem BuilderCall.Textual.text (h : call.Textual deploymentId) {name : PyStr} {value : Json}
    (hvalue : (name, value) ∈ call.arguments) (hname : name ≠ py "quantity") :
    ∃ s, value = .str s ∧ textOk s = true := by
  rcases h.arguments (name, value) hvalue with htext | ⟨hquantity, -⟩
  · exact htext
  · exact absurd hquantity hname

/-- An argument that may be left out is a text all the same. -/
theorem BuilderCall.Textual.optional (h : call.Textual deploymentId) {name : PyStr}
    (hname : name ≠ py "quantity") : ∃ s, call.arguments.getD name (.str []) = .str s ∧
      textOk s = true := by
  unfold Dict.getD
  cases hget : call.arguments.get? name with
  | none => exact ⟨[], rfl, textOk_nil⟩
  | some value => exact h.text (mem_of_get? hget) hname

theorem BuilderCall.Textual.keyParts (h : call.Textual deploymentId) {dep ts : PyStr}
    (hdep : textOk dep = true) (hts : textOk ts = true) : ∃ fields : List PyStr,
      keyParts dep call.own.eventType.wire call.arguments ts = .ok (fields.map .str) ∧
        ∀ f ∈ fields, textOk f = true := by
  obtain ⟨own, keywords, apart⟩ := call
  cases own with
  | activity userRef timestamp workItemId actionType =>
    obtain ⟨user, rfl, huser⟩ := h.text (.head _) (py_injective.ne (by decide))
    obtain ⟨item, rfl, hitem⟩ := h.text (.tail _ (.tail _ (.head _))) (py_injective.ne (by decide))
    obtain ⟨action, rfl, haction⟩ :=
      h.text (.tail _ (.tail _ (.tail _ (.head _)))) (py_injective.ne (by decide))
    refine ⟨[dep, user, item, ts, action], rfl, ?_⟩
    simp [hdep, huser, hitem, hts, haction]
  | lifecycle workItemId event timestamp =>
    obtain ⟨item, rfl, hitem⟩ := h.text (.head _) (py_injective.ne (by decide))
    obtain ⟨name, rfl, hname⟩ := h.text (.tail _ (.head _)) (py_injective.ne (by decide))
    obtain ⟨status, hstatus, hstatusOk⟩ :=
      @BuilderCall.Textual.optional _ _ h (py "status_to") (py_injective.ne (by decide))
    refine ⟨[item, name, ts, status], ?_, ?_⟩
    · rw [List.map_cons, List.map_cons, List.map_cons, List.map_cons, ← hstatus]
      rfl
    · simp [hitem, hname, hts, hstatusOk]
  | costMeter meter quantity timestamp =>
    obtain ⟨name, rfl, hname⟩ := h.text (.head _) (py_injective.ne (by decide))
    obtain ⟨ref, href, hrefOk⟩ :=
      @BuilderCall.Textual.optional _ _ h (py "meter_ref") (py_injective.ne (by decide))
    refine ⟨[dep, name, ts, ref], ?_, ?_⟩
    · rw [List.map_cons, List.map_cons, List.map_cons, List.map_cons, ← href]
      rfl
    · simp [hdep, hname, hts, hrefOk]
  | qualitySignal workItemId signal timestamp =>
    obtain ⟨item, rfl, hitem⟩ := h.text (.head _) (py_injective.ne (by decide))
    obtain ⟨name, rfl, hname⟩ := h.text (.tail _ (.head _)) (py_injective.ne (by decide))
    refine ⟨[item, name, ts], rfl, ?_⟩
    simp [hitem, hname, hts]
  | revenueSignal workItemId revenueRef timestamp =>
    obtain ⟨item, rfl, hitem⟩ := h.text (.head _) (py_injective.ne (by decide))
    obtain ⟨ref, rfl, href⟩ := h.text (.tail _ (.head _)) (py_injective.ne (by decide))
    refine ⟨[item, ref, ts], rfl, ?_⟩
    simp [hitem, href, hts]

theorem BuilderCall.timestamp_get :
    ∃ value, call.arguments.get? (py "timestamp") = some value := by
  obtain ⟨own, keywords, apart⟩ := call
  cases own with
  | activity userRef timestamp workItemId actionType => exact ⟨timestamp, rfl⟩
  | lifecycle workItemId event timestamp => exact ⟨timestamp, rfl⟩
  | costMeter meter quantity timestamp => exact ⟨timestamp, rfl⟩
  | qualitySignal workItemId signal timestamp => exact ⟨timestamp, rfl⟩
  | revenueSignal workItemId revenueRef timestamp => exact ⟨timestamp, rfl⟩

theorem BuilderCall.Textual.eventKey (h : call.Textual deploymentId) {dep : PyStr}
    (hdep : textOk dep = true) {scope : Json}
    (hscope : scope = .null ∨ ∃ s, scope = .str s ∧ textOk s = true) :
    match canonicalTs rt (call.arguments.getD (py "timestamp") .null) with
    | .error e => eventKey rt digest dep call.own.eventType.wire call.arguments scope = .error e
    | .ok _ => ∃ key,
      eventKey rt digest dep call.own.eventType.wire call.arguments scope = .ok key := by
  obtain ⟨timestamp, htimestamp⟩ := @BuilderCall.timestamp_get call
  have hvalue : call.arguments.getD (py "timestamp") .null = timestamp := by
    rw [Dict.getD, htimestamp]
    rfl
  have hsubscript : subscript call.arguments (py "timestamp") = .ok timestamp := by
    rw [subscript, htimestamp]
  rw [hvalue]
  cases hts : canonicalTs rt timestamp with
  | error e =>
    unfold Server.eventKey keyFields
    rw [hsubscript]
    simp only [bind, Except.bind, hts]
  | ok ts =>
    obtain ⟨millis, -, rfl⟩ := canonicalTs_eq_ok hts
    obtain ⟨fields, hparts, hfields⟩ := h.keyParts hdep (textOk_renderMillis millis)
    obtain ⟨tail, htail, htailOk⟩ : ∃ tail : List PyStr,
        (if scope.truthy then [scope] else []) = tail.map .str ∧ ∀ f ∈ tail, textOk f = true := by
      rcases hscope with rfl | ⟨text, rfl, htext⟩
      · exact ⟨[], rfl, by simp⟩
      · split_ifs
        · exact ⟨[text], rfl, by simpa using htext⟩
        · exact ⟨[], rfl, by simp⟩
    have hjoin : joinable (.str call.own.eventType.wire :: fields.map .str ++
        if scope.truthy then [scope] else []) =
          .ok (call.own.eventType.wire :: fields ++ tail) := by
      rw [htail, ← joinable_texts, List.cons_append, List.cons_append, List.map_cons,
        List.map_append]
    have hencodable : utf8Encodable
        (joined bar (call.own.eventType.wire :: fields ++ tail)) = true := by
      apply utf8Encodable_joined
      intro f hf
      rw [List.cons_append, List.mem_cons, List.mem_append] at hf
      rcases hf with rfl | hf | hf
      · cases call.own.eventType <;> exact utf8Encodable_py _
      · exact utf8Encodable_of_textOk (hfields f hf)
      · exact utf8Encodable_of_textOk (htailOk f hf)
    refine ⟨digest (joined bar (call.own.eventType.wire :: fields ++ tail)), ?_⟩
    unfold Server.eventKey keyFields
    rw [hsubscript]
    simp only [bind, Except.bind, hts, hparts, hjoin, hencodable, if_true]

/-- A field the echo repeats, wherever it stands. -/
theorem BuilderCall.Textual.plain (h : call.Textual deploymentId) {name : PyStr}
    (hname : name ≠ py "quantity") : Plain (call.arguments.getD name .null) := by
  unfold Dict.getD
  cases hget : call.arguments.get? name with
  | none => exact .inl rfl
  | some value =>
    obtain ⟨text, rfl, htext⟩ := h.text (mem_of_get? hget) hname
    exact .inr ⟨text, rfl, utf8Encodable_of_textOk htext⟩

theorem BuilderCall.Textual.echo_renders (h : call.Textual deploymentId) (eventType : Json)
    (accepted : Bool) (reason : Option PyStr) :
    (echoOf eventType call.arguments accepted reason).renders = true := by
  have haction : Plain (call.arguments.getD (py "action_type") .null) :=
    h.plain (py_injective.ne (by decide))
  have hmeter : Plain (call.arguments.getD (py "meter") .null) :=
    h.plain (py_injective.ne (by decide))
  have hevent : Plain (call.arguments.getD (py "event") .null) :=
    h.plain (py_injective.ne (by decide))
  have hsignal : Plain (call.arguments.getD (py "signal") .null) :=
    h.plain (py_injective.ne (by decide))
  apply Echo.renders_of_plain
  intro v hv
  simp only [Echo.values, echoOf, List.mem_cons] at hv
  rcases hv with rfl | hv
  · exact h.plain (py_injective.ne (by decide))
  · split_ifs at hv
    · simp only [Option.toList_some, Option.toList_none, List.append_nil,
        List.mem_singleton] at hv
      exact hv ▸ haction
    · simp only [Option.toList_some, Option.toList_none, List.nil_append,
        List.mem_singleton] at hv
      exact hv ▸ (hmeter.or hevent).or hsignal

theorem known_textOk {t : EventType} {p : PropertySchema} {name : PyStr}
    (h : t.family.properties.lookup name = some p) : textOk name = true := by
  have hnames : ∀ t : EventType,
      (t.family.properties.all fun property => textOk property.1) = true := by
    intro t
    cases t <;> decide +kernel
  obtain ⟨before, after, hsplit, -⟩ := List.lookup_eq_some_iff.1 h
  apply List.all_eq_true.1 (hnames t) (name, p)
  rw [hsplit]
  exact List.mem_append_right _ List.mem_cons_self

/-- A column takes the arguments the contract accepts. -/
theorem BuilderCall.Textual.jsonbOk (h : call.Textual deploymentId)
    (hconforms : call.Conforms deploymentId) : jsonbOk (.obj call.arguments) = true := by
  unfold Python.jsonbOk
  rw [Json.all, Json.allFields_iff]
  intro entry hentry
  obtain ⟨p, hp, -⟩ := hconforms.arguments entry hentry
  refine ⟨jsonbText_of_textOk (known_textOk hp), ?_⟩
  rcases h.arguments entry hentry with ⟨text, hvalue, htext⟩ | ⟨-, n, hvalue, hn⟩
  · rw [hvalue]
    exact jsonbText_of_textOk htext
  · rw [hvalue]
    exact hn

theorem getD_scope {eventType : EventType} {payload : Dict} {origin scope : Json} :
    (buildEvent deploymentId eventType.wire payload origin scope).getD
      (py "idempotency_scope") .null = scope := by
  rw [Dict.getD, buildEvent_scope]
  split_ifs with hgiven
  · rfl
  · cases scope with
    | null => rfl
    | _ => exact absurd rfl hgiven

/-- The second, best-effort key of such an event. -/
theorem BuilderCall.Given.safeKey (hgiven : call.Given) {dep : PyStr}
    (hdep : deploymentId = .str dep) : safeKey env (.obj (call.event deploymentId)) =
      match eventKey env.rt env.digest dep call.own.eventType.wire call.arguments
          call.keywords.idempotencyScope with
        | .ok key => .ok (some key)
        | .error (.keyError _) => .ok none
        | .error e => if e.isValueError then .ok none else .error e := by
  have hscope := @getD_scope (.str dep) call.own.eventType call.arguments call.keywords.origin
    call.keywords.idempotencyScope
  rw [hgiven.event, hdep]
  conv_rhs => rw [← hscope]
  rfl

theorem BuilderCall.Given.key (hgiven : call.Given) {dep : PyStr} (hdep : deploymentId = .str dep)
    (ts : PyStr) : (Admitted.mk (call.event deploymentId) ts).key env =
      eventKey env.rt env.digest dep call.own.eventType.wire call.arguments
        call.keywords.idempotencyScope := by
  have hscope := @getD_scope (.str dep) call.own.eventType call.arguments call.keywords.origin
    call.keywords.idempotencyScope
  rw [hgiven.event, hdep]
  conv_rhs => rw [← hscope]
  rfl

theorem BuilderCall.Textual.safeKey_error_iff (htextual : call.Textual deploymentId)
    (hgiven : call.Given) : (∃ e, safeKey env (.obj (call.event deploymentId)) = .error e) ↔
      canonicalMillis env.rt (call.arguments.getD (py "timestamp") .null) =
        .error .overflowError := by
  obtain ⟨dep, hdep, hdepOk⟩ := htextual.deployment
  have hkey := @htextual.eventKey _ _ env.rt env.digest dep hdepOk _ htextual.scope
  rw [hgiven.safeKey hdep]
  unfold canonicalTs at hkey
  cases hmillis : canonicalMillis env.rt (call.arguments.getD (py "timestamp") .null) with
  | ok millis =>
    simp only [hmillis, Except.map] at hkey
    obtain ⟨key, hkey⟩ := hkey
    rw [hkey]
    simp
  | error e =>
    simp only [hmillis, Except.map] at hkey
    rw [hkey]
    rcases canonicalMillis_error env.sound hmillis with rfl | ⟨message, rfl, -⟩
    · simp [PyErr.isValueError]
    · simp [PyErr.isValueError]

end Requests

section Hazards

variable {env : Env} {intake : Intake} {s : Db} {sub : Submission} {call : BuilderCall}
  {deploymentId : Json}

theorem BuilderCall.Textual.admitted_key (htextual : call.Textual deploymentId)
    (hgiven : call.Given) (hevent : sub.event = .obj (call.event deploymentId)) {adm : Admitted}
    (hexamine : examine env intake sub = .ok adm) : ∃ key, adm.key env = .ok key := by
  obtain ⟨dep, hdep, hdepOk⟩ := htextual.deployment
  obtain ⟨hobj, -, htimestamp⟩ := examine_ok hexamine
  obtain ⟨event, ts⟩ := adm
  obtain rfl : event = call.event deploymentId := Json.obj.inj (hobj.symm.trans hevent)
  obtain ⟨millis, hmillis, -⟩ := checkTimestamp_ok htimestamp
  have hpayload : (Admitted.mk (call.event deploymentId) ts).payload = call.arguments :=
    hgiven.payloadOf
  rw [hpayload] at hmillis
  have hkey := @htextual.eventKey _ _ env.rt env.digest dep hdepOk _ htextual.scope
  unfold canonicalTs at hkey
  simp only [hmillis, Except.map] at hkey
  rw [hgiven.key hdep]
  exact hkey

theorem rejectedBy_of_shape {event : Dict} (hevent : sub.event = .obj event)
    (h : ¬ WellShaped env event) : ∃ err, RejectedBy env intake s sub err := by
  cases hscan : scanForbiddenFields event with
  | error e =>
    obtain ⟨err, rfl, -⟩ := scanForbiddenFields_error hscan
    refine ⟨err, .early ?_⟩
    simp only [examine, hevent, hscan, bind, Except.bind]
  | ok _ =>
    cases hvalid : validateStructure env event with
    | error e =>
      obtain ⟨err, rfl, -⟩ := validateStructure_error hvalid
      refine ⟨err, .early ?_⟩
      simp only [examine, hevent, hscan, hvalid, bind, Except.bind]
    | ok _ => exact absurd ⟨hscan, hvalid⟩ h

/-- What the builders shape from texts fails a request by its instant, by the clock or
by what the operators have set up, and in no other way. -/
theorem builder_hazard_iff (hgiven : call.Given) (htruthy : deploymentId.truthy = true)
    (htextual : call.Textual deploymentId) (hevent : sub.event = .obj (call.event deploymentId)) :
    Hazard env intake s sub ↔ Troubled env intake s sub := by
  obtain ⟨dep, hdep, hdepOk⟩ := htextual.deployment
  have hadm : ∀ {adm : Admitted}, examine env intake sub = .ok adm →
      adm.event = call.event deploymentId := by
    intro adm hexamine
    exact Json.obj.inj ((examine_ok hexamine).1.symm.trans hevent)
  have hdict : sub.event.dictOrEmpty = buildEvent deploymentId call.own.eventType.wire
      call.arguments call.keywords.origin call.keywords.idempotencyScope := by
    rw [hevent, hgiven.event]
    rfl
  constructor
  · rintro (hraises | hunrenderable)
    · cases hraises with
      | overflow hobj hshape h => exact .clock hobj hshape h
      | @deploymentText adm hexamine h =>
        have htext : adm.text (py "deployment_id") = dep := by
          rw [Admitted.text, hadm hexamine, hgiven.event, hdep]
          rfl
        rw [htext, hdepOk] at h
        cases h
      | ungranted hexamine hfound h => exact .ungranted hexamine hfound h
      | paused hexamine hfound h => exact .paused hexamine hfound h
      | badRegex hdeployed h => exact .badRegex hdeployed h
      | @noKey adm row e hdeployed hformats h =>
        obtain ⟨key, hkey⟩ := htextual.admitted_key hgiven hevent hdeployed.examined
        cases h.symm.trans hkey
      | @unstorable adm row key hkeyed hmode hnew h =>
        have hpayload : adm.payload = call.arguments := by
          rw [Admitted.payload, hadm hkeyed.examined]
          exact hgiven.payloadOf
        have hshape := (examine_ok hkeyed.examined).2.1
        rw [hadm hkeyed.examined] at hshape
        rw [hpayload, htextual.jsonbOk ((builder_conforms_iff hgiven htruthy).1 hshape)] at h
        cases h
      | safeKey hrejected h =>
        rw [hevent] at h
        refine .instant hevent ?_
        rw [hgiven.payloadOf]
        exact (htextual.safeKey_error_iff hgiven).1 ⟨_, h⟩
      | unhashableType hrejected hmode h =>
        rw [hdict] at h
        cases h
      | deploymentRef hrejected hmode h =>
        have harg : deploymentRefArgument env (.str dep) = .ok (some dep) := by
          rw [deploymentRefArgument, textArgument_ok hdepOk]
          rfl
        rw [hdict, hdep] at h
        cases harg.symm.trans h
    · cases hunrenderable with
      | version hobj hscan hversion hunsupported h =>
        rw [← Json.obj.inj (hevent.symm.trans hobj), hgiven.event] at hversion
        cases hversion
        cases hunsupported
      | @echo err payload hrejected hmode hpayload h =>
        rw [hdict] at hpayload
        obtain rfl : call.arguments = payload := Json.obj.inj hpayload
        rw [htextual.echo_renders] at h
        cases h
  · intro h
    cases h with
    | @instant event hobj h =>
      obtain rfl := Json.obj.inj (hobj.symm.trans hevent)
      by_cases hshape : WellShaped env (call.event deploymentId)
      · exact .inl (.overflow hevent hshape (.inl h))
      · obtain ⟨err, hrejected⟩ := @rejectedBy_of_shape env intake s sub _ hevent hshape
        rw [hgiven.payloadOf] at h
        obtain ⟨e, he⟩ := (htextual.safeKey_error_iff hgiven).2 h
        exact .inl (.safeKey hrejected (hevent ▸ he))
    | clock hobj hshape h => exact .inl (.overflow hobj hshape h)
    | ungranted hexamine hfound h => exact .inl (.ungranted hexamine hfound h)
    | paused hexamine hfound h => exact .inl (.paused hexamine hfound h)
    | badRegex hdeployed h => exact .inl (.badRegex hdeployed h)

theorem Troubled.congr {t : Db} (hconfig : SameConfig s t) (h : Troubled env intake s sub) :
    Troubled env intake t sub := by
  cases h with
  | instant hevent h => exact .instant hevent h
  | clock hevent hshape h => exact .clock hevent hshape h
  | ungranted hexamine hfound h =>
    exact .ungranted hexamine ((hconfig.deploymentOf _ _).symm.trans hfound) h
  | paused hexamine hfound h =>
    exact .paused hexamine ((hconfig.deploymentOf _ _).symm.trans hfound) h
  | badRegex hdep h =>
    refine .badRegex ⟨hdep.examined, hdep.text, ?_, hdep.granted, hdep.running⟩ ?_
    · exact (hconfig.deploymentOf _ _).symm.trans hdep.found
    · exact (hconfig.namespaceFault _ _).symm.trans h

/-- A submission that `track_activity` or a sibling enqueued, of texts. -/
structure TrackedTexts (sub : Submission) : Prop where
  shaped : ∃ (call : BuilderCall) (override chosen : Json) (event : Dict),
    call.tracked override chosen = .ok event ∧ sub.event = .obj event ∧ call.Given ∧
      call.Textual (pyOr override chosen)

theorem TrackedTexts.hazard_iff (h : TrackedTexts sub) :
    Hazard env intake s sub ↔ Troubled env intake s sub := by
  obtain ⟨call, override, chosen, event, htracked, hevent, hgiven, htextual⟩ := h.shaped
  obtain ⟨htruthy, rfl⟩ := tracked_eq_ok htracked
  exact builder_hazard_iff hgiven htruthy htextual hevent

/-- A batch of tracked events is smooth exactly when none of them is in trouble at the
configuration the batch finds. -/
theorem tracked_smooth_iff {st : Db × ℕ} (hseq : SequenceAhead st) {events : List Submission}
    (hlen : events.length ≤ maxBatch) (htracked : ∀ sub ∈ events, TrackedTexts sub) :
    Smooth env intake st events ↔ ∀ sub ∈ events, ¬ Troubled env intake st.1 sub := by
  have hconfig : ∀ done : List Submission, SameConfig st.1
      (persistAll intake.principal.workspaceId (settleAll env intake st done).1 st).1 := by
    intro done
    exact SameConfig.persistAll (fun k _ _ => rfl) _ _
  rw [smooth_iff hseq hlen, settleAll_smooth]
  constructor
  · intro h sub hsub htroubled
    obtain ⟨done, rest, hsplit⟩ := List.append_of_mem hsub
    apply h done sub rest hsplit
    exact (htracked sub hsub).hazard_iff.2 (htroubled.congr (hconfig done))
  · intro h done sub rest hsplit hhazard
    have hsub : sub ∈ events := by
      rw [hsplit]
      exact List.mem_append_right done List.mem_cons_self
    have hback : SameConfig
        (persistAll intake.principal.workspaceId (settleAll env intake st done).1 st).1 st.1 :=
      fun k hk hevent => (hconfig done k hk hevent).symm
    exact h sub hsub (((htracked sub hsub).hazard_iff.1 hhazard).congr hback)

end Hazards

/-! ### A metering event -/

theorem textual_januaryMeter : januaryMeter.Textual (.str (py "d")) := by
  refine ⟨⟨py "d", rfl, by decide⟩, .inl rfl, ?_⟩
  intro entry hentry
  simp only [BuilderCall.arguments, januaryMeter, OwnArguments.fixed, List.cons_append,
    List.nil_append, List.mem_cons, List.not_mem_nil, or_false] at hentry
  rcases hentry with rfl | rfl | rfl | rfl
  · exact .inl ⟨_, rfl, by decide⟩
  · exact .inr ⟨rfl, _, rfl, rfl⟩
  · exact .inl ⟨_, rfl, by decide⟩
  · exact .inl ⟨_, rfl, by decide⟩

/-- The event is tracked twice in one request. -/
def januaryEvents : List Json :=
  [.obj (januaryMeter.event (.str (py "d"))), .obj (januaryMeter.event (.str (py "d")))]

theorem tracked_januaryEvents {sub : Submission}
    (hsub : sub ∈ submissionsFrom (fun _ => sampleNow) 0 januaryEvents) : TrackedTexts sub := by
  simp only [januaryEvents, submissionsFrom, List.mem_cons, List.not_mem_nil, or_false] at hsub
  refine ⟨⟨januaryMeter, .null, .str (py "d"), januaryMeter.event (.str (py "d")), rfl, ?_,
    given_januaryMeter, textual_januaryMeter⟩⟩
  rcases hsub with rfl | rfl
  · rfl
  · rfl

theorem writable_januaryEvents : ∀ e ∈ januaryEvents, Writable asciiRuntime e := by
  have hnumber : ReadsBack asciiRuntime (.int 1) := by
    unfold ReadsBack
    decide
  have hpayload : Writable asciiRuntime (.obj januaryMeter.arguments) := by
    refine .obj (by decide) (by decide) ?_
    simp only [BuilderCall.arguments, januaryMeter, OwnArguments.fixed, List.cons_append,
      List.nil_append, List.forall_mem_cons]
    exact ⟨.str (by decide), .num hnumber, .str (by decide), .str (by decide),
      fun f hf => absurd hf List.not_mem_nil⟩
  have hevent : Writable asciiRuntime (.obj (januaryMeter.event (.str (py "d")))) := by
    rw [given_januaryMeter.event]
    refine .obj (by decide) (by decide) ?_
    simp only [buildEvent, januaryMeter, isGiven, List.forall_mem_append, List.forall_mem_cons]
    exact ⟨⟨.str (by decide), .str (by decide), .str (by decide), .str (by decide), hpayload,
      fun f hf => absurd hf List.not_mem_nil⟩, fun f hf => absurd hf List.not_mem_nil⟩
  simp only [januaryEvents, List.forall_mem_cons]
  exact ⟨hevent, hevent, fun e he => absurd he List.not_mem_nil⟩

end TrueFigure.Sdk
