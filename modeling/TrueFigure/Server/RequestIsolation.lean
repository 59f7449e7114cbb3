import TrueFigure.Server.LaneAgreement

/-!
# Isolation of a request

A request that the gates let in goes on with the events its body is read as. So it
comes to one result an event, and its rejected events might as well not be there,
exactly when the decoder reads the body and none of its events is hazardous at the
rows its predecessors left.
-/
namespace TrueFigure.Server

open TrueFigure.Library TrueFigure.Python

/-- The rate limit of the workspace. -/
def LaneWorld.rpm (w : LaneWorld) (workspaceId : ℕ) : ℕ :=
  ((w.workspace? workspaceId).map WorkspaceRow.rateLimitRpm).getD 600

/-- Neither the rate limit nor the quota is exceeded. -/
structure LetsIn (monthOf : ℤ → ℤ) (w : LaneWorld) (req : LaneRequest) : Prop where
  rate : (checkRate w req.principal.workspaceId (w.rpm req.principal.workspaceId) req.now).1 =
    .ok ()
  quota : checkQuota monthOf (checkRate w req.principal.workspaceId
    (w.rpm req.principal.workspaceId) req.now).2 req.principal.workspaceId req.now = .ok ()

/-- The body, within the size limit, is a JSON text that is, where it is read, an object with a
list of at most 500 events. -/
structure Posts (loads : Decoder) (body : ByteArray) (text : PyStr) : Prop where
  size : body.size ≤ maxBodyBytes
  decoded : utf8Decode body = .ok text
  json : loads text ≠ .error .decode
  events : ∀ value, loads text = .ok value → ∃ events,
    value.dictOrEmpty.getD (py "events") .null = .arr events ∧ events.length ≤ maxBatch

/-- The same principal posts these events, and they are checked at these clocks. -/
structure Resends (loads : Decoder) (req req' : LaneRequest) (subs : List Submission) : Prop where
  principal : req'.principal = req.principal
  source : req'.sourceRef = req.sourceRef
  events : ∃ events, batchEvents loads req'.body = .ok events ∧
    submissionsFrom req'.clock 0 events = subs

section Statement

variable (monthOf : ℤ → ℤ) (loads : Decoder) (env : Env)

/-- The request comes to these results, and leaves what they leave. -/
def ComesTo (w : LaneWorld) (req : LaneRequest) (xs : List Settled) : Prop :=
  (ingestRequest monthOf loads env req w).1 = .results (resultsFrom 0 xs) ∧
    (ingestRequest monthOf loads env req w).2.rows = persistAll req.principal.workspaceId xs w.rows

/-- The request comes to result `i` for event `i`, and posted without some of its rejected
events it comes to the same for the others. -/
def RequestIsolated (w : LaneWorld) (req : LaneRequest) : Prop :=
  ∃ events xs, batchEvents loads req.body = .ok events ∧ xs.length = events.length ∧
    ComesTo monthOf loads env w req xs ∧
    ∀ kept, Thins ((submissionsFrom req.clock 0 events).zip xs) kept → ∀ req',
      Resends loads req req' (kept.map Prod.fst) → LetsIn monthOf w req' →
        ComesTo monthOf loads env w req' (kept.map Prod.snd)

end Statement

variable {monthOf : ℤ → ℤ} {loads : Decoder} {env : Env} {w : LaneWorld} {req req' : LaneRequest}
  {events : List Json} {text : PyStr} {room : ℕ}

theorem LetsIn.passGates (h : LetsIn monthOf w req) :
    (passGates monthOf loads w req).1 = batchEvents loads req.body := by
  obtain ⟨hrate, hquota⟩ := h
  unfold LaneWorld.rpm at hrate hquota
  unfold Server.passGates
  cases batchEvents loads req.body with
  | error e => rfl
  | ok events =>
    rcases hcounted : checkRate w req.principal.workspaceId
      (((w.workspace? req.principal.workspaceId).map WorkspaceRow.rateLimitRpm).getD 600) req.now
      with ⟨r, w'⟩
    simp only [hcounted] at hrate hquota
    simp only [hcounted]
    subst hrate
    simp only [hquota]

/-- The events of a request get past the gates when they are read off its body and neither the
rate limit nor the quota is exceeded. -/
theorem passGates_eq_ok : (passGates monthOf loads w req).1 = .ok events ↔
    LetsIn monthOf w req ∧ batchEvents loads req.body = .ok events := by
  refine ⟨fun h => ⟨?_, (passGates_ok h).1⟩, fun h => h.1.passGates.trans h.2⟩
  rw [Server.passGates, (passGates_ok h).1] at h
  dsimp only at h
  rcases hcounted : checkRate w req.principal.workspaceId
    (((w.workspace? req.principal.workspaceId).map WorkspaceRow.rateLimitRpm).getD 600) req.now
    with ⟨r, w'⟩
  rw [hcounted] at h
  refine ⟨?_, ?_⟩
  · unfold LaneWorld.rpm
    rw [hcounted]
    cases r with
    | error e => cases h
    | ok u => rfl
  · unfold LaneWorld.rpm
    rw [hcounted]
    cases r with
    | error e => cases h
    | ok u =>
      dsimp only at h ⊢
      cases hquota : checkQuota monthOf w' req.principal.workspaceId req.now with
      | error e =>
        rw [hquota] at h
        cases h
      | ok u => rfl

theorem batchEvents_eq_ok {body : ByteArray} : batchEvents loads body = .ok events ↔
    body.size ≤ maxBodyBytes ∧
      ∃ text, (if body.size = 0 then .ok (py "\x7b\x7d") else utf8Decode body) = .ok text ∧
        ∃ value, loads text = .ok value ∧ events.length ≤ maxBatch ∧
          value.dictOrEmpty.getD (py "events") .null = .arr events := by
  unfold batchEvents
  by_cases hsize : maxBodyBytes < body.size
  · rw [if_pos hsize]
    refine iff_of_false ?_ fun h => absurd h.1 (by omega)
    rintro ⟨⟩
  rw [if_neg hsize]
  generalize (if body.size = 0 then .ok (py "\x7b\x7d") else utf8Decode body) = decoded
  simp only [Nat.le_of_not_lt hsize, true_and]
  cases decoded with
  | error e => simp [Except.mapError, bind, Except.bind]
  | ok text =>
    simp only [Except.mapError, bind, Except.bind, Except.ok.injEq, exists_eq_left']
    cases loads text with
    | error e => simp
    | ok value =>
      simp only [Except.ok.injEq, exists_eq_left']
      split
      · rename_i found hfound
        rw [hfound]
        split_ifs with hlength
        · refine iff_of_false ?_ ?_
          · rintro ⟨⟩
          · rintro ⟨hle, heq⟩
            rw [Json.arr.inj heq] at hlength
            omega
        · simp only [Except.ok.injEq, Json.arr.injEq]
          constructor
          · rintro rfl
            exact ⟨by omega, rfl⟩
          · exact And.right
      · rename_i hother
        refine iff_of_false ?_ fun h => hother events h.2
        rintro ⟨⟩

theorem ingestRequest_run (hgates : (passGates monthOf loads w req).1 = .ok events) :
    ((ingestRequest monthOf loads env req w).1, (ingestRequest monthOf loads env req w).2.rows) =
      (ingestEvents env (req.intake w.toImportWorld)
        (submissionsFrom req.clock 0 events)).run w.rows.1 w.rows.2 := by
  obtain ⟨-, -, -, -, -, hfits, -⟩ := batchEvents_eq_ok.1 (passGates_ok hgates).1
  have hlength : ¬ maxBatch < (submissionsFrom req.clock 0 events).length := by
    rw [length_submissionsFrom]
    exact Nat.not_lt.2 hfits
  rw [ingestEvents, if_neg hlength, ingestRequest]
  rcases hpass : Server.passGates monthOf loads w req with ⟨r, w'⟩
  rw [hpass] at hgates
  dsimp only at hgates
  rw [hgates]

theorem Resends.intake {subs : List Submission} (h : Resends loads req req' subs) :
    req'.intake w.toImportWorld = req.intake w.toImportWorld := by
  simp only [LaneRequest.intake, h.principal, h.source]

/-- The events are there exactly where the text is not nested too deep and holds no integer of
more than 4300 digits. -/
theorem Posts.events_iff {body : ByteArray} (h : Posts (jsonLoadsWithin room) body text) :
    (∃ events, batchEvents (jsonLoadsWithin room) body = .ok events) ↔
      nesting text ≤ room ∧ jsonLoads text ≠ .error .digits := by
  have hsize : body.size ≠ 0 := by
    intro hzero
    have hempty : utf8Decode body = .ok [] := by
      rw [ByteArray.size_eq_zero_iff.1 hzero]
      rfl
    have hjson := h.json
    rw [Except.ok.inj (h.decoded.symm.trans hempty)] at hjson
    exact hjson rfl
  rw [← jsonLoadsWithin_ok_iff h.json]
  constructor
  · rintro ⟨events, hevents⟩
    obtain ⟨-, text', htext, value, hvalue, -⟩ := batchEvents_eq_ok.1 hevents
    rw [if_neg hsize, h.decoded] at htext
    obtain rfl := Except.ok.inj htext
    exact ⟨value, hvalue⟩
  · rintro ⟨value, hvalue⟩
    obtain ⟨events, hevents, hlength⟩ := h.events value hvalue
    refine ⟨events, batchEvents_eq_ok.2 ⟨h.size, text, ?_, value, hvalue, hlength, hevents⟩⟩
    rw [if_neg hsize, h.decoded]

/-- A request comes to one result an event exactly when its gates let it in, its body is read and
none of its events is hazardous at the rows its predecessors left. -/
theorem completes_iff (hseq : SequenceAhead w.rows) :
    (∃ events xs, batchEvents loads req.body = .ok events ∧ xs.length = events.length ∧
        ComesTo monthOf loads env w req xs) ↔
      LetsIn monthOf w req ∧ ∃ events, batchEvents loads req.body = .ok events ∧
        Smooth env (req.intake w.toImportWorld) w.rows (submissionsFrom req.clock 0 events) := by
  constructor
  · rintro ⟨events, xs, hevents, -, houtcome, -⟩
    cases hpass : (passGates monthOf loads w req).1 with
    | error e =>
      unfold ingestRequest at houtcome
      rcases hgates : passGates monthOf loads w req with ⟨r, w'⟩
      rw [hgates] at hpass houtcome
      dsimp only at hpass
      subst hpass
      cases houtcome
    | ok events' =>
      obtain ⟨hin, hevents'⟩ := passGates_eq_ok.1 hpass
      obtain rfl := Except.ok.inj (hevents.symm.trans hevents')
      obtain ⟨-, -, -, -, -, hlength, -⟩ := batchEvents_eq_ok.1 hevents
      have hrun := congrArg Prod.fst (@ingestRequest_run monthOf _ env w req events hpass)
      refine ⟨hin, events, hevents, @smooth_of_results env (req.intake w.toImportWorld) w.rows hseq _
        (by rwa [length_submissionsFrom]) (resultsFrom 0 xs) ?_⟩
      exact hrun.symm.trans houtcome
  · rintro ⟨hin, events, hevents, hsmooth⟩
    obtain ⟨-, -, -, -, -, hlength, -⟩ := batchEvents_eq_ok.1 hevents
    obtain ⟨xs, hxs, hrun, -⟩ := hsmooth.isolated hseq (by rwa [length_submissionsFrom])
    rw [length_submissionsFrom] at hxs
    rw [← ingestRequest_run (hin.passGates.trans hevents)] at hrun
    exact ⟨events, xs, hevents, hxs, Prod.mk.inj hrun⟩

/-- The text of a request body of these events. -/
def batchText (events : List Json) : PyStr :=
  jsonDumps asciiRuntime (.obj [(py "events", .arr events)])

/-- These events, posted at midnight of 3 January 2026. -/
def postOf (events : List Json) : LaneRequest := { meterPost with body := batchBody events }

theorem body_postOf (events : List Json) : (postOf events).body = batchBody events := rfl

theorem writable_batch (hevents : ∀ e ∈ events, Writable asciiRuntime e) :
    Writable asciiRuntime (.obj [(py "events", .arr events)]) :=
  .obj (List.nodup_singleton _) (List.forall_mem_singleton.2 rfl)
    (List.forall_mem_singleton.2 (.arr hevents))

theorem jsonLoads_batchText (hevents : ∀ e ∈ events, Writable asciiRuntime e) :
    jsonLoads (batchText events) = .ok (.obj [(py "events", .arr events)]) :=
  jsonLoads_jsonDumps (writable_batch hevents)

theorem posts_postOf (hevents : ∀ e ∈ events, Writable asciiRuntime e)
    (hsize : (batchBody events).size ≤ maxBodyBytes) (hlength : events.length ≤ maxBatch)
    (hroom : nesting (batchText events) ≤ room) :
    Posts (jsonLoadsWithin room) (postOf events).body (batchText events) := by
  have hloads : jsonLoadsWithin room (batchText events) =
      .ok (.obj [(py "events", .arr events)]) :=
    jsonLoadsWithin_eq_ok.2 ⟨hroom, jsonLoads_batchText hevents⟩
  rw [body_postOf]
  refine ⟨hsize, ?_, ?_, fun value hvalue => ⟨events, ?_, hlength⟩⟩
  · exact utf8Decode_uploadOf ((writable_batch hevents).utf8Encodable asciiRuntime_sound)
  · rw [hloads]
    rintro ⟨⟩
  · obtain rfl := Except.ok.inj (hloads.symm.trans hvalue)
    simp [Json.dictOrEmpty, Dict.getD, Dict.get?]

theorem batchEvents_postOf (hevents : ∀ e ∈ events, Writable asciiRuntime e)
    (hsize : 0 < (batchBody events).size ∧ (batchBody events).size ≤ maxBodyBytes)
    (hlength : events.length ≤ maxBatch) (hroom : nesting (batchText events) ≤ room) :
    batchEvents (jsonLoadsWithin room) (postOf events).body = .ok events := by
  obtain ⟨hle, text, htext, value, hvalue, hshape⟩ :=
    batchEvents_eq_ok.1 (batchEvents_batchBody hevents hsize hlength)
  refine batchEvents_eq_ok.2 ⟨hle, text, htext, value, ?_, hshape⟩
  have hdecoded := (posts_postOf hevents hsize.2 hlength hroom).decoded
  rw [body_postOf] at hdecoded
  rw [if_neg (by omega), hdecoded] at htext
  obtain rfl := Except.ok.inj htext
  exact jsonLoadsWithin_eq_ok.2 ⟨hroom, hvalue⟩

theorem letsIn_postOf (events : List Json) : LetsIn utcMonth (meterLanes 0) (postOf events) := by
  have hcount : ¬ (meterLanes 0).rpm 1 <
      ((meterLanes 0).windowHits.lookup (1, minuteOf sampleNow)).getD 0 + 1 := by decide
  have hrate : (checkRate (meterLanes 0) 1 ((meterLanes 0).rpm 1) sampleNow).1 = .ok () := by
    unfold checkRate
    rw [if_neg hcount]
  have hused : ¬ planQuota .free ≤
      usedIn utcMonth (meterLanes 0).rows.1 1 (monthAt utcMonth sampleNow) := by decide +kernel
  have hquota : checkQuota utcMonth (checkRate (meterLanes 0) 1 ((meterLanes 0).rpm 1) sampleNow).2
      1 sampleNow = .ok () := by
    unfold checkQuota
    simp only [checkRate_world]
    exact if_neg hused
  exact ⟨hrate, hquota⟩

theorem ingestRequest_postOf {loads : Decoder}
    (hevents : batchEvents loads (postOf events).body = .ok events) :
    (ingestRequest utcMonth loads sampleEnv (postOf events) (meterLanes 0)).1 =
        ((ingestEvents sampleEnv sampleIntake (submissionsFrom (fun _ => sampleNow) 0 events)).run
          (meterLanes 0).rows.1 (meterLanes 0).rows.2).1 ∧
      (ingestRequest utcMonth loads sampleEnv (postOf events) (meterLanes 0)).2.rows =
        ((ingestEvents sampleEnv sampleIntake (submissionsFrom (fun _ => sampleNow) 0 events)).run
          (meterLanes 0).rows.1 (meterLanes 0).rows.2).2 :=
  Prod.ext_iff.1 (ingestRequest_run ((letsIn_postOf events).passGates.trans hevents))

/-- A valid event, one without an `event_type`, and the first again. -/
def mixedEvents : List Json := [.obj meterEvent, .obj [], .obj meterEvent]

/-- A valid event, then one whose `event_type` is a list. -/
def listTypeEvents : List Json := [.obj meterEvent, .obj [(py "event_type", .arr [])]]

theorem writable_mixedEvents : ∀ e ∈ mixedEvents, Writable asciiRuntime e := by
  simp only [mixedEvents, List.forall_mem_cons]
  refine ⟨writable_meterEvent, ?_, writable_meterEvent, fun e he => absurd he List.not_mem_nil⟩
  exact .obj List.nodup_nil (fun f hf => absurd hf List.not_mem_nil)
    fun f hf => absurd hf List.not_mem_nil

theorem writable_listTypeEvents : ∀ e ∈ listTypeEvents, Writable asciiRuntime e := by
  simp only [listTypeEvents, List.forall_mem_cons]
  refine ⟨writable_meterEvent, ?_, fun e he => absurd he List.not_mem_nil⟩
  exact .obj (List.nodup_singleton _) (List.forall_mem_singleton.2 (by decide))
    (List.forall_mem_singleton.2 (.arr fun e he => absurd he List.not_mem_nil))

end TrueFigure.Server
