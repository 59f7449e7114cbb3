import TrueFigure.Python.JsonRoundTrip
import TrueFigure.Server.ImportFraming
import TrueFigure.Server.QuotaRuns

/-!
# The lanes agree

Events uploaded as one NDJSON come to what they come to when they are posted in
chunks: the worker reads the lines the client wrote, settles them one after the
other as the batches do, and its principal may do what a workspace key may. The
gates of the sync lane can still keep a chunk out that the import takes.
-/
namespace TrueFigure.Server

open TrueFigure.Library TrueFigure.Python

/-- The body that `upload_import` uploads. -/
def uploadNdjson (rt : Runtime) (events : List Json) : Except PyErr ByteArray :=
  utf8Encode (joinLines (events.map (jsonDumps rt)))

section Statement

variable (monthOf : ℤ → ℤ) (env : Env) (clock : ℕ → ℕ) (importRef : PyStr)

/-- Requests to the sync lane, one after the other. -/
def postAll : List LaneRequest → LaneWorld → List Outcome × LaneWorld
  | [], w => ([], w)
  | req :: reqs, w =>
    let r := ingestRequest monthOf jsonLoads env req w
    let rest := postAll reqs r.2
    (r.1 :: rest.1, rest.2)

/-- `_process_one` raises on none of these, one after the other. -/
def noneRaises (intake : Intake) : List Submission → Db × ℕ → Bool
  | [], _ => true
  | sub :: subs, st =>
    match processAlone env intake 0 sub st with
    | (.ok _, st') => noneRaises intake subs st'
    | (.error _, _) => false

/-- A workspace-scoped production key of the job's workspace, with its source. -/
structure StandsFor (req : LaneRequest) (job : ImportJobRow) : Prop where
  workspace : req.principal.workspaceId = job.workspaceId
  production : req.principal.mode = .production
  scope : req.principal.scope = .workspace
  source : req.sourceRef = job.sourceRef.getD []

/-- The requests carry these chunks, whose events they check when the import checks
their lines, from line `start` on. -/
def Carries (job : ImportJobRow) : ℕ → List (LaneRequest × List Json) → Prop
  | _, [] => True
  | start, (req, chunk) :: posts => StandsFor req job ∧ batchEvents jsonLoads req.body = .ok chunk ∧
      (∀ i < chunk.length, req.clock i = clock (start + i)) ∧
        Carries job (start + chunk.length) posts

/-- Every request passes its gates, at the world its predecessors left. -/
def AllPass : List LaneRequest → LaneWorld → Prop
  | [], _ => True
  | req :: reqs, w => (∃ events, (passGates monthOf jsonLoads w req).1 = .ok events) ∧
      AllPass reqs (ingestRequest monthOf jsonLoads env req w).2

/-- The lines of an import by the events on them. -/
def linesOf (xs : List Settled) : List (ℕ × LineOutcome) :=
  xs.zipIdx.map fun x => (x.2, .settled x.1)

/-- Uploaded and imported, the events come to what they come to when posted. -/
structure LanesAgree (w : LaneWorld) (job : ImportJobRow) (raw : PyStr) (events : List Json)
    (posts : List (LaneRequest × List Json)) : Prop where
  /-- The worker decodes the list, in order. -/
  decoded : decodedLines jsonLoads raw = events.map .ok
  rows : (runImportJob jsonLoads env clock importRef w.toImportWorld).2.rows =
    (postAll monthOf env (posts.map Prod.fst) w).2.rows
  /-- The batch results, chunk by chunk, and the account of the job over them. -/
  results : ∃ (settled : List (List Settled)) (job' : ImportJobRow),
    settled.map List.length = posts.map (fun post => post.2.length) ∧
      (postAll monthOf env (posts.map Prod.fst) w).1 =
        settled.map (fun xs => requestOutcome (resultsFrom 0 xs) none) ∧
      (runImportJob jsonLoads env clock importRef w.toImportWorld).2.job? importRef = some job' ∧
      Accounts jsonLoads env clock w.toImportWorld job (numberedLines raw)
        (runImportJob jsonLoads env clock importRef w.toImportWorld).2 job' (linesOf settled.flatten) ∧
      job'.counts.received =
        job'.counts.accepted + job'.counts.duplicate + job'.counts.rejected ∧
      (errorLinesOf env (linesOf settled.flatten)).length = job'.counts.rejected

end Statement

variable {monthOf : ℤ → ℤ} {env : Env} {intake : Intake} {clock : ℕ → ℕ} {st : Db × ℕ}
  {importRef : PyStr}

/-! ### What the events come to -/

theorem noneRaises_iff (hseq : SequenceAhead st) (subs : List Submission) :
    noneRaises env intake subs st = true ↔ (settleAll env intake st subs).2 = none := by
  induction subs generalizing st with
  | nil => exact ⟨fun _ => rfl, fun _ => rfl⟩
  | cons sub subs ih =>
    rw [noneRaises, settleAll, processAlone_eq hseq]
    cases settle env intake st.1 sub with
    | error e => simp
    | ok x => exact ih (hseq.apply _ _)

/-- A list of events settles as its parts do, one after the other. -/
theorem settleAll_append {subs subs' : List Submission}
    (h : (settleAll env intake st (subs ++ subs')).2 = none) :
    (settleAll env intake st subs).2 = none ∧
      (settleAll env intake (persistAll intake.principal.workspaceId
        (settleAll env intake st subs).1 st) subs').2 = none ∧
      (settleAll env intake st (subs ++ subs')).1 = (settleAll env intake st subs).1 ++
        (settleAll env intake (persistAll intake.principal.workspaceId
          (settleAll env intake st subs).1 st) subs').1 := by
  induction subs generalizing st with
  | nil => exact ⟨rfl, h, rfl⟩
  | cons sub subs ih =>
    rw [List.cons_append, settleAll] at h
    rw [List.cons_append, settleAll, settleAll]
    cases hsettle : settle env intake st.1 sub with
    | error e => simp [hsettle] at h
    | ok x =>
      rw [hsettle] at h
      obtain ⟨hfirst, hrest, heq⟩ := ih h
      refine ⟨hfirst, hrest, ?_⟩
      simp only [heq, List.cons_append]
      rfl

theorem settleAll_ahead (hseq : SequenceAhead st) (subs : List Submission) :
    SequenceAhead (persistAll intake.principal.workspaceId (settleAll env intake st subs).1 st) := by
  obtain ⟨done, -, hchain, -⟩ := @settleAll_settles env intake st subs
  exact hchain.ahead hseq

theorem submissionsFrom_append (clock : ℕ → ℕ) (start : ℕ) (events events' : List Json) :
    submissionsFrom clock start (events ++ events') =
      submissionsFrom clock start events ++
        submissionsFrom clock (start + events.length) events' := by
  induction events generalizing start with
  | nil => rfl
  | cons event events ih =>
    rw [List.cons_append, submissionsFrom, ih, submissionsFrom, List.cons_append,
      List.length_cons, Nat.add_right_comm, Nat.add_assoc]

theorem submissionsFrom_congr {clock' : ℕ → ℕ} {start start' : ℕ} {events : List Json}
    (h : ∀ i < events.length, clock (start + i) = clock' (start' + i)) :
    submissionsFrom clock start events = submissionsFrom clock' start' events := by
  induction events generalizing start start' with
  | nil => rfl
  | cons event events ih =>
    have hhead := h 0 (by simp)
    have hrest := @ih (start + 1) (start' + 1) fun i hi => by
      have := h (i + 1) (by simpa using hi)
      rwa [Nat.add_assoc, Nat.add_assoc, Nat.add_comm 1]
    rw [submissionsFrom, submissionsFrom, hrest]
    simp only [Nat.add_zero] at hhead
    rw [hhead]

theorem settle_granted (ws horizonDays : ℕ) (granted granted' : List ℕ) (sourceRef : PyStr)
    (hsource : textOk sourceRef = true) (s : Db) (sub : Submission) :
    settle env ⟨⟨ws, .production, .workspace, granted⟩, sourceRef, horizonDays, hsource⟩ s sub =
      settle env ⟨⟨ws, .production, .workspace, granted'⟩, sourceRef, horizonDays, hsource⟩ s sub :=
  rfl

theorem settleAll_standsFor {w : LaneWorld} {req : LaneRequest} {job : ImportJobRow}
    (h : StandsFor req job) (st : Db × ℕ) (subs : List Submission) :
    settleAll env (req.intake w.toImportWorld) st subs =
      settleAll env (w.toImportWorld.intake job) st subs := by
  have hsettle : ∀ s sub, settle env (req.intake w.toImportWorld) s sub =
      settle env (w.toImportWorld.intake job) s sub := by
    obtain ⟨⟨ws, mode, scope, granted⟩, sourceRef, now, clock, body, hsource⟩ := req
    obtain ⟨rfl, rfl, rfl, rfl⟩ := h
    exact fun s sub => settle_granted _ _ granted [] _ _ s sub
  have hworkspace : (req.intake w.toImportWorld).principal.workspaceId =
      (w.toImportWorld.intake job).principal.workspaceId := h.workspace
  induction subs generalizing st with
  | nil => rfl
  | cons sub subs ih => simp only [settleAll, hsettle, hworkspace, ih]

/-! ### The sync lane -/

theorem intake_of_workspaces {w w' : ImportWorld} (h : w'.workspaces = w.workspaces)
    (job : ImportJobRow) : w'.intake job = w.intake job := by
  simp only [ImportWorld.intake, ImportWorld.backfillHorizon, ImportWorld.workspace?, h]

theorem postAll_settles {job : ImportJobRow} {start : ℕ} {posts : List (LaneRequest × List Json)}
    {w : LaneWorld} (hseq : SequenceAhead w.rows) (hposts : Carries clock job start posts)
    (hpass : AllPass monthOf env (posts.map Prod.fst) w)
    (hcalm : (settleAll env (w.toImportWorld.intake job) w.rows
      (submissionsFrom clock start (posts.map Prod.snd).flatten)).2 = none) :
    ∃ settled : List (List Settled), settled.map List.length = posts.map (fun post => post.2.length) ∧
      settled.flatten = (settleAll env (w.toImportWorld.intake job) w.rows
        (submissionsFrom clock start (posts.map Prod.snd).flatten)).1 ∧
      (postAll monthOf env (posts.map Prod.fst) w).1 =
        settled.map (fun xs => requestOutcome (resultsFrom 0 xs) none) ∧
      (postAll monthOf env (posts.map Prod.fst) w).2.rows =
        persistAll job.workspaceId settled.flatten w.rows := by
  induction posts generalizing start w with
  | nil => exact ⟨[], rfl, rfl, rfl, rfl⟩
  | cons post posts ih =>
    obtain ⟨req, chunk⟩ := post
    obtain ⟨hstands, hbody, hclock, hrest⟩ := hposts
    obtain ⟨⟨events, hgates⟩, hpass⟩ := hpass
    obtain rfl : events = chunk := Except.ok.inj ((passGates_ok hgates).1.symm.trans hbody)
    have hsame : submissionsFrom req.clock 0 events = submissionsFrom clock start events :=
      submissionsFrom_congr fun i hi => by rw [Nat.zero_add, hclock i hi]
    have hsettle : settleAll env (req.intake w.toImportWorld) w.rows
        (submissionsFrom req.clock 0 events) =
          settleAll env (w.toImportWorld.intake job) w.rows (submissionsFrom clock start events) := by
      rw [settleAll_standsFor hstands, hsame]
    have hrows := @ingestRequest_rows jsonLoads monthOf env w req hseq
    rw [hgates] at hrows
    simp only [hsettle, hstands.workspace] at hrows
    have houtcome := @ingestRequest_outcome jsonLoads monthOf env w req events hseq hgates
    simp only [hsettle] at houtcome
    have hintake := intake_of_workspaces
      (@ingestRequest_workspaces jsonLoads monthOf env w req) job
    simp only [List.map_cons, List.flatten_cons, submissionsFrom_append] at hcalm ⊢
    obtain ⟨hfirst, hsecond, heq⟩ := settleAll_append hcalm
    have hahead : SequenceAhead (ingestRequest monthOf jsonLoads env req w).2.rows := by
      rw [hrows]
      exact @settleAll_ahead env (w.toImportWorld.intake job) w.rows hseq _
    have hlater : (settleAll env ((ingestRequest monthOf jsonLoads env req w).2.toImportWorld.intake job)
        (ingestRequest monthOf jsonLoads env req w).2.rows (submissionsFrom clock (start + events.length)
          (posts.map Prod.snd).flatten)).2 = none := by
      rw [hintake, hrows]
      exact hsecond
    obtain ⟨settled, hlengths, hflatten, houtcomes, hleft⟩ := ih hahead hrest hpass hlater
    rw [hintake, hrows] at hflatten
    refine ⟨(settleAll env (w.toImportWorld.intake job) w.rows
      (submissionsFrom clock start events)).1 :: settled, ?_, ?_, ?_, ?_⟩
    · rw [List.map_cons, hlengths, settleAll_length hfirst, length_submissionsFrom]
    · rw [List.flatten_cons, hflatten, heq]
      rfl
    · rw [postAll, List.map_cons, houtcome, hfirst, ← houtcomes]
    · rw [postAll, List.flatten_cons]
      simp only [hleft, hrows]
      exact (List.foldl_append ..).symm

/-! ### The import lane -/

theorem lineOutcomes_events {rt : Runtime} {events : List Json}
    (hevents : ∀ e ∈ events, jsonLoads (jsonDumps rt e) = .ok e ∧ blank (jsonDumps rt e) = false)
    (start : ℕ) (h : (settleAll env intake st (submissionsFrom clock start events)).2 = none) :
    lineOutcomes jsonLoads env intake clock st
        (((events.map (jsonDumps rt)).zipIdx start).map Prod.swap) =
      (((settleAll env intake st (submissionsFrom clock start events)).1.zipIdx start).map
        fun x => (x.2, .settled x.1), none) := by
  induction events generalizing start st with
  | nil => rfl
  | cons event events ih =>
    obtain ⟨⟨hloads, hblank⟩, hrest⟩ := List.forall_mem_cons.1 hevents
    rw [submissionsFrom, settleAll] at h ⊢
    simp only [List.map_cons, List.zipIdx_cons, Prod.swap_prod_mk, lineOutcomes, hblank, hloads,
      Bool.false_eq_true, if_false]
    cases hsettle : settle env intake st.1 ⟨event, clock start⟩ with
    | error e => simp [hsettle] at h
    | ok x =>
      rw [hsettle] at h
      simp only [ih hrest (start + 1) h]
      rfl

/-- The lines of an upload are those that were written. -/
theorem splitlines_ndjson {rt : Runtime} {events : List Json}
    (h : ∀ e ∈ events, Writable rt e) :
    splitlines (joinLines (events.map (jsonDumps rt))) = events.map (jsonDumps rt) := by
  refine splitlines_unbroken fun s hs => ?_
  obtain ⟨e, he, rfl⟩ := List.mem_map.1 hs
  obtain ⟨c, hc, -⟩ := (h e he).not_blank
  exact ⟨List.ne_nil_of_mem hc, (h e he).unbroken⟩

theorem decodedLines_ndjson {rt : Runtime} {events : List Json}
    (h : ∀ e ∈ events, Writable rt e) :
    decodedLines jsonLoads (joinLines (events.map (jsonDumps rt))) = events.map .ok := by
  rw [decodedLines, splitlines_ndjson h, List.filter_eq_self.2, List.map_map]
  · exact List.map_congr_left fun e he => jsonLoads_jsonDumps (h e he)
  · intro s hs
    obtain ⟨e, he, rfl⟩ := List.mem_map.1 hs
    rw [blank_eq_false_iff.2 (h e he).not_blank]
    rfl

theorem tallyLines_received (outcomes : List (ℕ × LineOutcome)) :
    (tallyLines outcomes).received =
      (tallyLines outcomes).accepted + (tallyLines outcomes).duplicate +
        (tallyLines outcomes).rejected := by
  induction outcomes with
  | nil => rfl
  | cons o outcomes ih =>
    simp only [tallyLines, List.length_cons, List.countP_cons] at ih ⊢
    cases o.2.status <;> simp <;> omega

theorem length_errorLinesOf (env : Env) (outcomes : List (ℕ × LineOutcome)) :
    (errorLinesOf env outcomes).length = (tallyLines outcomes).rejected := by
  rw [errorLinesOf, List.length_map]
  exact List.countP_eq_length_filter.symm

theorem persistLines_linesOf (ws : ℕ) (xs : List Settled) (st : Db × ℕ) :
    persistLines ws (linesOf xs) st = persistAll ws xs st := by
  have hevents : xs.zipIdx.map Prod.fst = xs := List.zipIdx_map_fst 0 xs
  rw [persistAll, ← hevents, List.foldl_map, hevents, persistLines, linesOf, List.foldl_map]
  rfl

/-- Where every chunk passes the gates of the sync lane and no event raises, the lanes
agree on events without a high surrogate before a low one. -/
theorem lanes_agree {w : LaneWorld} {job : ImportJobRow} {data : ByteArray} {events : List Json}
    {posts : List (LaneRequest × List Json)} (hseq : SequenceAhead w.rows)
    (hjob : w.job? importRef = some job) (hevents : ∀ e ∈ events, Writable env.rt e)
    (hndjson : uploadNdjson env.rt events = .ok data)
    (hupload : w.get uploadBucket job.uploadPath = some data)
    (hchunks : (posts.map Prod.snd).flatten = events) (hposts : Carries clock job 0 posts)
    (hcalm : noneRaises env (w.toImportWorld.intake job) (submissionsFrom clock 0 events) w.rows =
      true)
    (hpass : AllPass monthOf env (posts.map Prod.fst) w) :
    LanesAgree monthOf env clock importRef w job (joinLines (events.map (jsonDumps env.rt))) events
      posts := by
  subst hchunks
  have hnone := (noneRaises_iff hseq _).1 hcalm
  obtain ⟨settled, hlengths, hflatten, houtcomes, hleft⟩ := postAll_settles hseq hposts hpass hnone
  have hlines : lineOutcomes jsonLoads env (w.toImportWorld.intake job) clock w.rows (numberedLines
      (joinLines ((posts.map Prod.snd).flatten.map (jsonDumps env.rt)))) =
        (linesOf settled.flatten, none) := by
    rw [numberedLines, splitlines_ndjson hevents, lineOutcomes_events (fun e he =>
      ⟨jsonLoads_jsonDumps (hevents e he), blank_eq_false_iff.2 (hevents e he).not_blank⟩) 0 hnone,
      hflatten]
    rfl
  have hraw := utf8Decode_encode hndjson
  obtain ⟨job', hjob', -, haccounts⟩ := accounts_of_lines hseq hjob hupload hraw hlines
  refine ⟨decodedLines_ndjson hevents, ?_, settled, job', hlengths, houtcomes, hjob', haccounts, ?_, ?_⟩
  · rw [haccounts.rows, hleft, persistLines_linesOf]
  · rw [haccounts.counts]
    exact tallyLines_received _
  · rw [haccounts.counts]
    exact length_errorLinesOf env _

/-! ### One chunk -/

theorem writable_meterEvent : Writable asciiRuntime (.obj meterEvent) :=
  writable_tokens (by unfold ReadsBack; decide) (by decide)

/-- The event as a chunk of its own, by a workspace key. -/
def meterPost : LaneRequest where
  principal := ⟨1, .production, .workspace, []⟩
  sourceRef := []
  now := sampleNow
  clock _ := sampleNow
  body := batchBody [.obj meterEvent]
  sourceRef_ok := textOk_nil

/-- The event is uploaded, and this many requests were counted in the minute. -/
def meterLanes (hits : ℕ) : LaneWorld where
  toImportWorld := oneImport .active meterLine
  windowHits := [((1, minuteOf sampleNow), hits)]

theorem batchEvents_meterPost : batchEvents jsonLoads meterPost.body = .ok [.obj meterEvent] := by
  have hsize : (batchBody [.obj meterEvent]).size = 216 := by decide +kernel
  simp only [meterPost]
  exact batchEvents_batchBody (List.forall_mem_singleton.2 writable_meterEvent)
    (by rw [hsize]; decide) (by simp [maxBatch])

/-- The meter event again, with another quantity. -/
def repeatedEvent : Dict :=
  [(py "schema_version", .str (py "1.0")), (py "deployment_id", .str (py "d")),
    (py "event_type", .str (py "cost_meter")), (py "origin", .str (py "vendor_product")),
    (py "payload", .obj [(py "meter", .str (py "tokens_in")), (py "quantity", .num (.int 5)),
      (py "timestamp", .str (py "2026-01-02T04:04:05.678901+01:00"))])]

theorem writable_repeatedEvent : Writable asciiRuntime (.obj repeatedEvent) :=
  writable_tokens (by unfold ReadsBack; decide) (by decide)

/-- A second chunk. -/
def repeatPost : LaneRequest := { meterPost with body := batchBody [.obj repeatedEvent] }

theorem batchEvents_repeatPost :
    batchEvents jsonLoads repeatPost.body = .ok [.obj repeatedEvent] := by
  have hsize : (batchBody [.obj repeatedEvent]).size = 216 := by decide +kernel
  simp only [repeatPost]
  exact batchEvents_batchBody (List.forall_mem_singleton.2 writable_repeatedEvent)
    (by rw [hsize]; decide) (by simp [maxBatch])

theorem carries_meterPost :
    Carries (fun _ => sampleNow) queuedJob 0 [(meterPost, [.obj meterEvent])] :=
  ⟨⟨rfl, rfl, rfl, rfl⟩, batchEvents_meterPost, fun _ _ => rfl, trivial⟩

theorem carries_repeatPost : Carries (fun _ => sampleNow) queuedJob 0
    [(meterPost, [.obj meterEvent]), (repeatPost, [.obj repeatedEvent])] :=
  ⟨⟨rfl, rfl, rfl, rfl⟩, batchEvents_meterPost, fun _ _ => rfl, ⟨rfl, rfl, rfl, rfl⟩,
    batchEvents_repeatPost, fun _ _ => rfl, trivial⟩

/-- Both events on lines of one upload. -/
def repeatedLines : PyStr :=
  joinLines ([Json.obj meterEvent, .obj repeatedEvent].map (jsonDumps asciiRuntime))

/-- They are uploaded, and no request was counted. -/
def repeatedLanes : LaneWorld where
  toImportWorld := oneImport .active repeatedLines
  windowHits := []

theorem uploadNdjson_repeated :
    uploadNdjson asciiRuntime [.obj meterEvent, .obj repeatedEvent] =
      .ok (uploadOf repeatedLines) := by
  have hencodable : utf8Encodable repeatedLines = true := by decide +kernel
  rw [uploadNdjson, utf8Encode]
  exact if_pos hencodable

/-- The server after the first chunk. -/
def afterMeterPost : LaneWorld :=
  { (checkRate repeatedLanes 1 600 sampleNow).2 with
    rows := ((ingestLoop sampleEnv (meterPost.intake repeatedLanes.toImportWorld)
      (submissionsFrom (fun _ => sampleNow) 0 [.obj meterEvent]) []).run repeatedLanes.rows.1
        repeatedLanes.rows.2).2 }

theorem ingestRequest_meterPost :
    (ingestRequest utcMonth jsonLoads sampleEnv meterPost repeatedLanes).2 = afterMeterPost := by
  unfold ingestRequest passGates
  rw [batchEvents_meterPost]
  rfl

theorem allPass_repeated :
    AllPass utcMonth sampleEnv [meterPost, repeatPost] repeatedLanes := by
  refine ⟨exists_of_isOk ?_, ?_⟩
  · unfold passGates
    rw [batchEvents_meterPost]
    decide +kernel
  · rw [ingestRequest_meterPost]
    refine ⟨exists_of_isOk ?_, trivial⟩
    unfold passGates
    rw [batchEvents_repeatPost]
    decide +kernel

theorem statuses_repeated :
    (postAll utcMonth sampleEnv [meterPost, repeatPost] repeatedLanes).1.map Outcome.statuses =
      [some [.accepted], some [.duplicate]] := by
  have hfirst : (ingestRequest utcMonth jsonLoads sampleEnv meterPost repeatedLanes).1.statuses =
      some [.accepted] := by
    unfold ingestRequest passGates
    rw [batchEvents_meterPost]
    decide +kernel
  have hsecond : (ingestRequest utcMonth jsonLoads sampleEnv repeatPost
      afterMeterPost).1.statuses = some [.duplicate] := by
    unfold ingestRequest passGates
    rw [batchEvents_repeatPost]
    decide +kernel
  simp only [postAll, List.map_cons, List.map_nil, ingestRequest_meterPost, hfirst, hsecond]

/-- Two chunks, the second with a duplicate: in both lanes the first event wins. -/
theorem lanes_agree_meterLine :
    LanesAgree utcMonth sampleEnv (fun _ => sampleNow) (py "imp_1") repeatedLanes queuedJob
      repeatedLines [.obj meterEvent, .obj repeatedEvent]
      [(meterPost, [.obj meterEvent]), (repeatPost, [.obj repeatedEvent])] ∧
    (postAll utcMonth sampleEnv [meterPost, repeatPost] repeatedLanes).1.map Outcome.statuses =
      [some [.accepted], some [.duplicate]] := by
  refine ⟨?_, statuses_repeated⟩
  refine lanes_agree (sequenceAhead_oneImport _ _) rfl ?_ uploadNdjson_repeated rfl rfl
    carries_repeatPost (by decide +kernel) allPass_repeated
  exact List.forall_mem_cons.2
    ⟨writable_meterEvent, List.forall_mem_singleton.2 writable_repeatedEvent⟩

/-- Two surrogates, each a character of the string. -/
def pairEvent : Json := .obj [(py "note", .str [0xD83D, 0xDE00])]

/-- A line with the pair decoded as one character. -/
def joinsPair : Except LoadsError Json → Bool
  | .ok (.obj [(_, .str s)]) => s = [0x1F600]
  | _ => false

/-- With the requests of the minute used up, the chunk is refused that the import takes;
and an event with a high surrogate before a low one is not what the worker decodes. -/
theorem lanes_disagree :
    (Carries (fun _ => sampleNow) queuedJob 0 [(meterPost, [.obj meterEvent])] ∧
      noneRaises sampleEnv ((meterLanes 600).toImportWorld.intake queuedJob)
        (submissionsFrom (fun _ => sampleNow) 0 [.obj meterEvent]) (meterLanes 600).rows = true ∧
      ¬ LanesAgree utcMonth sampleEnv (fun _ => sampleNow) (py "imp_1") (meterLanes 600) queuedJob
        (joinLines [meterLine]) [.obj meterEvent] [(meterPost, [.obj meterEvent])]) ∧
    (noneRaises sampleEnv ((meterLanes 0).toImportWorld.intake queuedJob)
        (submissionsFrom (fun _ => sampleNow) 0 [pairEvent]) (meterLanes 0).rows = true ∧
      decodedLines jsonLoads (joinLines [jsonDumps asciiRuntime pairEvent]) ≠ [.ok pairEvent]) := by
  refine ⟨⟨carries_meterPost, by decide +kernel, fun hagree => ?_⟩, by decide +kernel, ?_⟩
  · have hseq : SequenceAhead (meterLanes 600).rows := sequenceAhead_oneImport _ _
    have hrefused : (passGates utcMonth jsonLoads (meterLanes 600) meterPost).1.toOption = none := by
      unfold passGates
      rw [batchEvents_meterPost]
      rfl
    have hsync := @ingestRequest_rows jsonLoads utcMonth sampleEnv (meterLanes 600) meterPost hseq
    cases hgates : (passGates utcMonth jsonLoads (meterLanes 600) meterPost).1 with
    | ok events =>
      rw [hgates] at hrefused
      cases hrefused
    | error e =>
      have hkept : (ingestRequest utcMonth jsonLoads sampleEnv meterPost (meterLanes 600)).2.rows =
          (meterLanes 600).rows := by
        rw [hsync, hgates]
      have himport := (@runImportJob_rows jsonLoads sampleEnv (fun _ => sampleNow)
        (meterLanes 600).toImportWorld (py "imp_1") hseq).1
      have hlines : uploadedLines (meterLanes 600).toImportWorld (py "imp_1") =
          numberedLines meterLine :=
        uploadedLines_oneImport (writable_meterEvent.utf8Encodable asciiRuntime_sound)
      have hrows := hagree.rows
      simp only [List.map_cons, List.map_nil, postAll] at hrows
      rw [hkept, himport, hlines] at hrows
      have hlength := congrArg (fun st : Db × ℕ => st.1.entries.length) hrows
      revert hlength
      decide +kernel
  · intro hdecoded
    have hjoined : (decodedLines jsonLoads (joinLines [jsonDumps asciiRuntime pairEvent])).all joinsPair =
        true := by decide +kernel
    rw [hdecoded] at hjoined
    cases hjoined

end TrueFigure.Server
