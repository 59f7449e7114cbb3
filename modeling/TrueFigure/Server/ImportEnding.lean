import TrueFigure.Python.JsonDump
import TrueFigure.Server.ImportEvaluation

/-!
# How an import job ends

The status of a job is set before its loop and once more behind it, and nothing
between catches what a line raises. So a job ends, accounting for every line,
exactly when its upload is UTF-8 and no line raises at the rows its predecessors
left; else it stays in `processing`.
-/
namespace TrueFigure.Server

open TrueFigure.Library TrueFigure.Python

section Statement

variable (loads : Decoder) (env : Env) (clock : ℕ → ℕ) (importRef : PyStr) (w : ImportWorld)

/-- What a job has stored agrees with what its lines came to. -/
structure Accounts (job : ImportJobRow) (lines : List (ℕ × PyStr)) (w' : ImportWorld)
    (job' : ImportJobRow) (outcomes : List (ℕ × LineOutcome)) : Prop where
  /-- Every line that is not blank, and no other, in order. -/
  processed : outcomes.map Prod.fst = (lines.filter fun l => !blank l.2).map Prod.fst
  /-- Each line came to this at the rows its predecessors left. -/
  settled : lineOutcomes loads env (w.intake job) clock w.rows lines = (outcomes, none)
  rows : w'.rows = persistLines job.workspaceId outcomes w.rows
  counts : job'.counts = tallyLines outcomes
  /-- Every event that was persisted is counted. -/
  stored : job'.counts.accepted = outcomes.countP fun o => o.2.stores
  report : (errorLinesOf env outcomes = [] ∧ job'.errorReportPath = none) ∨
    ∃ path data, job'.errorReportPath = some path ∧ w'.get errorBucket path = some data ∧
      errorReport (errorLinesOf env outcomes) = .ok data

/-- Once `run_import` is back, the job has ended, and its row and report describe
the lines processed. -/
def JobEnds : Prop :=
  let w' := (runImportJob loads env clock importRef w).2
  ∃ job job' raw outcomes, w.job? importRef = some job ∧ w'.job? importRef = some job' ∧
    job'.importStatus.terminal = true ∧
    (∃ data, w.get uploadBucket job.uploadPath = some data ∧ utf8Decode data = .ok raw) ∧
    Accounts loads env clock w job (numberedLines raw) w' job' outcomes

/-- No line raises at the rows the lines before it left. -/
def Unhindered (intake : Intake) (st : Db × ℕ) (lines : List (ℕ × PyStr)) : Prop :=
  ∀ before lineNo line after, lines = before ++ (lineNo, line) :: after → blank line = false →
    loads line ≠ .error .digits ∧ loads line ≠ .error .recursion ∧
      ∀ event, loads line = .ok event →
      ¬ Raises env intake (importLines loads env intake clock before .start st).2.1
        ⟨event, clock lineNo⟩

end Statement

variable {loads : Decoder} {env : Env} {intake : Intake} {clock : ℕ → ℕ} {st : Db × ℕ} {importRef : PyStr}
  {w : ImportWorld} {job : ImportJobRow}

theorem lineOutcomes_none_iff {lines : List (ℕ × PyStr)} :
    (lineOutcomes loads env intake clock st lines).2 = none ↔
      ∀ before lineNo line after, lines = before ++ (lineNo, line) :: after → blank line = false →
        loads line ≠ .error .digits ∧ loads line ≠ .error .recursion ∧
      ∀ event, loads line = .ok event →
          ¬ Raises env intake (persistLines intake.principal.workspaceId
            (lineOutcomes loads env intake clock st before).1 st).1 ⟨event, clock lineNo⟩ := by
  induction lines generalizing st with
  | nil => simp [lineOutcomes]
  | cons numbered lines ih =>
    obtain ⟨lineNo, line⟩ := numbered
    have hsplit : ∀ {P : List (ℕ × PyStr) → ℕ → PyStr → Prop},
        (∀ before n l after, (lineNo, line) :: lines = before ++ (n, l) :: after → P before n l) ↔
          P [] lineNo line ∧ ∀ before n l after, lines = before ++ (n, l) :: after →
            P ((lineNo, line) :: before) n l := by
      intro P
      constructor
      · intro h
        exact ⟨h [] lineNo line lines rfl, fun before n l after hlines =>
          h _ n l after (by rw [hlines]; rfl)⟩
      · rintro ⟨hhead, htail⟩ before n l after hlines
        cases before with
        | nil =>
          obtain ⟨heq, -⟩ := List.cons.inj hlines
          cases heq
          exact hhead
        | cons b before =>
          obtain ⟨rfl, hrest⟩ := List.cons.inj hlines
          exact htail before n l after hrest
    rw [hsplit (P := fun before n l => blank l = false → loads l ≠ .error .digits ∧
      loads l ≠ .error .recursion ∧
      ∀ event, loads l = .ok event → ¬ Raises env intake
        (persistLines intake.principal.workspaceId (lineOutcomes loads env intake clock st before).1
          st).1 ⟨event, clock n⟩)]
    cases hblank : blank line with
    | true =>
      simp only [lineOutcomes, hblank, if_true, ih]
      simp
    | false =>
      cases hloads : loads line with
      | error e =>
        cases e with
        | decode =>
          simp only [lineOutcomes, hblank, hloads, Bool.false_eq_true, if_false, ih]
          simp [persistLines, LineOutcome.persisted, Persisted.apply]
        | digits => simp [lineOutcomes, hblank, hloads]
        | recursion => simp [lineOutcomes, hblank, hloads]
      | ok event =>
        cases hsettle : settle env intake st.1 ⟨event, clock lineNo⟩ with
        | error e =>
          have hraises : Raises env intake st.1 ⟨event, clock lineNo⟩ :=
            settle_error_iff.1 ⟨e, hsettle⟩
          simp [lineOutcomes, hblank, hloads, hsettle, persistLines, hraises]
        | ok x =>
          have hcalm : ¬ Raises env intake st.1 ⟨event, clock lineNo⟩ := by
            intro hraises
            obtain ⟨e, he⟩ := settle_error_iff.2 hraises
            cases he.symm.trans hsettle
          simp only [lineOutcomes, hblank, hloads, hsettle, Bool.false_eq_true, if_false, ih]
          simp [persistLines, LineOutcome.persisted, hcalm]

theorem unhindered_iff (hseq : SequenceAhead st) {lines : List (ℕ × PyStr)} :
    Unhindered loads env clock intake st lines ↔ (lineOutcomes loads env intake clock st lines).2 = none := by
  rw [lineOutcomes_none_iff]
  simp only [Unhindered, importLines_eq hseq]

theorem stores_iff_accepted (hmode : intake.principal.isTest = false) {sub : Submission}
    {x : Settled} (h : settle env intake st.1 sub = .ok x) :
    (LineOutcome.settled x).stores = true ↔ x.verdict.status = .accepted := by
  cases settle_exit h with
  | echoed _ htest => cases hmode.symm.trans htest
  | duplicate => simp [LineOutcome.stores, LineOutcome.persisted, Persisted.isEvent, duplicateVerdict]
  | stored => simp [LineOutcome.stores, LineOutcome.persisted, Persisted.isEvent, acceptedVerdict]
  | refused _ htest => cases hmode.symm.trans htest
  | quarantined => simp [LineOutcome.stores, LineOutcome.persisted, Persisted.isEvent, rejectedVerdict]

theorem countP_stores (hmode : intake.principal.isTest = false) {lines : List (ℕ × PyStr)} :
    (lineOutcomes loads env intake clock st lines).1.countP (fun o => o.2.stores) =
      (tallyLines (lineOutcomes loads env intake clock st lines).1).accepted := by
  refine List.countP_congr fun o ho => ?_
  obtain ⟨n, o⟩ := o
  suffices h : o.stores = true ↔ o.status = .accepted by simpa using h
  induction lines generalizing st with
  | nil => cases ho
  | cons numbered lines ih =>
    obtain ⟨lineNo, line⟩ := numbered
    rw [lineOutcomes] at ho
    split_ifs at ho
    · exact ih ho
    · split at ho
      · rcases List.mem_cons.1 ho with heq | ho
        · cases heq
          simp [LineOutcome.stores, LineOutcome.persisted, Persisted.isEvent, LineOutcome.status]
        · exact ih ho
      · cases ho
      · cases ho
      · split at ho
        · cases ho
        · rename_i hsettle
          rcases List.mem_cons.1 ho with heq | ho
          · cases heq
            exact stores_iff_accepted hmode hsettle
          · exact ih ho

/-! ### The error report -/

theorem all_printable_errorLine (lineNo : ℕ) (o : LineOutcome) :
    (o.errorLine env lineNo).all isPrintableAscii = true := by
  have hnumber : (dumpNumber env.rt (.int lineNo)).all isPrintableAscii = true :=
    all_printable_dumpInt _
  have herror : ∀ e : ErrorObject,
      e.json.all (fun n => (dumpNumber env.rt n).all isPrintableAscii) (fun _ => true) = true := by
    intro e
    cases hpath : e.fieldPath <;> cases hdetail : e.detail <;>
      simp [ErrorObject.json, Json.all, Json.allFields, Json.allField, hpath, hdetail]
  cases o with
  | undecodable =>
    refine all_jsonDumps (fun _ h => h) _ ?_
    simp only [Json.all, Json.allFields, Json.allField, hnumber, Bool.and_self]
  | settled x =>
    refine all_jsonDumps (fun _ h => h) _ ?_
    cases hkey : x.verdict.eventKey <;> cases hobject : x.verdict.error <;>
      simp [Json.all, Json.allFields, Json.allField, hnumber, herror]

theorem errorReport_ok (env : Env) (outcomes : List (ℕ × LineOutcome)) :
    ∃ data, errorReport (errorLinesOf env outcomes) = .ok data := by
  have hjoin : utf8Encodable (joinLines (errorLinesOf env outcomes)) = true := by
    refine all_joinLines rfl fun s hs => ?_
    obtain ⟨⟨n, o⟩, -, rfl⟩ := List.mem_map.1 hs
    exact utf8Encodable_of_printable (all_printable_errorLine n o)
  have hall : utf8Encodable (joinLines (errorLinesOf env outcomes) ++ [0x0A]) = true := by
    rw [utf8Encodable_append, hjoin]
    rfl
  exact ⟨_, by rw [errorReport, utf8Encode, if_pos hall]⟩

/-! ### The end of a job -/

theorem job?_updateJob {f : ImportJobRow → ImportJobRow}
    (hf : ∀ row, (f row).importRef = row.importRef) (hjob : w.job? importRef = some job) :
    (w.updateJob job.id f).job? importRef = some (f job) := by
  have hsame : ((fun row : ImportJobRow => decide (row.importRef = importRef)) ∘
      fun row => if row.id = job.id then f row else row) =
        fun row => decide (row.importRef = importRef) := by
    funext row
    simp only [Function.comp_apply]
    split_ifs
    · rw [hf]
    · rfl
  have hfound : w.jobs.find? (fun row => decide (row.importRef = importRef)) = some job := hjob
  simp only [ImportWorld.job?, ImportWorld.updateJob, List.find?_map, hsame, hfound,
    Option.map_some, if_true]

theorem runImportJob_eq {data : ByteArray} {raw : PyStr} {outcomes : List (ℕ × LineOutcome)}
    (hseq : SequenceAhead w.rows) (hjob : w.job? importRef = some job)
    (hupload : w.get uploadBucket job.uploadPath = some data) (hraw : utf8Decode data = .ok raw)
    (hlines : lineOutcomes loads env (w.intake job) clock w.rows (numberedLines raw) =
      (outcomes, none)) :
    runImportJob loads env clock importRef w =
      finishImport { w.setStatus job.id .processing with
        rows := persistLines job.workspaceId outcomes w.rows } job
        ⟨tallyLines outcomes, errorLinesOf env outcomes⟩ := by
  have hloop : importLines loads env (w.intake job) clock (numberedLines raw) .start w.rows =
      (.ok ⟨tallyLines outcomes, errorLinesOf env outcomes⟩,
        persistLines job.workspaceId outcomes w.rows) := by
    rw [importLines_eq hseq, hlines]
    simp [ImportProgress.after, ImportProgress.start]
    rfl
  simp only [runImportJob, hjob, hupload, hraw, hloop]

theorem finishImport_stores (hjob : w.job? importRef = some job)
    (counts : ImportCounts) (outcomes : List (ℕ × LineOutcome)) (row : ImportJobRow)
    (hrow : row.id = job.id) :
    let w' := (finishImport w row ⟨counts, errorLinesOf env outcomes⟩).2
    ∃ job', w'.job? importRef = some job' ∧ job'.importStatus.terminal = true ∧
      w'.rows = w.rows ∧ job'.counts = counts ∧
      ((errorLinesOf env outcomes = [] ∧ job'.errorReportPath = none) ∨
        ∃ path data, job'.errorReportPath = some path ∧ w'.get errorBucket path = some data ∧
          errorReport (errorLinesOf env outcomes) = .ok data) := by
  obtain ⟨report, hreport⟩ := errorReport_ok env outcomes
  have hterminal : (if counts.rejected ≠ 0 then ImportStatus.completedWithRejects
      else .completed).terminal = true := by
    split_ifs <;> rfl
  simp only [finishImport, hrow]
  generalize (if counts.rejected ≠ 0 then ImportStatus.completedWithRejects else .completed) =
    final at hterminal ⊢
  split_ifs with hnone
  · refine ⟨_, job?_updateJob (fun _ => rfl) hjob, hterminal, rfl, rfl, .inl ⟨hnone, rfl⟩⟩
  · simp only [hreport]
    have hput : (w.put errorBucket (errorReportPathOf row) report).job? importRef = some job := hjob
    refine ⟨_, job?_updateJob (fun _ => rfl) hput, hterminal, rfl, rfl, .inr ⟨_, _, rfl, ?_, rfl⟩⟩
    exact List.lookup_cons_self

/-- A job whose lines all come to something ends, and its row and report account for
them. -/
theorem accounts_of_lines {data : ByteArray} {raw : PyStr} {outcomes : List (ℕ × LineOutcome)}
    (hseq : SequenceAhead w.rows) (hjob : w.job? importRef = some job)
    (hupload : w.get uploadBucket job.uploadPath = some data) (hraw : utf8Decode data = .ok raw)
    (hlines : lineOutcomes loads env (w.intake job) clock w.rows (numberedLines raw) =
      (outcomes, none)) :
    ∃ job', (runImportJob loads env clock importRef w).2.job? importRef = some job' ∧
      job'.importStatus.terminal = true ∧ Accounts loads env clock w job (numberedLines raw)
        (runImportJob loads env clock importRef w).2 job' outcomes := by
  have hnone : (lineOutcomes loads env (w.intake job) clock w.rows (numberedLines raw)).2 = none := by
    rw [hlines]
  have hprocessing : (w.setStatus job.id .processing).job? importRef =
      some { job with importStatus := .processing } := job?_updateJob (fun _ => rfl) hjob
  obtain ⟨job', hjob', hterminal, hrows, hcounts, hreport⟩ :=
    finishImport_stores (w := { w.setStatus job.id .processing with
      rows := persistLines job.workspaceId _ w.rows }) hprocessing _ outcomes job rfl
  have hnumbers := lineOutcomes_numbers hnone
  have hstored := @countP_stores loads env (w.intake job) clock w.rows rfl (numberedLines raw)
  rw [hlines] at hnumbers hstored
  rw [runImportJob_eq hseq hjob hupload hraw hlines]
  refine ⟨job', hjob', hterminal, hnumbers, hlines, hrows, hcounts, ?_, hreport⟩
  rw [hcounts, hstored]

/-- A job whose upload is no UTF-8, or one of whose lines raises, stays in
`processing`. -/
theorem import_left_processing {data : ByteArray} (hseq : SequenceAhead w.rows)
    (hjob : w.job? importRef = some job) (hupload : w.get uploadBucket job.uploadPath = some data)
    (h : ¬ ∃ raw, utf8Decode data = .ok raw ∧
      Unhindered loads env clock (w.intake job) w.rows (numberedLines raw)) :
    (runImportJob loads env clock importRef w).2.job? importRef =
      some { job with importStatus := .processing } := by
  have hprocessing : (w.setStatus job.id .processing).job? importRef =
      some { job with importStatus := .processing } := job?_updateJob (fun _ => rfl) hjob
  cases hraw : utf8Decode data with
  | error e =>
    simp only [runImportJob, hjob, hupload, hraw]
    exact hprocessing
  | ok raw =>
    have hraises : (lineOutcomes loads env (w.intake job) clock w.rows (numberedLines raw)).2 ≠ none :=
      fun hnone => h ⟨raw, hraw, (unhindered_iff hseq).2 hnone⟩
    obtain ⟨e, he⟩ := Option.ne_none_iff_exists'.1 hraises
    simp only [runImportJob, hjob, hupload, hraw, importLines_eq hseq, he]
    exact hprocessing

/-! ### One line -/

def uploadOf (s : PyStr) : ByteArray := (String.ofList (s.map scalar)).toByteArray

theorem utf8Decode_uploadOf {s : PyStr} (h : utf8Encodable s = true) :
    utf8Decode (uploadOf s) = .ok s :=
  utf8Decode_encode (by rw [utf8Encode, if_pos h, uploadOf])

def queuedJob : ImportJobRow where
  id := 1
  workspaceId := 1
  importStatus := .queued
  importRef := py "imp_1"
  sourceRef := none
  uploadPath := py "1/imp_1.ndjson"
  counts := ⟨0, 0, 0, 0⟩
  errorReportPath := none
  sourceRef_ok := rfl

/-- The job has this upload, and deployment `d` this status. -/
def oneImport (status : DeploymentStatus) (upload : PyStr) : ImportWorld where
  rows := ((∅ : Db).insert (.deployment (py "d")) ⟨1, 1, status⟩, 0)
  workspaces := [⟨1, .free, 600, 400⟩]
  jobs := [queuedJob]
  objects := [((uploadBucket, py "1/imp_1.ndjson"), uploadOf upload)]

def meterLine : PyStr := jsonDumps asciiRuntime (.obj meterEvent)

theorem sequenceAhead_oneImport (status : DeploymentStatus) (upload : PyStr) :
    SequenceAhead (oneImport status upload).rows := by
  intro id _
  exact AList.lookup_insert_ne (by simp)

end TrueFigure.Server
