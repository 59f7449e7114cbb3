import TrueFigure.Server.Ingest
import TrueFigure.Server.PipelineInvariant

/-!
# Requests and imports are arrivals

The transactions of `ingest_events` and `run_import` insert accepted events and
write no aggregate, so the results on workers among arrivals hold of them.
-/
namespace TrueFigure.Server

open TrueFigure.Library TrueFigure.Python

/-- Every change that a run of the transaction makes is a good one. -/
def Writes (good : Change Row → Prop) (body : Transaction) : Prop :=
  ∀ log r, Runs body log r → ∀ c ∈ log, good c

section Writes

variable {good : Change Row → Prop}

theorem writes_pure (a : Reply) : Writes good (.pure a) := by
  intro log r h c hc
  cases h
  cases hc

theorem writes_throw (e : Failure) : Writes good (.throw e) := by
  intro log r h c hc
  cases h
  cases hc

theorem writes_read {next : Db → Transaction} (h : ∀ s, Writes good (next s)) :
    Writes good (.read next) := by
  intro log r hruns
  cases hruns with
  | read s hruns => exact h s log r hruns

theorem writes_fresh {next : ℕ → Transaction} (h : ∀ n, Writes good (next n)) :
    Writes good (.fresh next) := by
  intro log r hruns
  cases hruns with
  | fresh n hruns => exact h n log r hruns

theorem writes_write {k : RowKey} {update : Option (Row k) → Except Failure (Row k)}
    {next : Row k → Transaction}
    (hchange : ∀ before after, update before = .ok after → good ⟨k, before, after⟩)
    (h : ∀ row, Writes good (next row)) : Writes good (.write k update next) := by
  intro log r hruns
  cases hruns with
  | writeFail => exact fun c hc => nomatch hc
  | write before after hu hruns =>
    intro c hc
    rcases List.mem_cons.1 hc with rfl | hc
    · exact hchange before after hu
    · exact h after _ r hruns c hc

end Writes

theorem arrives_pure (a : Reply) : Arrives (.pure a) := writes_pure a

theorem arrives_throw (e : Failure) : Arrives (.throw e) := writes_throw e

theorem arrives_read {next : Db → Transaction} (h : ∀ s, Arrives (next s)) :
    Arrives (.read next) := writes_read h

theorem arrives_fresh {next : ℕ → Transaction} (h : ∀ n, Arrives (next n)) :
    Arrives (.fresh next) := writes_fresh h

theorem arrives_write {k : RowKey} {update : Option (Row k) → Except Failure (Row k)}
    {next : Row k → Transaction}
    (hchange : ∀ before after, update before = .ok after → Change.Arrives ⟨k, before, after⟩)
    (h : ∀ row, Arrives (next row)) : Arrives (.write k update next) := writes_write hchange h

/-- The changes of ingestion: a new accepted event, or an entry of `rejected_events`. -/
structure CoversIngestion (good : Change Row → Prop) : Prop where
  event : ∀ ws key t (row : EventRow), row.pipelineStatus = .accepted →
    good ⟨.event ws key t, none, row⟩
  rejected : ∀ id before after, good ⟨.rejectedEvent id, before, after⟩

section

variable (env : Env) (intake : Intake)

theorem eventValues_accepted {adm : Admitted} {dep : DeploymentRow} {row : EventRow}
    (h : eventValues intake adm dep = .ok row) : row.pipelineStatus = .accepted := by
  unfold eventValues at h
  split at h
  · split_ifs at h
    cases h
    rfl
  · cases h

theorem insertEvent_eq_ok {adm : Admitted} {dep : DeploymentRow} {before : Option EventRow}
    {after : EventRow} (h : insertEvent intake adm dep before = .ok after) :
    before = none ∧ eventValues intake adm dep = .ok after := by
  unfold insertEvent at h
  cases hrow : eventValues intake adm dep with
  | error e =>
    rw [hrow] at h
    cases h
  | ok row =>
    rw [hrow] at h
    cases before with
    | none => exact ⟨rfl, h⟩
    | some old => cases h

variable {good : Change Row → Prop}

theorem writes_storeOrEcho (h : CoversIngestion good) (index : ℕ) (adm : Admitted) (dep : DeploymentRow)
    (key : PyStr) : Writes good (storeOrEcho intake index adm dep key) := by
  unfold storeOrEcho
  extract_lets answer
  split_ifs
  · exact writes_pure _
  · refine writes_read fun s => ?_
    split_ifs
    · exact writes_pure _
    · refine writes_write (fun before after hu => ?_) fun row => writes_pure _
      obtain ⟨rfl, hrow⟩ := insertEvent_eq_ok intake (liftDb_eq_ok hu)
      exact h.event _ _ _ _ (eventValues_accepted intake hrow)

theorem writes_checkNamespaces {deploymentId : ℕ} {next : Transaction} (h : Writes good next)
    (fields : List (IdField × PyStr)) :
    Writes good (checkNamespaces env intake deploymentId next fields) := by
  induction fields with
  | nil => exact h
  | cons f fields ih =>
    obtain ⟨field, value⟩ := f
    refine writes_read fun s => ?_
    split
    · exact writes_throw _
    · exact ih

theorem writes_storeOne (h : CoversIngestion good) (index : ℕ) (adm : Admitted) :
    Writes good (storeOne env intake index adm) := by
  unfold storeOne resolveDep
  split
  · exact writes_throw _
  · refine writes_read fun s => ?_
    split
    · exact writes_throw _
    · refine writes_checkNamespaces env intake ?_ _
      split
      · exact writes_throw _
      · exact writes_storeOrEcho intake h index adm _ _

theorem writes_quarantine (h : CoversIngestion good) (event : Json) (err : TFError)
    (key : Option PyStr) : Writes good (quarantine env intake event err key) := by
  unfold quarantine
  split
  · exact writes_throw _
  · exact writes_fresh fun id => writes_write (fun _ _ _ => h.rejected _ _ _) fun _ => writes_pure _

theorem rejectOne_writes (hgood : CoversIngestion good) {index : ℕ} {event : Json} {err : TFError}
    {next : Except Failure EventResult → Process} (h : ∀ r, (next r).All (Writes good)) :
    (rejectOne env intake index event err next).All (Writes good) := by
  unfold rejectOne
  split
  · exact h _
  · extract_lets result
    split_ifs
    · exact h _
    · refine ⟨writes_quarantine env intake hgood event err _, fun r => ?_⟩
      cases r with
      | ok _ => exact h _
      | error e => exact h _

theorem processOne_writes (hgood : CoversIngestion good) {index : ℕ} {sub : Submission}
    {next : Except Failure EventResult → Process} (h : ∀ r, (next r).All (Writes good)) :
    (processOne env intake index sub next).All (Writes good) := by
  unfold processOne
  split
  · exact rejectOne_writes env intake hgood h
  · exact h _
  · refine ⟨writes_storeOne env intake hgood index _, fun r => ?_⟩
    dsimp only
    split
    · exact h _
    · exact h _
    · exact rejectOne_writes env intake hgood h
    · exact h _

theorem ingestLoop_writes (hgood : CoversIngestion good) (subs : List Submission)
    (results : List EventResult) : (ingestLoop env intake subs results).All (Writes good) := by
  induction subs generalizing results with
  | nil =>
    unfold ingestLoop respond
    split <;> trivial
  | cons sub subs ih =>
    refine processOne_writes env intake hgood fun r => ?_
    cases r with
    | ok r => exact ih _
    | error e => trivial

theorem ingestEvents_writes (hgood : CoversIngestion good) (events : List Submission) :
    (ingestEvents env intake events).All (Writes good) := by
  unfold ingestEvents
  split_ifs
  · trivial
  · exact ingestLoop_writes env intake hgood events []

theorem runImport_writes (hgood : CoversIngestion good) (lines : List (ℕ × Option Submission)) :
    (runImport env intake lines).All (Writes good) := by
  have hloop : ∀ intake counts, (importLoop env intake lines counts).All (Writes good) := by
    intro intake
    induction lines with
    | nil => exact fun counts => trivial
    | cons line lines ih =>
      intro counts
      obtain ⟨lineNo, _ | sub⟩ := line
      · exact ih _
      · refine processOne_writes env intake hgood fun r => ?_
        cases r with
        | ok r => exact ih _
        | error e => trivial
  exact hloop _ _

theorem ingested_arrives : CoversIngestion Change.Arrives :=
  ⟨fun _ _ _ _ haccepted => ⟨rfl, haccepted⟩, fun _ _ _ => trivial⟩

theorem ingestEvents_arrives (events : List Submission) :
    (ingestEvents env intake events).All Arrives :=
  ingestEvents_writes env intake ingested_arrives events

theorem runImport_arrives (lines : List (ℕ × Option Submission)) :
    (runImport env intake lines).All Arrives :=
  runImport_writes env intake ingested_arrives lines

end

end TrueFigure.Server
