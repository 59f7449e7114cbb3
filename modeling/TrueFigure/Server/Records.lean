import TrueFigure.Server.Engine
import TrueFigure.Server.Ingest

/-!
# Figures and reports, written concurrently

`compute_deployment` and the transaction of `issue_report`, one statement at a time,
over `figures`, `reports` and `report_figures`, each row under its unique key. All
other tables are what the statements read at their moment.
-/
namespace TrueFigure.Server

open TrueFigure.Library TrueFigure.Python

/-- The tables the methods read. -/
structure Evidence where
  db : Db
  books : Books

def noEvidence : Evidence := ⟨∅, ⟨[], [], [], [], []⟩⟩

/-- The columns that identify a row, by table; the tables the engine only reads
are one row. -/
inductive RecordKey
  | evidence
  | figure (deploymentId : ℕ) (figureRef : PyStr) (version : ℕ)
  | report (deploymentId : ℕ) (reportRef : PyStr) (version : ℕ)
  | reportFigure (reportId figureId : ℕ)
  deriving DecidableEq

@[reducible] def Record : RecordKey → Type
  | .evidence => Evidence
  | .figure .. => Figure
  | .report .. => ReportRow
  | .reportFigure .. => ReportFigureRow

abbrev Records := Store Record

namespace Records

variable (s : Records)

def evidence : Evidence := (s.lookup .evidence).getD noEvidence

def figureOf : Sigma Record → Option Figure
  | ⟨.figure .., row⟩ => some row
  | _ => none

def reportOf : Sigma Record → Option ReportRow
  | ⟨.report .., row⟩ => some row
  | _ => none

def reportFigureOf : Sigma Record → Option ReportFigureRow
  | ⟨.reportFigure .., row⟩ => some row
  | _ => none

/-- The rows as `issue_report` reads them, in table order. -/
def archive (nextId : ℕ) : Archive where
  deployments := s.evidence.books.deployments.map MeasuredDeployment.id
  figures := (s.entries.filterMap figureOf).map Figure.toFigureRow
  reports := s.entries.filterMap reportOf
  reportFigures := s.entries.filterMap reportFigureOf
  objects := fun _ => none
  nextId := nextId

/-- `SELECT COALESCE(MAX(version),0)+1 … FROM figures`. -/
def nextVersion (deploymentId : ℕ) (figureRef : PyStr) : ℕ :=
  (((s.archive 0).figures.filter fun f =>
    f.deploymentId = deploymentId ∧ f.figureRef = figureRef).map fun f => f.version).foldr max 0 + 1

end Records

/-- What a transaction of the engine hands back. -/
inductive RecordReply
  | written (refs : List PyStr)
  | issued (path : PyStr) (artifact : Artifact)

abbrev RecordTxn := Txn Record Failure RecordReply

/-! ### `compute_deployment` -/

def writeFigure (workspaceId deploymentId : ℕ) (d : Draft) (next : RecordTxn) : RecordTxn :=
  .read fun s : Records =>
    let version := s.nextVersion deploymentId d.figureRef
    .fresh fun id =>
      .write (.figure deploymentId d.figureRef version)
        (fun before => liftDb do
          let row ← figureValues s.evidence.books id workspaceId deploymentId version d
          insertNew row before)
        fun _ => next

/-- One method of the engine: what it reads, and the figure it writes, if any. -/
def runMethod (workspaceId deploymentId : ℕ) (method : Evidence → Except Failure (Option Draft))
    (written : List PyStr) (next : List PyStr → RecordTxn) : RecordTxn :=
  .read fun s : Records =>
    match method s.evidence with
    | .error e => .throw e
    | .ok none => next written
    | .ok (some d) => writeFigure workspaceId deploymentId d (next (written ++ [d.figureRef]))

/-- The methods in the order they run, one after the other. -/
def runMethods (workspaceId deploymentId : ℕ) :
    List (Evidence → Except Failure (Option Draft)) → List PyStr → RecordTxn
  | [], written => .pure (.written written)
  | method :: methods, written =>
    runMethod workspaceId deploymentId method written (runMethods workspaceId deploymentId methods)

section

variable {F : Type} (plan : Planner) (rt : DecimalText) (fl : Floats F)
  (workspaceId deploymentId : ℕ) (period : PyStr)

/-- The methods that apply to a type of deployment. -/
def methodsOf (deploymentType : Option DeploymentType) :
    List (Evidence → Except Failure (Option Draft)) :=
  [fun e => (computeCost plan rt e.db e.books workspaceId deploymentId period).map some,
    fun e => (computeSeats rt e.db e.books workspaceId deploymentId period).map some,
    fun e => computeTimeSavings plan fl e.db e.books workspaceId deploymentId period] ++
  if deploymentType = some .agent then
    [fun e => computeContainment plan fl e.db e.books deploymentId period]
  else []

/-- The transaction of `compute_deployment`. -/
def computeDeployment : RecordTxn :=
  .read fun s : Records =>
    let row := s.evidence.books.deployments.find? fun d => d.id = deploymentId
    runMethods workspaceId deploymentId
      (methodsOf plan rt fl workspaceId deploymentId period (row.map MeasuredDeployment.deploymentType))
      []

end

/-! ### `issue_report` -/

/-- The values of `INSERT INTO reports`, as its columns and constraints take them. -/
def reportValues (b : Books) (id version : ℕ) (c : Issue) (gradeProfile : List (PyStr × ℕ)) :
    Except DbError ReportRow :=
  if integerMax < version then .error .integerOverflow
  else if !periodOk c.period then .error .checkViolation
  else if !b.deployments.any fun d => d.id = c.deploymentId then .error .foreignKeyViolation
  else
    .ok
      { id := id
        deploymentId := c.deploymentId
        reportRef := reportRefOf c.period
        version := version
        period := c.period
        issuedAt := c.now
        gradeProfile := gradeProfile
        artifactPath := artifactPathOf c.workspaceId (reportRefOf c.period) version
        supersedesVersion := if 1 < version then some (version - 1) else none }

/-- The inserts into `report_figures`. -/
def bindFigures (deploymentId reportId : ℕ) (next : RecordTxn) : List FigureRow → RecordTxn
  | [] => next
  | f :: figs =>
    .write (.reportFigure reportId f.id)
      (fun before => liftDb (insertNew ⟨deploymentId, reportId, f.id⟩ before))
      fun _ => bindFigures deploymentId reportId next figs

/-- The artifact of a report over these figures. -/
def artifactOf (c : Issue) (version : ℕ) (figs : List FigureRow) : Artifact where
  reportRef := reportRefOf c.period
  version := version
  period := c.period
  gradeProfile := figs.foldl Archive.countGrade []
  figures := figs.map fun f => ⟨f.figureRef, f.version, f.claim, f.figureStatus, f.value⟩

/-- The transaction of `issue_report`. -/
def issueTransaction (collate : PyStr → PyStr → Bool) (c : Issue) : RecordTxn :=
  .read fun s : Records =>
    let figs := (s.archive 0).latestFigures collate c.deploymentId c.period
    .read fun s : Records =>
      let version := (s.archive 0).nextVersion c.deploymentId (reportRefOf c.period)
      .fresh fun id =>
        .write (.report c.deploymentId (reportRefOf c.period) version)
          (fun before => liftDb do
            let row ← reportValues s.evidence.books id version c (figs.foldl Archive.countGrade [])
            insertNew row before)
          fun _ => bindFigures c.deploymentId id
            (.pure (.issued (artifactPathOf c.workspaceId (reportRefOf c.period) version)
              (artifactOf c version figs))) figs

end TrueFigure.Server
