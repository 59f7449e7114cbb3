import TrueFigure.Library.Fields
import TrueFigure.Python.DateTime
import TrueFigure.Server.Outcomes
import Mathlib.Data.List.Nodup

/-!
# Issued reports

`issue_report` of `domain/engine.py`: one transaction binds the latest version of
each figure of a period into a row of `reports`, then the artifact is put under
the row's path. The path names the workspace, the period and the version; the
version counts per deployment.
-/
namespace TrueFigure.Server

open TrueFigure.Library TrueFigure.Python

inductive FigureStatus
  | computed | refused | awaitingParameters
  deriving DecidableEq, Repr

inductive GradeType
  | estimate | measured | verified
  deriving DecidableEq, Repr

def FigureStatus.wire : FigureStatus → PyStr
  | .computed => py "computed"
  | .refused => py "refused"
  | .awaitingParameters => py "awaiting_parameters"

def GradeType.wire : GradeType → PyStr
  | .estimate => py "estimate"
  | .measured => py "measured"
  | .verified => py "verified"

/-- What a `NUMERIC(20,6)` column of `figures` holds. -/
inductive FigureValue
  | number (n : Numeric)
  | nan
  deriving DecidableEq

/-- A row of `figures`, as far as reports read it. -/
structure FigureRow where
  id : ℕ
  deploymentId : ℕ
  figureRef : PyStr
  version : ℕ
  period : PyStr
  figureStatus : FigureStatus
  gradeType : Option GradeType
  claim : Option PyStr
  value : Option FigureValue
  deriving DecidableEq

/-- A row of `reports`. -/
structure ReportRow where
  id : ℕ
  deploymentId : ℕ
  reportRef : PyStr
  version : ℕ
  period : PyStr
  issuedAt : ℤ
  gradeProfile : List (PyStr × ℕ)
  artifactPath : PyStr
  supersedesVersion : Option ℕ
  deriving DecidableEq

/-- A row of `report_figures`. -/
structure ReportFigureRow where
  deploymentId : ℕ
  reportId : ℕ
  figureId : ℕ
  deriving DecidableEq

/-- A figure as an artifact shows it. -/
structure ArtifactFigure where
  figureRef : PyStr
  version : ℕ
  claim : Option PyStr
  status : FigureStatus
  value : Option FigureValue
  deriving DecidableEq

/-- The document of a report, before it is written as JSON. -/
structure Artifact where
  reportRef : PyStr
  version : ℕ
  period : PyStr
  gradeProfile : List (PyStr × ℕ)
  figures : List ArtifactFigure
  deriving DecidableEq

/-- The tables `issue_report` reads and writes, and the bucket
`report-artifacts`. -/
structure Archive where
  deployments : List ℕ
  figures : List FigureRow
  reports : List ReportRow
  reportFigures : List ReportFigureRow
  objects : PyStr → Option Artifact
  nextId : ℕ

/-- `^[0-9]{4}-(q[1-4]|0[1-9]|1[0-2])$`. -/
def periodOk (period : PyStr) : Bool :=
  (period.take 4).length = 4 && (period.take 4).all isDigit && (period.drop 4).take 1 = py "-" &&
    ([py "q1", py "q2", py "q3", py "q4", py "01", py "02", py "03", py "04", py "05", py "06",
      py "07", py "08", py "09", py "10", py "11", py "12"].contains (period.drop 5))

/-- `rep_{period}`. -/
def reportRefOf (period : PyStr) : PyStr := py "rep_" ++ period

/-- `{workspace_id}/{report_ref}.v{version}.json`. -/
def artifactPathOf (workspaceId : ℕ) (reportRef : PyStr) (version : ℕ) : PyStr :=
  py (toString workspaceId) ++ py "/" ++ reportRef ++ py ".v" ++ py (toString version) ++
    py ".json"

/-- A call of `issue_report`: its arguments, the clock, and whether storage takes
the artifact. -/
structure Issue where
  workspaceId : ℕ
  deploymentId : ℕ
  period : PyStr
  now : ℤ
  stored : Bool

namespace Archive

variable (s : Archive)

/-- `SELECT DISTINCT ON (figure_ref) … ORDER BY figure_ref, version DESC`. -/
def latestFigures (collate : PyStr → PyStr → Bool) (deploymentId : ℕ) (period : PyStr) :
    List FigureRow :=
  let candidates := s.figures.filter fun f => f.deploymentId = deploymentId ∧ f.period = period
  let latest := candidates.filter fun f =>
    candidates.all fun g => decide (g.figureRef = f.figureRef → g.version ≤ f.version)
  latest.mergeSort fun f g => collate f.figureRef g.figureRef

/-- `SELECT COALESCE(MAX(version),0)+1 … FROM reports`. -/
def nextVersion (deploymentId : ℕ) (reportRef : PyStr) : ℕ :=
  ((s.reports.filter fun r => r.deploymentId = deploymentId ∧ r.reportRef = reportRef).map
    ReportRow.version).foldr max 0 + 1

/-- `grade_profile[g] = grade_profile.get(g, 0) + 1`. -/
def countGrade (profile : List (PyStr × ℕ)) (f : FigureRow) : List (PyStr × ℕ) :=
  let g := (f.gradeType.map GradeType.wire).getD f.figureStatus.wire
  if (profile.lookup g).isSome then
    profile.map fun entry => if entry.1 = g then (entry.1, entry.2 + 1) else entry
  else profile ++ [(g, 1)]

/-- The transaction of `issue_report`: the rows it leaves, the path and the
artifact. -/
def bindReport (collate : PyStr → PyStr → Bool) (c : Issue) :
    Except Failure (Archive × PyStr × Artifact) :=
  let figs := s.latestFigures collate c.deploymentId c.period
  let gradeProfile := figs.foldl countGrade []
  let reportRef := reportRefOf c.period
  let version := s.nextVersion c.deploymentId reportRef
  let artifactPath := artifactPathOf c.workspaceId reportRef version
  if integerMax < version then .error (.database .integerOverflow)
  else if !periodOk c.period then .error (.database .checkViolation)
  else if !s.deployments.contains c.deploymentId then .error (.database .foreignKeyViolation)
  else
    let row : ReportRow :=
      { id := s.nextId
        deploymentId := c.deploymentId
        reportRef := reportRef
        version := version
        period := c.period
        issuedAt := c.now
        gradeProfile := gradeProfile
        artifactPath := artifactPath
        supersedesVersion := if 1 < version then some (version - 1) else none }
    let bound := figs.map fun f => ⟨c.deploymentId, s.nextId, f.id⟩
    .ok ({ s with
        reports := s.reports ++ [row]
        reportFigures := s.reportFigures ++ bound
        nextId := s.nextId + 1 },
      artifactPath,
      { reportRef := reportRef
        version := version
        period := c.period
        gradeProfile := gradeProfile
        figures := figs.map fun f => ⟨f.figureRef, f.version, f.claim, f.figureStatus, f.value⟩ })

/-- `storage.put("report-artifacts", path, …)`, which overwrites. -/
def put (path : PyStr) (artifact : Artifact) : Archive :=
  { s with objects := Function.update s.objects path (some artifact) }

/-- `issue_report`. When storage fails, the row has been committed already. -/
def issueReport (collate : PyStr → PyStr → Bool) (c : Issue) : Archive :=
  match s.bindReport collate c with
  | .ok (s', path, artifact) => if c.stored then s'.put path artifact else s'
  | .error _ => s

end Archive

/-- A call of `issue_report`, or whatever else changes figures and deployments. -/
inductive ReportCall
  | issue (c : Issue)
  | change (figures : List FigureRow) (deployments : List ℕ)

def Archive.perform (collate : PyStr → PyStr → Bool) (s : Archive) : ReportCall → Archive
  | .issue c => s.issueReport collate c
  | .change figures deployments => { s with figures, deployments }

/-- Nothing has been issued. -/
def emptyArchive : Archive := ⟨[], [], [], [], fun _ => none, 0⟩

def archiveAfter (collate : PyStr → PyStr → Bool) (calls : List ReportCall) : Archive :=
  calls.foldl (Archive.perform collate) emptyArchive

end TrueFigure.Server
