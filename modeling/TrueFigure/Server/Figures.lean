import Mathlib.Algebra.BigOperators.Group.Multiset.Defs
import Mathlib.Data.List.MinMax
import Mathlib.Data.List.Sort
import Mathlib.Data.Prod.Lex
import TrueFigure.Server.Amounts
import TrueFigure.Server.Periods

/-!
# Figures

`resolve_parameter_version`, `_change_treatment` and the values of `_write_figure`
of `domain/engine.py`, with the tables they read and the constraints of `figures`.
-/
namespace TrueFigure.Server

open TrueFigure.Python

inductive ValueClass
  | realized | capacity
  deriving DecidableEq, Repr

inductive ChangeType
  | systemCutover | processChange | seasonal | staffing | regulatory | toolChange | other
  deriving DecidableEq, Repr

inductive SidedType
  | symmetric | oneSided
  deriving DecidableEq, Repr

/-- A row of `parameter_sets`. -/
structure ParameterSetRow where
  workspaceId : ℕ
  version : ℕ
  effectiveFrom : ℤ
  payload : Dict

inductive PeriodUnit
  | month | year
  deriving DecidableEq, Repr

/-- A row of `deployment_licenses`; days are ordinals. -/
structure LicenseRow where
  id : ℕ
  deploymentId : ℕ
  periodUnit : PeriodUnit
  seatsPaid : ℕ
  pricePerSeat : Option FigureValue
  currency : String
  validFrom : ℤ
  validTo : Option ℤ
  deriving DecidableEq

/-- A row of `change_log` joined with one of its deployments, if it names any. -/
structure ChangeRow where
  workspaceId : ℕ
  deploymentId : Option ℕ
  superseded : Bool
  changeType : ChangeType
  sidedType : SidedType
  occurredAt : ℤ

/-- What the engine needs of a row of `deployments`. -/
structure MeasuredDeployment where
  id : ℕ
  workspaceId : ℕ
  deploymentType : DeploymentType

/-- The values `_write_figure` inserts. -/
structure Draft where
  figureRef : PyStr
  period : PyStr
  claim : PyStr
  status : FigureStatus
  grade : Option GradeType := none
  valueClass : Option ValueClass := none
  value : Option Decimal := none
  parameterSetVersion : Option ℕ := none
  changeTreatment : Option PyStr := none
  refusalReason : Option PyStr := none
  marginExceedsEffect : Option Bool := none
  expectedVerdictDate : Option ℤ := none
  missingParameter : Option PyStr := none
  lineage : Dict := []

/-- A row of `figures`. -/
structure Figure extends FigureRow where
  workspaceId : ℕ
  valueClass : Option ValueClass
  methodId : PyStr
  methodVersion : PyStr
  parameterSetVersion : Option ℕ
  changeTreatment : Option PyStr
  refusalReason : Option PyStr
  marginExceedsEffect : Option Bool
  expectedVerdictDate : Option ℤ
  missingParameter : Option PyStr
  lineage : Dict

/-- The tables the engine reads besides the ones of the pipeline. -/
structure Books where
  deployments : List MeasuredDeployment
  parameterSets : List ParameterSetRow
  licenses : List LicenseRow
  changeLog : List ChangeRow
  serviceUsers : List (ℕ × ℕ)

/-- What Postgres and its session decide: the calendar day of an instant, the order
of rows where a query asks for none, and the scale of an average. -/
structure Planner where
  dayOf : ℤ → ℤ
  meters : Multiset (MeterType × ℚ) → List (MeterType × ℚ)
  meters_rows : ∀ rows, (meters rows : Multiset (MeterType × ℚ)) = rows
  samples : Multiset (Bool × ℤ) → List (Bool × ℤ)
  samples_rows : ∀ rows, (samples rows : Multiset (Bool × ℤ)) = rows
  changes : List ChangeRow → List ChangeRow
  changes_rows : ∀ rows, (changes rows).Perm rows
  average : Multiset Numeric → ℚ

def sortedRows {α : Type} (order : LinearOrder α) (rows : Multiset α) : List α :=
  Quotient.liftOn rows (fun xs => xs.insertionSort order.le) fun xs ys hperm => by
    let _ := order
    refine List.Perm.eq_of_pairwise (fun a b _ _ => le_antisymm) ?_ ?_ ?_
    · exact List.pairwise_insertionSort (· ≤ ·) xs
    · exact List.pairwise_insertionSort (· ≤ ·) ys
    · exact (List.perm_insertionSort _ xs).trans (hperm.trans (List.perm_insertionSort _ ys).symm)

theorem coe_sortedRows {α : Type} (order : LinearOrder α) (rows : Multiset α) :
    (sortedRows order rows : Multiset α) = rows := by
  induction rows using Quotient.inductionOn with
  | h xs =>
    let _ := order
    exact Quotient.sound (List.perm_insertionSort _ xs)

theorem MeterType.ctorIdx_injective : Function.Injective MeterType.ctorIdx := by
  intro a b h
  cases a <;> cases b <;> first | rfl | cases h

/-- A meter and its quantity; the enumeration orders the meters. -/
@[reducible] def meterOrder : LinearOrder (MeterType × ℚ) :=
  @LinearOrder.lift' _ _ (@Prod.Lex.instLinearOrder ℕ ℚ Nat.instLinearOrder Rat.linearOrder)
    (fun x => toLex (x.1.ctorIdx, x.2)) fun _ _ h =>
      have hboth := Prod.ext_iff.1 (toLex.injective h)
      Prod.ext (MeterType.ctorIdx_injective hboth.1) hboth.2

/-- A side and a span. -/
@[reducible] def sampleOrder : LinearOrder (Bool × ℤ) :=
  @LinearOrder.lift' _ _ (@Prod.Lex.instLinearOrder Bool ℤ inferInstance Int.instLinearOrder)
    toLex toLex.injective

/-- A session in UTC that reads rows in increasing order where a query asks for none,
and averages without rounding. -/
def Planner.utc : Planner where
  dayOf t := t / 86400000 + 1
  meters := sortedRows meterOrder
  meters_rows := coe_sortedRows meterOrder
  samples := sortedRows sampleOrder
  samples_rows := coe_sortedRows sampleOrder
  changes := id
  changes_rows := List.Perm.refl
  average rows := (rows.map Numeric.micros).sum / (rows.card * 10 ^ 6)

def methodVersion : PyStr := py "1.0.0"

/-- `ORDER BY effective_from, version`. -/
@[reducible] def parameterSetOrder : LinearOrder (ℤ ×ₗ ℕ) :=
  @Prod.Lex.instLinearOrder ℤ ℕ Int.instLinearOrder Nat.instLinearOrder

namespace Books

variable (b : Books)

/-- The parameter set in force at the start of a period, given its first day. -/
def parameterSetAt (workspaceId : ℕ) (start : ℤ) : Option ParameterSetRow :=
  @List.argmax _ _ parameterSetOrder.toPreorder parameterSetOrder.toDecidableLT
    (fun p => toLex (p.effectiveFrom, p.version))
    (b.parameterSets.filter fun p => p.workspaceId = workspaceId ∧ p.effectiveFrom ≤ start)

def resolveParameterVersion (workspaceId : ℕ) (start : ℤ) : Option ℕ × Dict :=
  match b.parameterSetAt workspaceId start with
  | some p => (some p.version, p.payload)
  | none => (none, [])

def changeTreatment (plan : Planner) (workspaceId deploymentId : ℕ) (start last : ℤ) :
    Option PyStr :=
  let rows := b.changeLog.filter fun c => c.workspaceId = workspaceId ∧ c.superseded = false ∧
    start ≤ plan.dayOf c.occurredAt ∧ plan.dayOf c.occurredAt ≤ last ∧
    (c.deploymentId = some deploymentId ∨ c.deploymentId = none)
  let first := @List.argmin _ _ Int.instLinearOrder.toPreorder Int.instLinearOrder.toDecidableLT
    ChangeRow.occurredAt (plan.changes rows)
  first.map fun c =>
    if c.sidedType = .symmetric then py "symmetric_cancel"
    else if c.changeType = .toolChange then py "incumbent_tool_change_excluded"
    else py "one_sided_adjusted"

end Books

/-- `ck_figures_computed_shape`; a draft always has a claim. -/
def Draft.shapeOk (d : Draft) : Bool := d.status ≠ .computed || (d.value.isSome && d.grade.isSome)

/-- A nullable value bound to its column. -/
def valueParam : Option Decimal → Except DbError (Option FigureValue)
  | none => .ok none
  | some d => d.toColumn.map some

/-- The values of `INSERT INTO figures`, as its columns and constraints take
them. -/
def figureValues (b : Books) (id workspaceId deploymentId version : ℕ) (d : Draft) :
    Except DbError Figure := do
  if integerMax < version then .error .integerOverflow
  else if !jsonbOk (.obj d.lineage) then .error .invalidJson
  else
    let value ← valueParam d.value
    if !periodOk d.period || !d.shapeOk then .error .checkViolation
    else if !b.deployments.any fun e => e.id = deploymentId ∧ e.workspaceId = workspaceId then
      .error .foreignKeyViolation
    else
      .ok
        { id := id
          deploymentId := deploymentId
          figureRef := d.figureRef
          version := version
          period := d.period
          figureStatus := d.status
          gradeType := d.grade
          claim := some d.claim
          value := value
          workspaceId := workspaceId
          valueClass := d.valueClass
          methodId := py "tf.method." ++ d.claim
          methodVersion := methodVersion
          parameterSetVersion := d.parameterSetVersion
          changeTreatment := d.changeTreatment
          refusalReason := d.refusalReason
          marginExceedsEffect := d.marginExceedsEffect
          expectedVerdictDate := d.expectedVerdictDate
          missingParameter := d.missingParameter
          lineage := d.lineage }

end TrueFigure.Server
