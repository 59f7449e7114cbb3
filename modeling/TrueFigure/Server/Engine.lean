import Mathlib.Data.Multiset.Lattice
import TrueFigure.Library.Aggregates
import TrueFigure.Server.Figures
import TrueFigure.Server.Pipeline

/-!
# The measurement engine

The methods of `domain/engine.py`: what each makes of the rows it reads. A query is
a sum over the rows of the store. Floats are whatever `float` computes; nothing is
assumed of them.
-/
namespace TrueFigure.Server

open TrueFigure.Library TrueFigure.Python

/-- The `float` operations of the engine. -/
structure Floats (F : Type) where
  /-- `float(EXTRACT(EPOCH FROM …)/3600.0)` of a span of milliseconds. -/
  hours : ℤ → F
  ofNat : ℕ → F
  /-- `float(x)`. -/
  ofJson : Json → Except PyErr F
  sum : List F → F
  max : List F → F
  min : List F → F
  sub : F → F → F
  mul : F → F → F
  div : F → F → F
  /-- `a / b` of integers. -/
  ratio : ℕ → ℕ → F
  abs : F → F
  sqrt : ℕ → F
  lt : F → F → Bool
  round : F → ℕ → F
  /-- `Decimal(str(x))`. -/
  toDecimal : F → Decimal
  /-- The number `json.dumps` writes. -/
  toNum : F → PyNum

def liftPython {α : Type} : Except PyErr α → Except Failure α
  | .ok a => .ok a
  | .error e => .error (.python e)

/-! ### Queries -/

/-- A day between the bounds of a period. -/
def Between (bounds : ℤ × ℤ) (day : ℤ) : Prop := bounds.1 ≤ day ∧ day ≤ bounds.2

instance (bounds : ℤ × ℤ) (day : ℤ) : Decidable (Between bounds day) :=
  inferInstanceAs (Decidable (_ ∧ _))

/-- `payload->>key = value`. -/
def EventRow.says (row : EventRow) (key value : PyStr) : Bool :=
  match row.payload.get? key with
  | some (.str s) => s = value
  | _ => false

/-- What a row of `events` adds to a sum. -/
def ofEvent {M : Type} [AddCommMonoid M] (f : ℤ → EventRow → M) : Sigma Row → M
  | ⟨.event _ _ t, row⟩ => f t row
  | _ => 0

/-- A sum over the rows of `events`. -/
def sumEvents {M : Type} [AddCommMonoid M] (s : Db) (f : ℤ → EventRow → M) : M :=
  tally (ofEvent f) s

section Queries

variable (plan : Planner) (s : Db) (deploymentId : ℕ) (bounds : ℤ × ℤ)

def meterRowOf (meter : MeterType) : Sigma Row → Multiset MeterUsageRow
  | ⟨.meterUsage d m _ day, row⟩ =>
    if d = deploymentId ∧ m = meter ∧ Between bounds day then {(row : MeterUsageRow)} else 0
  | _ => 0

def meterRows (meter : MeterType) : Multiset MeterUsageRow :=
  tally (meterRowOf deploymentId bounds meter) s

/-- `AVG(gauge_last)` or `SUM(quantity_sum)`, with `or 0`. -/
def meterQuantity (meter : MeterType) (rows : Multiset MeterUsageRow) : ℚ :=
  if meter.isGauge then
    if rows.filterMap MeterUsageRow.gaugeLast = 0 then 0
    else plan.average (rows.filterMap MeterUsageRow.gaugeLast)
  else (rows.map fun row => row.quantitySum.micros).sum / 10 ^ 6

/-- The query of `compute_cost`. -/
def meterTotals : List (MeterType × ℚ) :=
  plan.meters ((MeterType.all.filter fun m => meterRows s deploymentId bounds m ≠ 0).map
    fun m => (m, meterQuantity plan m (meterRows s deploymentId bounds m)))

def activeUserOf : Sigma Row → Multiset ℕ
  | ⟨.userActivity d user day, _⟩ =>
    if d = deploymentId ∧ Between bounds day then {user} else 0
  | _ => 0

/-- `COUNT(DISTINCT user_id)` of `user_activity_daily`. -/
def activatedUsers : ℕ := (tally (activeUserOf deploymentId bounds) s).toFinset.card

def actionCount (action : PyStr) : ℕ :=
  sumEvents s fun t row =>
    if row.deploymentId = deploymentId ∧ row.eventType = .activity ∧
      Between bounds (plan.dayOf t) ∧ row.says (py "action_type") action then 1 else 0

/-- The customer-origin events of a declared service account in a period. -/
def corroboratingCount (serviceUsers : List (ℕ × ℕ)) : ℕ :=
  sumEvents s fun t row =>
    if row.deploymentId = deploymentId ∧ row.originType = .customerSystem ∧
      Between bounds (plan.dayOf t) ∧
      (row.resolvedUserId.any fun user => serviceUsers.contains (deploymentId, user))
    then 1 else 0

/-- The instants of one lifecycle event of a work item in a period. -/
def lifeTimes (event : PyStr) (workItemId : ℕ) : Multiset ℤ :=
  sumEvents s fun t row =>
    if row.workItemId = some workItemId ∧ row.deploymentId = deploymentId ∧
      row.eventType = .lifecycle ∧ Between bounds (plan.dayOf t) ∧ row.says (py "event") event
    then {t} else 0

/-- The activities of a deployment on a work item. -/
def assistCount (workItemId : ℕ) : ℕ :=
  sumEvents s fun _ row =>
    if row.deploymentId = deploymentId ∧ row.eventType = .activity ∧
      row.workItemId = some workItemId then 1 else 0

/-- The milliseconds from the first creation to the last completion. -/
def spanOf (created completed : Multiset ℤ) : Option ℤ :=
  match (created.map fun t : ℤ => (t : WithTop ℤ)).inf,
      (completed.map fun t : ℤ => (t : WithBot ℤ)).sup with
  | some c, some d => some (d - c)
  | _, _ => none

/-- The row of one work item in the query of `compute_time_savings`. -/
def handlingOf (workItemId : ℕ) : Multiset (Bool × ℤ) :=
  match spanOf (lifeTimes plan s deploymentId bounds (py "created") workItemId)
    (lifeTimes plan s deploymentId bounds (py "completed") workItemId) with
  | some span => {(decide (0 < assistCount s deploymentId workItemId), span)}
  | none => 0

/-- What a work item adds to the samples; `work_items.id` is the primary key. -/
def handlingRowOf : Sigma Row → Multiset (Bool × ℤ)
  | ⟨.workItem _ _, row⟩ => handlingOf plan s deploymentId bounds (row : WorkItemRow).id
  | _ => 0

/-- The query of `compute_time_savings`. -/
def handlingRows : List (Bool × ℤ) := plan.samples (tally (handlingRowOf plan s deploymentId bounds) s)

end Queries

/-! ### Methods -/

section Methods

variable {F : Type} (plan : Planner) (rt : DecimalText) (fl : Floats F) (s : Db) (b : Books)
  (workspaceId deploymentId : ℕ) (period : PyStr)

/-- `d.get(key)` of whatever a payload holds there. -/
def attrGet (value : Json) (key : PyStr) : Except PyErr Json :=
  match value with
  | .obj fields => .ok (Dict.getD fields key .null)
  | _ => .error .attributeError

/-- The loop of `compute_cost`: the total, the priced meters and the unpriced. -/
def priceMeters (unitPrices : Json) : List (MeterType × ℚ) → Decimal → List MeterType →
    List MeterType → Except PyErr (Decimal × List MeterType × List MeterType)
  | [], total, priced, unpriced => .ok (total, priced, unpriced)
  | (meter, qty) :: rows, total, priced, unpriced => do
    match ← attrGet unitPrices meter.wire with
    | .null => priceMeters unitPrices rows total priced (unpriced ++ [meter])
    | price =>
      let unit ← decimalOf rt price
      let amount ← (Decimal.finite qty).mul unit
      let total ← total.add amount
      priceMeters unitPrices rows total (priced ++ [meter]) unpriced

def meterNames (meters : List MeterType) : Json := .arr (meters.map fun m => .str m.wire)

/-- What `compute_cost` writes once the meters are priced. -/
def costDraft (pv : ℕ) (treatment : Option PyStr) (total : Decimal)
    (priced unpriced : List MeterType) : Draft :=
  let draft : Draft :=
    { figureRef := py "fig_cost_" ++ period
      period := period
      claim := py "priced_cost"
      status := .computed
      parameterSetVersion := some pv }
  match priced, unpriced with
  | [], first :: _ =>
    { draft with
      status := .awaitingParameters
      missingParameter := some (py "unit_prices." ++ first.wire)
      lineage := [(py "unpriced_meters", meterNames unpriced)] }
  | _, _ =>
    { draft with
      grade := some .measured
      valueClass := some .realized
      value := some total
      changeTreatment := treatment
      lineage := [(py "priced_meters", meterNames priced),
        (py "unpriced_meters", meterNames unpriced),
        (py "parameter_set_version", .num (.int pv))] }

def computeCost : Except Failure Draft := do
  let bounds ← liftPython (periodBounds period)
  match b.resolveParameterVersion workspaceId bounds.1 with
  | (none, _) =>
    .ok
      { figureRef := py "fig_cost_" ++ period
        period := period
        claim := py "priced_cost"
        status := .awaitingParameters
        missingParameter := some (py "parameter_set")
        lineage := [(py "reason", .str (py "no parameter version"))] }
  | (some pv, payload) =>
    let (total, priced, unpriced) ← liftPython (priceMeters rt
      (payload.getD (py "unit_prices") (.obj [])) (meterTotals plan s deploymentId bounds)
      (.finite 0) [] [])
    .ok (costDraft period pv
      (b.changeTreatment plan workspaceId deploymentId bounds.1 bounds.2) total priced unpriced)

/-- The price of a seat and where it comes from: the licence, else the parameters. -/
def seatPrice (license : LicenseRow) (payload : Dict) :
    Except PyErr (Option Decimal × Option PyStr) :=
  match license.pricePerSeat with
  | some price => .ok (some price.toDecimal, some (py "license_data"))
  | none =>
    if payload = [] then .ok (none, none)
    else do
      match ← attrGet (payload.getD (py "unit_prices") (.obj [])) (py "seats_active") with
      | .null => .ok (none, none)
      | price =>
        let unit ← decimalOf rt price
        .ok (some unit, some (py "customer_entered"))

/-- What `compute_seats` writes for a licence. -/
def seatsDraft (seatsPaid activated : ℕ) (value : Option Decimal) (pv : Option ℕ)
    (provenance : Option PyStr) : Draft where
  figureRef := py "fig_seats_" ++ period
  period := period
  claim := py "seat_utilization"
  status := .computed
  grade := some .measured
  valueClass := some .realized
  value := value
  parameterSetVersion := pv
  lineage := [(py "seats_paid", .num (.int seatsPaid)), (py "activated", .num (.int activated)),
    (py "waste_seats", .num (.int ((seatsPaid - activated : ℕ) : ℤ))),
    (py "price_provenance", (provenance.map Json.str).getD .null)]

def computeSeats : Except Failure Draft := do
  let bounds ← liftPython (periodBounds period)
  match b.licenses.find? fun l => l.deploymentId = deploymentId ∧ l.validTo = none with
  | none =>
    .ok
      { figureRef := py "fig_seats_" ++ period
        period := period
        claim := py "seat_utilization"
        status := .awaitingParameters
        missingParameter := some (py "license")
        lineage := [(py "reason", .str (py "no license declared"))] }
  | some license =>
    let activated := activatedUsers s deploymentId bounds
    let (pv, payload) := b.resolveParameterVersion workspaceId bounds.1
    let (price, provenance) ← liftPython (seatPrice rt license payload)
    let value ← liftPython
      (price.mapM fun p => p.mul (.finite ((license.seatsPaid - activated : ℕ) : ℚ)))
    .ok (seatsDraft period license.seatsPaid activated value pv provenance)

def computeContainment : Except Failure (Option Draft) := do
  let bounds ← liftPython (periodBounds period)
  let autonomous := actionCount plan s deploymentId bounds (py "case_handled_autonomous")
  let escalated := actionCount plan s deploymentId bounds (py "escalated_to_human")
  if autonomous + escalated = 0 then .ok none
  else
    let rate := fl.ratio autonomous (autonomous + escalated)
    let corroborating := corroboratingCount plan s deploymentId bounds b.serviceUsers
    .ok (some
      { figureRef := py "fig_containment_" ++ period
        period := period
        claim := py "containment_rate"
        status := .computed
        grade := some (if 0 < corroborating then .verified else .measured)
        valueClass := some .realized
        value := some (fl.toDecimal (fl.round rate 6))
        lineage := [(py "autonomous", .num (.int autonomous)),
          (py "escalated", .num (.int escalated)),
          (py "g6_corroborating_events", .num (.int corroborating))] })

/-- `labor.get("default") or (next(iter(labor.values())) if labor else None)`. -/
def laborRate (payload : Dict) : Except PyErr Json := do
  let labor := payload.getD (py "labor_rates") (.obj [])
  let rate ← attrGet labor (py "default")
  if rate.truthy then .ok rate
  else
    match labor with
    | .obj ((_, first) :: _) => .ok first
    | _ => .ok .null

def handlingHours (rows : List (Bool × ℤ)) (isAssisted : Bool) : List F :=
  (rows.filter fun r => r.1 = isAssisted).map fun r => fl.hours r.2

/-- What `compute_time_savings` writes for samples on both sides: the hours saved
per item against the half-width, then the price of an hour. -/
def timeDraft (bounds : ℤ × ℤ) (assisted unassisted : List F) : Except Failure Draft := do
  let mean := fun xs : List F => fl.div (fl.sum xs) (fl.ofNat xs.length)
  let effect := fl.sub (mean unassisted) (mean assisted)
  let n := assisted.length + unassisted.length
  let samples := assisted ++ unassisted
  let margin := fl.div (fl.sub (fl.max samples) (fl.min samples)) (fl.mul (fl.ofNat 2) (fl.sqrt n))
  let (pv, payload) := b.resolveParameterVersion workspaceId bounds.1
  let effectHours := Json.num (fl.toNum (fl.round effect 4))
  let draft : Draft :=
    { figureRef := py "fig_time_" ++ period
      period := period
      claim := py "time_savings"
      status := .awaitingParameters
      valueClass := some .capacity
      parameterSetVersion := pv
      lineage := [(py "effect_hours", effectHours)] }
  let counts := [(py "assisted_n", Json.num (.int assisted.length)),
    (py "unassisted_n", .num (.int unassisted.length)), (py "effect_hours", effectHours)]
  if fl.lt (fl.abs effect) margin then
    .ok { draft with
      status := .refused
      valueClass := none
      marginExceedsEffect := some true
      refusalReason := some (py "margin of error exceeds the measured effect")
      expectedVerdictDate := some bounds.2
      lineage := counts ++ [(py "margin_hours", .num (fl.toNum (fl.round margin 4)))] }
  else
    match pv with
    | none => .ok { draft with missingParameter := some (py "labor_rates") }
    | some pv =>
      match ← liftPython (laborRate payload) with
      | .null => .ok { draft with missingParameter := some (py "labor_rates.default") }
      | rate =>
        let hourly ← liftPython (fl.ofJson rate)
        let value := fl.round (fl.mul (fl.mul effect (fl.ofNat assisted.length)) hourly) 6
        .ok { draft with
          status := .computed
          grade := some (if 4 ≤ n then .measured else .estimate)
          value := some (fl.toDecimal value)
          changeTreatment := b.changeTreatment plan workspaceId deploymentId bounds.1 bounds.2
          lineage := counts ++ [(py "labor_rate", rate),
            (py "parameter_set_version", .num (.int pv))] }

def computeTimeSavings : Except Failure (Option Draft) := do
  let bounds ← liftPython (periodBounds period)
  let rows := handlingRows plan s deploymentId bounds
  let assisted := handlingHours fl rows true
  let unassisted := handlingHours fl rows false
  if assisted = [] ∨ unassisted = [] then .ok none
  else (timeDraft plan fl b workspaceId deploymentId period bounds assisted unassisted).map some

end Methods

end TrueFigure.Server
