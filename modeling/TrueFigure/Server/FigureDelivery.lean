import TrueFigure.Server.FigureAcceptance
import TrueFigure.Server.SubMeters

/-!
# Which computations are delivered

The methods of `compute_deployment` share one transaction. A price or a rate that one of
them cannot use takes the figures of the others with it, except where the method finds out
in time to write that it awaits its parameters.
-/
namespace TrueFigure.Server

open TrueFigure.Library TrueFigure.Python

/-! ### Prices and rates -/

/-- What is found where a price or a rate is looked up. -/
inductive Quote (α : Type)
  | absent
  | usable (amount : α)
  | unusable

def Quote.IsUsable {α : Type} : Quote α → Prop
  | .usable _ => True
  | _ => False

theorem Quote.IsUsable.exists {α : Type} {x : Quote α} (h : x.IsUsable) : ∃ a, x = .usable a := by
  cases x with
  | usable a => exact ⟨a, rfl⟩
  | _ => cases h

/-- Only a finite decimal can be multiplied and stored. -/
def quoteOf : Except PyErr Decimal → Quote ℚ
  | .ok (.finite q) => .usable q
  | _ => .unusable

/-- What some prices say under a key. -/
def quotedAt (rt : DecimalText) (prices : Json) (key : PyStr) : Quote ℚ :=
  match attrGet prices key with
  | .ok .null => .absent
  | .ok price => quoteOf (decimalOf rt price)
  | .error _ => .unusable

/-- The price of a seat: the one of the license, else the one of the parameters. -/
def seatQuote (rt : DecimalText) (license : LicenseRow) (payload : Dict) : Quote ℚ :=
  match license.pricePerSeat with
  | some price => quoteOf (.ok price.toDecimal)
  | none =>
    if payload = [] then .absent
    else quotedAt rt (payload.getD (py "unit_prices") (.obj [])) (py "seats_active")

/-- The price of an hour. -/
def rateQuote {F : Type} (fl : Floats F) (payload : Dict) : Quote F :=
  match laborRate payload with
  | .ok .null => .absent
  | .ok rate =>
    match fl.ofJson rate with
    | .ok hourly =>
      match fl.toDecimal hourly with
      | .finite _ => .usable hourly
      | _ => .unusable
    | .error _ => .unusable
  | .error _ => .unusable

/-- Amounts times their prices, summed up as `Decimal` rounds them. -/
def sumAmounts : List (ℚ × ℚ) → Decimal → Except PyErr Decimal
  | [], total => .ok total
  | (qty, price) :: rows, total => do
    let amount ← (Decimal.finite qty).mul (.finite price)
    let total ← total.add amount
    sumAmounts rows total

/-- The amount can be stored. -/
def FitsColumn (amount : Except PyErr Decimal) : Prop :=
  ∃ d v, amount = .ok d ∧ d.toColumn = .ok v

section Quotes

variable {rt : DecimalText} {prices : Json} {key : PyStr} {q : ℚ}

theorem quoteOf_usable {x : Except PyErr Decimal} (h : quoteOf x = .usable q) :
    x = .ok (.finite q) := by
  unfold quoteOf at h
  split at h
  · cases h
    rfl
  · cases h

theorem quotedAt_absent (h : quotedAt rt prices key = .absent) :
    attrGet prices key = .ok .null := by
  unfold quotedAt quoteOf at h
  split at h
  · assumption
  · split at h <;> cases h
  · cases h

theorem quotedAt_usable (h : quotedAt rt prices key = .usable q) :
    ∃ price, attrGet prices key = .ok price ∧ price ≠ .null ∧
      decimalOf rt price = .ok (.finite q) := by
  unfold quotedAt at h
  split at h
  · cases h
  · rename_i price hne hprice
    exact ⟨price, hprice, hne, quoteOf_usable h⟩
  · cases h

end Quotes

/-! ### The loop of `compute_cost` -/

section Loop

variable {rt : DecimalText} {prices : Json} {rows : List (MeterType × ℚ)}
  {total total' : Decimal} {priced unpriced priced' unpriced' : List MeterType}

theorem priceMeters_absent (h : ∀ row ∈ rows, quotedAt rt prices row.1.wire = .absent) :
    priceMeters rt prices rows total priced unpriced =
      .ok (total, priced, unpriced ++ rows.map Prod.fst) := by
  induction rows generalizing unpriced with
  | nil => rw [priceMeters, List.map_nil, List.append_nil]
  | cons row rows ih =>
    obtain ⟨hrow, hrows⟩ := List.forall_mem_cons.1 h
    simp only [priceMeters, quotedAt_absent hrow, bind, Except.bind, ih hrows, List.map_cons,
      List.append_assoc, List.singleton_append]

theorem priced_of_priceMeters (h : priceMeters rt prices rows total priced unpriced =
      .ok (total', priced', unpriced')) :
    priced.length ≤ priced'.length ∧
      ((∃ row ∈ rows, quotedAt rt prices row.1.wire ≠ .absent) → priced' ≠ []) := by
  induction rows generalizing total priced unpriced with
  | nil =>
    cases h
    exact ⟨le_rfl, by simp⟩
  | cons row rows ih =>
    obtain ⟨meter, qty⟩ := row
    unfold priceMeters at h
    obtain ⟨price, hprice, h⟩ := bind_eq_ok h
    split at h
    · obtain ⟨hle, hpriced⟩ := ih h
      refine ⟨hle, fun hsome => hpriced ?_⟩
      obtain ⟨row, hrow, hne⟩ := hsome
      rcases List.mem_cons.1 hrow with rfl | hrow
      · exact absurd (by rw [quotedAt, hprice]) hne
      · exact ⟨row, hrow, hne⟩
    · obtain ⟨unit, -, h⟩ := bind_eq_ok h
      obtain ⟨amount, -, h⟩ := bind_eq_ok h
      obtain ⟨sum, -, h⟩ := bind_eq_ok h
      obtain ⟨hle, -⟩ := ih h
      rw [List.length_append, List.length_singleton] at hle
      exact ⟨(Nat.le_succ _).trans hle, fun _ => List.ne_nil_of_length_pos (by omega)⟩

/-- Where every meter has its price, the loop sums up the amounts. -/
theorem priceMeters_usable {price : MeterType × ℚ → ℚ}
    (h : ∀ row ∈ rows, quotedAt rt prices row.1.wire = .usable (price row)) :
    priceMeters rt prices rows total priced unpriced =
      (sumAmounts (rows.map fun row => (row.2, price row)) total).map fun t =>
        (t, priced ++ rows.map Prod.fst, unpriced) := by
  induction rows generalizing total priced with
  | nil =>
    rw [priceMeters, List.map_nil, List.map_nil, sumAmounts, List.append_nil]
    rfl
  | cons row rows ih =>
    obtain ⟨hrow, hrows⟩ := List.forall_mem_cons.1 h
    obtain ⟨found, hfound, hne, hdecimal⟩ := quotedAt_usable hrow
    obtain ⟨meter, qty⟩ := row
    simp only [List.map_cons, sumAmounts, priceMeters, hfound, hdecimal, bind, Except.bind]
    cases hamount : (Decimal.finite qty).mul (.finite (price (meter, qty))) with
    | error e => rfl
    | ok amount =>
      dsimp only
      cases hsum : total.add amount with
      | error e => rfl
      | ok sum =>
        dsimp only
        rw [ih hrows, List.append_assoc, List.singleton_append]

end Loop

/-! ### What a call needs -/

/-- A call of `compute_deployment`. -/
structure Computation (F : Type) where
  plan : Planner
  rt : DecimalText
  fl : Floats F
  workspaceId : ℕ
  deploymentId : ℕ
  period : PyStr

namespace Computation

variable {F : Type} (c : Computation F) (s : Records) (bounds : ℤ × ℤ)

def transaction : RecordTxn :=
  computeDeployment c.plan c.rt c.fl c.workspaceId c.deploymentId c.period

def deploymentType : Option DeploymentType :=
  (s.evidence.books.deployments.find? fun d => d.id = c.deploymentId).map
    MeasuredDeployment.deploymentType

def cost : Except Failure Draft :=
  computeCost c.plan c.rt s.evidence.db s.evidence.books c.workspaceId c.deploymentId c.period

def seats : Except Failure Draft :=
  computeSeats c.rt s.evidence.db s.evidence.books c.workspaceId c.deploymentId c.period

def timeSavings : Except Failure (Option Draft) :=
  computeTimeSavings c.plan c.fl s.evidence.db s.evidence.books c.workspaceId c.deploymentId
    c.period

def containment : Except Failure (Option Draft) :=
  computeContainment c.plan c.fl s.evidence.db s.evidence.books c.deploymentId c.period

/-- What the methods that apply make of the rows. -/
def outcomes : List (Except Failure (Option Draft)) :=
  [(c.cost s).map some, (c.seats s).map some, c.timeSavings s] ++
    if c.deploymentType s = some .agent then [c.containment s] else []

/-- There is a version left for a figure. -/
def Room (word : PyStr) : Prop :=
  s.nextVersion c.deploymentId (word ++ c.period) ≤ integerMax

/-- The parameter version of the period, and its payload. -/
def parameters : Option ℕ × Dict :=
  s.evidence.books.resolveParameterVersion c.workspaceId bounds.1

def meters : List (MeterType × ℚ) := meterTotals c.plan s.evidence.db c.deploymentId bounds

def meterQuote (row : MeterType × ℚ) : Quote ℚ :=
  quotedAt c.rt ((c.parameters s bounds).2.getD (py "unit_prices") (.obj [])) row.1.wire

def license : Option LicenseRow :=
  s.evidence.books.licenses.find? fun l => l.deploymentId = c.deploymentId ∧ l.validTo = none

/-- The paid seats nobody used. -/
def wasteSeats (l : LicenseRow) : ℕ :=
  l.seatsPaid - activatedUsers s.evidence.db c.deploymentId bounds

/-- The hours of the items that were assisted, or of the others. -/
def hours (isAssisted : Bool) : List F :=
  handlingHours c.fl (handlingRows c.plan s.evidence.db c.deploymentId bounds) isAssisted

/-- The hours saved per item. -/
def saved : F :=
  let mean := fun xs : List F => c.fl.div (c.fl.sum xs) (c.fl.ofNat xs.length)
  c.fl.sub (mean (c.hours s bounds false)) (mean (c.hours s bounds true))

def halfWidth : F :=
  let samples := c.hours s bounds true ++ c.hours s bounds false
  c.fl.div (c.fl.sub (c.fl.max samples) (c.fl.min samples))
    (c.fl.mul (c.fl.ofNat 2) (c.fl.sqrt samples.length))

/-- The margin of error exceeds the measured effect. -/
def Refused : Prop := c.fl.lt (c.fl.abs (c.saved s bounds)) (c.halfWidth s bounds) = true

/-- A number `json.dumps` writes after rounding. -/
def Written (x : F) : Prop := (c.fl.toNum (c.fl.round x 4)).finite = true

def savings (hourly : F) : Decimal :=
  c.fl.toDecimal (c.fl.round (c.fl.mul (c.fl.mul (c.saved s bounds)
    (c.fl.ofNat (c.hours s bounds true).length)) hourly) 6)

/-- How many cases were handled without a human, and how many were not. -/
def handled : ℕ × ℕ :=
  (actionCount c.plan s.evidence.db c.deploymentId bounds (py "case_handled_autonomous"),
    actionCount c.plan s.evidence.db c.deploymentId bounds (py "escalated_to_human"))

/-! #### Prices that are missing -/

/-- A price `compute_cost` looks up is missing or unusable. -/
def CostUnpriced : Prop :=
  (c.parameters s bounds).1 = none ∨ ∃ row ∈ c.meters s bounds, ¬ (c.meterQuote s bounds row).IsUsable

/-- So is the price of a seat, or the license. -/
def SeatsUnpriced : Prop :=
  ∀ l ∈ c.license s, ¬ (seatQuote c.rt l (c.parameters s bounds).2).IsUsable

/-- So is the price of an hour, where hours saved are to be priced. -/
def HoursUnpriced : Prop :=
  c.hours s bounds true ≠ [] ∧ c.hours s bounds false ≠ [] ∧ ¬ c.Refused s bounds ∧
    ((c.parameters s bounds).1 = none ∨ ¬ (rateQuote c.fl (c.parameters s bounds).2).IsUsable)

/-- A method that misses a price drafts a figure that awaits its parameters. -/
structure AwaitsPrices : Prop where
  cost : c.CostUnpriced s bounds → ∃ d, c.cost s = .ok d ∧ d.status = .awaitingParameters
  seats : c.SeatsUnpriced s bounds → ∃ d, c.seats s = .ok d ∧ d.status = .awaitingParameters
  hours : c.HoursUnpriced s bounds →
    ∃ d, c.timeSavings s = .ok (some d) ∧ d.status = .awaitingParameters

/-- Run alone, the call commits, every draft of a method that applies is stored as a new
figure that passes the checks, and figures without their price await it. -/
def Delivers (n : ℕ) : Prop :=
  ∃ refs s' n', c.transaction.eval s n = (.ok (.written refs, s'), n') ∧
    (∀ x ∈ c.outcomes s, ∃ o, x = .ok o ∧ ∀ d ∈ o, NewFigure s s' c.deploymentId d) ∧
    ∀ bounds, periodBounds c.period = .ok bounds → c.AwaitsPrices s bounds

/-! #### Prices that can be used -/

/-- No meter of the period has a price, or each has one that can be used. -/
def CostPriced : Prop :=
  (c.parameters s bounds).1 = none ∨
    (∀ row ∈ c.meters s bounds, c.meterQuote s bounds row = .absent) ∨
    ∃ price : MeterType × ℚ → ℚ,
      (∀ row ∈ c.meters s bounds, c.meterQuote s bounds row = .usable (price row)) ∧
      FitsColumn (sumAmounts ((c.meters s bounds).map fun row => (row.2, price row)) (.finite 0))

/-- The current license, if there is one, has a price or finds one. -/
def SeatsPriced : Prop :=
  ∀ l ∈ c.license s, ∃ q, seatQuote c.rt l (c.parameters s bounds).2 = .usable q ∧
    FitsColumn ((Decimal.finite q).mul (.finite (c.wasteSeats s bounds l)))

/-- The price of an hour, where hours saved are to be priced, is missing or can be used. -/
def HoursPriced : Prop :=
  c.Written (c.saved s bounds) ∧ (c.Refused s bounds → c.Written (c.halfWidth s bounds)) ∧
    (¬ c.Refused s bounds → (c.parameters s bounds).1 = none ∨
      rateQuote c.fl (c.parameters s bounds).2 = .absent ∨
      ∃ hourly, rateQuote c.fl (c.parameters s bounds).2 = .usable hourly ∧
        FitsColumn (.ok (c.savings s bounds hourly)))

/-- Every price the methods look up is one they can use or await. -/
structure Payable : Prop where
  cost : c.Room s (py "fig_cost_") ∧ c.CostPriced s bounds
  seats : c.Room s (py "fig_seats_") ∧ c.SeatsPriced s bounds
  hours : c.hours s bounds true ≠ [] → c.hours s bounds false ≠ [] →
    c.Room s (py "fig_time_") ∧ c.HoursPriced s bounds
  containment : c.deploymentType s = some .agent →
    (c.handled s bounds).1 + (c.handled s bounds).2 ≠ 0 → c.Room s (py "fig_containment_") ∧
      FitsColumn (.ok (c.fl.toDecimal (c.fl.round (c.fl.ratio (c.handled s bounds).1
        ((c.handled s bounds).1 + (c.handled s bounds).2)) 6)))

end Computation

/-! ### What each method drafts -/

section Acceptance

variable {s : Records} {dep : ℕ} {d : Draft}

theorem jsonbOk_obj {fields : Dict} : jsonbOk (.obj fields) = true ↔
    ∀ f ∈ fields, jsonbOk (.str f.1) = true ∧ jsonbOk f.2 = true :=
  Json.allFields_iff

theorem jsonbOk_meterNames (ms : List MeterType) : jsonbOk (meterNames ms) = true := by
  refine Json.allItems_iff.2 fun x hx => ?_
  obtain ⟨m, -, rfl⟩ := List.mem_map.1 hx
  cases m <;> decide

theorem valueParam_isOk {total : Decimal} :
    (∃ v, valueParam (some total) = .ok v) ↔ ∃ v, total.toColumn = .ok v := by
  cases h : total.toColumn with
  | error e => simp [valueParam, h, Except.map]
  | ok v => simp [valueParam, h, Except.map]

/-- A draft without a value needs a version and a lineage that can be stored. -/
theorem accepted_pending (hstatus : d.status ≠ .computed) (hvalue : d.value = none) :
    Accepted s dep d ↔ s.nextVersion dep d.figureRef ≤ integerMax ∧
      jsonbOk (.obj d.lineage) = true := by
  constructor
  · intro h
    exact ⟨h.room, h.lineage⟩
  · intro h
    refine ⟨h.1, h.2, ⟨none, by rw [hvalue]; rfl⟩, ?_⟩
    simp [Draft.shapeOk, hstatus]

/-- A computed one needs a value that can be stored too. -/
theorem accepted_computed (hstatus : d.status = .computed) (hgrade : d.grade.isSome = true) :
    Accepted s dep d ↔ s.nextVersion dep d.figureRef ≤ integerMax ∧
      jsonbOk (.obj d.lineage) = true ∧ ∃ total v, d.value = some total ∧ total.toColumn = .ok v := by
  cases hvalue : d.value with
  | none =>
    have hshape : d.shapeOk = false := by simp [Draft.shapeOk, hstatus, hvalue]
    simp only [reduceCtorEq, false_and, exists_false, and_false, iff_false]
    intro h
    cases hshape.symm.trans h.shape
  | some total =>
    have hshape : d.shapeOk = true := by simp [Draft.shapeOk, hvalue, hgrade]
    simp only [Option.some.injEq, exists_and_left, exists_eq_left']
    constructor
    · intro h
      exact ⟨h.room, h.lineage, valueParam_isOk.1 (hvalue ▸ h.value)⟩
    · intro h
      exact ⟨h.1, h.2.1, hvalue ▸ valueParam_isOk.2 h.2.2, hshape⟩

theorem feasible_map {x : Except Failure Draft} :
    Feasible s dep (x.map some) ↔ ∃ d, x = .ok d ∧ Accepted s dep d := by
  cases x with
  | error e => simp [Feasible, Except.map]
  | ok d => simp [Feasible, Except.map]

end Acceptance

namespace Computation

variable {F : Type} {c : Computation F} {s : Records} {bounds : ℤ × ℤ}

section Cost

variable (hbounds : periodBounds c.period = .ok bounds)

include hbounds

theorem cost_of_none (h : (c.parameters s bounds).1 = none) :
    ∃ d, c.cost s = .ok d ∧ d.status = .awaitingParameters ∧
      (Accepted s c.deploymentId d ↔ c.Room s (py "fig_cost_")) := by
  have hcost : c.cost s = .ok
      { figureRef := py "fig_cost_" ++ c.period
        period := c.period
        claim := py "priced_cost"
        status := .awaitingParameters
        missingParameter := some (py "parameter_set")
        lineage := [(py "reason", .str (py "no parameter version"))] } := by
    have hpair : s.evidence.books.resolveParameterVersion c.workspaceId bounds.1 =
        (none, (c.parameters s bounds).2) := Prod.ext h rfl
    simp only [cost, computeCost, hbounds, liftPython, bind, Except.bind, hpair]
  refine ⟨_, hcost, rfl, (accepted_pending (by simp) rfl).trans (and_iff_left ?_)⟩
  change jsonbOk (.obj [(py "reason", .str (py "no parameter version"))]) = true
  decide

theorem cost_of_some {pv : ℕ} (h : (c.parameters s bounds).1 = some pv) : c.cost s =
    (liftPython (priceMeters c.rt ((c.parameters s bounds).2.getD (py "unit_prices") (.obj []))
      (c.meters s bounds) (.finite 0) [] [])).map fun r =>
        costDraft c.period pv (s.evidence.books.changeTreatment c.plan c.workspaceId c.deploymentId
          bounds.1 bounds.2) r.1 r.2.1 r.2.2 := by
  have hpair : s.evidence.books.resolveParameterVersion c.workspaceId bounds.1 =
      (some pv, (c.parameters s bounds).2) := Prod.ext h rfl
  simp only [cost, computeCost, hbounds, liftPython, bind, Except.bind, hpair, meters]
  generalize priceMeters c.rt _ _ _ _ _ = x
  cases x <;> rfl

end Cost

section Drafts

variable (s)

variable {pv : ℕ} {treatment : Option PyStr} {total : Decimal}
  {priced unpriced : List MeterType}

theorem costDraft_unpriced (hpriced : priced = []) (hunpriced : unpriced ≠ []) :
    (costDraft c.period pv treatment total priced unpriced).status = .awaitingParameters ∧
      (Accepted s c.deploymentId (costDraft c.period pv treatment total priced unpriced) ↔
        c.Room s (py "fig_cost_")) := by
  obtain ⟨first, rest, rfl⟩ := List.exists_cons_of_ne_nil hunpriced
  subst hpriced
  refine ⟨rfl, (accepted_pending (by simp [costDraft]) rfl).trans (and_iff_left ?_)⟩
  refine jsonbOk_obj.2 (List.forall_mem_singleton.2 ⟨?_, jsonbOk_meterNames _⟩)
  change jsonbOk (.str (py "unpriced_meters")) = true
  decide

theorem costDraft_computed (h : priced ≠ [] ∨ unpriced = []) :
    (costDraft c.period pv treatment total priced unpriced).status = .computed ∧
      (Accepted s c.deploymentId (costDraft c.period pv treatment total priced unpriced) ↔
        c.Room s (py "fig_cost_") ∧ ∃ v, total.toColumn = .ok v) := by
  have hdraft : costDraft c.period pv treatment total priced unpriced =
      { figureRef := py "fig_cost_" ++ c.period
        period := c.period
        claim := py "priced_cost"
        status := .computed
        grade := some .measured
        valueClass := some .realized
        value := some total
        parameterSetVersion := some pv
        changeTreatment := treatment
        lineage := [(py "priced_meters", meterNames priced),
          (py "unpriced_meters", meterNames unpriced),
          (py "parameter_set_version", .num (.int pv))] } := by
    rcases h with h | rfl
    · obtain ⟨first, rest, rfl⟩ := List.exists_cons_of_ne_nil h
      rfl
    · cases priced <;> rfl
  rw [hdraft]
  refine ⟨rfl, (accepted_computed rfl rfl).trans ?_⟩
  have hlineage : jsonbOk (.obj [(py "priced_meters", meterNames priced),
      (py "unpriced_meters", meterNames unpriced),
      (py "parameter_set_version", .num (.int pv))]) = true := by
    refine jsonbOk_obj.2 ?_
    simp only [List.forall_mem_cons, jsonbOk_meterNames, and_true]
    exact ⟨by decide, by decide, ⟨by decide, rfl⟩, by simp⟩
  simp only [hlineage, true_and, Option.some.injEq, exists_and_left, exists_eq_left']
  rfl

end Drafts

section Cost

variable (hbounds : periodBounds c.period = .ok bounds)

include hbounds

/-- What the loop has to come to, where there are parameters. -/
theorem cost_feasible_iff {pv : ℕ} (h : (c.parameters s bounds).1 = some pv) :
    (∃ d, c.cost s = .ok d ∧ Accepted s c.deploymentId d) ↔ c.Room s (py "fig_cost_") ∧
      ∃ total priced unpriced,
        priceMeters c.rt ((c.parameters s bounds).2.getD (py "unit_prices") (.obj []))
          (c.meters s bounds) (.finite 0) [] [] = .ok (total, priced, unpriced) ∧
        (priced ≠ [] ∨ unpriced = [] → ∃ v, total.toColumn = .ok v) := by
  rw [cost_of_some hbounds h]
  cases hloop : priceMeters c.rt ((c.parameters s bounds).2.getD (py "unit_prices") (.obj []))
      (c.meters s bounds) (.finite 0) [] [] with
  | error e => simp [liftPython, Except.map]
  | ok r =>
    obtain ⟨total, priced, unpriced⟩ := r
    simp only [liftPython, Except.map, Except.ok.injEq, exists_eq_left', Prod.mk.injEq]
    by_cases hcomputed : priced ≠ [] ∨ unpriced = []
    · rw [(costDraft_computed s hcomputed).2]
      constructor
      · rintro ⟨hroom, hvalue⟩
        exact ⟨hroom, total, priced, unpriced, ⟨rfl, rfl, rfl⟩, fun _ => hvalue⟩
      · rintro ⟨hroom, _, _, _, ⟨rfl, rfl, rfl⟩, hvalue⟩
        exact ⟨hroom, hvalue hcomputed⟩
    · obtain ⟨hpriced, hunpriced⟩ := not_or.1 hcomputed
      rw [(costDraft_unpriced s (not_not.1 hpriced) hunpriced).2]
      constructor
      · intro hroom
        exact ⟨hroom, total, priced, unpriced, ⟨rfl, rfl, rfl⟩, fun h => absurd h hcomputed⟩
      · exact fun h => h.1

theorem cost_iff :
    (∃ d, c.cost s = .ok d ∧ Accepted s c.deploymentId d) ∧ (c.CostUnpriced s bounds →
        ∃ d, c.cost s = .ok d ∧ d.status = .awaitingParameters) ↔
      c.Room s (py "fig_cost_") ∧ c.CostPriced s bounds := by
  cases hparameters : (c.parameters s bounds).1 with
  | none =>
    obtain ⟨d, hd, hstatus, haccepted⟩ := cost_of_none hbounds hparameters
    simp only [hd, CostPriced, hparameters, true_or, and_true, Except.ok.injEq, exists_eq_left',
      haccepted, hstatus, implies_true]
  | some pv =>
    rw [cost_feasible_iff hbounds hparameters]
    constructor
    · rintro ⟨⟨hroom, total, priced, unpriced, hloop, hvalue⟩, hawaits⟩
      refine ⟨hroom, .inr ?_⟩
      by_cases habsent : ∀ row ∈ c.meters s bounds, c.meterQuote s bounds row = .absent
      · exact .inl habsent
      · push Not at habsent
        have hpriced : priced ≠ [] := (priced_of_priceMeters hloop).2 habsent
        have hcomputed : ∀ d, c.cost s = .ok d → d.status = .computed := by
          intro d hd
          rw [cost_of_some hbounds hparameters, hloop] at hd
          cases hd
          exact (costDraft_computed s (.inl hpriced)).1
        have husable : ∀ row, ∃ q, row ∈ c.meters s bounds → c.meterQuote s bounds row = .usable q := by
          intro row
          by_contra hnone
          push Not at hnone
          refine absurd (hawaits (.inr ⟨row, (hnone 0).1, fun h => ?_⟩)) ?_
          · obtain ⟨q, hq⟩ := h.exists
            exact (hnone q).2 hq
          · rintro ⟨d, hd, hstatus⟩
            cases (hcomputed d hd).symm.trans hstatus
        choose price hprice using husable
        refine .inr ⟨price, hprice, total, ?_⟩
        rw [priceMeters_usable hprice] at hloop
        obtain ⟨v, hv⟩ := hvalue (.inl hpriced)
        refine ⟨v, ?_, hv⟩
        cases hsum : sumAmounts ((c.meters s bounds).map fun row => (row.2, price row))
            (.finite 0) with
        | error e =>
          rw [hsum] at hloop
          cases hloop
        | ok t =>
          rw [hsum] at hloop
          cases hloop
          rfl
    · rintro ⟨hroom, hnone | habsent | ⟨price, hprice, total, v, hsum, hv⟩⟩
      · cases hparameters.symm.trans hnone
      · have hloop := @priceMeters_absent c.rt _ (c.meters s bounds) (.finite 0) [] [] habsent
        have hzero : (Decimal.finite 0).toColumn = .ok (.number ⟨0, by decide⟩) := by
          decide +kernel
        refine ⟨⟨hroom, _, _, _, hloop, fun _ => ⟨_, hzero⟩⟩, fun hunpriced => ?_⟩
        obtain ⟨row, hrow, -⟩ := hunpriced.resolve_left (by simp [hparameters])
        rw [cost_of_some hbounds hparameters, hloop]
        refine ⟨_, rfl, (costDraft_unpriced s rfl ?_).1⟩
        exact List.ne_nil_of_mem (List.mem_map_of_mem hrow)
      · have hloop := @priceMeters_usable c.rt _ (c.meters s bounds) (.finite 0) [] [] price hprice
        rw [hsum] at hloop
        refine ⟨⟨hroom, _, _, _, hloop, fun _ => ⟨v, hv⟩⟩, fun hunpriced => ?_⟩
        obtain ⟨row, hrow, hnot⟩ := hunpriced.resolve_left (by simp [hparameters])
        rw [hprice row hrow] at hnot
        exact absurd trivial hnot

end Cost

section Seats

variable (hbounds : periodBounds c.period = .ok bounds)

theorem seatPrice_of_usable {rt : DecimalText} {l : LicenseRow} {payload : Dict} {q : ℚ}
    (h : seatQuote rt l payload = .usable q) :
    ∃ provenance, seatPrice rt l payload = .ok (some (.finite q), some provenance) ∧
      jsonbOk (.str provenance) = true := by
  unfold seatQuote at h
  unfold seatPrice
  cases hprice : l.pricePerSeat with
  | some price =>
    simp only [hprice] at h
    refine ⟨py "license_data", ?_, by decide⟩
    dsimp only
    rw [Except.ok.inj (quoteOf_usable h)]
  | none =>
    simp only [hprice] at h
    split_ifs at h with hpayload
    obtain ⟨price, hfound, hne, hdecimal⟩ := quotedAt_usable h
    refine ⟨py "customer_entered", ?_, by decide⟩
    simp only [hpayload, if_false, bind, Except.bind, hfound, hdecimal]

include hbounds

theorem seats_of_none (h : c.license s = none) :
    ∃ d, c.seats s = .ok d ∧ d.status = .awaitingParameters ∧
      (Accepted s c.deploymentId d ↔ c.Room s (py "fig_seats_")) := by
  have hseats : c.seats s = .ok
      { figureRef := py "fig_seats_" ++ c.period
        period := c.period
        claim := py "seat_utilization"
        status := .awaitingParameters
        missingParameter := some (py "license")
        lineage := [(py "reason", .str (py "no license declared"))] } := by
    rw [license] at h
    simp only [seats, computeSeats, hbounds, liftPython, bind, Except.bind, h]
  refine ⟨_, hseats, rfl, (accepted_pending (by simp) rfl).trans (and_iff_left ?_)⟩
  change jsonbOk (.obj [(py "reason", .str (py "no license declared"))]) = true
  decide

theorem seats_of_some {l : LicenseRow} (h : c.license s = some l) : c.seats s =
    liftPython (seatPrice c.rt l (c.parameters s bounds).2) >>= fun r =>
      (liftPython (r.1.mapM fun p => p.mul (.finite (c.wasteSeats s bounds l)))).map fun value =>
        seatsDraft c.period l.seatsPaid (activatedUsers s.evidence.db c.deploymentId bounds) value
          (c.parameters s bounds).1 r.2 := by
  rw [license] at h
  simp only [seats, computeSeats, hbounds, h]
  rfl

theorem seats_iff :
    (∃ d, c.seats s = .ok d ∧ Accepted s c.deploymentId d) ∧ (c.SeatsUnpriced s bounds →
        ∃ d, c.seats s = .ok d ∧ d.status = .awaitingParameters) ↔
      c.Room s (py "fig_seats_") ∧ c.SeatsPriced s bounds := by
  cases hlicense : c.license s with
  | none =>
    obtain ⟨d, hd, hstatus, haccepted⟩ := seats_of_none hbounds hlicense
    simp only [hd, SeatsPriced, hlicense, Option.mem_def, reduceCtorEq, IsEmpty.forall_iff,
      implies_true, and_true, Except.ok.injEq, exists_eq_left', haccepted, hstatus]
  | some l =>
    constructor
    · rintro ⟨⟨d, hd, haccepted⟩, hawaits⟩
      have hdraft := hd
      rw [seats_of_some hbounds hlicense] at hdraft
      obtain ⟨⟨price, provenance⟩, hprice, hdraft⟩ := bind_eq_ok hdraft
      obtain ⟨value, hvalue, rfl⟩ := map_eq_ok hdraft
      obtain ⟨hroom, -, total, v, rfl, hv⟩ := (accepted_computed rfl rfl).1 haccepted
      refine ⟨hroom, fun l' hl' => ?_⟩
      obtain rfl := Option.some.inj (hlicense.symm.trans hl')
      have husable : (seatQuote c.rt l (c.parameters s bounds).2).IsUsable := by
        by_contra hnot
        obtain ⟨d', hd', hstatus⟩ := hawaits fun l' hl' => by
          obtain rfl := Option.some.inj (hlicense.symm.trans hl')
          exact hnot
        cases hd.symm.trans hd'
        cases hstatus
      obtain ⟨q, hq⟩ := husable.exists
      obtain ⟨provenance', hprice', -⟩ := seatPrice_of_usable hq
      rw [eq_ok_of_liftPython hprice] at hprice'
      cases hprice'
      have hamount := eq_ok_of_liftPython hvalue
      refine ⟨q, hq, total, v, ?_, hv⟩
      rw [Option.mapM_some] at hamount
      cases hproduct : (Decimal.finite q).mul (.finite (c.wasteSeats s bounds l)) with
      | error e =>
        rw [hproduct] at hamount
        cases hamount
      | ok t =>
        rw [hproduct] at hamount
        cases hamount
        rfl
    · rintro ⟨hroom, hpriced⟩
      obtain ⟨q, hq, total, v, hproduct, hv⟩ := hpriced l hlicense
      obtain ⟨provenance, hprice, hprovenance⟩ := seatPrice_of_usable hq
      have hseats : c.seats s = .ok (seatsDraft c.period l.seatsPaid
          (activatedUsers s.evidence.db c.deploymentId bounds) (some total)
          (c.parameters s bounds).1 (some provenance)) := by
        rw [seats_of_some hbounds hlicense, hprice]
        simp only [liftPython, bind, Except.bind, Option.mapM_some, hproduct, Except.map,
          Functor.map]
      refine ⟨⟨_, hseats, (accepted_computed rfl rfl).2 ⟨hroom, ?_, total, v, rfl, hv⟩⟩, ?_⟩
      · refine jsonbOk_obj.2 ?_
        simp only [seatsDraft, List.forall_mem_cons]
        exact ⟨⟨by decide, rfl⟩, ⟨by decide, rfl⟩, ⟨by decide, rfl⟩, ⟨by decide, hprovenance⟩,
          by simp⟩
      · intro hunpriced
        have hnot := hunpriced l hlicense
        rw [hq] at hnot
        exact absurd trivial hnot

end Seats

end Computation

end TrueFigure.Server
