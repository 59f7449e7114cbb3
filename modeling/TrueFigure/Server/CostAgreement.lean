import TrueFigure.Server.SubMeters

/-!
# The live cost and the verdict

`compute_cost` and `live_cost` look up the parameters and price the meters in loops of
their own. Both are read against the same sum here: the quantity of each meter times its
price, over the meters that have one.
-/
namespace TrueFigure.Server

open TrueFigure.Library TrueFigure.Python

/-! ### Prices -/

/-- The number a price is: the decimal it is written as. -/
def unitPrice (rt : DecimalText) : Json → Option ℚ
  | .num (.int n) => some n
  | .num (.float q) => some (rt.shortest q)
  | _ => none

/-- A price that was entered as a number, or none. -/
def PriceOk : Json → Prop
  | .null | .num (.int _) | .num (.float _) => True
  | _ => False

/-- The unit prices of a payload are numbers. -/
def NumericPrices (payload : Dict) : Prop :=
  ∃ fields : Dict, payload.getD (py "unit_prices") (.obj []) = .obj fields ∧
    ∀ m : MeterType, PriceOk (fields.getD m.wire .null)

/-- The floats of `live_cost` compute without rounding, and read a price as the decimal it
is written as. -/
structure CostFloats.Exact (fl : CostFloats ℚ) (rt : DecimalText) : Prop where
  ofNat : ∀ n, fl.ofNat n = n
  ofQuantity : ∀ q, fl.ofQuantity q = q
  ofJson : ∀ price q, unitPrice rt price = some q → fl.ofJson price = .ok q
  mul : ∀ x y, fl.mul x y = x * y
  add : ∀ x y, fl.add x y = x + y

section Prices

variable (rt : DecimalText) (fields : Dict)

def meterPrice (m : MeterType) : Option ℚ := unitPrice rt (fields.getD m.wire .null)

def pricedMeters (rows : List (MeterType × ℚ)) : List MeterType :=
  (rows.map Prod.fst).filter fun m => (meterPrice rt fields m).isSome

def unpricedMeters (rows : List (MeterType × ℚ)) : List MeterType :=
  (rows.map Prod.fst).filter fun m => (meterPrice rt fields m).isNone

/-- What the rows cost. -/
def pricedSum (rows : List (MeterType × ℚ)) : ℚ :=
  (rows.map fun row => row.2 * (meterPrice rt fields row.1).getD 0).sum

/-- No product and no partial sum of the loop of `compute_cost` is rounded. -/
def Unrounded : List (MeterType × ℚ) → ℚ → Prop
  | [], _ => True
  | (m, qty) :: rows, total =>
    match meterPrice rt fields m with
    | none => Unrounded rows total
    | some price =>
      Decimal.rounded (qty * price) = .ok (.finite (qty * price)) ∧
        Decimal.rounded (total + qty * price) = .ok (.finite (total + qty * price)) ∧
        Unrounded rows (total + qty * price)

end Prices

section Loops

variable {rt : DecimalText} {fl : CostFloats ℚ} {fields payload : Dict} {m : MeterType}
  {rows rows' : List (MeterType × ℚ)}

theorem price_cases (rt : DecimalText) (h : PriceOk (fields.getD m.wire .null)) :
    fields.getD m.wire .null = .null ∧ meterPrice rt fields m = none ∨
      ∃ num q, fields.getD m.wire .null = .num num ∧ unitPrice rt (.num num) = some q ∧
        decimalOf rt (.num num) = .ok (.finite q) ∧ meterPrice rt fields m = some q := by
  unfold meterPrice
  generalize fields.getD m.wire .null = price at h
  cases price with
  | null => exact .inl ⟨rfl, rfl⟩
  | num num =>
    cases num with
    | int n => exact .inr ⟨_, _, rfl, rfl, rfl, rfl⟩
    | float q => exact .inr ⟨_, _, rfl, rfl, rfl, rfl⟩
    | _ => cases h
  | _ => cases h

/-- The loop of `live_cost` at a meter without a price. -/
theorem liveMeters_unpriced {meters : List (LiveMeter ℚ)} {qty ptd total : ℚ}
    (hnull : fields.getD m.wire .null = .null)
    (hrest : liveMeters fl (.obj fields) rows ptd = .ok (meters, total)) :
    ∃ x : LiveMeter ℚ, (x.meter, x.usd.isSome) = (m, false) ∧
      liveMeters fl (.obj fields) ((m, qty) :: rows) ptd = .ok (x :: meters, total) := by
  refine ⟨⟨m, fl.ofQuantity qty, none, some (py "awaiting_parameters"),
    some (py "unit_prices." ++ m.wire)⟩, rfl, ?_⟩
  simp only [liveMeters, attrGet, hnull, bind, Except.bind, hrest]

theorem liveMeters_priced {num : PyNum} {meters : List (LiveMeter ℚ)} {qty ptd unit total : ℚ}
    (hnum : fields.getD m.wire .null = .num num) (hunit : fl.ofJson (.num num) = .ok unit)
    (hrest : liveMeters fl (.obj fields) rows (fl.add ptd (fl.mul (fl.ofQuantity qty) unit)) =
      .ok (meters, total)) :
    ∃ x : LiveMeter ℚ, (x.meter, x.usd.isSome) = (m, true) ∧
      liveMeters fl (.obj fields) ((m, qty) :: rows) ptd = .ok (x :: meters, total) := by
  refine ⟨⟨m, fl.ofQuantity qty, some (fl.round (fl.mul (fl.ofQuantity qty) unit) 6), none, none⟩,
    rfl, ?_⟩
  simp only [liveMeters, attrGet, hnum, bind, Except.bind, hunit, hrest]

section

variable (hprices : ∀ m : MeterType, PriceOk (fields.getD m.wire .null))

include hprices

theorem liveMeters_exact (hexact : fl.Exact rt) (rows : List (MeterType × ℚ)) (ptd : ℚ) :
    ∃ meters, liveMeters fl (.obj fields) rows ptd = .ok (meters, ptd + pricedSum rt fields rows) ∧
      meters.map (fun x => (x.meter, x.usd.isSome)) =
        rows.map fun row => (row.1, (meterPrice rt fields row.1).isSome) := by
  induction rows generalizing ptd with
  | nil => exact ⟨[], by rw [pricedSum, List.map_nil, List.sum_nil, add_zero]; rfl, rfl⟩
  | cons row rows ih =>
    obtain ⟨m, qty⟩ := row
    rcases price_cases rt (hprices m) with ⟨hnull, hnone⟩ | ⟨num, q, hnum, hunit, -, hsome⟩
    · obtain ⟨meters, hrest, hmeters⟩ := ih ptd
      obtain ⟨x, hx, hlive⟩ := liveMeters_unpriced hnull hrest
      refine ⟨x :: meters, ?_, ?_⟩
      · rw [hlive, pricedSum, pricedSum, List.map_cons, List.sum_cons, hnone, Option.getD_none,
          mul_zero, zero_add]
      · rw [List.map_cons, List.map_cons, hx, hmeters, hnone, Option.isSome_none]
    · obtain ⟨meters, hrest, hmeters⟩ := ih (ptd + qty * q)
      rw [← hexact.ofQuantity qty, ← hexact.mul, ← hexact.add] at hrest
      obtain ⟨x, hx, hlive⟩ := liveMeters_priced hnum (hexact.ofJson _ _ hunit) hrest
      refine ⟨x :: meters, ?_, ?_⟩
      · rw [hlive, hexact.add, hexact.mul, hexact.ofQuantity, pricedSum, pricedSum, List.map_cons,
          List.sum_cons, hsome, Option.getD_some, add_assoc]
      · rw [List.map_cons, List.map_cons, hx, hmeters, hsome, Option.isSome_some]

theorem names_of_priceMeters {total total' : Decimal} {priced unpriced priced' unpriced' :
    List MeterType} (h : priceMeters rt (.obj fields) rows total priced unpriced =
      .ok (total', priced', unpriced')) :
    priced' = priced ++ pricedMeters rt fields rows ∧
      unpriced' = unpriced ++ unpricedMeters rt fields rows := by
  induction rows generalizing total priced unpriced with
  | nil =>
    cases h
    exact ⟨(List.append_nil _).symm, (List.append_nil _).symm⟩
  | cons row rows ih =>
    obtain ⟨m, qty⟩ := row
    unfold priceMeters at h
    rcases price_cases rt (hprices m) with ⟨hnull, hnone⟩ | ⟨num, q, hnum, -, hd, hsome⟩
    · simp only [attrGet, hnull, bind, Except.bind] at h
      have hrest := ih h
      rw [List.append_assoc] at hrest
      simpa [pricedMeters, unpricedMeters, hnone] using hrest
    · obtain ⟨price, hprice, h⟩ := bind_eq_ok h
      obtain rfl : .num num = price := hnum.symm.trans (Except.ok.inj hprice)
      obtain ⟨unit, -, h⟩ := bind_eq_ok h
      obtain ⟨amount, -, h⟩ := bind_eq_ok h
      obtain ⟨sum, -, h⟩ := bind_eq_ok h
      have hrest := ih h
      rw [List.append_assoc] at hrest
      simpa [pricedMeters, unpricedMeters, hsome] using hrest

/-- The loop of `compute_cost` where nothing is rounded. -/
theorem priceMeters_unrounded {total : ℚ} (priced unpriced : List MeterType)
    (h : Unrounded rt fields rows total) :
    ∃ priced' unpriced', priceMeters rt (.obj fields) rows (.finite total) priced unpriced =
      .ok (.finite (total + pricedSum rt fields rows), priced', unpriced') := by
  induction rows generalizing total priced unpriced with
  | nil => exact ⟨priced, unpriced, by rw [pricedSum, List.map_nil, List.sum_nil, add_zero]; rfl⟩
  | cons row rows ih =>
    obtain ⟨m, qty⟩ := row
    unfold Unrounded at h
    rcases price_cases rt (hprices m) with ⟨hnull, hnone⟩ | ⟨num, q, hnum, -, hd, hsome⟩
    · rw [hnone] at h
      obtain ⟨priced', unpriced', hrest⟩ := ih priced (unpriced ++ [m]) h
      refine ⟨priced', unpriced', ?_⟩
      simp only [priceMeters, attrGet, hnull, bind, Except.bind, hrest]
      rw [pricedSum, pricedSum, List.map_cons, List.sum_cons, hnone, Option.getD_none, mul_zero,
        zero_add]
    · rw [hsome] at h
      obtain ⟨hmul, hadd, h⟩ := h
      obtain ⟨priced', unpriced', hrest⟩ := ih (priced ++ [m]) unpriced h
      refine ⟨priced', unpriced', ?_⟩
      simp only [priceMeters, attrGet, hnum, bind, Except.bind, hd, Decimal.mul, hmul, Decimal.add,
        hadd, hrest]
      rw [pricedSum, pricedSum, List.map_cons, List.sum_cons, hsome, Option.getD_some, add_assoc]

end

/-- Rows in another order cost the same. -/
theorem pricedSum_perm (h : rows.Perm rows') : pricedSum rt fields rows = pricedSum rt fields rows' :=
  (h.map _).sum_eq

theorem mem_pricedMeters : m ∈ pricedMeters rt fields rows ↔
    m ∈ rows.map Prod.fst ∧ (meterPrice rt fields m).isSome :=
  List.mem_filter

theorem mem_unpricedMeters : m ∈ unpricedMeters rt fields rows ↔
    m ∈ rows.map Prod.fst ∧ (meterPrice rt fields m).isNone :=
  List.mem_filter

theorem pricedSum_eq_zero (h : pricedMeters rt fields rows = []) : pricedSum rt fields rows = 0 := by
  refine List.sum_eq_zero fun x hx => ?_
  obtain ⟨row, hrow, rfl⟩ := List.mem_map.1 hx
  have hnone : meterPrice rt fields row.1 = none := by
    by_contra hsome
    have hmem := mem_pricedMeters.2 ⟨List.mem_map_of_mem hrow, Option.isSome_iff_ne_none.2 hsome⟩
    rw [h] at hmem
    cases hmem
  rw [hnone, Option.getD_none, mul_zero]

end Loops

/-! ### Both answers -/

/-- The meters listed under a key of the lineage. -/
def Draft.meters (d : Draft) (key : PyStr) : List PyStr :=
  match d.lineage.getD key (.arr []) with
  | .arr names => names.filterMap fun
    | .str name => some name
    | _ => none
  | _ => []

namespace LiveCost

variable {F : Type} (x : LiveCost F)

def priced : List MeterType := (x.meters.filter fun m => m.usd.isSome).map LiveMeter.meter

def unpriced : List MeterType := (x.meters.filter fun m => m.usd.isNone).map LiveMeter.meter

end LiveCost

namespace CostQuestion

variable (q : CostQuestion ℚ) (bounds : ℤ × ℤ) (s : Db)

/-- The `priced_cost` figure. -/
def figure : Except Failure Draft :=
  computeCost q.plan q.rt s q.books q.workspaceId q.deploymentId q.period

/-- The answer of `live_cost`. -/
def live : Except Failure (LiveCost ℚ) :=
  liveCost q.plan q.fl s q.books q.workspaceId q.deploymentId q.period

def unitPrices : Json :=
  (q.books.paramFor q.workspaceId bounds.1).2.getD (py "unit_prices") (.obj [])

/-- The sum of `live_cost` before it is rounded. -/
def liveTotal : Except PyErr ℚ :=
  (liveMeters q.fl (q.unitPrices bounds) (q.quantities bounds s) (q.fl.ofNat 0)).map Prod.snd

/-- The decimals of `compute_cost` are exact on the rows it reads. -/
def Unrounded : Prop :=
  TrueFigure.Server.Unrounded q.rt (q.unitPrices bounds).dictOrEmpty
    (meterTotals q.plan s q.deploymentId bounds) 0

/-- The figure of a period no parameters are in force for. -/
def awaited : Draft where
  figureRef := py "fig_cost_" ++ q.period
  period := q.period
  claim := py "priced_cost"
  status := .awaitingParameters
  missingParameter := some (py "parameter_set")
  lineage := [(py "reason", .str (py "no parameter version"))]

/-- The figure and the live answer agree. -/
structure Agree (d : Draft) (x : LiveCost ℚ) (total : ℚ) : Prop where
  version : d.parameterSetVersion = x.parameterSetVersion
  value : d.status = .computed → q.Unrounded bounds s → d.value = some (.finite total)
  status : d.status = .computed ∨ d.status = .awaitingParameters
  awaiting : d.status = .awaitingParameters ↔
    x.parameterSetVersion = none ∨ x.meters ≠ [] ∧ x.priced = []
  zero : d.status = .awaitingParameters → total = 0
  priced : ∀ m : MeterType, m.wire ∈ d.meters (py "priced_meters") ↔ m ∈ x.priced
  unpriced : x.parameterSetVersion ≠ none →
    ∀ m : MeterType, m.wire ∈ d.meters (py "unpriced_meters") ↔ m ∈ x.unpriced

end CostQuestion

section Answers

variable {rt : DecimalText} {fields : Dict} {m : MeterType} {ms : List MeterType}
  {rows : List (MeterType × ℚ)} {q : CostQuestion ℚ} {bounds : ℤ × ℤ} {s : Db}

theorem MeterType.wire_injective : Function.Injective MeterType.wire := by
  intro m m' h
  cases m <;> cases m' <;> first | rfl | exact absurd h (by decide)

theorem meters_of_lineage {d : Draft} {key : PyStr}
    (h : d.lineage.get? key = some (meterNames ms)) : m.wire ∈ d.meters key ↔ m ∈ ms := by
  have hnames : d.meters key = ms.map MeterType.wire := by
    unfold Draft.meters Dict.getD
    rw [h, Option.getD_some, meterNames]
    induction ms with
    | nil => rfl
    | cons m ms ih => simp
  rw [hnames, List.mem_map_of_injective MeterType.wire_injective]

theorem meters_eq_nil {d : Draft} {key : PyStr} (h : d.lineage.get? key = none) :
    d.meters key = [] := by
  unfold Draft.meters Dict.getD
  rw [h]
  rfl

theorem priced_of_rows {meters : List (LiveMeter ℚ)}
    (h : meters.map (fun x => (x.meter, x.usd.isSome)) =
      rows.map fun row => (row.1, (meterPrice rt fields row.1).isSome)) :
    (meters.filter fun x => x.usd.isSome).map LiveMeter.meter = pricedMeters rt fields rows ∧
      (meters.filter fun x => x.usd.isNone).map LiveMeter.meter =
        unpricedMeters rt fields rows := by
  induction rows generalizing meters with
  | nil =>
    rw [List.map_eq_nil_iff.1 h]
    exact ⟨rfl, rfl⟩
  | cons row rows ih =>
    obtain ⟨x, rest, rfl, hx, hrest⟩ := List.map_eq_cons_iff.1 h
    obtain ⟨hmeter, hsome⟩ := Prod.mk.inj hx
    obtain ⟨hpriced, hunpriced⟩ := ih hrest
    simp only [pricedMeters, unpricedMeters, List.map_cons, List.filter_cons] at hpriced hunpriced ⊢
    rw [← hpriced, ← hunpriced, ← Option.not_isSome, ← Option.not_isSome, hsome, ← hmeter]
    cases (meterPrice rt fields x.meter).isSome <;> exact ⟨rfl, rfl⟩

theorem numericPrices_paramFor (b : Books) (workspaceId : ℕ) (start : ℤ)
    (h : ∀ p ∈ b.parameterSets, p.workspaceId = workspaceId → NumericPrices p.payload) :
    NumericPrices (b.paramFor workspaceId start).2 := by
  unfold Books.paramFor Books.resolveParameterVersion
  split
  · rename_i p hp
    obtain ⟨hmem, hfilter⟩ := List.mem_filter.1 (List.argmax_mem (Option.mem_def.2 hp))
    exact h p hmem (of_decide_eq_true hfilter).1
  · exact ⟨[], rfl, fun _ => trivial⟩

theorem payload_of_none {b : Books} {workspaceId : ℕ} {start : ℤ} {payload : Dict}
    (h : b.resolveParameterVersion workspaceId start = (none, payload)) : payload = [] := by
  unfold Books.resolveParameterVersion at h
  split at h <;> cases h
  rfl

theorem figure_without_parameters {payload : Dict} (hbounds : periodBounds q.period = .ok bounds)
    (h : q.books.resolveParameterVersion q.workspaceId bounds.1 = (none, payload)) :
    q.figure s = .ok q.awaited := by
  simp only [CostQuestion.figure, computeCost, hbounds, liftPython, bind, Except.bind, h]
  rfl

theorem figure_with_parameters {pv : ℕ} {payload : Dict}
    (hbounds : periodBounds q.period = .ok bounds)
    (h : q.books.resolveParameterVersion q.workspaceId bounds.1 = (some pv, payload)) :
    q.figure s = liftPython (priceMeters q.rt (payload.getD (py "unit_prices") (.obj []))
      (meterTotals q.plan s q.deploymentId bounds) (.finite 0) [] []) >>= fun r =>
        .ok (costDraft q.period pv
          (q.books.changeTreatment q.plan q.workspaceId q.deploymentId bounds.1 bounds.2)
          r.1 r.2.1 r.2.2) := by
  simp only [CostQuestion.figure, computeCost, hbounds, liftPython, bind, Except.bind, h]

theorem agree_without_parameters {x : LiveCost ℚ} (hversion : x.parameterSetVersion = none)
    (hpriced : x.priced = []) : q.Agree bounds s q.awaited x 0 := by
  constructor
  · exact hversion.symm
  · intro h
    cases h
  · exact .inr rfl
  · exact iff_of_true rfl (.inl hversion)
  · exact fun _ => rfl
  · intro m
    rw [meters_eq_nil rfl, hpriced]
    exact iff_of_false List.not_mem_nil List.not_mem_nil
  · exact fun h => absurd hversion h

/-- With parameters the figure is awaited where there are meters and none is priced. -/
theorem agree_with_parameters {pv : ℕ} {treatment : Option PyStr} {total : Decimal} {ptd : ℚ}
    {priced unpriced : List MeterType} {x : LiveCost ℚ} (hversion : x.parameterSetVersion = some pv)
    (hpriced : ∀ m, m ∈ priced ↔ m ∈ x.priced) (hunpriced : ∀ m, m ∈ unpriced ↔ m ∈ x.unpriced)
    (hvalue : q.Unrounded bounds s → total = .finite ptd) (hzero : priced = [] → ptd = 0) :
    q.Agree bounds s (costDraft q.period pv treatment total priced unpriced) x ptd := by
  have hnone : x.priced = [] ↔ priced = [] := by
    simp only [List.eq_nil_iff_forall_not_mem, hpriced]
  have hmeters : priced = [] → (x.meters ≠ [] ↔ unpriced ≠ []) := by
    intro hnil
    have hmem : ∀ e ∈ x.meters, e.usd.isNone := by
      intro e he
      rw [← Option.not_isSome, Bool.not_eq_true']
      by_contra hsome
      rw [← hnone, LiveCost.priced, List.map_eq_nil_iff, List.filter_eq_nil_iff] at hnil
      exact hnil e he (Option.isSome_iff_ne_none.2 (by simpa using hsome))
    have hall : x.unpriced = x.meters.map LiveMeter.meter := by
      rw [LiveCost.unpriced, List.filter_eq_self.2 hmem]
    have hunpriced' : unpriced = [] ↔ x.unpriced = [] := by
      simp only [List.eq_nil_iff_forall_not_mem, hunpriced]
    rw [ne_eq, ne_eq, hunpriced', hall, List.map_eq_nil_iff]
  have hcomputed : ∀ d : Draft, d.parameterSetVersion = some pv → d.status = .computed →
      d.value = some total → d.lineage.get? (py "priced_meters") = some (meterNames priced) →
      d.lineage.get? (py "unpriced_meters") = some (meterNames unpriced) →
      ¬ (x.meters ≠ [] ∧ x.priced = []) → q.Agree bounds s d x ptd := by
    intro d hd hstatus hdvalue hdpriced hdunpriced hnot
    constructor
    · rw [hd, hversion]
    · exact fun _ hexact => hdvalue.trans (congrArg some (hvalue hexact))
    · exact .inl hstatus
    · refine iff_of_false (by rw [hstatus]; exact FigureStatus.noConfusion) ?_
      rintro (h | h)
      · rw [hversion] at h
        cases h
      · exact hnot h
    · intro h
      rw [hstatus] at h
      cases h
    · exact fun m => (meters_of_lineage hdpriced).trans (hpriced m)
    · exact fun _ m => (meters_of_lineage hdunpriced).trans (hunpriced m)
  cases priced with
  | nil =>
    cases unpriced with
    | nil => exact hcomputed _ rfl rfl rfl rfl rfl fun h => (hmeters rfl).1 h.1 rfl
    | cons first rest =>
      constructor
      · exact hversion.symm
      · intro h
        cases h
      · exact .inr rfl
      · exact iff_of_true rfl (.inr ⟨(hmeters rfl).2 (List.cons_ne_nil _ _), hnone.2 rfl⟩)
      · exact fun _ => hzero rfl
      · intro m
        rw [meters_eq_nil rfl, hnone.2 rfl]
        exact iff_of_false List.not_mem_nil List.not_mem_nil
      · exact fun _ m => (meters_of_lineage rfl).trans (hunpriced m)
  | cons first rest =>
    exact hcomputed _ rfl rfl rfl rfl rfl fun h => List.cons_ne_nil _ _ (hnone.1 h.2)

/-- The order in which `compute_cost` reads the meters is its own. -/
theorem meterTotals_perm (plan : Planner) (s : Db) (deploymentId : ℕ) (bounds : ℤ × ℤ) :
    (meterTotals plan s deploymentId bounds).Perm (liveQuantities plan s deploymentId bounds) := by
  rw [meterTotals_eq]
  exact Quotient.exact (plan.meters_rows _)

section

variable {fields : Dict} (hprices : ∀ m : MeterType, PriceOk (fields.getD m.wire .null))
  (hunit : q.unitPrices bounds = .obj fields)

include hprices hunit

theorem live_exact (hexact : q.fl.Exact q.rt) (hbounds : periodBounds q.period = .ok bounds)
    (s : Db) : ∃ x, q.live s = .ok x ∧
      q.liveTotal bounds s = .ok (pricedSum q.rt fields (q.quantities bounds s)) ∧
      x.periodToDateUsd = q.fl.round (pricedSum q.rt fields (q.quantities bounds s)) 6 ∧
      x.parameterSetVersion = (q.books.paramFor q.workspaceId bounds.1).1 ∧
      x.priced = pricedMeters q.rt fields (q.quantities bounds s) ∧
      x.unpriced = unpricedMeters q.rt fields (q.quantities bounds s) := by
  obtain ⟨meters, hlive, hmeters⟩ :=
    liveMeters_exact hprices hexact (q.quantities bounds s) (q.fl.ofNat 0)
  rw [hexact.ofNat, Nat.cast_zero, zero_add, ← hunit] at hlive
  obtain ⟨hpriced, hunpriced⟩ := priced_of_rows hmeters
  let x : LiveCost ℚ :=
    { period := q.period
      parameterSetVersion := (q.books.paramFor q.workspaceId bounds.1).1
      meters := meters
      periodToDateUsd := q.fl.round (pricedSum q.rt fields (q.quantities bounds s)) 6
      endOfCycleUsd := q.fl.round (pricedSum q.rt fields (q.quantities bounds s)) 6 }
  refine ⟨x, ?_, ?_, rfl, rfl, hpriced, hunpriced⟩
  · have hrows : liveMeters q.fl ((q.books.paramFor q.workspaceId bounds.1).2.getD
        (py "unit_prices") (.obj [])) (liveQuantities q.plan s q.deploymentId bounds) 0 =
          .ok (meters, pricedSum q.rt fields (q.quantities bounds s)) := hlive
    simp only [CostQuestion.live, liveCost, hbounds, liftPython, bind, Except.bind, hexact.ofNat,
      Nat.cast_zero, hrows]
    rfl
  · rw [CostQuestion.liveTotal, hexact.ofNat, Nat.cast_zero, hlive]
    rfl

/-- The loop of `compute_cost`, where nothing is rounded. -/
theorem priceMeters_exact (h : q.Unrounded bounds s) : ∃ priced unpriced,
    priceMeters q.rt (.obj fields) (meterTotals q.plan s q.deploymentId bounds) (.finite 0) [] [] =
      .ok (.finite (pricedSum q.rt fields (q.quantities bounds s)), priced, unpriced) := by
  rw [CostQuestion.Unrounded, hunit] at h
  obtain ⟨priced, unpriced, h⟩ := priceMeters_unrounded hprices [] [] h
  refine ⟨priced, unpriced, ?_⟩
  rw [h, zero_add, pricedSum_perm (meterTotals_perm q.plan s q.deploymentId bounds)]
  rfl

/-- The figure against any answer with the parameters, the meters and the total of the
live one. -/
theorem agree_of_figure {d : Draft} {x : LiveCost ℚ}
    (hbounds : periodBounds q.period = .ok bounds)
    (hversion : x.parameterSetVersion = (q.books.paramFor q.workspaceId bounds.1).1)
    (hpriced : x.priced = pricedMeters q.rt fields (q.quantities bounds s))
    (hunpriced : x.unpriced = unpricedMeters q.rt fields (q.quantities bounds s))
    (hd : q.figure s = .ok d) :
    q.Agree bounds s d x (pricedSum q.rt fields (q.quantities bounds s)) := by
  have hperm := meterTotals_perm q.plan s q.deploymentId bounds
  have hmem : ∀ m, m ∈ (meterTotals q.plan s q.deploymentId bounds).map Prod.fst ↔
      m ∈ (q.quantities bounds s).map Prod.fst := fun m => (hperm.map Prod.fst).mem_iff
  have hexact : q.Unrounded bounds s → _ := priceMeters_exact hprices hunit
  obtain ⟨⟨pv, payload⟩, hparams⟩ : ∃ r, q.books.resolveParameterVersion q.workspaceId bounds.1 = r :=
    ⟨_, rfl⟩
  have hversion : x.parameterSetVersion = pv := hversion.trans (congrArg Prod.fst hparams)
  have hfields : payload.getD (py "unit_prices") (.obj []) = .obj fields := by
    rw [← hunit, CostQuestion.unitPrices, Books.paramFor, hparams]
  cases pv with
  | none =>
    obtain rfl := payload_of_none hparams
    obtain rfl : [] = fields := Json.obj.inj hfields
    have hnone : pricedMeters q.rt [] (q.quantities bounds s) = [] :=
      List.filter_eq_nil_iff.2 fun _ _ => Bool.false_ne_true
    rw [figure_without_parameters hbounds hparams] at hd
    cases hd
    rw [pricedSum_eq_zero hnone]
    exact agree_without_parameters hversion (hpriced.trans hnone)
  | some pv =>
    rw [figure_with_parameters hbounds hparams, hfields] at hd
    obtain ⟨⟨total, priced, unpriced⟩, hprice, hd⟩ := bind_eq_ok hd
    cases hd
    have hprice := eq_ok_of_liftPython hprice
    obtain ⟨hp, hu⟩ := names_of_priceMeters hprices hprice
    rw [List.nil_append] at hp hu
    subst hp hu
    refine agree_with_parameters hversion (fun m => ?_) (fun m => ?_) (fun h => ?_) fun h => ?_
    · rw [hpriced, mem_pricedMeters, mem_pricedMeters, hmem]
    · rw [hunpriced, mem_unpricedMeters, mem_unpricedMeters, hmem]
    · obtain ⟨priced, unpriced, hloop⟩ := hexact h
      exact congrArg Prod.fst (Except.ok.inj (hprice.symm.trans hloop))
    · exact (pricedSum_perm hperm).symm.trans (pricedSum_eq_zero h)

theorem exists_figure (hbounds : periodBounds q.period = .ok bounds)
    (h : q.Unrounded bounds s) : ∃ d, q.figure s = .ok d := by
  obtain ⟨⟨pv, payload⟩, hparams⟩ : ∃ r, q.books.resolveParameterVersion q.workspaceId bounds.1 = r :=
    ⟨_, rfl⟩
  cases pv with
  | none => exact ⟨_, figure_without_parameters hbounds hparams⟩
  | some pv =>
    have hfields : payload.getD (py "unit_prices") (.obj []) = .obj fields := by
      rw [← hunit, CostQuestion.unitPrices, Books.paramFor, hparams]
    obtain ⟨priced, unpriced, hloop⟩ := priceMeters_exact hprices hunit h
    rw [figure_with_parameters hbounds hparams, hfields, hloop]
    exact ⟨_, rfl⟩

end

end Answers

/-- The live cost of a period and its figure go by the same parameters, price the same
meters and, where the decimals of `compute_cost` are exact, come to the same total. -/
theorem costs_agree {q : CostQuestion ℚ} {bounds : ℤ × ℤ} (hexact : q.fl.Exact q.rt)
    (hnumeric : ∀ p ∈ q.books.parameterSets, p.workspaceId = q.workspaceId →
      NumericPrices p.payload)
    (hbounds : periodBounds q.period = .ok bounds) (s : Db) :
    ∃ x total, q.live s = .ok x ∧ q.liveTotal bounds s = .ok total ∧
      x.periodToDateUsd = q.fl.round total 6 ∧
      (∀ d, q.figure s = .ok d → q.Agree bounds s d x total) ∧
      (q.Unrounded bounds s → ∃ d, q.figure s = .ok d) := by
  obtain ⟨fields, hunit, hprices⟩ :=
    numericPrices_paramFor q.books q.workspaceId bounds.1 hnumeric
  obtain ⟨x, hlive, htotal, hround, hversion, hpriced, hunpriced⟩ :=
    live_exact hprices hunit hexact hbounds s
  refine ⟨x, _, hlive, htotal, hround, fun d hd => ?_, fun h => ?_⟩
  · exact agree_of_figure hprices hunit hbounds hversion hpriced hunpriced hd
  · exact exists_figure hprices hunit hbounds h

/-! ### March again -/

theorem marchCost_exact : marchCost.fl.Exact marchCost.rt := by
  constructor
  · exact fun _ => rfl
  · exact fun _ => rfl
  · intro price q h
    cases price with
    | num num =>
      cases num with
      | int n => exact congrArg Except.ok (Option.some.inj h)
      | float x => exact congrArg Except.ok (Option.some.inj h)
      | _ => cases h
    | _ => cases h
  · exact fun _ _ => rfl
  · exact fun _ _ => rfl

/-- Four calls at two each. -/
theorem costs_agree_march : ∃ s x total, recordAll [marchReading .apiCalls "" 4] ∅ = .ok s ∧
    marchCost.live s = .ok x ∧ marchCost.liveTotal (739676, 739706) s = .ok total ∧
    ∀ d, marchCost.figure s = .ok d → marchCost.Agree (739676, 739706) s d x total := by
  obtain ⟨s, hs⟩ : ∃ s, recordAll [marchReading .apiCalls "" 4] ∅ = .ok s := ⟨_, rfl⟩
  have hnumeric : ∀ p ∈ marchCost.books.parameterSets, p.workspaceId = marchCost.workspaceId →
      NumericPrices p.payload := by
    intro p hp _
    obtain rfl := List.mem_singleton.1 hp
    refine ⟨_, rfl, fun m => ?_⟩
    cases m <;> exact trivial
  obtain ⟨x, total, hlive, htotal, -, hagree, -⟩ :=
    costs_agree marchCost_exact hnumeric marchCost_bounds s
  exact ⟨s, x, total, hs, hlive, htotal, hagree⟩

/-- The cost of March without parameters. -/
def unpricedCost : CostQuestion ℚ :=
  { marchCost with books := { marchCost.books with parameterSets := [] } }

/-- The cost of March at `2 ^ -23` a call. -/
def smallPriceCost : CostQuestion ℚ :=
  { marchCost with
    books := { marchCost.books with
      parameterSets := [⟨1, 1, 739617, [(py "unit_prices",
        .obj [(py "api_calls", .num (.float (1 / 2 ^ 23)))])]⟩] } }

/-- Without parameters the live answer names its unpriced meters and the figure names none;
a total of more than 28 digits is rounded in the figure. -/
theorem costs_differ :
    (∃ s d x, recordAll [marchReading .apiCalls "" 4] ∅ = .ok s ∧ unpricedCost.figure s = .ok d ∧
      unpricedCost.live s = .ok x ∧
      ¬ ∀ m : MeterType, m.wire ∈ d.meters (py "unpriced_meters") ↔ m ∈ x.unpriced) ∧
    ∃ s d total, recordAll [marchReading .apiCalls "" 98765432109871] ∅ = .ok s ∧
      smallPriceCost.figure s = .ok d ∧ d.status = .computed ∧
      smallPriceCost.liveTotal (739676, 739706) s = .ok total ∧
      d.value ≠ some (.finite total) := by
  constructor
  · have hrun : (recordAll [marchReading .apiCalls "" 4] ∅).toOption.any fun s =>
        (unpricedCost.figure s).toOption.any fun d => (unpricedCost.live s).toOption.any fun x =>
          MeterType.apiCalls.wire ∉ d.meters (py "unpriced_meters") ∧
            MeterType.apiCalls ∈ x.unpriced := by
      decide +kernel
    obtain ⟨s, hs, hrun⟩ := (Option.any_eq_true _ _).1 hrun
    obtain ⟨d, hd, hrun⟩ := (Option.any_eq_true _ _).1 hrun
    obtain ⟨x, hx, hrun⟩ := (Option.any_eq_true _ _).1 hrun
    have hboth := of_decide_eq_true hrun
    exact ⟨s, d, x, eq_ok_of_toOption hs, eq_ok_of_toOption hd, eq_ok_of_toOption hx,
      fun h => hboth.1 ((h _).2 hboth.2)⟩
  · have hrun : (recordAll [marchReading .apiCalls "" 98765432109871] ∅).toOption.any fun s =>
        (smallPriceCost.figure s).toOption.any fun d =>
          (smallPriceCost.liveTotal (739676, 739706) s).toOption.any fun total =>
            d.status = .computed ∧ d.value ≠ some (.finite total) := by
      decide +kernel
    obtain ⟨s, hs, hrun⟩ := (Option.any_eq_true _ _).1 hrun
    obtain ⟨d, hd, hrun⟩ := (Option.any_eq_true _ _).1 hrun
    obtain ⟨total, htotal, hrun⟩ := (Option.any_eq_true _ _).1 hrun
    have hboth := of_decide_eq_true hrun
    exact ⟨s, d, total, eq_ok_of_toOption hs, eq_ok_of_toOption hd, hboth.1,
      eq_ok_of_toOption htotal, hboth.2⟩

end TrueFigure.Server
