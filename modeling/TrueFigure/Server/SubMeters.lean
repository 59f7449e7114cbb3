import Mathlib.Algebra.BigOperators.Group.Finset.Piecewise
import Mathlib.Algebra.Group.Action.Defs
import Mathlib.Algebra.Order.BigOperators.Group.Finset
import Mathlib.Tactic.FieldSimp
import TrueFigure.Server.MeterReadings
import TrueFigure.Server.RefusalLifted

/-!
# Sub-meters

`compute_cost` and `live_cost` of `api/routes/read_plane.py` price the same quantities:
the deltas of a counter added up, the daily readings of a gauge averaged, over every
`meter_ref`. Sub-meters of a counter add up to the meter. A gauge that is read through
sub-meters counts a day once for each of them.
-/
namespace TrueFigure.Server

open TrueFigure.Library TrueFigure.Python

/-! ### `live_cost` -/

/-- `float` on a quantity, and the sums of the loop. -/
structure CostFloats (F : Type) extends Floats F where
  /-- `float(r["qty"] or 0)`. -/
  ofQuantity : ℚ → F
  add : F → F → F

/-- An entry of `meters`. -/
structure LiveMeter (F : Type) where
  meter : MeterType
  quantity : F
  usd : Option F
  status : Option PyStr := none
  missing : Option PyStr := none

/-- The data of an answer of `live_cost`. -/
structure LiveCost (F : Type) where
  period : PyStr
  parameterSetVersion : Option ℕ
  meters : List (LiveMeter F)
  periodToDateUsd : F
  endOfCycleUsd : F
  basis : PyStr := py "period-to-date"

def Books.paramFor (b : Books) (workspaceId : ℕ) (start : ℤ) : Option ℕ × Dict :=
  b.resolveParameterVersion workspaceId start

section LiveCost

variable {F : Type} (plan : Planner) (fl : CostFloats F) (s : Db) (b : Books)
  (workspaceId deploymentId : ℕ) (period : PyStr) (bounds : ℤ × ℤ)

/-- The query of `live_cost`, in the order of the meters. -/
def liveQuantities : List (MeterType × ℚ) :=
  (MeterType.all.filter fun m => meterRows s deploymentId bounds m ≠ 0).map
    fun m => (m, meterQuantity plan m (meterRows s deploymentId bounds m))

/-- The loop of `live_cost`: the entries and the sum of the priced ones. -/
def liveMeters (unitPrices : Json) : List (MeterType × ℚ) → F →
    Except PyErr (List (LiveMeter F) × F)
  | [], ptd => .ok ([], ptd)
  | (meter, qty) :: rows, ptd => do
    match ← attrGet unitPrices meter.wire with
    | .null =>
      let (meters, total) ← liveMeters unitPrices rows ptd
      .ok ({ meter := meter
             quantity := fl.ofQuantity qty
             usd := none
             status := some (py "awaiting_parameters")
             missing := some (py "unit_prices." ++ meter.wire) } :: meters, total)
    | price =>
      let unit ← fl.ofJson price
      let usd := fl.mul (fl.ofQuantity qty) unit
      let (meters, total) ← liveMeters unitPrices rows (fl.add ptd usd)
      .ok ({ meter := meter
             quantity := fl.ofQuantity qty
             usd := some (fl.round usd 6) } :: meters, total)

/-- `live_cost` of a deployment that was found. -/
def liveCost : Except Failure (LiveCost F) := do
  let bounds ← liftPython (periodBounds period)
  let (pv, payload) := b.paramFor workspaceId bounds.1
  let (meters, ptd) ← liftPython (liveMeters fl (payload.getD (py "unit_prices") (.obj []))
    (liveQuantities plan s deploymentId bounds) (fl.ofNat 0))
  .ok
    { period := period
      parameterSetVersion := pv
      meters := meters
      periodToDateUsd := fl.round ptd 6
      endOfCycleUsd := fl.round ptd 6 }

end LiveCost

/-- A cost to compute: its deployment and period, with what prices it. -/
structure CostQuestion (F : Type) where
  plan : Planner
  rt : DecimalText
  fl : CostFloats F
  books : Books
  workspaceId : ℕ
  deploymentId : ℕ
  period : PyStr

namespace CostQuestion

variable {F : Type} (q : CostQuestion F) (bounds : ℤ × ℤ) (s t : Db)

/-- The value of the `priced_cost` figure. -/
def value : Except Failure (Option Decimal) :=
  (computeCost q.plan q.rt s q.books q.workspaceId q.deploymentId q.period).map Draft.value

def quantities : List (MeterType × ℚ) := liveQuantities q.plan s q.deploymentId bounds

def periodToDate : Except Failure F :=
  (liveCost q.plan q.fl s q.books q.workspaceId q.deploymentId q.period).map
    LiveCost.periodToDateUsd

/-- Both surfaces say the same of two stores. -/
structure Same : Prop where
  value : q.value s = q.value t
  quantities : q.quantities bounds s = q.quantities bounds t
  periodToDate : q.periodToDate s = q.periodToDate t

end CostQuestion

section Surfaces

variable {F : Type} {q : CostQuestion F} {bounds : ℤ × ℤ} {s t : Db}

theorem quantities_of_liveMeters {fl : CostFloats F} {unitPrices : Json}
    {rows : List (MeterType × ℚ)} {ptd total : F} {meters : List (LiveMeter F)}
    (h : liveMeters fl unitPrices rows ptd = .ok (meters, total)) :
    meters.map (fun m => (m.meter, m.quantity)) =
      rows.map fun row => (row.1, fl.ofQuantity row.2) := by
  induction rows generalizing ptd meters total with
  | nil =>
    cases h
    rfl
  | cons row rows ih =>
    obtain ⟨meter, qty⟩ := row
    obtain ⟨price, -, h⟩ := bind_eq_ok h
    split at h
    · obtain ⟨⟨rest, total'⟩, hrest, h⟩ := bind_eq_ok h
      cases h
      rw [List.map_cons, List.map_cons, ih hrest]
    · obtain ⟨unit, -, h⟩ := bind_eq_ok h
      obtain ⟨⟨rest, total'⟩, hrest, h⟩ := bind_eq_ok h
      cases h
      rw [List.map_cons, List.map_cons, ih hrest]

theorem eq_ok_of_liftPython {α : Type} {x : Except PyErr α} {a : α} (h : liftPython x = .ok a) :
    x = .ok a := by
  cases x with
  | error e => cases h
  | ok b => exact congrArg Except.ok (Except.ok.inj h)

theorem quantities_of_liveCost {x : LiveCost F} (hbounds : periodBounds q.period = .ok bounds)
    (h : liveCost q.plan q.fl s q.books q.workspaceId q.deploymentId q.period = .ok x) :
    x.meters.map (fun m => (m.meter, m.quantity)) =
      (q.quantities bounds s).map fun row => (row.1, q.fl.ofQuantity row.2) := by
  obtain ⟨bounds', hbounds', h⟩ := bind_eq_ok h
  obtain rfl := Except.ok.inj ((eq_ok_of_liftPython hbounds').symm.trans hbounds)
  obtain ⟨⟨meters, ptd⟩, hmeters, h⟩ := bind_eq_ok h
  cases h
  exact quantities_of_liveMeters (eq_ok_of_liftPython hmeters)

theorem meterTotals_eq (plan : Planner) (s : Db) (deploymentId : ℕ) (bounds : ℤ × ℤ) :
    meterTotals plan s deploymentId bounds = plan.meters (liveQuantities plan s deploymentId bounds) :=
  rfl

/-- Nothing but the quantities is read from the rows. -/
theorem same_iff (hbounds : periodBounds q.period = .ok bounds) :
    q.Same bounds s t ↔ q.quantities bounds s = q.quantities bounds t := by
  refine ⟨fun h => h.quantities, fun h => ?_⟩
  have hquantities : liveQuantities q.plan s q.deploymentId bounds =
      liveQuantities q.plan t q.deploymentId bounds := h
  refine ⟨?_, h, ?_⟩
  · simp only [CostQuestion.value, computeCost, hbounds, liftPython, bind, Except.bind,
      meterTotals_eq, hquantities]
  · simp only [CostQuestion.periodToDate, liveCost, hbounds, liftPython, bind, Except.bind,
      hquantities]

/-- Stores that agree on the other meters give the same quantities where they give this
one the same. -/
theorem quantities_eq_iff {meter : MeterType}
    (hothers : ∀ m, m ≠ meter →
      meterRows s q.deploymentId bounds m = meterRows t q.deploymentId bounds m)
    (hrows : meterRows s q.deploymentId bounds meter ≠ 0 ↔
      meterRows t q.deploymentId bounds meter ≠ 0) :
    q.quantities bounds s = q.quantities bounds t ↔
      (meterRows s q.deploymentId bounds meter ≠ 0 →
        meterQuantity q.plan meter (meterRows s q.deploymentId bounds meter) =
          meterQuantity q.plan meter (meterRows t q.deploymentId bounds meter)) := by
  have hfilter : (MeterType.all.filter fun m => meterRows s q.deploymentId bounds m ≠ 0) =
      MeterType.all.filter fun m => meterRows t q.deploymentId bounds m ≠ 0 := by
    refine List.filter_congr fun m _ => ?_
    by_cases hm : m = meter
    · rw [hm, decide_eq_decide, hrows]
    · rw [hothers m hm]
  unfold CostQuestion.quantities liveQuantities
  rw [← hfilter, List.map_inj_left]
  constructor
  · intro h hne
    have hmem : meter ∈ MeterType.all.filter fun m => meterRows s q.deploymentId bounds m ≠ 0 :=
      List.mem_filter.2 ⟨by cases meter <;> decide, decide_eq_true hne⟩
    exact (Prod.mk.inj (h meter hmem)).2
  · intro h m hm
    by_cases heq : m = meter
    · subst heq
      rw [h (of_decide_eq_true (List.mem_filter.1 hm).2)]
    · rw [hothers m heq]

end Surfaces

/-! ### Splitting a meter -/

section Splits

variable (deploymentId : ℕ) (meter : MeterType) (parts : PyStr → Finset PyStr)
  (before after xs : List Reading)

def ofMeter : List Reading := xs.filter fun x => x.deploymentId = deploymentId ∧ x.meter = meter

def ofSubMeter (ref : PyStr) : List Reading :=
  (ofMeter deploymentId meter xs).filter fun x => x.meterRef = ref

def subMeters : Finset PyStr := ((ofMeter deploymentId meter xs).map Reading.meterRef).toFinset

/-- The last reading of a day in millionths. -/
def lastMicros (ref : PyStr) (day : ℤ) : ℤ :=
  (readingsOf (deploymentId, meter, ref, day) xs).getLast?.elim 0 Reading.micros

/-- A gauge is read through the parts of each sub-meter instead, at the same days, and
their readings add up to its own. -/
structure SplitGauge : Prop where
  nonempty : ∀ ref ∈ subMeters deploymentId meter before, (parts ref).Nonempty
  disjoint : (subMeters deploymentId meter before : Set PyStr).PairwiseDisjoint parts
  covers : ∀ sub ∈ subMeters deploymentId meter after,
    ∃ ref ∈ subMeters deploymentId meter before, sub ∈ parts ref
  days : ∀ ref ∈ subMeters deploymentId meter before, ∀ sub ∈ parts ref,
    (ofSubMeter deploymentId meter after sub).map Reading.day =
      (ofSubMeter deploymentId meter before ref).map Reading.day
  amounts : ∀ ref ∈ subMeters deploymentId meter before, ∀ i : ℕ,
    (∑ sub ∈ parts ref, (ofSubMeter deploymentId meter after sub)[i]?.elim 0 Reading.micros) =
      (ofSubMeter deploymentId meter before ref)[i]?.elim 0 Reading.micros

/-- The readings of a meter are split over sub-meters: a counter's deltas are shared
out among them, a gauge's readings are divided. All other readings stay. -/
structure Split : Prop where
  others : ∀ c : ℕ × MeterType × PyStr × ℤ, (c.1, c.2.1) ≠ (deploymentId, meter) →
    readingsOf c after = readingsOf c before
  counter : meter.isGauge = false →
    ((ofMeter deploymentId meter after).map fun x => (x.day, x.quantity)).Perm
      ((ofMeter deploymentId meter before).map fun x => (x.day, x.quantity))
  gauge : meter.isGauge = true → SplitGauge deploymentId meter parts before after

/-- The meter is a counter, or no sub-meter of the period is read through more than one
part, or its gauges read zero at the end of every day. -/
def Averages (bounds : ℤ × ℤ) : Prop :=
  meter.isGauge = false ∨
    (∀ x ∈ before, x.Within deploymentId meter bounds → (parts x.meterRef).card = 1) ∨
    ∀ x ∈ before, x.Within deploymentId meter bounds →
      lastMicros deploymentId meter before x.meterRef x.day = 0

end Splits

section Lists

variable {deploymentId : ℕ} {meter : MeterType} {parts : PyStr → Finset PyStr}
  {before after xs : List Reading} {ref : PyStr} {day : ℤ} {bounds : ℤ × ℤ}

theorem readingsOf_eq : readingsOf (deploymentId, meter, ref, day) xs =
    (ofSubMeter deploymentId meter xs ref).filter fun x => x.day = day := by
  unfold readingsOf ofSubMeter ofMeter
  rw [List.filter_filter, List.filter_filter]
  refine List.filter_congr fun x _ => ?_
  simp only [Reading.group, Prod.mk.injEq, Bool.decide_and]
  cases decide (x.deploymentId = deploymentId) <;> cases decide (x.meter = meter) <;>
    cases decide (x.meterRef = ref) <;> cases decide (x.day = day) <;> rfl

theorem mem_subMeters : ref ∈ subMeters deploymentId meter xs ↔
    ∃ x ∈ xs, x.deploymentId = deploymentId ∧ x.meter = meter ∧ x.meterRef = ref := by
  simp [subMeters, ofMeter, and_assoc]

theorem readingsOf_ne_nil : readingsOf (deploymentId, meter, ref, day) xs ≠ [] ↔
    day ∈ (ofSubMeter deploymentId meter xs ref).map Reading.day := by
  rw [readingsOf_eq, ne_eq, List.filter_eq_nil_iff]
  simp

theorem mem_days : day ∈ (ofMeter deploymentId meter xs).map Reading.day ↔
    ∃ ref ∈ subMeters deploymentId meter xs,
      day ∈ (ofSubMeter deploymentId meter xs ref).map Reading.day := by
  constructor
  · intro h
    obtain ⟨x, hx, hday⟩ := List.mem_map.1 h
    refine ⟨x.meterRef, List.mem_toFinset.2 (List.mem_map_of_mem hx), ?_⟩
    exact List.mem_map.2 ⟨x, List.mem_filter.2 ⟨hx, decide_eq_true rfl⟩, hday⟩
  · rintro ⟨ref, -, h⟩
    obtain ⟨x, hx, hday⟩ := List.mem_map.1 h
    exact List.mem_map.2 ⟨x, List.mem_of_mem_filter hx, hday⟩

/-- Series of readings at the same days have their last reading of a day at one place. -/
theorem exists_last {ds : List ℤ} (hday : day ∈ ds) : ∃ i < ds.length, ∀ xs : List Reading,
    xs.map Reading.day = ds → (xs.filter fun x => x.day = day).getLast? = xs[i]? := by
  induction ds using List.reverseRecOn with
  | nil => cases hday
  | append_singleton ds d ih =>
    by_cases hd : d = day
    · refine ⟨ds.length, by simp, fun xs hxs => ?_⟩
      obtain ⟨ys, zs, rfl, hys, hzs⟩ := List.map_eq_append_iff.1 hxs
      obtain ⟨z, rfl, hz⟩ := List.map_eq_singleton_iff.1 hzs
      have hlength : ys.length = ds.length := by rw [← hys, List.length_map]
      rw [List.filter_append, List.filter_cons_of_pos (by simpa [hz] using hd), List.filter_nil,
        List.getLast?_append, ← hlength, List.getElem?_append_right le_rfl]
      simp
    · have hmem : day ∈ ds := by
        rcases List.mem_append.1 hday with hmem | hmem
        · exact hmem
        · exact absurd (List.mem_singleton.1 hmem).symm hd
      obtain ⟨i, hi, hlast⟩ := ih hmem
      refine ⟨i, by simp; omega, fun xs hxs => ?_⟩
      obtain ⟨ys, zs, rfl, hys, hzs⟩ := List.map_eq_append_iff.1 hxs
      obtain ⟨z, rfl, hz⟩ := List.map_eq_singleton_iff.1 hzs
      have hlength : ys.length = ds.length := by rw [← hys, List.length_map]
      rw [List.filter_append, List.filter_cons_of_neg (by simpa [hz] using hd), List.filter_nil,
        List.append_nil, hlast ys hys, List.getElem?_append_left (by omega)]

/-- The last readings of the parts add up, day by day. -/
theorem SplitGauge.sum_lastMicros (h : SplitGauge deploymentId meter parts before after)
    (href : ref ∈ subMeters deploymentId meter before) (day : ℤ) :
    (∑ sub ∈ parts ref, lastMicros deploymentId meter after sub day) =
      lastMicros deploymentId meter before ref day := by
  by_cases hday : day ∈ (ofSubMeter deploymentId meter before ref).map Reading.day
  · obtain ⟨i, -, hlast⟩ := exists_last hday
    simp only [lastMicros, readingsOf_eq]
    rw [hlast _ rfl, ← h.amounts ref href i]
    refine Finset.sum_congr rfl fun sub hsub => ?_
    rw [hlast _ (h.days ref href sub hsub)]
  · have hnil : ∀ ref' xs, (ofSubMeter deploymentId meter xs ref').map Reading.day =
        (ofSubMeter deploymentId meter before ref).map Reading.day →
          lastMicros deploymentId meter xs ref' day = 0 := by
      intro ref' xs hdays
      have hempty := mt readingsOf_ne_nil.1 (hdays ▸ hday)
      rw [lastMicros, not_not.1 hempty]
      rfl
    rw [hnil ref before rfl]
    exact Finset.sum_eq_zero fun sub hsub => hnil sub after (h.days ref href sub hsub)

theorem Split.mem_days (h : Split deploymentId meter parts before after) :
    day ∈ (ofMeter deploymentId meter after).map Reading.day ↔
      day ∈ (ofMeter deploymentId meter before).map Reading.day := by
  cases hmeter : meter.isGauge with
  | false =>
    have hperm := (h.counter hmeter).map Prod.fst
    rw [List.map_map, List.map_map] at hperm
    exact hperm.mem_iff
  | true =>
    have hgauge := h.gauge hmeter
    rw [TrueFigure.Server.mem_days, TrueFigure.Server.mem_days]
    constructor
    · rintro ⟨sub, hsub, hday⟩
      obtain ⟨ref, href, hmem⟩ := hgauge.covers sub hsub
      exact ⟨ref, href, hgauge.days ref href sub hmem ▸ hday⟩
    · rintro ⟨ref, href, hday⟩
      obtain ⟨sub, hsub⟩ := hgauge.nonempty ref href
      rw [← hgauge.days ref href sub hsub] at hday
      refine ⟨sub, ?_, hday⟩
      obtain ⟨x, hx, -⟩ := List.mem_map.1 hday
      obtain ⟨hx, hsub⟩ := List.mem_filter.1 hx
      obtain ⟨hx, hof⟩ := List.mem_filter.1 hx
      exact mem_subMeters.2 ⟨x, hx, (of_decide_eq_true hof).1, (of_decide_eq_true hof).2,
        of_decide_eq_true hsub⟩

end Lists

/-! ### The quantities of a split meter -/

/-- Averages without rounding. -/
def Planner.Exact (plan : Planner) : Prop :=
  ∀ rows, plan.average rows = (rows.map Numeric.micros).sum / (rows.card * 10 ^ 6)

/-- A row counts in an average once it has a reading. -/
def MeterUsageRow.gaugeCount (row : MeterUsageRow) : ℕ := row.gaugeLast.elim 0 fun _ => 1

/-- The days of a period on which a sub-meter is read. -/
def readDays (deploymentId : ℕ) (meter : MeterType) (bounds : ℤ × ℤ) (xs : List Reading)
    (ref : PyStr) : Finset ℤ :=
  (daysOf bounds).filter fun day =>
    day ∈ (ofSubMeter deploymentId meter xs ref).map Reading.day

theorem sum_filterMap {α β M : Type} [AddCommMonoid M] (f : α → Option β) (g : β → M)
    (rows : Multiset α) :
    ((rows.filterMap f).map g).sum = (rows.map fun row => (f row).elim 0 g).sum := by
  induction rows using Multiset.induction with
  | empty => rfl
  | cons row rows ih =>
    rw [Multiset.map_cons, Multiset.sum_cons, ← ih]
    cases hrow : f row with
    | none => rw [Multiset.filterMap_cons_none _ _ hrow, Option.elim_none, zero_add]
    | some b =>
      rw [Multiset.filterMap_cons_some _ _ _ hrow, Multiset.map_cons, Multiset.sum_cons,
        Option.elim_some]

section Quantities

variable {plan : Planner} {deploymentId : ℕ} {meter : MeterType} {parts : PyStr → Finset PyStr}
  {before after xs : List Reading} {s₀ s t : Db} {bounds : ℤ × ℤ} {ref : PyStr} {day : ℤ}

theorem meterQuantity_counter (hmeter : meter.isGauge = false) :
    meterQuantity plan meter (meterRows s deploymentId bounds meter) =
      (sumBuckets deploymentId meter bounds s fun _ row => row.quantitySum.micros) / 10 ^ 6 := by
  rw [meterQuantity, if_neg (by simp [hmeter]), sum_meterRows]

theorem meterQuantity_gauge (hexact : plan.Exact) (hmeter : meter.isGauge = true) :
    meterQuantity plan meter (meterRows s deploymentId bounds meter) =
      (sumBuckets deploymentId meter bounds s fun _ row => row.gaugeMicros) /
        ((sumBuckets deploymentId meter bounds s fun _ row => row.gaugeCount) * 10 ^ 6) := by
  have hsum : (((meterRows s deploymentId bounds meter).filterMap MeterUsageRow.gaugeLast).map
      Numeric.micros).sum = sumBuckets deploymentId meter bounds s fun _ row => row.gaugeMicros := by
    rw [sum_filterMap]
    exact sum_meterRows _
  have hcard : ((meterRows s deploymentId bounds meter).filterMap MeterUsageRow.gaugeLast).card =
      sumBuckets deploymentId meter bounds s fun _ row => row.gaugeCount := by
    have hone := sum_filterMap MeterUsageRow.gaugeLast (fun _ => 1)
      (meterRows s deploymentId bounds meter)
    rw [Multiset.map_const', Multiset.sum_replicate, smul_eq_mul, mul_one] at hone
    exact hone.trans (sum_meterRows _)
  rw [meterQuantity, if_pos hmeter, ← hsum, ← hcard]
  split_ifs with hnone
  · rw [hnone]
    simp
  · rw [hexact]

theorem gauge_of_recordAll (hmeter : meter.isGauge = true)
    (hempty : meterTable s₀ (deploymentId, meter, ref, day) = none) (h : recordAll xs s₀ = .ok s) :
    (meterTable s (deploymentId, meter, ref, day)).elim 0 MeterUsageRow.gaugeMicros =
        lastMicros deploymentId meter xs ref day ∧
      (meterTable s (deploymentId, meter, ref, day)).elim 0 MeterUsageRow.gaugeCount =
        (if day ∈ (ofSubMeter deploymentId meter xs ref).map Reading.day then 1 else 0) ∧
      0 ≤ lastMicros deploymentId meter xs ref day := by
  have hrow := recordRow_of_recordAll (c := (deploymentId, meter, ref, day)) h
  rw [hempty] at hrow
  by_cases hnil : readingsOf (deploymentId, meter, ref, day) xs = []
  · have hday := mt readingsOf_ne_nil.2 (not_not.2 hnil)
    rw [hnil, recordRow] at hrow
    rw [← Except.ok.inj hrow, if_neg hday, lastMicros, hnil]
    exact ⟨rfl, rfl, le_rfl⟩
  · obtain ⟨row, n, hafter, hlast, hmicros, hnonneg⟩ := gauge_of_recordRow hmeter hrow hnil
    rw [hafter, if_pos (readingsOf_ne_nil.1 hnil), lastMicros, ← hmicros]
    simp only [Option.elim_some, MeterUsageRow.gaugeMicros, MeterUsageRow.gaugeCount, hlast]
    exact ⟨trivial, trivial, hnonneg⟩

theorem mem_subMeters_of_recordAll
    (hempty : meterTable s₀ (deploymentId, meter, ref, day) = none) (h : recordAll xs s₀ = .ok s)
    (hsome : meterTable s (deploymentId, meter, ref, day) ≠ none) :
    ref ∈ subMeters deploymentId meter xs := by
  have hrow := recordRow_of_recordAll (c := (deploymentId, meter, ref, day)) h
  rw [hempty] at hrow
  have hne := (isSome_of_recordRow hrow).1 (Option.isSome_iff_ne_none.2 hsome)
  obtain ⟨x, hx⟩ := List.exists_mem_of_ne_nil _ (hne.resolve_left (by simp))
  obtain ⟨hx, hgroup⟩ := List.mem_filter.1 hx
  have hgroup := of_decide_eq_true hgroup
  simp only [Reading.group, Prod.mk.injEq] at hgroup
  exact mem_subMeters.2 ⟨x, hx, hgroup.1, hgroup.2.1, hgroup.2.2.1⟩

section Sums

variable (hmeter : meter.isGauge = true)
  (hempty : ∀ ref day, meterTable s₀ (deploymentId, meter, ref, day) = none)
  (h : recordAll xs s₀ = .ok s) {R : Finset PyStr} (hR : subMeters deploymentId meter xs ⊆ R)

include hmeter hempty h hR

theorem sum_gauges : (sumBuckets deploymentId meter bounds s fun _ row => row.gaugeMicros) =
    ∑ ref ∈ R, ∑ day ∈ daysOf bounds, lastMicros deploymentId meter xs ref day := by
  rw [sumBuckets_eq_sum fun ref day hsome =>
    hR (mem_subMeters_of_recordAll (hempty ref day) h hsome)]
  refine Finset.sum_congr rfl fun ref _ => Finset.sum_congr rfl fun day _ => ?_
  exact (gauge_of_recordAll hmeter (hempty ref day) h).1

theorem count_gauges : (sumBuckets deploymentId meter bounds s fun _ row => row.gaugeCount) =
    ∑ ref ∈ R, (readDays deploymentId meter bounds xs ref).card := by
  rw [sumBuckets_eq_sum fun ref day hsome =>
    hR (mem_subMeters_of_recordAll (hempty ref day) h hsome)]
  refine Finset.sum_congr rfl fun ref _ => ?_
  rw [readDays, Finset.card_filter]
  exact Finset.sum_congr rfl fun day _ => (gauge_of_recordAll hmeter (hempty ref day) h).2.1

end Sums

theorem mem_readDays : day ∈ readDays deploymentId meter bounds xs ref ↔
    ∃ x ∈ xs, x.Within deploymentId meter bounds ∧ x.meterRef = ref ∧ x.day = day := by
  rw [readDays, Finset.mem_filter, mem_daysOf]
  simp only [ofSubMeter, ofMeter, List.mem_map, List.mem_filter, decide_eq_true_eq]
  constructor
  · rintro ⟨hday, x, ⟨⟨hx, hdep, hmeter⟩, href⟩, rfl⟩
    exact ⟨x, hx, ⟨hdep, hmeter, hday⟩, href, rfl⟩
  · rintro ⟨x, hx, ⟨hdep, hmeter, hday⟩, href, rfl⟩
    exact ⟨hday, x, ⟨⟨hx, hdep, hmeter⟩, href⟩, rfl⟩

theorem mem_of_within {x : Reading} (hx : x ∈ before) (hin : x.Within deploymentId meter bounds) :
    x.meterRef ∈ subMeters deploymentId meter before ∧
      x.day ∈ readDays deploymentId meter bounds before x.meterRef :=
  ⟨mem_subMeters.2 ⟨x, hx, hin.1, hin.2.1, rfl⟩, mem_readDays.2 ⟨x, hx, hin, rfl, rfl⟩⟩

/-- No day counts twice where no sub-meter of the period has two parts. -/
theorem sum_readDays_eq_iff
    (hnonempty : ∀ ref ∈ subMeters deploymentId meter before, (parts ref).Nonempty) :
    (∑ ref ∈ subMeters deploymentId meter before,
        (readDays deploymentId meter bounds before ref).card) =
      ∑ ref ∈ subMeters deploymentId meter before,
        (parts ref).card * (readDays deploymentId meter bounds before ref).card ↔
      ∀ x ∈ before, x.Within deploymentId meter bounds → (parts x.meterRef).card = 1 := by
  rw [Finset.sum_eq_sum_iff_of_le fun ref href =>
    Nat.le_mul_of_pos_left _ (Finset.card_pos.2 (hnonempty ref href))]
  constructor
  · intro hall x hx hin
    obtain ⟨href, hday⟩ := mem_of_within hx hin
    exact (Nat.eq_of_mul_eq_mul_right (Finset.card_pos.2 ⟨_, hday⟩)
      ((one_mul _).trans (hall _ href))).symm
  · intro hall ref _
    rcases (readDays deploymentId meter bounds before ref).eq_empty_or_nonempty with
      hnone | ⟨day, hday⟩
    · rw [hnone, Finset.card_empty, mul_zero]
    · obtain ⟨x, hx, hin, rfl, -⟩ := mem_readDays.1 hday
      rw [hall x hx hin, one_mul]

theorem sum_lastMicros_eq_zero_iff
    (hnonneg : ∀ ref day, 0 ≤ lastMicros deploymentId meter before ref day) :
    (∑ ref ∈ subMeters deploymentId meter before, ∑ day ∈ daysOf bounds,
        lastMicros deploymentId meter before ref day) = 0 ↔
      ∀ x ∈ before, x.Within deploymentId meter bounds →
        lastMicros deploymentId meter before x.meterRef x.day = 0 := by
  rw [Finset.sum_eq_zero_iff_of_nonneg fun ref _ => Finset.sum_nonneg fun day _ => hnonneg ref day]
  simp only [Finset.sum_eq_zero_iff_of_nonneg fun day _ => hnonneg _ day]
  constructor
  · intro hall x hx hin
    exact hall _ (mem_of_within hx hin).1 _ (mem_daysOf.2 hin.2.2)
  · intro hall ref _ day hday
    by_cases hread : day ∈ readDays deploymentId meter bounds before ref
    · obtain ⟨x, hx, hin, rfl, rfl⟩ := mem_readDays.1 hread
      exact hall x hx hin
    · have hnil : readingsOf (deploymentId, meter, ref, day) before = [] := by
        by_contra hne
        exact hread (Finset.mem_filter.2 ⟨hday, readingsOf_ne_nil.1 hne⟩)
      rw [lastMicros, hnil]
      rfl

/-- Only a total of zero has one average over different numbers of readings. -/
theorem average_eq_iff {total : ℤ} {n n' : ℕ} (hzero : n = 0 ↔ n' = 0) :
    (total : ℚ) / (n * 10 ^ 6) = total / (n' * 10 ^ 6) ↔ total = 0 ∨ n = n' := by
  by_cases hn : n = 0
  · simp [hn, hzero.1 hn]
  · have hn' := mt hzero.2 hn
    have hq : (n : ℚ) ≠ 0 := by exact_mod_cast hn
    have hq' : (n' : ℚ) ≠ 0 := by exact_mod_cast hn'
    rw [div_eq_div_iff (by positivity) (by positivity), ← sub_eq_zero,
      show (total : ℚ) * (n' * 10 ^ 6) - total * (n * 10 ^ 6) = total * (n' - n) * 10 ^ 6 by ring,
      mul_eq_zero, or_iff_left (by norm_num), mul_eq_zero, sub_eq_zero]
    norm_cast
    exact or_congr_right eq_comm

section Split

variable (hsplit : Split deploymentId meter parts before after)
  (hs : recordAll before s₀ = .ok s) (ht : recordAll after s₀ = .ok t)

include hsplit hs ht

/-- Deltas that are shared out among sub-meters add up to what they did. -/
theorem counter_split (hmeter : meter.isGauge = false) :
    meterQuantity plan meter (meterRows s deploymentId bounds meter) =
      meterQuantity plan meter (meterRows t deploymentId bounds meter) := by
  have hsum : ∀ xs : List Reading,
      (xs.filter fun x => x.Within deploymentId meter bounds).map Reading.micros =
        (((ofMeter deploymentId meter xs).map fun x => (x.day, x.quantity)).filter
          fun p => Between bounds p.1).map fun p => (Reading.mk 0 meter [] p.1 p.2).micros := by
    intro xs
    rw [List.filter_map, List.map_map, ofMeter, List.filter_filter]
    have hfilter : (xs.filter fun x => x.Within deploymentId meter bounds) =
        xs.filter fun x => ((fun p : ℤ × PyNum => decide (Between bounds p.1)) ∘
          fun x : Reading => (x.day, x.quantity)) x &&
            decide (x.deploymentId = deploymentId ∧ x.meter = meter) := by
      refine List.filter_congr fun x _ => ?_
      rw [Function.comp_apply, ← Bool.decide_and, decide_eq_decide, Reading.Within]
      tauto
    rw [hfilter]
    rfl
  rw [meterQuantity_counter hmeter, meterQuantity_counter hmeter, sumBuckets_counter hmeter hs,
    sumBuckets_counter hmeter ht, hsum before, hsum after]
  rw [(((hsplit.counter hmeter).filter _).map _).sum_eq]

/-- The average of a gauge is kept where no day counts twice, or all days are zero. -/
theorem gauge_split_iff (hexact : plan.Exact)
    (hempty : ∀ ref day, meterTable s₀ (deploymentId, meter, ref, day) = none)
    (hmeter : meter.isGauge = true) :
    meterQuantity plan meter (meterRows s deploymentId bounds meter) =
        meterQuantity plan meter (meterRows t deploymentId bounds meter) ↔
      Averages deploymentId meter parts before bounds := by
  have hgauge := hsplit.gauge hmeter
  let R := subMeters deploymentId meter before
  have hcover : subMeters deploymentId meter after ⊆ R.biUnion parts := by
    intro sub hsub
    obtain ⟨ref, href, hmem⟩ := hgauge.covers sub hsub
    exact Finset.mem_biUnion.2 ⟨ref, href, hmem⟩
  have htotal : (sumBuckets deploymentId meter bounds t fun _ row => row.gaugeMicros) =
      sumBuckets deploymentId meter bounds s fun _ row => row.gaugeMicros := by
    rw [sum_gauges hmeter hempty ht hcover, sum_gauges hmeter hempty hs (Finset.Subset.refl R),
      Finset.sum_biUnion hgauge.disjoint]
    refine Finset.sum_congr rfl fun ref href => ?_
    rw [Finset.sum_comm]
    exact Finset.sum_congr rfl fun day _ => hgauge.sum_lastMicros href day
  have hbefore : (sumBuckets deploymentId meter bounds s fun _ row => row.gaugeCount) =
      ∑ ref ∈ R, (readDays deploymentId meter bounds before ref).card :=
    count_gauges hmeter hempty hs (Finset.Subset.refl R)
  have hafter : (sumBuckets deploymentId meter bounds t fun _ row => row.gaugeCount) =
      ∑ ref ∈ R, (parts ref).card * (readDays deploymentId meter bounds before ref).card := by
    rw [count_gauges hmeter hempty ht hcover, Finset.sum_biUnion hgauge.disjoint]
    refine Finset.sum_congr rfl fun ref href => ?_
    rw [Finset.sum_congr rfl fun sub hsub => ?_, Finset.sum_const, smul_eq_mul]
    rw [readDays, hgauge.days ref href sub hsub, ← readDays]
  have hnonneg : ∀ ref day, 0 ≤ lastMicros deploymentId meter before ref day := fun ref day =>
    (gauge_of_recordAll hmeter (hempty ref day) hs).2.2
  have hzero : (∑ ref ∈ R, (readDays deploymentId meter bounds before ref).card) = 0 ↔
      (∑ ref ∈ R, (parts ref).card * (readDays deploymentId meter bounds before ref).card) = 0 := by
    rw [Finset.sum_eq_zero_iff, Finset.sum_eq_zero_iff]
    refine forall₂_congr fun ref href => ?_
    rw [Nat.mul_eq_zero, or_iff_right (Finset.card_pos.2 (hgauge.nonempty ref href)).ne']
  rw [meterQuantity_gauge hexact hmeter, meterQuantity_gauge hexact hmeter, htotal, hbefore, hafter,
    average_eq_iff hzero, sum_readDays_eq_iff hgauge.nonempty,
    sum_gauges hmeter hempty hs (Finset.Subset.refl R), sum_lastMicros_eq_zero_iff hnonneg,
    Averages, or_comm, or_iff_right (a := meter.isGauge = false) (by simp [hmeter])]

end Split

end Quantities

/-- Reading a meter through sub-meters changes nothing that is priced exactly where the
meter is a counter, no sub-meter of the period is divided, or its gauges read zero. -/
theorem cost_split_iff {F : Type} {q : CostQuestion F} {bounds : ℤ × ℤ} {meter : MeterType}
    {parts : PyStr → Finset PyStr} {before after : List Reading} {s₀ s t : Db}
    (hexact : q.plan.Exact) (hbounds : periodBounds q.period = .ok bounds)
    (hempty : ∀ ref day, meterTable s₀ (q.deploymentId, meter, ref, day) = none)
    (hsplit : Split q.deploymentId meter parts before after)
    (hs : recordAll before s₀ = .ok s) (ht : recordAll after s₀ = .ok t) :
    q.Same bounds s t ↔ Averages q.deploymentId meter parts before bounds := by
  have hothers : ∀ m, m ≠ meter →
      meterRows s q.deploymentId bounds m = meterRows t q.deploymentId bounds m := by
    intro m hm
    rw [meterRows_eq, meterRows_eq]
    refine sumBuckets_congr fun ref day => ?_
    have hrow := recordRow_of_recordAll (c := (q.deploymentId, m, ref, day)) hs
    have hrow' := recordRow_of_recordAll (c := (q.deploymentId, m, ref, day)) ht
    rw [hsplit.others (q.deploymentId, m, ref, day) (fun h => hm (Prod.mk.inj h).2)] at hrow'
    exact Except.ok.inj (hrow.symm.trans hrow')
  have hrows : meterRows s q.deploymentId bounds meter ≠ 0 ↔
      meterRows t q.deploymentId bounds meter ≠ 0 := by
    have hin : ∀ xs : List Reading, (∃ x ∈ xs, x.Within q.deploymentId meter bounds) ↔
        ∃ day ∈ (ofMeter q.deploymentId meter xs).map Reading.day, Between bounds day := by
      intro xs
      simp only [ofMeter, Reading.Within, List.mem_map, List.mem_filter, decide_eq_true_eq]
      constructor
      · rintro ⟨x, hx, hdep, hmeter, hday⟩
        exact ⟨x.day, ⟨x, ⟨hx, hdep, hmeter⟩, rfl⟩, hday⟩
      · rintro ⟨_, ⟨x, ⟨hx, hdep, hmeter⟩, rfl⟩, hday⟩
        exact ⟨x, hx, hdep, hmeter, hday⟩
    rw [meterRows_of_recordAll hempty hs, meterRows_of_recordAll hempty ht, hin, hin]
    exact exists_congr fun day => and_congr_left fun _ => hsplit.mem_days.symm
  have hquantity : meterQuantity q.plan meter (meterRows s q.deploymentId bounds meter) =
      meterQuantity q.plan meter (meterRows t q.deploymentId bounds meter) ↔
        Averages q.deploymentId meter parts before bounds := by
    cases hmeter : meter.isGauge with
    | false => exact iff_of_true (counter_split hsplit hs ht hmeter) (.inl hmeter)
    | true => exact gauge_split_iff hsplit hs ht hexact hempty hmeter
  rw [same_iff hbounds, quantities_eq_iff hothers hrows, ← hquantity]
  refine ⟨fun h => ?_, fun h _ => h⟩
  by_cases hne : meterRows s q.deploymentId bounds meter ≠ 0
  · exact h hne
  · rw [not_not.1 hne, not_not.1 (mt hrows.2 hne)]

/-! ### Twelve seats -/

/-- The cost of March at ten a seat and two a call. -/
def marchCost : CostQuestion ℚ where
  plan := .utc
  rt := ⟨fun _ => none, id⟩
  fl := { exactFloats with ofQuantity := id, add := (· + ·) }
  books := ⟨[], [⟨1, 1, 739617, [(py "unit_prices", .obj [(py "seats_active", .num (.int 10)),
    (py "api_calls", .num (.int 2))])]⟩], [], [], []⟩
  workspaceId := 1
  deploymentId := 1
  period := py "2026-03"

theorem marchCost_bounds : periodBounds marchCost.period = .ok (739676, 739706) := by
  decide +kernel

def marchReading (meter : MeterType) (ref : String) (quantity : ℤ) : Reading :=
  ⟨1, meter, py ref, 739676, .int quantity⟩

theorem readingsOf_other {deploymentId : ℕ} {meter : MeterType} {xs : List Reading}
    (h : ∀ x ∈ xs, (x.deploymentId, x.meter) = (deploymentId, meter))
    {c : ℕ × MeterType × PyStr × ℤ} (hc : (c.1, c.2.1) ≠ (deploymentId, meter)) :
    readingsOf c xs = [] := by
  refine List.filter_eq_nil_iff.2 fun x hx hgroup => hc ?_
  rw [← h x hx, ← of_decide_eq_true hgroup]
  rfl

theorem split_calls (parts : PyStr → Finset PyStr) : Split 1 .apiCalls parts
    [marchReading .apiCalls "" 3, marchReading .apiCalls "" 4]
    [marchReading .apiCalls "search" 4, marchReading .apiCalls "chat" 3] := by
  refine ⟨fun c hc => ?_, fun _ => List.Perm.swap _ _ _, fun h => by cases h⟩
  rw [readingsOf_other (by simp [marchReading]) hc, readingsOf_other (by simp [marchReading]) hc]

theorem split_seats : Split 1 .seatsActive (fun _ => {py "east", py "west"})
    [marchReading .seatsActive "" 12]
    [marchReading .seatsActive "east" 6, marchReading .seatsActive "west" 6] := by
  refine ⟨fun c hc => ?_, fun h => (by cases h), fun _ => ?_⟩
  · rw [readingsOf_other (by simp [marchReading]) hc, readingsOf_other (by simp [marchReading]) hc]
  have hbefore : subMeters 1 .seatsActive [marchReading .seatsActive "" 12] = {py ""} := by decide
  have hafter : subMeters 1 .seatsActive [marchReading .seatsActive "east" 6,
      marchReading .seatsActive "west" 6] = {py "east", py "west"} := by decide
  refine ⟨fun _ _ => ⟨py "east", by decide⟩, ?_, ?_, ?_, ?_⟩
  · rw [hbefore, Finset.coe_singleton]
    exact Set.pairwiseDisjoint_singleton _ _
  · intro sub hsub
    rw [hafter] at hsub
    exact ⟨py "", by rw [hbefore]; exact Finset.mem_singleton_self _, hsub⟩
  · intro ref href sub hsub
    rw [hbefore, Finset.mem_singleton] at href
    rw [Finset.mem_insert, Finset.mem_singleton] at hsub
    rcases hsub with rfl | rfl <;> rw [href] <;> rfl
  · intro ref href i
    rw [hbefore, Finset.mem_singleton] at href
    rw [Finset.sum_pair (by decide), href]
    cases i with
    | zero => decide +kernel
    | succ i => rfl

theorem eq_ok_of_toOption {ε α : Type} {x : Except ε α} {a : α} (h : x.toOption = some a) :
    x = .ok a := by
  cases x with
  | error e => cases h
  | ok b => rw [Option.some.inj h]

/-- Calls add up whatever the endpoint. -/
theorem cost_split_iff_calls : ∃ s t : Db,
    recordAll [marchReading .apiCalls "" 3, marchReading .apiCalls "" 4] ∅ = .ok s ∧
    recordAll [marchReading .apiCalls "search" 4, marchReading .apiCalls "chat" 3] ∅ = .ok t ∧
    marchCost.Same (739676, 739706) s t := by
  obtain ⟨s, hs⟩ : ∃ s, recordAll [marchReading .apiCalls "" 3, marchReading .apiCalls "" 4] ∅ =
      .ok s := ⟨_, rfl⟩
  obtain ⟨t, ht⟩ : ∃ t, recordAll [marchReading .apiCalls "search" 4,
      marchReading .apiCalls "chat" 3] ∅ = .ok t := ⟨_, rfl⟩
  exact ⟨s, t, hs, ht, (cost_split_iff (fun _ => rfl) marchCost_bounds (fun _ _ => rfl)
    (split_calls fun ref => {ref}) hs ht).2 (.inl rfl)⟩

/-- Twelve seats cost 120; read as six and six they cost 60. -/
theorem cost_split_seats : ∃ s t : Db,
    recordAll [marchReading .seatsActive "" 12] ∅ = .ok s ∧
    recordAll [marchReading .seatsActive "east" 6, marchReading .seatsActive "west" 6] ∅ = .ok t ∧
    Split 1 .seatsActive (fun _ => {py "east", py "west"}) [marchReading .seatsActive "" 12]
      [marchReading .seatsActive "east" 6, marchReading .seatsActive "west" 6] ∧
    marchCost.value s = .ok (some (.finite 120)) ∧ marchCost.value t = .ok (some (.finite 60)) ∧
    marchCost.periodToDate s = .ok 120 ∧ marchCost.periodToDate t = .ok 60 ∧
    ¬ marchCost.Same (739676, 739706) s t := by
  have hwhole : (recordAll [marchReading .seatsActive "" 12] ∅).toOption.any fun s =>
      marchCost.value s = .ok (some (.finite 120)) ∧ marchCost.periodToDate s = .ok 120 := by
    decide +kernel
  have hhalves : (recordAll [marchReading .seatsActive "east" 6,
      marchReading .seatsActive "west" 6] ∅).toOption.any fun t =>
      marchCost.value t = .ok (some (.finite 60)) ∧ marchCost.periodToDate t = .ok 60 := by
    decide +kernel
  obtain ⟨s, hs, hvalue⟩ := (Option.any_eq_true _ _).1 hwhole
  obtain ⟨t, ht, hvalue'⟩ := (Option.any_eq_true _ _).1 hhalves
  simp only [decide_eq_true_eq] at hvalue hvalue'
  refine ⟨s, t, eq_ok_of_toOption hs, eq_ok_of_toOption ht, split_seats, hvalue.1, hvalue'.1,
    hvalue.2, hvalue'.2, fun h => ?_⟩
  have hsame := h.value
  rw [hvalue.1, hvalue'.1] at hsame
  exact absurd hsame (by decide +kernel)

end TrueFigure.Server
