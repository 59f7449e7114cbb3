import TrueFigure.Library.Aggregates
import TrueFigure.Server.Pipeline

/-!
# The daily aggregates as folds

What `ingestion_stats_daily`, `user_activity_daily` and `meter_usage_daily` are
for: each row is the fold of the events of its group that have left `accepted`.
Every transaction of a worker adds one such event and folds it into the rows of
its groups, so the equality survives every interleaving.
-/
namespace TrueFigure.Server

open TrueFigure.Library TrueFigure.Python

/-- An event that is no longer `accepted`. -/
structure LeftEvent where
  occurredAt : ℤ
  row : EventRow

namespace LeftEvent

def sourceRef (e : LeftEvent) : PyStr := e.row.sourceRef.getD []

def get (e : LeftEvent) (field : PyStr) : Json := e.row.payload.getD field .null

/-- Sent with a non-empty `user_ref` or `assignee_ref`. -/
def idBearing (e : LeftEvent) : Bool :=
  (e.get (py "user_ref")).truthy || (e.get (py "assignee_ref")).truthy

def countedResolved (e : LeftEvent) : Bool :=
  e.row.resolvedUserId.isSome && e.row.exclusionReason.isNone

def isActivity (e : LeftEvent) : Bool := decide (e.row.eventType = .activity)

def joined (e : LeftEvent) : Bool := e.row.workItemId.isSome

/-- The quantity of a cost meter as its column holds it. -/
def quantity (e : LeftEvent) : Option Numeric :=
  match quantityParam (e.row.payload.getD (py "quantity") (.num (.int 0))) with
  | .ok q => q
  | .error _ => none

def quantityMicros (e : LeftEvent) : ℤ := e.quantity.elim 0 Numeric.micros

end LeftEvent

/-- The event a row contributes once it has left `accepted`. -/
def leftOf : Sigma Row → Multiset LeftEvent
  | ⟨.event _ _ occurredAt, row⟩ =>
    if (row : EventRow).pipelineStatus = .accepted then 0 else {⟨occurredAt, row⟩}
  | _ => 0

/-- The events that have left `accepted`. -/
def leftEvents (s : Db) : Multiset LeftEvent := tally leftOf s

section Groups

variable (dayOf : ℤ → ℤ) (e : LeftEvent)

/-- The row of `ingestion_stats_daily` an event counts in. -/
def statsGroup : Option (ℕ × PyStr × ℤ) :=
  some (e.row.deploymentId, e.sourceRef, dayOf e.occurredAt)

/-- The row of `user_activity_daily` a resolved, non-excluded activity counts in. -/
def activityGroup : Option (ℕ × ℕ × ℤ) :=
  match e.row.resolvedUserId, e.row.exclusionReason with
  | some userId, none =>
    if e.row.eventType = .activity then
      some (e.row.deploymentId, userId, dayOf e.occurredAt)
    else none
  | _, _ => none

/-- The row of `meter_usage_daily` a cost meter counts in. -/
def meterGroup : Option (ℕ × MeterType × PyStr × ℤ) :=
  if e.row.eventType = .costMeter then
    match meterParam (e.row.payload.get? (py "meter")),
        meterRefParam (e.row.payload.getD (py "meter_ref") (.str [])) with
    | .ok meter, .ok meterRef => some (e.row.deploymentId, meter, meterRef, dayOf e.occurredAt)
    | _, _ => none
  else none

end Groups

/-- What a row of `ingestion_stats_daily` says about its events. -/
structure StatsOf (g : Multiset LeftEvent) (row : IngestionStatsRow) : Prop where
  nonempty : g ≠ 0
  accepted : row.acceptedCount = Multiset.card g
  identityBearing : row.identityBearingCount = g.countP fun e => e.idBearing
  resolved : row.resolvedCount = g.countP fun e => e.countedResolved
  activity : row.activityCount = g.countP fun e => e.isActivity
  joined : row.joinedCount = g.countP fun e => e.joined
  last_mem : ∃ e ∈ g, e.occurredAt = row.lastEventAt
  last_greatest : ∀ e ∈ g, e.occurredAt ≤ row.lastEventAt

/-- What a row of `user_activity_daily` says about its events. -/
structure ActivityOf (g : Multiset LeftEvent) (row : UserActivityRow) : Prop where
  nonempty : g ≠ 0
  count : row.eventCount = Multiset.card g

/-- What a row of `meter_usage_daily` says about its events: a counter's sum, a
gauge's reading. -/
structure MeterOf (meter : MeterType) (g : Multiset LeftEvent) (row : MeterUsageRow) : Prop where
  nonempty : g ≠ 0
  counter : meter.isGauge = false →
    row.quantitySum.micros = (g.map LeftEvent.quantityMicros).sum ∧ row.gaugeLast = none
  gauge : meter.isGauge = true →
    row.quantitySum = .zero ∧ ∃ e ∈ g, row.gaugeLast = e.quantity

/-- A group without events has no row, a group with events has the row `P`
describes. -/
def FoldOf {ρ : Type} (P : Multiset LeftEvent → ρ → Prop) (g : Multiset LeftEvent) :
    Option ρ → Prop
  | none => g = 0
  | some row => P g row

def statsTable (s : Db) (c : ℕ × PyStr × ℤ) : Option IngestionStatsRow :=
  s.lookup (RowKey.ingestionStats c.1 c.2.1 c.2.2)

def activityTable (s : Db) (c : ℕ × ℕ × ℤ) : Option UserActivityRow :=
  s.lookup (RowKey.userActivity c.1 c.2.1 c.2.2)

def meterTable (s : Db) (c : ℕ × MeterType × PyStr × ℤ) : Option MeterUsageRow :=
  s.lookup (RowKey.meterUsage c.1 c.2.1 c.2.2.1 c.2.2.2)

section Tables

variable (dayOf : ℤ → ℤ) (facts : Multiset LeftEvent) (s : Db)

def StatsOk : Prop :=
  Grouped (statsGroup dayOf) (fun _ => FoldOf StatsOf) facts (statsTable s)

def ActivityOk : Prop :=
  Grouped (activityGroup dayOf) (fun _ => FoldOf ActivityOf) facts (activityTable s)

def MeterOk : Prop :=
  Grouped (meterGroup dayOf) (fun c => FoldOf (MeterOf c.2.1)) facts (meterTable s)

end Tables

/-- The three aggregate tables are the folds of the events that have left
`accepted`. -/
structure AggregatesOk (dayOf : ℤ → ℤ) (s : Db) : Prop where
  stats : StatsOk dayOf (leftEvents s) s
  activity : ActivityOk dayOf (leftEvents s) s
  meter : MeterOk dayOf (leftEvents s) s

/-! ### Folding one event into a row -/

theorem upsertStats_some {excluded row after : IngestionStatsRow}
    (h : upsertStats excluded (some row) = .ok after) :
    after =
      { acceptedCount := row.acceptedCount + 1
        identityBearingCount := row.identityBearingCount + excluded.identityBearingCount
        resolvedCount := row.resolvedCount + excluded.resolvedCount
        activityCount := row.activityCount + excluded.activityCount
        joinedCount := row.joinedCount + excluded.joinedCount
        lastEventAt := max row.lastEventAt excluded.lastEventAt } := by
  simp only [upsertStats, bind, Except.bind] at h
  split at h
  · cases h
  rename_i accepted haccepted
  split at h
  · cases h
  rename_i bearing hbearing
  split at h
  · cases h
  rename_i resolved hresolved
  split at h
  · cases h
  rename_i activity hactivity
  split at h
  · cases h
  rename_i joined hjoined
  cases h
  simp only [addInt_eq_ok haccepted, addInt_eq_ok hbearing, addInt_eq_ok hresolved,
    addInt_eq_ok hactivity, addInt_eq_ok hjoined]

theorem countP_cons_toNat (p : LeftEvent → Bool) (e : LeftEvent) (g : Multiset LeftEvent) :
    (e ::ₘ g).countP (fun e => p e) = g.countP (fun e => p e) + (p e).toNat := by
  cases hp : p e <;> simp [hp]

/-- The row an event alone makes, read off the settled event. -/
theorem statsOf_eq {ev : ClaimedEvent} {e : LeftEvent} (hrow : e.row.payload = ev.row.payload)
    (htype : e.row.eventType = ev.row.eventType) (htime : e.occurredAt = ev.occurredAt) :
    statsOf ev e.countedResolved e.row.workItemId =
      ⟨1, e.idBearing.toNat, e.countedResolved.toNat, e.isActivity.toNat, e.joined.toNat,
        e.occurredAt⟩ := by
  simp only [statsOf, ClaimedEvent.idBearing, LeftEvent.idBearing, ClaimedEvent.get,
    LeftEvent.get, LeftEvent.isActivity, LeftEvent.joined, hrow, htype, htime]

theorem statsOf_upsert {g : Multiset LeftEvent} {e : LeftEvent}
    {before : Option IngestionStatsRow} {after : IngestionStatsRow} (hg : FoldOf StatsOf g before)
    (hu : upsertStats ⟨1, e.idBearing.toNat, e.countedResolved.toNat, e.isActivity.toNat,
      e.joined.toNat, e.occurredAt⟩ before = .ok after) :
    StatsOf (e ::ₘ g) after := by
  cases before with
  | none =>
    have hzero : g = 0 := hg
    subst hzero
    cases hu
    refine ⟨by simp, by simp, ?_, ?_, ?_, ?_, ⟨e, by simp, rfl⟩, by simp⟩ <;>
      rw [countP_cons_toNat, Multiset.countP_zero, zero_add]
  | some row =>
    have hrow : StatsOf g row := hg
    rw [upsertStats_some hu]
    refine ⟨by simp, ?_, ?_, ?_, ?_, ?_, ?_, ?_⟩
    · rw [Multiset.card_cons, hrow.accepted]
    · rw [countP_cons_toNat, hrow.identityBearing]
    · rw [countP_cons_toNat, hrow.resolved]
    · rw [countP_cons_toNat, hrow.activity]
    · rw [countP_cons_toNat, hrow.joined]
    · rcases max_choice row.lastEventAt e.occurredAt with hmax | hmax
      · obtain ⟨d, hd, hlast⟩ := hrow.last_mem
        exact ⟨d, Multiset.mem_cons_of_mem hd, by rw [hlast, hmax]⟩
      · exact ⟨e, Multiset.mem_cons_self e g, hmax.symm⟩
    · intro d hd
      rcases Multiset.mem_cons.1 hd with rfl | hd
      · exact le_max_right _ _
      · exact (hrow.last_greatest d hd).trans (le_max_left _ _)

theorem activityOf_upsert {g : Multiset LeftEvent} (e : LeftEvent)
    {before : Option UserActivityRow} {after : UserActivityRow} (hg : FoldOf ActivityOf g before)
    (hu : upsertActivity before = .ok after) : ActivityOf (e ::ₘ g) after := by
  cases before with
  | none =>
    have hzero : g = 0 := hg
    subst hzero
    cases hu
    exact ⟨by simp, by simp⟩
  | some row =>
    have hrow : ActivityOf g row := hg
    simp only [upsertActivity, bind, Except.bind] at hu
    split at hu
    · cases hu
    rename_i count hcount
    cases hu
    exact ⟨by simp, by rw [Multiset.card_cons, addInt_eq_ok hcount, hrow.count]⟩

theorem checkQuantity_eq_ok {q a : Numeric} (h : checkQuantity q = .ok a) : a = q := by
  unfold checkQuantity at h
  split_ifs at h
  cases h
  rfl

theorem quantity_eq {e : LeftEvent} {q : Option Numeric}
    (h : quantityParam (e.row.payload.getD (py "quantity") (.num (.int 0))) = .ok q) :
    e.quantity = q := by
  simp only [LeftEvent.quantity, h]

theorem meterOf_counter {meter : MeterType} (hmeter : meter.isGauge = false)
    {g : Multiset LeftEvent} {e : LeftEvent} {before : Option MeterUsageRow}
    {after : MeterUsageRow} (hg : FoldOf (MeterOf meter) g before)
    (hu : upsertCounter (e.row.payload.getD (py "quantity") (.num (.int 0))) before = .ok after) :
    MeterOf meter (e ::ₘ g) after := by
  simp only [upsertCounter, bind, Except.bind] at hu
  split at hu
  · cases hu
  rename_i delta hdelta
  have hquantity := quantity_eq hdelta
  cases delta with
  | none => cases hu
  | some delta =>
    simp only at hu
    split at hu
    · cases hu
    rename_i checked hchecked
    cases checkQuantity_eq_ok hchecked
    have hmicros : e.quantityMicros = delta.micros := by
      simp [LeftEvent.quantityMicros, hquantity]
    refine ⟨by simp, fun _ => ?_, fun hgauge => by simp [hmeter] at hgauge⟩
    rw [Multiset.map_cons, Multiset.sum_cons, hmicros]
    cases before with
    | none =>
      have hzero : g = 0 := hg
      subst hzero
      cases hu
      simp
    | some row =>
      have hrow : MeterOf meter g row := hg
      simp only at hu
      split at hu
      · cases hu
      rename_i total htotal
      split at hu
      · cases hu
      rename_i total' htotal'
      cases checkQuantity_eq_ok htotal'
      cases hu
      obtain ⟨hsum, hnone⟩ := hrow.counter hmeter
      exact ⟨by rw [Numeric.add_eq_ok htotal, hsum, add_comm], hnone⟩

theorem mapM_checkQuantity {q r : Option Numeric}
    (h : q.mapM checkQuantity = (.ok r : Except DbError (Option Numeric))) : r = q := by
  cases q with
  | none =>
    cases h
    rfl
  | some q =>
    cases hq : checkQuantity q with
    | error e => simp [hq, Functor.map, Except.map] at h
    | ok a =>
      simp only [Option.mapM_some, hq, Functor.map, Except.map] at h
      cases h
      rw [checkQuantity_eq_ok hq]

theorem meterOf_gauge {meter : MeterType} (hmeter : meter.isGauge = true)
    {g : Multiset LeftEvent} {e : LeftEvent} {before : Option MeterUsageRow}
    {after : MeterUsageRow} (hg : FoldOf (MeterOf meter) g before)
    (hu : upsertGauge (e.row.payload.getD (py "quantity") (.num (.int 0))) before = .ok after) :
    MeterOf meter (e ::ₘ g) after := by
  simp only [upsertGauge, bind, Except.bind] at hu
  split at hu
  · cases hu
  rename_i reading hreading
  split at hu
  · cases hu
  rename_i checked hchecked
  have hquantity : e.quantity = checked := by
    rw [quantity_eq hreading, mapM_checkQuantity hchecked]
  refine ⟨by simp, fun hcounter => by simp [hmeter] at hcounter, fun _ => ?_⟩
  cases before with
  | none =>
    cases hu
    exact ⟨rfl, e, Multiset.mem_cons_self e g, hquantity.symm⟩
  | some row =>
    have hrow : MeterOf meter g row := hg
    cases hu
    exact ⟨(hrow.gauge hmeter).1, e, Multiset.mem_cons_self e g, hquantity.symm⟩

theorem meterOf_upsert {meter : MeterType} {g : Multiset LeftEvent} {e : LeftEvent}
    {before : Option MeterUsageRow} {after : MeterUsageRow} (hg : FoldOf (MeterOf meter) g before)
    (hu : upsertMeter meter (e.row.payload.getD (py "quantity") (.num (.int 0))) before =
      .ok after) : MeterOf meter (e ::ₘ g) after := by
  unfold upsertMeter at hu
  split_ifs at hu with hmeter
  · exact meterOf_gauge hmeter hg hu
  · exact meterOf_counter (by simpa using hmeter) hg hu

end TrueFigure.Server
