import TrueFigure.Server.PipelineCapacity
import Mathlib.Algebra.Order.BigOperators.Group.Multiset

/-!
# The worker's transaction succeeds

Statement by statement: where everything that waits fits, the transaction that
takes the least accepted event runs to its end.
-/
namespace TrueFigure.Server

open TrueFigure.Library TrueFigure.Python

variable {conn : Connection} {s s' : Db} {ev : ClaimedEvent} {u : Option ℕ}
  {x : Option ExclusionReason}

/-! ### Statements that succeed -/

theorem exists_upsertWorkItem (hd : Digestible ev.row) (id : ℕ) (before : Option WorkItemRow) :
    ∃ row, upsertWorkItem id
      (if ev.row.eventType = .lifecycle then ev.get (py "size_band") else .null)
      (if ev.row.eventType = .lifecycle then ev.get (py "category") else .null) before = .ok row := by
  have hparams : ∃ size category,
      sizeParam (if ev.row.eventType = .lifecycle then ev.get (py "size_band") else .null) =
        .ok size ∧
      textParam (if ev.row.eventType = .lifecycle then ev.get (py "category") else .null) =
        .ok category := by
    by_cases htype : ev.row.eventType = .lifecycle
    · obtain ⟨size, hsize⟩ := hd.size htype
      obtain ⟨category, hcategory⟩ := hd.category htype
      rw [if_pos htype, if_pos htype]
      exact ⟨size, category, hsize, hcategory⟩
    · rw [if_neg htype, if_neg htype]
      exact ⟨none, none, rfl, rfl⟩
  obtain ⟨size, category, hsize, hcategory⟩ := hparams
  rw [upsertWorkItem, hsize, hcategory]
  cases before with
  | none => exact ⟨_, rfl⟩
  | some row => exact ⟨_, rfl⟩

theorem succeeds_joinWorkItem (hd : Digestible ev.row) (hstorable : Storable conn s ev)
    {next : Option ℕ → Transaction}
    (hnext : ∀ w t, (∀ k, (∀ ws ref, k ≠ .workItem ws ref) → t.lookup k = s.lookup k) →
      (next w).Succeeds t) : (joinWorkItem conn ev next).Succeeds s := by
  unfold joinWorkItem
  extract_lets ref
  by_cases hjoin : ev.row.eventType.itemBearing = true ∧ ref.truthy = true
  · rw [if_pos hjoin]
    rcases hd.texts (py "work_item_id") (by simp) with hnull | ⟨value, hvalue⟩
    · have hfalse : ref.truthy = false := by rw [show ref = .null from hnull]; rfl
      rw [hjoin.2] at hfalse
      cases hfalse
    · have href : ref = .str value := hvalue
      have hne : value ≠ [] := by
        rintro rfl
        rw [href] at hjoin
        cases hjoin.2
      rw [href]
      refine Txn.succeeds_fresh fun id => Txn.succeeds_write ?_
      obtain ⟨row, hrow⟩ := exists_upsertWorkItem hd id (s.lookup (.workItem ev.workspaceId value))
      refine ⟨row, Connection.indexed_eq_ok.2 ⟨?_, fun hnone => ?_⟩, hnext _ _ fun k hk => ?_⟩
      · exact congrArg liftDb hrow
      · exact hstorable.workItem hjoin.1 value hvalue hne hnone
      · exact AList.lookup_insert_ne (hk _ _)
  · rw [if_neg hjoin]
    exact hnext none s fun _ _ => rfl

theorem succeeds_updateUserActivity
    (hactivity : ∀ c, activityGroup conn.dayOf (ev.settled u x none) = some c →
      ∃ row, upsertActivity (activityTable s c) = .ok row) {next : Transaction}
    (hnext : ∀ t, (∀ k, (∀ d user day, k ≠ .userActivity d user day) → t.lookup k = s.lookup k) →
      next.Succeeds t) :
    (updateUserActivity ev (conn.dayOf ev.occurredAt) u x next).Succeeds s := by
  unfold updateUserActivity
  split
  · rename_i userId
    split_ifs with htype
    · obtain ⟨row, hrow⟩ := hactivity (ev.row.deploymentId, userId, conn.dayOf ev.occurredAt)
        (if_pos htype)
      refine Txn.succeeds_write ⟨row, ?_, hnext _ fun k hk => AList.lookup_insert_ne (hk _ _ _)⟩
      rw [show s.lookup (.userActivity ev.row.deploymentId userId (conn.dayOf ev.occurredAt)) =
        activityTable s (ev.row.deploymentId, userId, conn.dayOf ev.occurredAt) from rfl, hrow]
      rfl
    · exact hnext s fun _ _ => rfl
  · exact hnext s fun _ _ => rfl

theorem succeeds_updateMeterUsage (hd : Digestible ev.row)
    (hmeter : ∀ c, meterGroup conn.dayOf ⟨ev.occurredAt, ev.row⟩ = some c →
      (∃ row, upsertMeter c.2.1 (ev.row.payload.getD (py "quantity") (.num (.int 0)))
        (meterTable s c) = .ok row) ∧
      (meterTable s c = none → conn.indexable (.meterUsage c.1 c.2.1 c.2.2.1 c.2.2.2) = true))
    (a : Reply) : (updateMeterUsage conn ev (conn.dayOf ev.occurredAt) (.pure a)).Succeeds s := by
  unfold updateMeterUsage
  by_cases hcost : ev.row.eventType = .costMeter
  · obtain ⟨meter, hparam⟩ := hd.meter hcost
    obtain ⟨ref, href⟩ := hd.meterRef hcost
    have hgroup : meterGroup conn.dayOf ⟨ev.occurredAt, ev.row⟩ =
        some (ev.row.deploymentId, meter, ref, conn.dayOf ev.occurredAt) := by
      simp only [meterGroup, hcost, if_true, hparam, href]
    obtain ⟨⟨row, hrow⟩, hindex⟩ := hmeter _ hgroup
    rw [if_pos hcost, hparam]
    simp only [href]
    refine Txn.succeeds_write ⟨row, Connection.indexed_eq_ok.2 ⟨?_, hindex⟩, Txn.succeeds_pure _ _⟩
    rw [show s.lookup (.meterUsage ev.row.deploymentId meter ref (conn.dayOf ev.occurredAt)) =
      meterTable s (ev.row.deploymentId, meter, ref, conn.dayOf ev.occurredAt) from rfl, hrow]
    rfl
  · rw [if_neg hcost]
    exact Txn.succeeds_pure _ _

/-- Every upsert of an event has room in its row. -/
structure Room (conn : Connection) (s : Db) (ev : ClaimedEvent) (u : Option ℕ)
    (x : Option ExclusionReason) : Prop where
  storable : Storable conn s ev
  stats : ∀ w, ∃ row, upsertStats (statsOf ev (u.isSome && x.isNone) w)
    (s.lookup (ev.statsKey conn)) = .ok row
  activity : ∀ c, activityGroup conn.dayOf (ev.settled u x none) = some c →
    ∃ row, upsertActivity (activityTable s c) = .ok row
  meter : ∀ c, meterGroup conn.dayOf ⟨ev.occurredAt, ev.row⟩ = some c →
    ∃ row, upsertMeter c.2.1 (ev.row.payload.getD (py "quantity") (.num (.int 0)))
      (meterTable s c) = .ok row

theorem Room.congr {t : Db} (h : ∀ k, t.lookup k = s.lookup k) (hroom : Room conn s ev u x) :
    Room conn t ev u x := by
  have hactivity : activityTable t = activityTable s := funext fun c => h _
  have hmeter : meterTable t = meterTable s := funext fun c => h _
  refine ⟨⟨hroom.storable.quantity, ?_, ?_⟩, ?_, ?_, ?_⟩
  · rw [hmeter]
    exact hroom.storable.bucket
  · intro hbearing ref href hne hnone
    exact hroom.storable.workItem hbearing ref href hne ((h _).symm.trans hnone)
  · intro w
    rw [h]
    exact hroom.stats w
  · rw [hactivity]
    exact hroom.activity
  · rw [hmeter]
    exact hroom.meter

/-- An event whose upserts have room is processed. -/
theorem succeeds_settleAndFold (hd : Digestible ev.row) (hroom : Room conn s ev u x)
    (hstored : s.lookup ev.rowKey = some ev.row) : (settleAndFold conn ev u x).Succeeds s := by
  refine succeeds_joinWorkItem hd hroom.storable fun w t hother => ?_
  have hevent : t.lookup ev.rowKey = some ev.row := (hother _ (by simp)).trans hstored
  refine Txn.succeeds_write ⟨(ev.settled u x w).row, ?_, ?_⟩
  · rw [hevent]
    rfl
  have hsettled : ∀ k : RowKey, (∀ ws ref, k ≠ .workItem ws ref) → k ≠ ev.rowKey →
      (t.insert ev.rowKey (ev.settled u x w).row).lookup k = s.lookup k :=
    fun k hitem hne => (AList.lookup_insert_ne hne).trans (hother k hitem)
  obtain ⟨stats, hstats⟩ := hroom.stats w
  refine Txn.succeeds_write ⟨stats, ?_, ?_⟩
  · rw [hsettled _ (by simp) (by simp), hstats]
    rfl
  have hcounted : ∀ k : RowKey, (∀ ws ref, k ≠ .workItem ws ref) → k ≠ ev.rowKey →
      k ≠ ev.statsKey conn →
      ((t.insert ev.rowKey (ev.settled u x w).row).insert (ev.statsKey conn) stats).lookup k =
        s.lookup k :=
    fun k hitem hrow hne => (AList.lookup_insert_ne hne).trans (hsettled k hitem hrow)
  refine succeeds_updateUserActivity (fun c hc => ?_) fun t' hother' => ?_
  · rw [show activityTable _ c = activityTable s c from hcounted _ (by simp) (by simp) (by simp)]
    exact hroom.activity c hc
  · refine succeeds_updateMeterUsage hd (fun c hc => ?_) _
    rw [show meterTable t' c = meterTable s c from
      (hother' _ (by simp)).trans (hcounted _ (by simp) (by simp) (by simp))]
    exact ⟨hroom.meter c hc, hroom.storable.bucket c hc⟩

/-! ### Room in the rows -/

theorem roundHalfEven_nonneg {q : ℚ} (h : 0 ≤ q) : 0 ≤ roundHalfEven q := by
  have hfloor := Int.floor_nonneg.2 h
  unfold roundHalfEven
  split_ifs <;> omega

theorem Numeric.ofFloat8_nonneg {q : ℚ} (h : 0 ≤ q) : 0 ≤ Numeric.ofFloat8 q := by
  have hscale : (0 : ℚ) < 10 ^ (14 - Int.log 10 |q|) := zpow_pos (by norm_num) _
  have hround := roundHalfEven_nonneg (mul_nonneg h hscale.le)
  exact div_nonneg (Int.cast_nonneg hround) hscale.le

/-- A number that is not negative is stored as one that is not. -/
theorem Numeric.ofNum_nonneg {n : PyNum} {q : Numeric} (hn : PyNum.negative n = false)
    (h : Numeric.ofNum n = .ok q) : 0 ≤ q.micros := by
  cases n with
  | int n =>
    have hnonneg : 0 ≤ n := by simpa [PyNum.negative] using hn
    rw [Numeric.ofMicros_eq_ok h]
    positivity
  | float r =>
    have hnonneg : 0 ≤ r := by simpa [PyNum.negative] using hn
    have hdecimal : 0 ≤ Numeric.ofFloat8 r * 10 ^ 6 :=
      mul_nonneg (Numeric.ofFloat8_nonneg hnonneg) (by norm_num)
    rw [Numeric.ofMicros_eq_ok h, Numeric.roundHalfAway, if_pos hdecimal]
    exact Int.floor_nonneg.2 (add_nonneg hdecimal (by norm_num))
  | _ => cases h

theorem Digestible.quantity_eq {row : EventRow} (hd : Digestible row)
    (hcost : row.eventType = .costMeter) {q : Option Numeric}
    (hq : quantityParam (row.payload.getD (py "quantity") (.num (.int 0))) = .ok q) :
    ∃ r, q = some r ∧ 0 ≤ r.micros := by
  obtain ⟨n, hn, hnegative⟩ := hd.quantity hcost
  rw [hn, quantityParam] at hq
  cases hr : Numeric.ofNum n with
  | error e =>
    rw [hr] at hq
    cases hq
  | ok r =>
    rw [hr] at hq
    cases hq
    exact ⟨r, rfl, Numeric.ofNum_nonneg hnegative hr⟩

theorem Digestible.quantityMicros_nonneg {row : EventRow} (hd : Digestible row)
    (hcost : row.eventType = .costMeter) (t : ℤ) : 0 ≤ (LeftEvent.mk t row).quantityMicros := by
  unfold LeftEvent.quantityMicros LeftEvent.quantity
  split
  · rename_i q hq
    obtain ⟨r, rfl, hr⟩ := hd.quantity_eq hcost hq
    exact hr
  · exact le_rfl

theorem foreseen_meterGroup (ev : ClaimedEvent) :
    meterGroup conn.dayOf (foreseen conn s ev) = meterGroup conn.dayOf ⟨ev.occurredAt, ev.row⟩ := by
  unfold foreseen
  split <;> rfl

theorem foreseen_quantityMicros (ev : ClaimedEvent) :
    (foreseen conn s ev).quantityMicros = (LeftEvent.mk ev.occurredAt ev.row).quantityMicros := by
  unfold foreseen
  split <;> rfl

theorem costMeter_of_meterGroup {dayOf : ℤ → ℤ} {e : LeftEvent} {c : ℕ × MeterType × PyStr × ℤ}
    (h : meterGroup dayOf e = some c) : e.row.eventType = .costMeter := by
  by_contra hne
  rw [meterGroup, if_neg hne] at h
  cases h

/-- What the types and the checks of the aggregate columns guarantee. -/
structure Checked (s : Db) : Prop where
  stats : ∀ c row, statsTable s c = some row → row.acceptedCount ≤ bigintMax
  activity : ∀ c row, activityTable s c = some row → row.eventCount ≤ integerMax
  meter : ∀ c row, meterTable s c = some row → 0 ≤ row.quantitySum.micros

/-- The rows as ingestion and the worker leave them: the waiting events can be
bound and identified, and the aggregates are folds within their columns. -/
structure Healthy (conn : Connection) (s : Db) : Prop where
  digestible : ∀ ev ∈ queued s, Digestible ev.row
  identified : ∀ ev ∈ queued s, ∃ u x, identityOf conn s ev = .ok (u, x)
  aggregates : AggregatesOk conn.dayOf s
  checked : Checked s

theorem addInt_of_le {limit a b : ℕ} (h : a + b ≤ limit) : addInt limit a b = .ok (a + b) :=
  if_pos h

theorem exists_upsertStats {g : Multiset LeftEvent} {before : Option IngestionStatsRow}
    {countedResolved : Bool} {w : Option ℕ} (hg : FoldOf StatsOf g before)
    (hcard : Multiset.card g + 1 ≤ bigintMax) :
    ∃ row, upsertStats (statsOf ev countedResolved w) before = .ok row := by
  cases before with
  | none => exact ⟨_, rfl⟩
  | some row =>
    have hrow : StatsOf g row := hg
    have hroom : ∀ {count : ℕ} {p : LeftEvent → Bool} (b : Bool), count = g.countP (fun e => p e) →
        addInt bigintMax count b.toNat = .ok (count + b.toNat) := by
      intro count p b hcount
      refine addInt_of_le ?_
      have hle := g.countP_le_card fun e => p e
      have hb := b.toNat_le
      omega
    have haccepted : addInt bigintMax row.acceptedCount 1 = .ok (row.acceptedCount + 1) :=
      addInt_of_le (hrow.accepted ▸ hcard)
    simp only [upsertStats, statsOf, haccepted, hroom _ hrow.identityBearing,
      hroom _ hrow.resolved, hroom _ hrow.activity, hroom _ hrow.joined, bind, Except.bind]
    exact ⟨_, rfl⟩

theorem exists_upsertActivity {g : Multiset LeftEvent} {before : Option UserActivityRow}
    (hg : FoldOf ActivityOf g before) (hcard : Multiset.card g + 1 ≤ integerMax) :
    ∃ row, upsertActivity before = .ok row := by
  cases before with
  | none => exact ⟨_, rfl⟩
  | some row =>
    have hrow : ActivityOf g row := hg
    rw [upsertActivity, addInt_of_le (hrow.count ▸ hcard)]
    exact ⟨_, rfl⟩

theorem checkQuantity_of_nonneg {q : Numeric} (h : 0 ≤ q.micros) : checkQuantity q = .ok q :=
  if_pos h

theorem exists_upsertMeter {meter : MeterType} {qty : Json} {q : Numeric}
    {before : Option MeterUsageRow} (hq : quantityParam qty = .ok (some q)) (hnonneg : 0 ≤ q.micros)
    (hcounter : meter.isGauge = false → ∀ row, before = some row →
      0 ≤ row.quantitySum.micros ∧ row.quantitySum.micros + q.micros < 10 ^ 20) :
    ∃ row, upsertMeter meter qty before = .ok row := by
  have hcheck := checkQuantity_of_nonneg hnonneg
  unfold upsertMeter
  cases hgauge : meter.isGauge with
  | true =>
    rw [if_pos rfl, upsertGauge, hq]
    simp only [bind, Except.bind, Option.mapM_some, hcheck, Functor.map, Except.map]
    cases before with
    | none => exact ⟨_, rfl⟩
    | some row => exact ⟨_, rfl⟩
  | false =>
    rw [if_neg (by simp), upsertCounter, hq]
    simp only [bind, Except.bind, hcheck]
    cases before with
    | none => exact ⟨_, rfl⟩
    | some row =>
      obtain ⟨hsum, htotal⟩ := hcounter hgauge row rfl
      have hbounded : (row.quantitySum.micros + q.micros).natAbs < 10 ^ 20 := by omega
      have hadd : row.quantitySum.add q = .ok ⟨_, hbounded⟩ := dif_pos hbounded
      have hcheck' : checkQuantity ⟨_, hbounded⟩ = .ok ⟨_, hbounded⟩ :=
        checkQuantity_of_nonneg (add_nonneg hsum hnonneg)
      simp only [hadd, hcheck']
      exact ⟨_, rfl⟩

/-- Where everything that waits fits, every waiting event has room. -/
theorem Healthy.room (h : Healthy conn s) (hfits : Fits conn s) (hev : ev ∈ queued s)
    (hidentity : identityOf conn s ev = .ok (u, x)) : Room conn s ev u x := by
  have hd := h.digestible ev hev
  have hstorable := hfits.storable ev hev
  obtain ⟨rest, hrest⟩ := Multiset.exists_cons_of_mem hev
  have hforeseen : foreseen conn s ev = ev.settled u x none := by rw [foreseen, hidentity]
  have hexpected : expected conn s =
      ev.settled u x none ::ₘ (leftEvents s + rest.map (foreseen conn s)) := by
    rw [expected, hrest, Multiset.map_cons, hforeseen, Multiset.add_cons]
  have htotals := hfits.totals
  rw [hexpected] at htotals
  refine ⟨hstorable, fun w => ?_, fun c hc => ?_, fun c hc => ?_⟩
  · have hgroup : statsGroup conn.dayOf (ev.settled u x none) =
        some (ev.row.deploymentId, ev.sourceRef, conn.dayOf ev.occurredAt) := rfl
    have hcard := htotals.stats (ev.row.deploymentId, ev.sourceRef, conn.dayOf ev.occurredAt)
    rw [Multiset.filter_cons_of_pos (p := fun e => statsGroup conn.dayOf e = some _) _ hgroup,
      Multiset.card_cons, Multiset.filter_add, Multiset.card_add] at hcard
    have hroom := h.aggregates.stats (ev.row.deploymentId, ev.sourceRef, conn.dayOf ev.occurredAt)
    exact exists_upsertStats hroom (by omega)
  · have hcard := htotals.activity c
    rw [Multiset.filter_cons_of_pos (p := fun e => activityGroup conn.dayOf e = some c) _ hc,
      Multiset.card_cons, Multiset.filter_add, Multiset.card_add] at hcard
    exact exists_upsertActivity (h.aggregates.activity c) (by omega)
  · have hcost : ev.row.eventType = .costMeter := costMeter_of_meterGroup hc
    obtain ⟨q, hq⟩ := hstorable.quantity hcost
    obtain ⟨q, rfl, hnonneg⟩ := hd.quantity_eq hcost hq
    refine exists_upsertMeter hq hnonneg fun hcounter row hrow => ?_
    have hmicros : (ev.settled u x none).quantityMicros = q.micros := by
      rw [LeftEvent.quantityMicros, quantity_eq (e := ev.settled u x none) hq]
      rfl
    have hsum := htotals.meter c hcounter
    have hgroup : meterGroup conn.dayOf (ev.settled u x none) = some c := hc
    rw [Multiset.filter_cons_of_pos (p := fun e => meterGroup conn.dayOf e = some c) _ hgroup,
      Multiset.map_cons, Multiset.sum_cons, Multiset.filter_add, Multiset.map_add,
      Multiset.sum_add, hmicros] at hsum
    have hwaiting : 0 ≤ (((rest.map (foreseen conn s)).filter fun e =>
        meterGroup conn.dayOf e = some c).map LeftEvent.quantityMicros).sum := by
      refine Multiset.sum_nonneg fun m hm => ?_
      obtain ⟨e, he, rfl⟩ := Multiset.mem_map.1 hm
      obtain ⟨hmem, hgroup⟩ := Multiset.mem_filter.1 he
      obtain ⟨d, hdrest, rfl⟩ := Multiset.mem_map.1 hmem
      rw [foreseen_meterGroup] at hgroup
      rw [foreseen_quantityMicros]
      have hdigestible := h.digestible d (hrest ▸ Multiset.mem_cons_of_mem hdrest)
      exact hdigestible.quantityMicros_nonneg (costMeter_of_meterGroup hgroup) _
    have hmeter := h.aggregates.meter c
    rw [hrow] at hmeter
    have hrowsum := ((show MeterOf c.2.1 _ row from hmeter).counter hcounter).1
    exact ⟨h.checked.meter c row hrow, by omega⟩

/-- Where everything that waits fits, the worker's transaction succeeds. -/
theorem Healthy.succeeds (h : Healthy conn s) (hfits : Fits conn s) :
    (processNext conn).Succeeds s := by
  intro n
  unfold processNext
  rw [Txn.eval]
  cases hl : leastRanked acceptedRank s with
  | none => exact ⟨.noEvent, s, n, rfl⟩
  | some e =>
    obtain ⟨k, row⟩ := e
    obtain ⟨hlookup, x, hx, -⟩ := mem_of_leastRanked hl
    cases k with
    | event ws key t =>
      have hrow : (row : EventRow).pipelineStatus = .accepted := by
        by_contra hne
        simp [acceptedRank, hne] at hx
      have hev : (⟨ws, key, t, row⟩ : ClaimedEvent) ∈ queued s := mem_queued.2 ⟨hlookup, hrow⟩
      obtain ⟨u, reason, hidentity⟩ := h.identified _ hev
      have hclaim : SameRoster s (s.insert (.event ws key t) row) :=
        @sameRoster_view [⟨.event ws key t, some row, row⟩] (by simp [RowKey.isRoster]) s
      have hsame : ∀ k, (s.insert (.event ws key t) row).lookup k = s.lookup k := by
        intro k
        rcases eq_or_ne k (.event ws key t) with rfl | hne
        · rw [AList.lookup_insert, hlookup]
        · exact AList.lookup_insert_ne hne
      have hroom := (h.room hfits hev hidentity).congr hsame
      dsimp only
      rw [processEvent_eq, eval_resolveIdentity, hclaim.identityOf, hidentity]
      exact succeeds_settleAndFold (h.digestible _ hev) hroom (AList.lookup_insert s) n
    | _ => simp [acceptedRank] at hx

end TrueFigure.Server
