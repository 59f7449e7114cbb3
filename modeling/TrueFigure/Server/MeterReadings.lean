import Mathlib.Algebra.BigOperators.Group.Finset.Sigma
import TrueFigure.Server.Engine
import TrueFigure.Server.PipelineProgress

/-!
# The readings of the meters

What `_update_aggregates` writes into `meter_usage_daily`, reading by reading: the deltas
of a counter add up in the row of their day, the last reading of a gauge stands. The rows
a pipeline leaves are those of its events, in the order in which they were committed.
-/
namespace TrueFigure.Server

open TrueFigure.Library TrueFigure.Python

/-- A cost meter event, as `meter_usage_daily` takes it. -/
structure Reading where
  deploymentId : ℕ
  meter : MeterType
  meterRef : PyStr
  day : ℤ
  quantity : PyNum

namespace Reading

variable (x : Reading)

/-- The row it goes to. -/
def group : ℕ × MeterType × PyStr × ℤ := (x.deploymentId, x.meter, x.meterRef, x.day)

/-- Its quantity in millionths, as the column holds it. -/
def micros : ℤ :=
  match Numeric.ofNum x.quantity with
  | .ok n => n.micros
  | .error _ => 0

/-- One upsert. -/
def record (s : Db) : Except DbError Db := do
  let row ← upsertMeter x.meter (.num x.quantity) (meterTable s x.group)
  .ok (s.insert (.meterUsage x.deploymentId x.meter x.meterRef x.day) row)

end Reading

/-- The upserts of these readings, in this order. -/
def recordAll : List Reading → Db → Except DbError Db
  | [], s => .ok s
  | x :: xs, s => do
    let s ← x.record s
    recordAll xs s

def recordRow (meter : MeterType) :
    List Reading → Option MeterUsageRow → Except DbError (Option MeterUsageRow)
  | [], row => .ok row
  | x :: xs, row => do
    let row ← upsertMeter meter (.num x.quantity) row
    recordRow meter xs (some row)

def readingsOf (c : ℕ × MeterType × PyStr × ℤ) (xs : List Reading) : List Reading :=
  xs.filter fun x => x.group = c

def MeterUsageRow.gaugeMicros (row : MeterUsageRow) : ℤ := row.gaugeLast.elim 0 Numeric.micros

section Records

variable {x : Reading} {xs ys : List Reading} {s t s' : Db} {c : ℕ × MeterType × PyStr × ℤ}
  {row : MeterUsageRow} {before after : Option MeterUsageRow} {meter : MeterType}

theorem Reading.record_eq_ok (h : x.record s = .ok t) :
    ∃ row, upsertMeter x.meter (.num x.quantity) (meterTable s x.group) = .ok row ∧
      t = s.insert (.meterUsage x.deploymentId x.meter x.meterRef x.day) row := by
  obtain ⟨row, hrow, h⟩ := bind_eq_ok h
  cases h
  exact ⟨row, hrow, rfl⟩

theorem meterTable_insert_self (s : Db) (c : ℕ × MeterType × PyStr × ℤ) (row : MeterUsageRow) :
    meterTable (s.insert (.meterUsage c.1 c.2.1 c.2.2.1 c.2.2.2) row) c = some row :=
  AList.lookup_insert s

theorem meterTable_insert_ne {d : ℕ × MeterType × PyStr × ℤ} (h : d ≠ c) :
    meterTable (s.insert (.meterUsage c.1 c.2.1 c.2.2.1 c.2.2.2) row) d = meterTable s d := by
  refine AList.lookup_insert_ne fun hkey => h ?_
  simp only [RowKey.meterUsage.injEq] at hkey
  exact Prod.ext hkey.1 (Prod.ext hkey.2.1 (Prod.ext hkey.2.2.1 hkey.2.2.2))

theorem recordRow_of_recordAll (h : recordAll xs s = .ok t) :
    recordRow c.2.1 (readingsOf c xs) (meterTable s c) = .ok (meterTable t c) := by
  induction xs generalizing s with
  | nil =>
    cases h
    rfl
  | cons x xs ih =>
    obtain ⟨s', hrecord, h⟩ := bind_eq_ok h
    obtain ⟨row, hrow, rfl⟩ := Reading.record_eq_ok hrecord
    have hrest := ih h
    by_cases hc : x.group = c
    · subst hc
      rw [readingsOf, List.filter_cons_of_pos (by simp)]
      rw [show meterTable (s.insert (.meterUsage x.deploymentId x.meter x.meterRef x.day) row)
        x.group = some row from meterTable_insert_self s x.group row] at hrest
      simp only [recordRow, show x.group.2.1 = x.meter from rfl, hrow, bind, Except.bind]
      exact hrest
    · rw [readingsOf, List.filter_cons_of_neg (by simpa using hc)]
      rw [show meterTable (s.insert (.meterUsage x.deploymentId x.meter x.meterRef x.day) row)
        c = meterTable s c from meterTable_insert_ne (Ne.symm hc)] at hrest
      exact hrest

theorem recordAll_append :
    recordAll (xs ++ ys) s = (recordAll xs s).bind (recordAll ys) := by
  induction xs generalizing s with
  | nil => rfl
  | cons x xs ih =>
    rw [List.cons_append, recordAll, recordAll]
    cases x.record s with
    | error e => rfl
    | ok s' => exact ih

theorem quantityParam_num {q : PyNum} {n : Option Numeric}
    (h : quantityParam (.num q) = .ok n) : ∃ m, n = some m ∧ Numeric.ofNum q = .ok m := by
  cases hq : Numeric.ofNum q with
  | error e => simp [quantityParam, hq, Except.map] at h
  | ok m =>
    simp only [quantityParam, hq, Except.map, Except.ok.injEq] at h
    exact ⟨m, h.symm, rfl⟩

theorem Reading.micros_eq {n : Numeric} (h : Numeric.ofNum x.quantity = .ok n) :
    x.micros = n.micros := by
  simp only [Reading.micros, h]

/-- A gauge's row reads what was written last. -/
theorem upsertMeter_gauge (hmeter : meter.isGauge = true)
    (h : upsertMeter meter (.num x.quantity) before = .ok row) :
    ∃ n, row.gaugeLast = some n ∧ n.micros = x.micros ∧ 0 ≤ x.micros := by
  rw [upsertMeter, if_pos hmeter] at h
  obtain ⟨reading, hreading, h⟩ := bind_eq_ok h
  obtain ⟨checked, hchecked, h⟩ := bind_eq_ok h
  obtain ⟨n, rfl, hn⟩ := quantityParam_num hreading
  obtain rfl := mapM_checkQuantity hchecked
  have hnonneg : 0 ≤ n.micros := by
    cases hq : checkQuantity n with
    | error e => simp [hq, Functor.map, Except.map] at hchecked
    | ok m => exact checkQuantity_eq_ok hq ▸ nonneg_of_checkQuantity hq
  rw [Reading.micros_eq hn]
  cases before with
  | none =>
    cases h
    exact ⟨n, rfl, rfl, hnonneg⟩
  | some old =>
    cases h
    exact ⟨n, rfl, rfl, hnonneg⟩

theorem upsertMeter_counter (hmeter : meter.isGauge = false)
    (h : upsertMeter meter (.num x.quantity) before = .ok row) :
    row.quantitySum.micros =
      (before.elim 0 fun old => old.quantitySum.micros) + x.micros := by
  rw [upsertMeter, if_neg (by simp [hmeter])] at h
  obtain ⟨delta, hdelta, h⟩ := bind_eq_ok h
  obtain ⟨n, rfl, hn⟩ := quantityParam_num hdelta
  dsimp only at h
  obtain ⟨checked, hchecked, h⟩ := bind_eq_ok h
  rw [Reading.micros_eq hn, ← checkQuantity_eq_ok hchecked]
  cases before with
  | none =>
    cases h
    exact (zero_add _).symm
  | some old =>
    dsimp only at h
    obtain ⟨total, htotal, h⟩ := bind_eq_ok h
    obtain ⟨total', htotal', h⟩ := bind_eq_ok h
    cases h
    rw [checkQuantity_eq_ok htotal', Numeric.add_eq_ok htotal]
    rfl

/-- A row there is after readings into it is there for one of them, or was there. -/
theorem isSome_of_recordRow (h : recordRow meter xs before = .ok after) :
    after.isSome = true ↔ before.isSome = true ∨ xs ≠ [] := by
  induction xs generalizing before with
  | nil =>
    cases h
    simp
  | cons x xs ih =>
    obtain ⟨row, -, h⟩ := bind_eq_ok h
    simp [ih h]

theorem gauge_of_recordRow (hmeter : meter.isGauge = true)
    (h : recordRow meter xs before = .ok after) (hne : xs ≠ []) :
    ∃ row n, after = some row ∧ row.gaugeLast = some n ∧
      n.micros = xs.getLast?.elim 0 Reading.micros ∧ 0 ≤ n.micros := by
  induction xs generalizing before with
  | nil => exact absurd rfl hne
  | cons x xs ih =>
    obtain ⟨row, hrow, h⟩ := bind_eq_ok h
    cases xs with
    | nil =>
      cases h
      obtain ⟨n, hlast, hn, hnonneg⟩ := upsertMeter_gauge hmeter hrow
      exact ⟨row, n, rfl, hlast, hn, hn ▸ hnonneg⟩
    | cons y ys =>
      rw [List.getLast?_cons_cons]
      exact ih h (List.cons_ne_nil y ys)

end Records

/-! ### The rows of a period -/

/-- It is a reading of this meter in this period. -/
def Reading.Within (x : Reading) (deploymentId : ℕ) (meter : MeterType) (bounds : ℤ × ℤ) : Prop :=
  x.deploymentId = deploymentId ∧ x.meter = meter ∧ Between bounds x.day

instance (x : Reading) (deploymentId : ℕ) (meter : MeterType) (bounds : ℤ × ℤ) :
    Decidable (x.Within deploymentId meter bounds) := inferInstanceAs (Decidable (_ ∧ _))

section Buckets

variable {M : Type} [AddCommMonoid M] (deploymentId : ℕ) (meter : MeterType) (bounds : ℤ × ℤ)

def daysOf : Finset ℤ :=
  ((List.range (bounds.2 + 1 - bounds.1).toNat).map fun n : ℕ => bounds.1 + n).toFinset

/-- What a row of `meter_usage_daily` adds to a sum over those of a period. -/
def ofBucket (f : PyStr → MeterUsageRow → M) : Sigma Row → M
  | ⟨.meterUsage d m ref day, row⟩ =>
    if d = deploymentId ∧ m = meter ∧ Between bounds day then f ref row else 0
  | _ => 0

/-- A sum over the rows of a meter in a period. -/
def sumBuckets (s : Db) (f : PyStr → MeterUsageRow → M) : M :=
  tally (ofBucket deploymentId meter bounds f) s

variable {deploymentId meter bounds} {s t : Db} {xs : List Reading} {f : PyStr → MeterUsageRow → M}
  {x : Reading} {row : MeterUsageRow}

theorem mem_daysOf {day : ℤ} : day ∈ daysOf bounds ↔ Between bounds day := by
  simp only [daysOf, List.mem_toFinset, List.mem_map, List.mem_range, Between]
  constructor
  · rintro ⟨n, hn, rfl⟩
    omega
  · rintro ⟨hfirst, hlast⟩
    exact ⟨(day - bounds.1).toNat, by omega, by omega⟩

theorem ofBucket_eq_zero {k : RowKey} (hk : ∀ ref day, Between bounds day →
    k ≠ .meterUsage deploymentId meter ref day) (r : Row k) :
    ofBucket deploymentId meter bounds f ⟨k, r⟩ = 0 := by
  cases k with
  | meterUsage d m ref day =>
    refine if_neg ?_
    rintro ⟨rfl, rfl, hday⟩
    exact hk ref day hday rfl
  | _ => rfl

theorem ofBucket_within {ref : PyStr} {day : ℤ} (hday : Between bounds day) :
    ofBucket deploymentId meter bounds f ⟨.meterUsage deploymentId meter ref day, row⟩ =
      f ref row := if_pos ⟨rfl, rfl, hday⟩

theorem elim_ofBucket_eq_zero {k : RowKey} (hk : ∀ ref day, Between bounds day →
    k ≠ .meterUsage deploymentId meter ref day) :
    ((s.lookup k).elim 0 fun r => ofBucket deploymentId meter bounds f ⟨k, r⟩) = 0 := by
  cases s.lookup k with
  | none => rfl
  | some r => exact ofBucket_eq_zero hk r

theorem elim_ofBucket {ref : PyStr} {day : ℤ} (hday : Between bounds day) :
    ((s.lookup (.meterUsage deploymentId meter ref day)).elim 0 fun r =>
      ofBucket deploymentId meter bounds f ⟨.meterUsage deploymentId meter ref day, r⟩) =
      (meterTable s (deploymentId, meter, ref, day)).elim 0 (f ref) := by
  simp only [ofBucket_within hday]
  rfl

theorem meterRows_eq : meterRows s deploymentId bounds meter =
    sumBuckets deploymentId meter bounds s fun _ row => {row} := by
  have hrow : meterRowOf deploymentId bounds meter =
      ofBucket deploymentId meter bounds fun _ row => {row} := by
    funext ⟨k, r⟩
    cases k <;> rfl
  rw [meterRows, hrow, sumBuckets]

/-- A sum over the rows is one over the sub-meters and the days. -/
theorem sumBuckets_eq_sum {R : Finset PyStr} (hR : ∀ ref day,
    meterTable s (deploymentId, meter, ref, day) ≠ none → ref ∈ R) :
    sumBuckets deploymentId meter bounds s f = ∑ ref ∈ R, ∑ day ∈ daysOf bounds,
      (meterTable s (deploymentId, meter, ref, day)).elim 0 (f ref) := by
  let key : PyStr × ℤ → RowKey := fun p => .meterUsage deploymentId meter p.1 p.2
  have hinj : Function.Injective key := by
    rintro ⟨ref, day⟩ ⟨ref', day'⟩ hkey
    obtain ⟨-, -, rfl, rfl⟩ := RowKey.meterUsage.inj hkey
    rfl
  let K := (R ×ˢ daysOf bounds).image key
  have hvanish : ∀ k ∈ s.keys.toFinset ∪ K, k ∉ K →
      ((s.lookup k).elim 0 fun r => ofBucket deploymentId meter bounds f ⟨k, r⟩) = 0 := by
    intro k _ hk
    by_cases hin : ∃ ref day, Between bounds day ∧ k = .meterUsage deploymentId meter ref day
    · obtain ⟨ref, day, hday, rfl⟩ := hin
      rw [elim_ofBucket hday]
      cases hrow : meterTable s (deploymentId, meter, ref, day) with
      | none => rfl
      | some row =>
        have hmem := hR ref day (by rw [hrow]; exact Option.some_ne_none row)
        exact absurd (Finset.mem_image.2 ⟨(ref, day),
          Finset.mem_product.2 ⟨hmem, mem_daysOf.2 hday⟩, rfl⟩) hk
    · push Not at hin
      exact elim_ofBucket_eq_zero hin
  rw [sumBuckets, tally_eq_sum _ Finset.subset_union_left,
    ← Finset.sum_subset Finset.subset_union_right hvanish, Finset.sum_image (fun _ _ _ _ h => hinj h),
    Finset.sum_product]
  refine Finset.sum_congr rfl fun ref _ => Finset.sum_congr rfl fun day hday => ?_
  exact elim_ofBucket (mem_daysOf.1 hday)

theorem sum_meterRows (g : MeterUsageRow → M) :
    ((meterRows s deploymentId bounds meter).map g).sum =
      sumBuckets deploymentId meter bounds s fun _ row => g row := by
  let φ : Multiset MeterUsageRow →+ M :=
    Multiset.sumAddMonoidHom.comp (Multiset.mapAddMonoidHom g)
  have hφ : ∀ x, φ (ofBucket deploymentId meter bounds (fun _ row => {row}) x) =
      ofBucket deploymentId meter bounds (fun _ row => g row) x := by
    rintro ⟨k, r⟩
    cases k with
    | meterUsage d m ref day =>
      simp only [ofBucket]
      split_ifs
      · exact Multiset.sum_singleton _
      · rfl
    | _ => rfl
  rw [meterRows_eq]
  exact (map_tally φ _ s).trans (congrArg (tally · s) (funext hφ))

theorem sumBuckets_congr (h : ∀ ref day, meterTable s (deploymentId, meter, ref, day) =
    meterTable t (deploymentId, meter, ref, day)) :
    sumBuckets deploymentId meter bounds s f = sumBuckets deploymentId meter bounds t f := by
  refine tally_congr _ fun k => ?_
  by_cases hk : ∃ ref day, Between bounds day ∧ k = .meterUsage deploymentId meter ref day
  · obtain ⟨ref, day, hday, rfl⟩ := hk
    rw [elim_ofBucket hday, elim_ofBucket hday, h]
  · push Not at hk
    rw [elim_ofBucket_eq_zero hk, elim_ofBucket_eq_zero hk]

theorem meterRows_ne_zero_iff : meterRows s deploymentId bounds meter ≠ 0 ↔
    ∃ ref day, Between bounds day ∧ (meterTable s (deploymentId, meter, ref, day)).isSome := by
  rw [meterRows_eq]
  constructor
  · intro hne
    obtain ⟨row, hrow⟩ := Multiset.exists_mem_of_ne_zero hne
    obtain ⟨k, r, hk, hmem⟩ := mem_tally.1 hrow
    by_cases hin : ∃ ref day, Between bounds day ∧ k = .meterUsage deploymentId meter ref day
    · obtain ⟨ref, day, hday, rfl⟩ := hin
      exact ⟨ref, day, hday, Option.isSome_iff_exists.2 ⟨r, hk⟩⟩
    · push Not at hin
      rw [ofBucket_eq_zero hin] at hmem
      cases hmem
  · rintro ⟨ref, day, hday, hsome⟩ hzero
    obtain ⟨row, hrow⟩ := Option.isSome_iff_exists.1 hsome
    have hmem : row ∈ @sumBuckets (Multiset MeterUsageRow) _ deploymentId meter bounds s
        fun _ row => {row} := by
      refine mem_tally.2 ⟨.meterUsage deploymentId meter ref day, row, hrow, ?_⟩
      rw [ofBucket_within hday]
      exact Multiset.mem_singleton_self row
    rw [hzero] at hmem
    cases hmem

theorem meterRows_of_recordAll (hempty : ∀ ref day,
    meterTable s (deploymentId, meter, ref, day) = none) (h : recordAll xs s = .ok t) :
    meterRows t deploymentId bounds meter ≠ 0 ↔ ∃ x ∈ xs, x.Within deploymentId meter bounds := by
  rw [meterRows_ne_zero_iff]
  have hsome : ∀ ref day, (meterTable t (deploymentId, meter, ref, day)).isSome = true ↔
      ∃ x ∈ xs, x.group = (deploymentId, meter, ref, day) := by
    intro ref day
    have hrow := recordRow_of_recordAll (c := (deploymentId, meter, ref, day)) h
    rw [hempty] at hrow
    rw [isSome_of_recordRow hrow]
    simp [readingsOf]
  constructor
  · rintro ⟨ref, day, hday, hmem⟩
    obtain ⟨x, hx, hgroup⟩ := (hsome ref day).1 hmem
    simp only [Reading.group, Prod.mk.injEq] at hgroup
    obtain ⟨hdep, hmeter, -, hd⟩ := hgroup
    exact ⟨x, hx, hdep, hmeter, hd ▸ hday⟩
  · rintro ⟨x, hx, hdep, hmeter, hday⟩
    exact ⟨x.meterRef, x.day, hday, (hsome _ _).2 ⟨x, hx, by rw [Reading.group, hdep, hmeter]⟩⟩

theorem sumBuckets_record (hmeter : meter.isGauge = false) (h : x.record s = .ok t) :
    sumBuckets deploymentId meter bounds t (fun _ row => row.quantitySum.micros) =
      (if x.Within deploymentId meter bounds then x.micros else 0) +
        sumBuckets deploymentId meter bounds s fun _ row => row.quantitySum.micros := by
  obtain ⟨row, hrow, rfl⟩ := Reading.record_eq_ok h
  unfold sumBuckets
  by_cases hin : x.Within deploymentId meter bounds
  · obtain ⟨rfl, rfl, hday⟩ := id hin
    have hsum := upsertMeter_counter hmeter hrow
    change _ = ((s.lookup (.meterUsage x.deploymentId x.meter x.meterRef x.day)).elim 0 _) + _ at hsum
    cases hold : s.lookup (.meterUsage x.deploymentId x.meter x.meterRef x.day) with
    | none =>
      rw [hold] at hsum
      rw [tally_insert_new _ _ hold, ofBucket_within hday, if_pos hin, hsum]
      exact congrArg (· + _) (zero_add _)
    | some old =>
      rw [hold] at hsum
      have hinsert := tally_insert (ofBucket x.deploymentId x.meter bounds
        fun _ row => row.quantitySum.micros) row hold
      rw [ofBucket_within hday, ofBucket_within hday, hsum] at hinsert
      rw [if_pos hin]
      dsimp only [Option.elim_some] at hinsert
      linarith
  · have hkey : ∀ ref day, Between bounds day →
        RowKey.meterUsage x.deploymentId x.meter x.meterRef x.day ≠
          .meterUsage deploymentId meter ref day := by
      rintro ref day hday hkey
      obtain ⟨hdep, hm, -, rfl⟩ := RowKey.meterUsage.inj hkey
      exact hin ⟨hdep, hm, hday⟩
    rw [if_neg hin, zero_add]
    exact tally_insert_same _ (fun _ _ => ofBucket_eq_zero hkey _) (ofBucket_eq_zero hkey _)

/-- A counter's rows hold the deltas of the period. -/
theorem sumBuckets_counter (hmeter : meter.isGauge = false) (h : recordAll xs s = .ok t) :
    sumBuckets deploymentId meter bounds t (fun _ row => row.quantitySum.micros) =
      ((xs.filter fun x => x.Within deploymentId meter bounds).map Reading.micros).sum +
        sumBuckets deploymentId meter bounds s fun _ row => row.quantitySum.micros := by
  induction xs generalizing s with
  | nil =>
    cases h
    exact (zero_add _).symm
  | cons x xs ih =>
    obtain ⟨s', hrecord, h⟩ := bind_eq_ok h
    rw [ih h, sumBuckets_record hmeter hrecord]
    by_cases hin : x.Within deploymentId meter bounds
    · rw [if_pos hin, List.filter_cons_of_pos (by simpa using hin), List.map_cons, List.sum_cons]
      ring
    · rw [if_neg hin, List.filter_cons_of_neg (by simpa using hin), zero_add]

end Buckets

/-! ### The readings of a pipeline -/

/-- The reading an event brings, if it is a cost meter whose quantity is a number. -/
def readingOf (dayOf : ℤ → ℤ) (e : LeftEvent) : Option Reading :=
  match meterGroup dayOf e, e.row.payload.getD (py "quantity") (.num (.int 0)) with
  | some c, .num q => some ⟨c.1, c.2.1, c.2.2.1, c.2.2.2, q⟩
  | _, _ => none

/-- The payload schema admits numbers only. -/
def Quantified (e : LeftEvent) : Prop :=
  e.row.eventType = .costMeter →
    ∃ q, e.row.payload.getD (py "quantity") (.num (.int 0)) = .num q

/-- The rows of `meter_usage_daily` are those of the readings, in some order. -/
def Replayed (dayOf : ℤ → ℤ) (s : Db) : Prop :=
  ∃ xs : List LeftEvent, (xs : Multiset LeftEvent) = leftEvents s ∧
    ((∀ e ∈ xs, Quantified e) →
      ∃ t, recordAll (xs.filterMap (readingOf dayOf)) ∅ = .ok t ∧ meterTable t = meterTable s)

section Replay

variable {conn : Connection} {ev : ClaimedEvent} {u : Option ℕ} {x : Option ExclusionReason}
  {w : Option ℕ} {s s' : Db}

theorem eventType_of_meterGroup {dayOf : ℤ → ℤ} {e : LeftEvent} {c : ℕ × MeterType × PyStr × ℤ}
    (h : meterGroup dayOf e = some c) : e.row.eventType = .costMeter := by
  unfold meterGroup at h
  split_ifs at h with hcost
  exact hcost

/-- The event of a transaction is recorded after those before it. -/
theorem Effect.replayed (h : Effect conn ev u x w s s') (hs : Replayed conn.dayOf s) :
    Replayed conn.dayOf s' := by
  obtain ⟨xs, hxs, hreplay⟩ := hs
  refine ⟨xs ++ [ev.settled u x w], ?_, fun hquantified => ?_⟩
  · rw [h.left, ← hxs, ← Multiset.coe_add, Multiset.coe_singleton, add_comm,
      Multiset.singleton_add]
  obtain ⟨t, hrecord, htable⟩ := hreplay fun e he => hquantified e (List.mem_append_left _ he)
  rw [List.filterMap_append, recordAll_append, hrecord]
  cases hgroup : meterGroup conn.dayOf (ev.settled u x w) with
  | none =>
    have hnone : readingOf conn.dayOf (ev.settled u x w) = none := by
      simp only [readingOf, hgroup]
    rw [List.filterMap_cons_none hnone]
    refine ⟨t, rfl, htable.trans ?_⟩
    funext c
    exact (h.meterTable_eq (by simp [hgroup])).symm
  | some c =>
    obtain ⟨q, hq⟩ := hquantified (ev.settled u x w)
      (List.mem_append_right _ (List.mem_singleton_self _)) (eventType_of_meterGroup hgroup)
    obtain ⟨row, hrow, hupsert, -⟩ := h.meter c hgroup
    have hreading : readingOf conn.dayOf (ev.settled u x w) =
        some ⟨c.1, c.2.1, c.2.2.1, c.2.2.2, q⟩ := by
      simp only [readingOf, hgroup, hq]
    rw [show ev.row.payload.getD (py "quantity") (.num (.int 0)) = .num q from hq, ← htable]
      at hupsert
    rw [List.filterMap_cons_some hreading]
    refine ⟨t.insert (.meterUsage c.1 c.2.1 c.2.2.1 c.2.2.2) row, ?_, ?_⟩
    · simp only [List.filterMap_nil, recordAll, Reading.record, Reading.group, hupsert, bind,
        Except.bind]
    · funext d
      by_cases hd : d = c
      · rw [hd, meterTable_insert_self, hrow]
      · rw [meterTable_insert_ne hd, htable]
        refine (h.meterTable_eq ?_).symm
        rw [hgroup]
        exact fun heq => hd (Option.some.inj heq).symm

theorem processNext_preserves_replayed : Preserves (Replayed conn.dayOf) (processNext conn) := by
  intro log a s h hlog hs
  rcases runs_processNext h with rfl | ⟨ev, u, x, w, hevent⟩
  · exact hs
  · exact (hevent.effect hlog).replayed hs

theorem arrives_preserves_replayed {dayOf : ℤ → ℤ} {body : Transaction} (h : Arrives body) :
    Preserves (Replayed dayOf) body := by
  intro log a s hruns hlog hs
  obtain ⟨hleft, hmeter⟩ := arrives_same h hruns hlog
  show Replayed dayOf (view log s)
  rw [Replayed, hleft, hmeter]
  exact hs

theorem replayed_of_unprocessed {dayOf : ℤ → ℤ} (h : Unprocessed s) : Replayed dayOf s := by
  refine ⟨[], (leftEvents_eq_zero h).symm, fun _ => ⟨∅, rfl, ?_⟩⟩
  funext c
  exact (h.meter c).symm

/-- Any number of workers with any limits, among any arrivals, with any transaction
aborted anywhere: the rows of the meters are those of their readings. -/
theorem replayed_reachable {ι : Type} [DecidableEq ι] {dayOf : ℤ → ℤ}
    {w w' : World ι Row Failure Reply Outcome} (hstart : Unprocessed w.committed)
    (hparties : ∀ i, ∃ p : Process, w.stations i = .resting p ∧
      ((∃ conn limit, conn.dayOf = dayOf ∧ p = runPipeline conn limit) ∨ p.All Arrives))
    (hreach : Reachable (fun _ => True) w w') : Replayed dayOf w'.committed := by
  refine committed_invariant (replayed_of_unprocessed hstart) (fun i => ?_) hreach
  obtain ⟨p, hp, ⟨conn, limit, rfl, rfl⟩ | harrives⟩ := hparties i
  · exact ⟨_, hp, runPipelineFrom_all processNext_preserves_replayed limit _⟩
  · exact ⟨p, hp, Proc.All.mono (fun _ => arrives_preserves_replayed) harrives⟩

end Replay

end TrueFigure.Server
