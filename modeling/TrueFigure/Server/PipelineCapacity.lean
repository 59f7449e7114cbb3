import TrueFigure.Server.PipelineEvaluation
import TrueFigure.Server.StoredEvents

/-!
# What the aggregate columns can hold

The worker stops at an event its upserts cannot store: a quantity too large for
its column, a total that grows too large, a reference too long for its index.
`Fits` says that no waiting event is one. It holds before a transaction of the
worker exactly when the transaction succeeds and it holds afterwards.
-/
namespace TrueFigure.Server

open TrueFigure.Library TrueFigure.Python

variable {conn : Connection} {s s' : Db} {ev : ClaimedEvent}

/-! ### Waiting events -/

/-- The event of a row that waits for the pipeline. -/
def queuedOf : Sigma Row → Multiset ClaimedEvent
  | ⟨.event ws key t, row⟩ =>
    if (row : EventRow).pipelineStatus = .accepted then {⟨ws, key, t, row⟩} else 0
  | _ => 0

/-- The events that wait for the pipeline. -/
def queued (s : Db) : Multiset ClaimedEvent := tally queuedOf s

theorem mem_queued {ev : ClaimedEvent} :
    ev ∈ queued s ↔ s.lookup ev.rowKey = some ev.row ∧ ev.row.pipelineStatus = .accepted := by
  rw [queued, mem_tally]
  constructor
  · rintro ⟨k, r, hk, he⟩
    cases k with
    | event ws key t =>
      by_cases hr : (r : EventRow).pipelineStatus = .accepted
      · rw [queuedOf, if_pos hr, Multiset.mem_singleton] at he
        subst he
        exact ⟨hk, hr⟩
      · rw [queuedOf, if_neg hr] at he
        cases he
    | _ => cases he
  · rintro ⟨hlookup, haccepted⟩
    refine ⟨ev.rowKey, ev.row, hlookup, ?_⟩
    rw [queuedOf, if_pos haccepted]
    exact Multiset.mem_singleton_self _

theorem drained_iff_queued : Drained s ↔ queued s = 0 := by
  constructor
  · intro h
    refine Multiset.eq_zero_of_forall_notMem fun ev hev => ?_
    obtain ⟨hlookup, haccepted⟩ := mem_queued.1 hev
    exact h _ _ _ _ hlookup haccepted
  · intro h ws key t row hlookup haccepted
    have hmem : (⟨ws, key, t, row⟩ : ClaimedEvent) ∈ queued s := mem_queued.2 ⟨hlookup, haccepted⟩
    rw [h] at hmem
    exact Multiset.notMem_zero _ hmem

/-- The event as it leaves `accepted`, its work item aside. -/
def foreseen (conn : Connection) (s : Db) (ev : ClaimedEvent) : LeftEvent :=
  match identityOf conn s ev with
  | .ok (u, x) => ev.settled u x none
  | .error _ => ⟨ev.occurredAt, ev.row⟩

/-- The events that have left `accepted` once nothing waits. -/
def expected (conn : Connection) (s : Db) : Multiset LeftEvent :=
  leftEvents s + (queued s).map (foreseen conn s)

theorem foreseen_congr (h : SameRoster s s') (ev : ClaimedEvent) :
    foreseen conn s' ev = foreseen conn s ev := by
  rw [foreseen, h.identityOf, foreseen]

/-- A transaction of the worker takes its event from the waiting ones. -/
theorem Effect.queued {u : Option ℕ} {x : Option ExclusionReason} {w : Option ℕ}
    (h : Effect conn ev u x w s s') : queued s = ev ::ₘ queued s' := by
  have hbefore : queuedOf ⟨ev.rowKey, ev.row⟩ = {ev} := if_pos h.accepted
  have hafter : queuedOf ⟨ev.rowKey, (ev.settled u x w).row⟩ = 0 :=
    if_neg (settledStatus_ne_accepted x w)
  have hothers : tally queuedOf (s.erase ev.rowKey) = tally queuedOf (s'.erase ev.rowKey) := by
    refine tally_congr queuedOf fun k => ?_
    rcases eq_or_ne k ev.rowKey with rfl | hne
    · rw [AList.lookup_erase, AList.lookup_erase]
    rw [AList.lookup_erase_ne hne, AList.lookup_erase_ne hne]
    cases k with
    | event ws key t => rw [h.others _ hne (by simp) (by simp) (by simp) (by simp)]
    | _ =>
      cases s.lookup _ <;> cases s'.lookup _ <;> rfl
  calc Server.queued s
    _ = {ev} + tally queuedOf (s.erase ev.rowKey) := by
      rw [Server.queued, tally_erase queuedOf h.stored, hbefore]
    _ = {ev} + tally queuedOf (s'.erase ev.rowKey) := by rw [hothers]
    _ = ev ::ₘ Server.queued s' := by
      rw [Server.queued, tally_erase queuedOf h.settled, hafter, zero_add,
        Multiset.singleton_add]

theorem Processes.expected (h : Processes conn ev s s') :
    ∃ u x w rest, identityOf conn s ev = .ok (u, x) ∧
      Server.expected conn s = ev.settled u x none ::ₘ rest ∧
      Server.expected conn s' = ev.settled u x w ::ₘ rest := by
  obtain ⟨hroster, -, u, x, w, hidentity, heffect⟩ := h
  refine ⟨u, x, w, leftEvents s + (queued s').map (foreseen conn s), hidentity, ?_, ?_⟩
  · have hforeseen : foreseen conn s ev = ev.settled u x none := by rw [foreseen, hidentity]
    rw [Server.expected, heffect.queued, Multiset.map_cons, hforeseen, Multiset.add_cons]
  · rw [Server.expected, heffect.left, Multiset.cons_add,
      Multiset.map_congr rfl fun ev _ => foreseen_congr hroster ev]

/-! ### Totals -/

/-- The bigints, the integer and the sum the totals of these events fit in. -/
structure TotalsFit (dayOf : ℤ → ℤ) (P : Multiset LeftEvent) : Prop where
  stats : ∀ c, Multiset.card (P.filter fun e => statsGroup dayOf e = some c) ≤ bigintMax
  activity : ∀ c, Multiset.card (P.filter fun e => activityGroup dayOf e = some c) ≤ integerMax
  meter : ∀ c, c.2.1.isGauge = false →
    ((P.filter fun e => meterGroup dayOf e = some c).map LeftEvent.quantityMicros).sum < 10 ^ 20

theorem filter_cons_map {α β γ : Type} [DecidableEq γ] {g : α → γ} {q : α → β} {a b : α} {c : γ}
    {P : Multiset α} (hg : g a = g b) (hq : q a = q b) :
    ((a ::ₘ P).filter fun e => g e = c).map q = ((b ::ₘ P).filter fun e => g e = c).map q := by
  by_cases hc : g b = c
  · rw [Multiset.filter_cons_of_pos (p := fun e => g e = c) P (hg.trans hc),
      Multiset.filter_cons_of_pos (p := fun e => g e = c) P hc, Multiset.map_cons,
      Multiset.map_cons, hq]
  · rw [Multiset.filter_cons_of_neg (p := fun e => g e = c) P fun h => hc (hg.symm.trans h),
      Multiset.filter_cons_of_neg (p := fun e => g e = c) P hc]

theorem card_filter_cons {α γ : Type} [DecidableEq γ] {g : α → γ} {a b : α} {c : γ}
    {P : Multiset α} (hg : g a = g b) :
    Multiset.card ((a ::ₘ P).filter fun e => g e = c) =
      Multiset.card ((b ::ₘ P).filter fun e => g e = c) := by
  have h := congrArg Multiset.card
    (@filter_cons_map α Unit γ _ g (fun _ => ()) a b c P hg rfl)
  rwa [Multiset.card_map, Multiset.card_map] at h

theorem totalsFit_settled {dayOf : ℤ → ℤ} {u : Option ℕ} {x : Option ExclusionReason}
    {w w' : Option ℕ} {P : Multiset LeftEvent} :
    TotalsFit dayOf (ev.settled u x w ::ₘ P) → TotalsFit dayOf (ev.settled u x w' ::ₘ P) := by
  intro h
  constructor
  · intro c
    rw [card_filter_cons (g := statsGroup dayOf) (a := ev.settled u x w') (b := ev.settled u x w) rfl]
    exact h.stats c
  · intro c
    rw [card_filter_cons (g := activityGroup dayOf) (a := ev.settled u x w') (b := ev.settled u x w) rfl]
    exact h.activity c
  · intro c hc
    rw [filter_cons_map (g := meterGroup dayOf) (a := ev.settled u x w') (b := ev.settled u x w) rfl rfl]
    exact h.meter c hc

theorem Processes.totalsFit_iff (h : Processes conn ev s s') :
    TotalsFit conn.dayOf (Server.expected conn s) ↔
      TotalsFit conn.dayOf (Server.expected conn s') := by
  obtain ⟨u, x, w, rest, -, hbefore, hafter⟩ := h.expected
  rw [hbefore, hafter]
  exact ⟨totalsFit_settled, totalsFit_settled⟩

/-! ### Rows -/

/-- The rows of an event alone: its quantity fits its column, and where its work
item or its bucket is new, the index takes the reference. -/
structure Storable (conn : Connection) (s : Db) (ev : ClaimedEvent) : Prop where
  quantity : ev.row.eventType = .costMeter →
    ∃ q, quantityParam (ev.row.payload.getD (py "quantity") (.num (.int 0))) = .ok q
  bucket : ∀ c, meterGroup conn.dayOf ⟨ev.occurredAt, ev.row⟩ = some c → meterTable s c = none →
    conn.indexable (.meterUsage c.1 c.2.1 c.2.2.1 c.2.2.2) = true
  workItem : ev.row.eventType.itemBearing = true → ∀ ref, ev.get (py "work_item_id") = .str ref →
    ref ≠ [] → s.lookup (.workItem ev.workspaceId ref) = none →
      conn.indexable (.workItem ev.workspaceId ref) = true

/-- No waiting event is one the worker stops at. -/
structure Fits (conn : Connection) (s : Db) : Prop where
  storable : ∀ ev ∈ queued s, Storable conn s ev
  totals : TotalsFit conn.dayOf (expected conn s)

theorem quantityParam_of_upsertMeter {meter : MeterType} {qty : Json}
    {before : Option MeterUsageRow} {row : MeterUsageRow}
    (h : upsertMeter meter qty before = .ok row) : ∃ q, quantityParam qty = .ok q := by
  unfold upsertMeter at h
  split_ifs at h
  · obtain ⟨q, hq, -⟩ := bind_eq_ok h
    exact ⟨q, hq⟩
  · obtain ⟨q, hq, -⟩ := bind_eq_ok h
    exact ⟨q, hq⟩

theorem Effect.storable {u : Option ℕ} {x : Option ExclusionReason} {w : Option ℕ}
    (h : Effect conn ev u x w s s') : Storable conn s ev := by
  constructor
  · intro hcost
    obtain ⟨c, hc⟩ := h.metered hcost
    obtain ⟨row, -, hu, -⟩ := h.meter c hc
    exact quantityParam_of_upsertMeter hu
  · intro c hc hnone
    obtain ⟨row, -, -, hfits⟩ := h.meter c hc
    exact hfits hnone
  · intro hbearing ref href hne hnone
    have htruthy : (ev.get (py "work_item_id")).truthy = true := by
      rw [href]
      cases ref with
      | nil => exact absurd rfl hne
      | cons => rfl
    obtain ⟨ref', href', hsome⟩ := h.joined hbearing htruthy
    obtain rfl : ref = ref' := Json.str.inj (href.symm.trans href')
    exact h.newItem _ _ hnone hsome

/-- An event is storable after a transaction of the worker exactly when it was
before: the rows the transaction adds have passed their indexes. -/
theorem Effect.storable_iff {u : Option ℕ} {x : Option ExclusionReason} {w : Option ℕ}
    (h : Effect conn ev u x w s s') (hkept : ∀ k, s'.lookup k = none → s.lookup k = none)
    {d : ClaimedEvent} : Storable conn s d ↔ Storable conn s' d := by
  constructor
  · intro hd
    exact ⟨hd.quantity, fun c hc hnone => hd.bucket c hc (hkept _ hnone),
      fun hbearing ref href hne hnone => hd.workItem hbearing ref href hne (hkept _ hnone)⟩
  · intro hd
    refine ⟨hd.quantity, fun c hc hnone => ?_, fun hbearing ref href hne hnone => ?_⟩
    · by_cases hc' : meterGroup conn.dayOf (ev.settled u x w) = some c
      · obtain ⟨row, -, -, hfits⟩ := h.meter c hc'
        exact hfits hnone
      · exact hd.bucket c hc ((h.meterTable_eq hc').trans hnone)
    · by_cases hnone' : s'.lookup (.workItem d.workspaceId ref) = none
      · exact hd.workItem hbearing ref href hne hnone'
      · exact h.newItem _ _ hnone hnone'

/-- What fits after an event has been processed is what fitted before. -/
theorem Processes.fits_iff (h : Processes conn ev s s') : Fits conn s ↔ Fits conn s' := by
  have htotals := h.totalsFit_iff
  obtain ⟨-, hkept, u, x, w, -, heffect⟩ := h
  have hqueued := heffect.queued
  constructor
  · intro hfits
    refine ⟨fun d hd => ?_, htotals.1 hfits.totals⟩
    exact (heffect.storable_iff hkept).1 (hfits.storable d (hqueued ▸ Multiset.mem_cons_of_mem hd))
  · intro hfits
    refine ⟨fun d hd => ?_, htotals.2 hfits.totals⟩
    rw [hqueued] at hd
    rcases Multiset.mem_cons.1 hd with rfl | hd
    · exact heffect.storable
    · exact (heffect.storable_iff hkept).2 (hfits.storable d hd)

end TrueFigure.Server
