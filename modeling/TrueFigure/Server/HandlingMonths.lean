import TrueFigure.Server.PeriodTiling
import TrueFigure.Server.RefusalLifted

/-!
# Handling times by month

`compute_time_savings` keeps the lifecycle events of its period before it pairs them: a work
item is measured by the month that holds both its first creation and its last completion,
and by none, or with less than its handling time, where they lie in different months.
-/
namespace TrueFigure.Server

open TrueFigure.Library TrueFigure.Python

/-! ### Months -/

def IsMonth (bounds : ℤ × ℤ) : Prop :=
  ∃ text year month, Period.parse text = some (.month year month) ∧
    periodBounds text = .ok bounds

theorem IsMonth.bounds_eq {bounds : ℤ × ℤ} (h : IsMonth bounds) :
    ∃ k, bounds = ((monthStart k : ℤ), (monthStart (k + 1) : ℤ) - 1) := by
  obtain ⟨text, year, month, hparse, hbounds⟩ := h
  obtain ⟨p, hvalid, -, htext, rfl⟩ := Period.periodBounds_eq_ok_iff.1 hbounds
  obtain rfl : p = .month year month :=
    Option.some.inj ((Period.parse_eq_some_iff.2 ⟨hvalid, htext⟩).symm.trans hparse)
  exact ⟨_, rfl⟩

theorem months_overlap {b b' : ℤ × ℤ} (hb : IsMonth b) (hb' : IsMonth b') (h : b.1 ≤ b'.2)
    (h' : b'.1 ≤ b.2) : b = b' := by
  obtain ⟨k, rfl⟩ := hb.bounds_eq
  obtain ⟨k', rfl⟩ := hb'.bounds_eq
  have hle : ∀ j j' : ℕ, (monthStart j : ℤ) ≤ (monthStart (j' + 1) : ℤ) - 1 → j ≤ j' := by
    intro j j' hstart
    by_contra hlt
    have hmono : monthStart (j' + 1) ≤ monthStart j :=
      monthStart_strictMono.monotone (Nat.lt_of_not_le hlt)
    omega
  rw [le_antisymm (hle k k' h) (hle k' k h')]

theorem month_unique {b b' : ℤ × ℤ} {day : ℤ} (hb : IsMonth b) (hb' : IsMonth b')
    (h : Between b day) (h' : Between b' day) : b = b' :=
  months_overlap hb hb' (h.1.trans h'.2) (h'.1.trans h.2)

/-! ### First and last -/

section Spans

variable {A B : Multiset ℤ} {c d x : ℤ}

theorem exists_least (h : A ≠ 0) : ∃ c ∈ A, ∀ t ∈ A, c ≤ t := by
  induction A using Multiset.induction with
  | empty => exact absurd rfl h
  | cons a A ih =>
    by_cases hA : A = 0
    · exact ⟨a, Multiset.mem_cons_self a A, fun t ht => by simp_all⟩
    · obtain ⟨c, hc, hleast⟩ := ih hA
      rcases le_total a c with hac | hca
      · refine ⟨a, Multiset.mem_cons_self a A, fun t ht => ?_⟩
        rcases Multiset.mem_cons.1 ht with rfl | ht
        · exact le_rfl
        · exact hac.trans (hleast t ht)
      · refine ⟨c, Multiset.mem_cons_of_mem hc, fun t ht => ?_⟩
        rcases Multiset.mem_cons.1 ht with rfl | ht
        · exact hca
        · exact hleast t ht

theorem exists_greatest (h : A ≠ 0) : ∃ d ∈ A, ∀ t ∈ A, t ≤ d := by
  have hneg : A.map (fun t => -t) ≠ 0 := by simpa using h
  obtain ⟨c, hc, hleast⟩ := exists_least hneg
  obtain ⟨d, hd, rfl⟩ := Multiset.mem_map.1 hc
  exact ⟨d, hd, fun t ht => neg_le_neg_iff.1 (hleast _ (Multiset.mem_map_of_mem _ ht))⟩

theorem spanOf_eq (hc : c ∈ A) (hleast : ∀ t ∈ A, c ≤ t) (hd : d ∈ B)
    (hgreatest : ∀ t ∈ B, t ≤ d) : spanOf A B = some (d - c) := by
  have hinf : (A.map fun t : ℤ => (t : WithTop ℤ)).inf = (c : WithTop ℤ) := by
    refine le_antisymm (Multiset.inf_le (Multiset.mem_map_of_mem _ hc)) ?_
    refine Multiset.le_inf.2 fun y hy => ?_
    obtain ⟨t, ht, rfl⟩ := Multiset.mem_map.1 hy
    exact WithTop.coe_le_coe.2 (hleast t ht)
  have hsup : (B.map fun t : ℤ => (t : WithBot ℤ)).sup = (d : WithBot ℤ) := by
    refine le_antisymm (Multiset.sup_le.2 fun y hy => ?_)
      (Multiset.le_sup (Multiset.mem_map_of_mem _ hd))
    obtain ⟨t, ht, rfl⟩ := Multiset.mem_map.1 hy
    exact WithBot.coe_le_coe.2 (hgreatest t ht)
  rw [spanOf, hinf, hsup]

theorem spanOf_eq_none (h : A = 0 ∨ B = 0) : spanOf A B = none := by
  unfold spanOf
  rcases h with rfl | rfl
  · rfl
  · rw [Multiset.map_zero, Multiset.sup_zero]
    cases (A.map fun t : ℤ => (t : WithTop ℤ)).inf <;> rfl

/-- A span that was measured has its ends among the instants. -/
theorem spanOf_eq_some (h : spanOf A B = some x) :
    ∃ c ∈ A, ∃ d ∈ B, (∀ t ∈ A, c ≤ t) ∧ (∀ t ∈ B, t ≤ d) ∧ x = d - c := by
  have hne : A ≠ 0 ∧ B ≠ 0 := by
    refine not_or.1 fun hzero => ?_
    rw [spanOf_eq_none hzero] at h
    cases h
  obtain ⟨c, hc, hleast⟩ := exists_least hne.1
  obtain ⟨d, hd, hgreatest⟩ := exists_greatest hne.2
  rw [spanOf_eq hc hleast hd hgreatest] at h
  exact ⟨c, hc, d, hd, hleast, hgreatest, (Option.some.inj h).symm⟩

end Spans

/-! ### Work items -/

section Items

variable (plan : Planner) (s : Db) (deploymentId workItemId : ℕ)

/-- The instants of one lifecycle event of a work item, whatever the period. -/
def allTimes (event : PyStr) : Multiset ℤ :=
  sumEvents s fun t row =>
    if row.workItemId = some workItemId ∧ row.deploymentId = deploymentId ∧
      row.eventType = .lifecycle ∧ row.says (py "event") event then {t} else 0

/-- What the work item would add with all months computed together. -/
def handlingAll : Multiset (Bool × ℤ) :=
  match spanOf (allTimes s deploymentId workItemId (py "created"))
    (allTimes s deploymentId workItemId (py "completed")) with
  | some span => {(decide (0 < assistCount s deploymentId workItemId), span)}
  | none => 0

/-- The work item has a stored creation and a later stored completion. -/
def Completed : Prop :=
  ∃ c ∈ allTimes s deploymentId workItemId (py "created"),
    ∃ d ∈ allTimes s deploymentId workItemId (py "completed"), c < d

/-- The first creation of the work item and its last completion. -/
structure Ends (first last : ℤ) : Prop where
  created : first ∈ allTimes s deploymentId workItemId (py "created")
  first_least : ∀ t ∈ allTimes s deploymentId workItemId (py "created"), first ≤ t
  completed : last ∈ allTimes s deploymentId workItemId (py "completed")
  last_greatest : ∀ t ∈ allTimes s deploymentId workItemId (py "completed"), t ≤ last

/-- One monthly computation measures the work item, that of the month in which it was
completed, with the side and the hours of all months together; no other does. -/
def MeasuredOnce : Prop :=
  ∃ bounds, IsMonth bounds ∧
    (∀ first last, Ends s deploymentId workItemId first last → Between bounds (plan.dayOf last)) ∧
    handlingOf plan s deploymentId bounds workItemId = handlingAll s deploymentId workItemId ∧
    ∀ bounds', IsMonth bounds' → bounds' ≠ bounds →
      handlingOf plan s deploymentId bounds' workItemId = 0

/-- It was first created and last completed in one month. -/
def WithinMonth : Prop :=
  ∃ bounds, IsMonth bounds ∧ ∃ first last, Ends s deploymentId workItemId first last ∧
    Between bounds (plan.dayOf first) ∧ Between bounds (plan.dayOf last)

end Items

section Measured

variable {plan : Planner} {s : Db} {deploymentId workItemId : ℕ} {bounds : ℤ × ℤ} {first last : ℤ}

/-- A period keeps the instants on its days. -/
theorem lifeTimes_eq_filter (event : PyStr) :
    lifeTimes plan s deploymentId bounds event workItemId =
      (allTimes s deploymentId workItemId event).filter fun t => Between bounds (plan.dayOf t) := by
  let φ : Multiset ℤ →+ Multiset ℤ :=
    { toFun := Multiset.filter fun t => Between bounds (plan.dayOf t)
      map_zero' := Multiset.filter_zero _
      map_add' := Multiset.filter_add _ }
  have hmap := map_tally φ (ofEvent fun t (row : EventRow) =>
    if row.workItemId = some workItemId ∧ row.deploymentId = deploymentId ∧
      row.eventType = .lifecycle ∧ row.says (py "event") event then ({t} : Multiset ℤ) else 0) s
  refine Eq.trans ?_ hmap.symm
  unfold lifeTimes sumEvents
  congr 1
  funext ⟨k, row⟩
  cases k with
  | event ws key t =>
    simp only [ofEvent]
    by_cases hday : Between bounds (plan.dayOf t)
    · simp only [hday, true_and]
      split_ifs
      · exact (Multiset.filter_cons_of_pos (p := fun t => Between bounds (plan.dayOf t)) 0 hday).symm
      · rfl
    · simp only [hday, false_and, and_false, if_false]
      split_ifs
      · exact (Multiset.filter_cons_of_neg (p := fun t => Between bounds (plan.dayOf t)) 0 hday).symm
      · rfl
  | _ => rfl

theorem exists_ends (h : Completed s deploymentId workItemId) :
    ∃ first last, Ends s deploymentId workItemId first last := by
  obtain ⟨c, hc, d, hd, -⟩ := h
  obtain ⟨first, hfirst, hleast⟩ := exists_least fun h0 => Multiset.notMem_zero c (h0 ▸ hc)
  obtain ⟨last, hlast, hgreatest⟩ := exists_greatest fun h0 => Multiset.notMem_zero d (h0 ▸ hd)
  exact ⟨first, last, hfirst, hleast, hlast, hgreatest⟩

theorem handlingAll_eq (h : Ends s deploymentId workItemId first last) :
    handlingAll s deploymentId workItemId =
      {(decide (0 < assistCount s deploymentId workItemId), last - first)} := by
  rw [handlingAll, spanOf_eq h.created h.first_least h.completed h.last_greatest]

theorem handlingOf_eq_filter : handlingOf plan s deploymentId bounds workItemId =
    match spanOf
      ((allTimes s deploymentId workItemId (py "created")).filter fun t =>
        Between bounds (plan.dayOf t))
      ((allTimes s deploymentId workItemId (py "completed")).filter fun t =>
        Between bounds (plan.dayOf t)) with
    | some span => {(decide (0 < assistCount s deploymentId workItemId), span)}
    | none => 0 := by
  rewrite [handlingOf, lifeTimes_eq_filter, lifeTimes_eq_filter]
  rfl

/-- A month that holds both ends measures the item as all months together do. -/
theorem handlingOf_of_within (h : Ends s deploymentId workItemId first last)
    (hfirst : Between bounds (plan.dayOf first)) (hlast : Between bounds (plan.dayOf last)) :
    handlingOf plan s deploymentId bounds workItemId = handlingAll s deploymentId workItemId := by
  rw [handlingAll_eq h, handlingOf_eq_filter, spanOf_eq (Multiset.mem_filter.2 ⟨h.created, hfirst⟩)
    (fun t ht => h.first_least t (Multiset.mem_of_mem_filter ht))
    (Multiset.mem_filter.2 ⟨h.completed, hlast⟩)
    fun t ht => h.last_greatest t (Multiset.mem_of_mem_filter ht)]

/-- A period that measures the item holds a creation and a completion. -/
theorem exists_within (h : handlingOf plan s deploymentId bounds workItemId ≠ 0) :
    ∃ c ∈ allTimes s deploymentId workItemId (py "created"),
      ∃ d ∈ allTimes s deploymentId workItemId (py "completed"),
        Between bounds (plan.dayOf c) ∧ Between bounds (plan.dayOf d) ∧
        handlingOf plan s deploymentId bounds workItemId =
          {(decide (0 < assistCount s deploymentId workItemId), d - c)} := by
  rw [handlingOf_eq_filter] at h ⊢
  cases hspan : spanOf
      ((allTimes s deploymentId workItemId (py "created")).filter fun t =>
        Between bounds (plan.dayOf t))
      ((allTimes s deploymentId workItemId (py "completed")).filter fun t =>
        Between bounds (plan.dayOf t)) with
  | none =>
    rw [hspan] at h
    exact absurd rfl h
  | some span =>
    obtain ⟨c, hc, d, hd, -, -, rfl⟩ := spanOf_eq_some hspan
    obtain ⟨hc, hcday⟩ := Multiset.mem_filter.1 hc
    obtain ⟨hd, hdday⟩ := Multiset.mem_filter.1 hd
    exact ⟨c, hc, d, hd, hcday, hdday, rfl⟩

theorem withinMonth_of_measuredOnce (h : Completed s deploymentId workItemId)
    (hmeasured : MeasuredOnce plan s deploymentId workItemId) :
    WithinMonth plan s deploymentId workItemId := by
  obtain ⟨bounds, hmonth, -, hall, -⟩ := hmeasured
  obtain ⟨first, last, hends⟩ := exists_ends h
  rw [handlingAll_eq hends] at hall
  obtain ⟨c, hc, d, hd, hcday, hdday, hspan⟩ := exists_within
    (hall ▸ Multiset.singleton_ne_zero _)
  have hsame : d - c = last - first :=
    (Prod.mk.inj (Multiset.singleton_inj.1 (hspan.symm.trans hall))).2
  have hfirst := hends.first_least c hc
  have hlast := hends.last_greatest d hd
  obtain rfl : c = first := by omega
  obtain rfl : d = last := by omega
  exact ⟨bounds, hmonth, c, d, hends, hcday, hdday⟩

theorem measuredOnce_of_withinMonth (hday : Monotone plan.dayOf)
    (h : WithinMonth plan s deploymentId workItemId) :
    MeasuredOnce plan s deploymentId workItemId := by
  obtain ⟨bounds, hmonth, first, last, hends, hfirst, hlast⟩ := h
  refine ⟨bounds, hmonth, fun first' last' hends' => ?_, handlingOf_of_within hends hfirst hlast,
    fun bounds' hmonth' hne => ?_⟩
  · rw [le_antisymm (hends.last_greatest _ hends'.completed)
      (hends'.last_greatest _ hends.completed)]
    exact hlast
  · by_contra hmeasured
    obtain ⟨c, hc, d, hd, hcday, hdday, -⟩ := exists_within hmeasured
    have hafter : plan.dayOf first ≤ plan.dayOf c := hday (hends.first_least c hc)
    have hbefore : plan.dayOf d ≤ plan.dayOf last := hday (hends.last_greatest d hd)
    refine hne (months_overlap hmonth' hmonth ?_ ?_)
    · exact hdday.1.trans (hbefore.trans hlast.2)
    · exact hfirst.1.trans (hafter.trans hcday.2)

end Measured

/-- The rows of the sample: one work item's, and those of the others. -/
theorem handlingRows_eq (plan : Planner) {s : Db} (deploymentId : ℕ) (bounds : ℤ × ℤ)
    {workspaceId : ℕ} {ref : PyStr} {row : WorkItemRow}
    (h : s.lookup (.workItem workspaceId ref) = some row) :
    (handlingRows plan s deploymentId bounds : Multiset (Bool × ℤ)) =
      handlingOf plan s deploymentId bounds row.id +
        tally (handlingRowOf plan s deploymentId bounds) (s.erase (.workItem workspaceId ref)) := by
  rw [handlingRows, plan.samples_rows, tally_erase _ h]
  rfl

/-- A completed work item is measured by the month of its completion, and by no other,
exactly where it was created in that month. -/
theorem measuredOnce_iff {plan : Planner} {s : Db} {deploymentId workItemId : ℕ}
    (hday : Monotone plan.dayOf) (h : Completed s deploymentId workItemId) :
    MeasuredOnce plan s deploymentId workItemId ↔ WithinMonth plan s deploymentId workItemId :=
  ⟨withinMonth_of_measuredOnce h, measuredOnce_of_withinMonth hday⟩

/-! ### Samples -/

theorem monotone_utc : Monotone Planner.utc.dayOf := by
  intro t t' h
  exact Int.add_le_add_right (Int.ediv_le_ediv (by decide) h) 1

/-- A work item created on 1 July 2026 and completed some hours later. -/
def handledItem (hours : ℕ) : Db := withItem ∅ 1 hours false

theorem july_isMonth : IsMonth (739798, 739828) :=
  ⟨py "2026-07", 2026, 7, by decide, by decide⟩

/-- Completed four hours later, it is in July's. -/
theorem measuredOnce_iff_fourHours :
    MeasuredOnce Planner.utc (handledItem 4) 1 1 ↔ WithinMonth Planner.utc (handledItem 4) 1 1 :=
  measuredOnce_iff monotone_utc
    ⟨63918460800000, by decide +kernel, 63918460800000 + 4 * 3600000, by decide +kernel, by decide⟩

/-- Completed in August, the item is in no month's sample. -/
theorem august_unmeasured : Completed (handledItem 800) 1 1 ∧
    ¬ MeasuredOnce Planner.utc (handledItem 800) 1 1 := by
  have h : Completed (handledItem 800) 1 1 :=
    ⟨63918460800000, by decide +kernel, 63918460800000 + 800 * 3600000, by decide +kernel, by decide⟩
  refine ⟨h, fun hmeasured => ?_⟩
  obtain ⟨bounds, hmonth, first, last, hends, hfirst, hlast⟩ :=
    withinMonth_of_measuredOnce h hmeasured
  have hcreated : allTimes (handledItem 800) 1 1 (py "created") = {63918460800000} := by
    decide +kernel
  have hcompleted : allTimes (handledItem 800) 1 1 (py "completed") =
      {63918460800000 + 800 * 3600000} := by decide +kernel
  obtain rfl := Multiset.mem_singleton.1 (hcreated ▸ hends.created)
  obtain rfl := Multiset.mem_singleton.1 (hcompleted ▸ hends.completed)
  obtain rfl := month_unique hmonth july_isMonth hfirst (by decide)
  exact absurd hlast (by decide)

end TrueFigure.Server
