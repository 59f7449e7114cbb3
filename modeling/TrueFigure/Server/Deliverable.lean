import TrueFigure.Server.FigureDelivery
import TrueFigure.Server.RefusalLifted

/-!
# Computations delivered

What `compute_time_savings` and `compute_containment` need, and with that exactly which
calls of `compute_deployment` deliver all of their figures.
-/
namespace TrueFigure.Server

open TrueFigure.Library TrueFigure.Python

namespace Computation

variable {F : Type} {c : Computation F} {s : Records} {bounds : ℤ × ℤ}

/-! ### `compute_time_savings` -/

/-- The figure of the hours saved, as far as every branch drafts it. -/
def hoursDraft (c : Computation F) (s : Records) (bounds : ℤ × ℤ) : Draft where
  figureRef := py "fig_time_" ++ c.period
  period := c.period
  claim := py "time_savings"
  status := .awaitingParameters
  valueClass := some .capacity
  parameterSetVersion := (c.parameters s bounds).1
  lineage := [(py "effect_hours", .num (c.fl.toNum (c.fl.round (c.saved s bounds) 4)))]

/-- The sizes of the samples and the hours saved, as the lineage names them. -/
def hourCounts (c : Computation F) (s : Records) (bounds : ℤ × ℤ) : Dict :=
  [(py "assisted_n", .num (.int (c.hours s bounds true).length)),
    (py "unassisted_n", .num (.int (c.hours s bounds false).length)),
    (py "effect_hours", .num (c.fl.toNum (c.fl.round (c.saved s bounds) 4)))]

def refusedDraft (c : Computation F) (s : Records) (bounds : ℤ × ℤ) : Draft :=
  { c.hoursDraft s bounds with
    status := .refused
    valueClass := none
    marginExceedsEffect := some true
    refusalReason := some (py "margin of error exceeds the measured effect")
    expectedVerdictDate := some bounds.2
    lineage := c.hourCounts s bounds ++
      [(py "margin_hours", .num (c.fl.toNum (c.fl.round (c.halfWidth s bounds) 4)))] }

def pricedDraft (c : Computation F) (s : Records) (bounds : ℤ × ℤ) (pv : ℕ) (rate : Json)
    (hourly : F) : Draft :=
  { c.hoursDraft s bounds with
    status := .computed
    grade := some (if 4 ≤ (c.hours s bounds true).length + (c.hours s bounds false).length
      then .measured else .estimate)
    value := some (c.savings s bounds hourly)
    changeTreatment := s.evidence.books.changeTreatment c.plan c.workspaceId c.deploymentId
      bounds.1 bounds.2
    lineage := c.hourCounts s bounds ++
      [(py "labor_rate", rate), (py "parameter_set_version", .num (.int pv))] }

section Samples

variable (hbounds : periodBounds c.period = .ok bounds)

include hbounds

theorem timeSavings_of_unpaired (h : c.hours s bounds true = [] ∨ c.hours s bounds false = []) :
    c.timeSavings s = .ok none := by
  have h : handlingHours c.fl (handlingRows c.plan s.evidence.db c.deploymentId bounds) true = [] ∨
      handlingHours c.fl (handlingRows c.plan s.evidence.db c.deploymentId bounds) false = [] := h
  simp only [timeSavings, computeTimeSavings, hbounds, liftPython, bind, Except.bind, h, if_true]

theorem timeSavings_of_paired (h : ¬ (c.hours s bounds true = [] ∨ c.hours s bounds false = [])) :
    c.timeSavings s = (timeDraft c.plan c.fl s.evidence.books c.workspaceId c.deploymentId
      c.period bounds (c.hours s bounds true) (c.hours s bounds false)).map some := by
  have h : ¬ (handlingHours c.fl (handlingRows c.plan s.evidence.db c.deploymentId bounds) true = [] ∨
      handlingHours c.fl (handlingRows c.plan s.evidence.db c.deploymentId bounds) false = []) := h
  simp only [timeSavings, computeTimeSavings, hbounds, liftPython, bind, Except.bind, h, if_false,
    hours]

end Samples

section Branches

theorem timeDraft_refused (h : c.Refused s bounds) :
    timeDraft c.plan c.fl s.evidence.books c.workspaceId c.deploymentId c.period bounds
      (c.hours s bounds true) (c.hours s bounds false) = .ok (c.refusedDraft s bounds) := by
  have hlt : c.fl.lt (c.fl.abs (c.saved s bounds)) (c.halfWidth s bounds) = true := h
  have hpair : s.evidence.books.resolveParameterVersion c.workspaceId bounds.1 =
      ((c.parameters s bounds).1, (c.parameters s bounds).2) := rfl
  unfold timeDraft
  rw [hpair]
  dsimp only
  rw [← List.length_append]
  exact if_pos hlt

variable (h : ¬ c.Refused s bounds)

include h

theorem timeDraft_of_none (hnone : (c.parameters s bounds).1 = none) :
    timeDraft c.plan c.fl s.evidence.books c.workspaceId c.deploymentId c.period bounds
        (c.hours s bounds true) (c.hours s bounds false) =
      .ok { c.hoursDraft s bounds with missingParameter := some (py "labor_rates") } := by
  have hlt : ¬ c.fl.lt (c.fl.abs (c.saved s bounds)) (c.halfWidth s bounds) = true := h
  have hpair : s.evidence.books.resolveParameterVersion c.workspaceId bounds.1 =
      (none, (c.parameters s bounds).2) := Prod.ext hnone rfl
  unfold timeDraft hoursDraft
  rw [hpair, hnone]
  dsimp only
  rw [← List.length_append]
  exact if_neg hlt

theorem timeDraft_of_some {pv : ℕ} (hsome : (c.parameters s bounds).1 = some pv) :
    timeDraft c.plan c.fl s.evidence.books c.workspaceId c.deploymentId c.period bounds
        (c.hours s bounds true) (c.hours s bounds false) =
      match laborRate (c.parameters s bounds).2 with
      | .error e => .error (.python e)
      | .ok .null =>
        .ok { c.hoursDraft s bounds with missingParameter := some (py "labor_rates.default") }
      | .ok rate => (liftPython (c.fl.ofJson rate)).map (c.pricedDraft s bounds pv rate) := by
  have hlt : ¬ c.fl.lt (c.fl.abs (c.saved s bounds)) (c.halfWidth s bounds) = true := h
  have hpair : s.evidence.books.resolveParameterVersion c.workspaceId bounds.1 =
      (some pv, (c.parameters s bounds).2) := Prod.ext hsome rfl
  unfold timeDraft pricedDraft hoursDraft
  rw [hpair, hsome]
  dsimp only
  rw [← List.length_append]
  refine (if_neg hlt).trans ?_
  cases hrate : laborRate (c.parameters s bounds).2 with
  | error e => rfl
  | ok rate =>
    cases rate with
    | null => rfl
    | _ =>
      simp only [liftPython, bind, Except.bind]
      cases c.fl.ofJson _ <;> rfl

theorem timeDraft_of_rate {pv : ℕ} (hsome : (c.parameters s bounds).1 = some pv) {rate : Json}
    (hrate : laborRate (c.parameters s bounds).2 = .ok rate) (hne : rate ≠ .null) :
    timeDraft c.plan c.fl s.evidence.books c.workspaceId c.deploymentId c.period bounds
        (c.hours s bounds true) (c.hours s bounds false) =
      (liftPython (c.fl.ofJson rate)).map (c.pricedDraft s bounds pv rate) := by
  rw [timeDraft_of_some h hsome, hrate]
  cases rate with
  | null => exact absurd rfl hne
  | _ => rfl

end Branches

/-! ### What the drafts of the hours need -/

theorem jsonbOk_hourCounts (more : Dict) : jsonbOk (.obj (c.hourCounts s bounds ++ more)) = true ↔
    c.Written (c.saved s bounds) ∧ jsonbOk (.obj more) = true := by
  have hassisted : jsonbOk (.str (py "assisted_n")) = true := by decide
  have hunassisted : jsonbOk (.str (py "unassisted_n")) = true := by decide
  have heffect : jsonbOk (.str (py "effect_hours")) = true := by decide
  have hint : ∀ n : ℕ, jsonbOk (.num (.int n)) = true := fun _ => rfl
  simp only [jsonbOk_obj, hourCounts, List.cons_append, List.nil_append, List.forall_mem_cons,
    hassisted, hunassisted, heffect, hint, true_and]
  exact Iff.rfl

theorem accepted_hoursDraft (missing : Option PyStr) :
    Accepted s c.deploymentId { c.hoursDraft s bounds with missingParameter := missing } ↔
      c.Room s (py "fig_time_") ∧ c.Written (c.saved s bounds) := by
  refine (accepted_pending (by simp [hoursDraft]) rfl).trans (and_congr_right fun _ => ?_)
  have heffect : jsonbOk (.str (py "effect_hours")) = true := by decide
  simp only [hoursDraft, jsonbOk_obj, List.forall_mem_cons, heffect, true_and, List.not_mem_nil,
    IsEmpty.forall_iff, implies_true, and_true]
  exact Iff.rfl

theorem accepted_refusedDraft : Accepted s c.deploymentId (c.refusedDraft s bounds) ↔
    c.Room s (py "fig_time_") ∧ c.Written (c.saved s bounds) ∧ c.Written (c.halfWidth s bounds) := by
  refine (accepted_pending (by simp [refusedDraft]) rfl).trans (and_congr_right fun _ => ?_)
  refine (jsonbOk_hourCounts _).trans (and_congr_right fun _ => ?_)
  have hmargin : jsonbOk (.str (py "margin_hours")) = true := by decide
  simp only [jsonbOk_obj, List.forall_mem_cons, hmargin, true_and, List.not_mem_nil,
    IsEmpty.forall_iff, implies_true, and_true]
  exact Iff.rfl

theorem accepted_pricedDraft {pv : ℕ} {rate : Json} {hourly : F} (hrate : jsonbOk rate = true) :
    Accepted s c.deploymentId (c.pricedDraft s bounds pv rate hourly) ↔
      c.Room s (py "fig_time_") ∧ c.Written (c.saved s bounds) ∧
        FitsColumn (.ok (c.savings s bounds hourly)) := by
  refine (accepted_computed rfl rfl).trans (and_congr_right fun _ => and_congr ?_ ?_)
  · refine (jsonbOk_hourCounts _).trans (and_iff_left ?_)
    have hlabor : jsonbOk (.str (py "labor_rate")) = true := by decide
    have hversion : jsonbOk (.str (py "parameter_set_version")) = true := by decide
    simp only [jsonbOk_obj, List.forall_mem_cons, hlabor, hversion, hrate, true_and]
    exact ⟨rfl, by simp⟩
  · constructor
    · rintro ⟨total, v, htotal, hv⟩
      exact ⟨total, v, congrArg Except.ok (Option.some.inj htotal), hv⟩
    · rintro ⟨total, v, htotal, hv⟩
      exact ⟨total, v, congrArg some (Except.ok.inj htotal), hv⟩

theorem jsonbOk_getD {fields : Dict} {key : PyStr} {default : Json}
    (h : jsonbOk (.obj fields) = true) (hdefault : jsonbOk default = true) :
    jsonbOk (fields.getD key default) = true := by
  unfold Dict.getD
  cases hget : fields.get? key with
  | none => exact hdefault
  | some value => exact (jsonbOk_obj.1 h _ (mem_of_get? hget)).2

/-- What a stored payload holds can be stored again. -/
theorem jsonbOk_laborRate {payload : Dict} {rate : Json} (h : jsonbOk (.obj payload) = true)
    (hrate : laborRate payload = .ok rate) : jsonbOk rate = true := by
  have hlabor : jsonbOk (payload.getD (py "labor_rates") (.obj [])) = true := jsonbOk_getD h rfl
  unfold laborRate at hrate
  dsimp only at hrate
  generalize payload.getD (py "labor_rates") (.obj []) = labor at hlabor hrate
  obtain ⟨found, hfound, hrate⟩ := bind_eq_ok hrate
  have hok : jsonbOk found = true := by
    cases labor with
    | obj fields =>
      cases hfound
      exact jsonbOk_getD hlabor rfl
    | _ => cases hfound
  split at hrate
  · cases hrate
    exact hok
  · split at hrate
    · cases hrate
      exact (jsonbOk_obj.1 hlabor _ List.mem_cons_self).2
    · cases hrate
      rfl

section Rates

variable {payload : Dict} {rate : Json} (hrate : laborRate payload = .ok rate) (hne : rate ≠ .null)

include hrate hne

theorem rateQuote_of_error {e : PyErr} (h : c.fl.ofJson rate = .error e) :
    rateQuote c.fl payload = .unusable := by
  unfold rateQuote
  rw [hrate]
  cases rate with
  | null => exact absurd rfl hne
  | _ => simp only [h]

theorem rateQuote_of_finite {hourly : F} {q : ℚ} (h : c.fl.ofJson rate = .ok hourly)
    (hq : c.fl.toDecimal hourly = .finite q) : rateQuote c.fl payload = .usable hourly := by
  unfold rateQuote
  rw [hrate]
  cases rate with
  | null => exact absurd rfl hne
  | _ => simp only [h, hq]

theorem rateQuote_of_not_finite {hourly : F} (h : c.fl.ofJson rate = .ok hourly)
    (hq : ∀ q, c.fl.toDecimal hourly ≠ .finite q) : rateQuote c.fl payload = .unusable := by
  unfold rateQuote
  rw [hrate]
  cases rate with
  | null => exact absurd rfl hne
  | _ => simp only [h]

end Rates

section Hours

variable (hpaired : c.hours s bounds true ≠ [] ∧ c.hours s bounds false ≠ [])
  (hrefused : ¬ c.Refused s bounds) {pv : ℕ} (hparameters : (c.parameters s bounds).1 = some pv)

include hparameters

theorem hoursPriced_iff_usable (hrefused : ¬ c.Refused s bounds) {hourly : F}
    (h : rateQuote c.fl (c.parameters s bounds).2 = .usable hourly) : c.HoursPriced s bounds ↔
      c.Written (c.saved s bounds) ∧ FitsColumn (.ok (c.savings s bounds hourly)) := by
  simp only [HoursPriced, hrefused, h, hparameters, reduceCtorEq, false_or, Quote.usable.injEq,
    exists_eq_left', not_false_eq_true, IsEmpty.forall_iff, forall_const, true_and]

theorem not_hoursPriced (hrefused : ¬ c.Refused s bounds)
    (h : rateQuote c.fl (c.parameters s bounds).2 = .unusable) : ¬ c.HoursPriced s bounds := by
  rintro ⟨-, -, hpriced⟩
  rcases hpriced hrefused with hmissing | habsent | ⟨hourly, husable, -⟩
  · cases hparameters.symm.trans hmissing
  · cases h.symm.trans habsent
  · cases h.symm.trans husable

include hpaired hrefused

/-- The hours with a rate that `float` takes: no number but a finite one can be used. -/
theorem hours_of_rate {rate : Json} {hourly : F} (hok : jsonbOk rate = true)
    (hrate : laborRate (c.parameters s bounds).2 = .ok rate) (hne : rate ≠ .null)
    (hhourly : c.fl.ofJson rate = .ok hourly) :
    Accepted s c.deploymentId (c.pricedDraft s bounds pv rate hourly) ∧
        ¬ c.HoursUnpriced s bounds ↔ c.Room s (py "fig_time_") ∧ c.HoursPriced s bounds := by
  rw [accepted_pricedDraft hok]
  by_cases hfinite : ∃ q, c.fl.toDecimal hourly = .finite q
  · obtain ⟨q, hq⟩ := hfinite
    have hquote := @rateQuote_of_finite F c _ _ hrate hne _ _ hhourly hq
    have hpriced : ¬ c.HoursUnpriced s bounds := by
      rintro ⟨-, -, -, hmissing | hunusable⟩
      · cases hparameters.symm.trans hmissing
      · exact hunusable (hquote ▸ trivial)
    rw [hoursPriced_iff_usable hparameters hrefused hquote]
    exact and_iff_left hpriced
  · have hquote := @rateQuote_of_not_finite F c _ _ hrate hne _ hhourly (not_exists.1 hfinite)
    have hunpriced : c.HoursUnpriced s bounds :=
      ⟨hpaired.1, hpaired.2, hrefused, .inr (by rw [hquote]; exact id)⟩
    have hnot := not_hoursPriced hparameters hrefused hquote
    simp only [hunpriced, not_true_eq_false, and_false, hnot]

end Hours

/-- The hours saved are drafted and stored, and await their price if it is missing, exactly
where there are none or they can be written and their price is missing or can be used. -/
theorem hours_iff (hbounds : periodBounds c.period = .ok bounds)
    (hstored : jsonbOk (.obj (c.parameters s bounds).2) = true) :
    Feasible s c.deploymentId (c.timeSavings s) ∧ (c.HoursUnpriced s bounds →
        ∃ d, c.timeSavings s = .ok (some d) ∧ d.status = .awaitingParameters) ↔
      (c.hours s bounds true ≠ [] → c.hours s bounds false ≠ [] →
        c.Room s (py "fig_time_") ∧ c.HoursPriced s bounds) := by
  by_cases hpaired : c.hours s bounds true = [] ∨ c.hours s bounds false = []
  · have hnone := timeSavings_of_unpaired hbounds hpaired
    have hempty : ∀ {p : Prop}, c.hours s bounds true ≠ [] → c.hours s bounds false ≠ [] → p :=
      fun h h' => absurd hpaired (not_or.2 ⟨h, h'⟩)
    constructor
    · exact fun _ => hempty
    · intro _
      refine ⟨⟨none, hnone, by simp⟩, fun hunpriced => ?_⟩
      exact hempty hunpriced.1 hunpriced.2.1
  · have hboth := not_or.1 hpaired
    have hguard : (c.hours s bounds true ≠ [] → c.hours s bounds false ≠ [] →
        c.Room s (py "fig_time_") ∧ c.HoursPriced s bounds) ↔
        c.Room s (py "fig_time_") ∧ c.HoursPriced s bounds :=
      ⟨fun h => h hboth.1 hboth.2, fun h _ _ => h⟩
    rw [hguard, timeSavings_of_paired hbounds hpaired, feasible_map]
    by_cases hrefused : c.Refused s bounds
    · simp only [timeDraft_refused hrefused, Except.ok.injEq, exists_eq_left',
        accepted_refusedDraft, HoursUnpriced, HoursPriced, hrefused, not_true_eq_false, false_and,
        and_false, IsEmpty.forall_iff, and_true, forall_const]
    · cases hparameters : (c.parameters s bounds).1 with
      | none =>
        simp only [timeDraft_of_none hrefused hparameters, Except.ok.injEq, exists_eq_left',
          accepted_hoursDraft, HoursPriced, hrefused, hparameters, not_false_eq_true, true_or,
          IsEmpty.forall_iff, and_true, forall_const]
        exact ⟨fun h => ⟨h.1.1, h.1.2⟩, fun h => ⟨h, fun _ => ⟨_, rfl, rfl⟩⟩⟩
      | some pv =>
        cases hrate : laborRate (c.parameters s bounds).2 with
        | error e =>
          have hquote : rateQuote c.fl (c.parameters s bounds).2 = .unusable := by
            rw [rateQuote, hrate]
          have hnot := not_hoursPriced hparameters hrefused hquote
          simp [timeDraft_of_some hrefused hparameters, hrate, hnot]
        | ok rate =>
          by_cases hnull : rate = .null
          · subst hnull
            have hquote : rateQuote c.fl (c.parameters s bounds).2 = .absent := by
              rw [rateQuote, hrate]
            simp only [timeDraft_of_some hrefused hparameters, hrate, Except.ok.injEq,
              exists_eq_left', accepted_hoursDraft, HoursPriced, hrefused, hquote, true_or,
              or_true, not_false_eq_true, IsEmpty.forall_iff, forall_const, and_true]
            exact ⟨fun h => h.1, fun h => ⟨h, fun _ => ⟨_, rfl, rfl⟩⟩⟩
          · rw [timeDraft_of_rate hrefused hparameters hrate hnull]
            cases hhourly : c.fl.ofJson rate with
            | error e =>
              have hquote := @rateQuote_of_error F c _ _ hrate hnull _ hhourly
              have hnot := not_hoursPriced hparameters hrefused hquote
              simp [liftPython, Except.map, hnot]
            | ok hourly =>
              rw [← hours_of_rate hboth hrefused hparameters (jsonbOk_laborRate hstored hrate)
                hrate hnull hhourly]
              simp only [liftPython, Except.map, Except.ok.injEq, exists_eq_left']
              refine and_congr_right fun _ => ⟨fun h hunpriced => ?_, fun h hunpriced => ?_⟩
              · obtain ⟨d, hd, hstatus⟩ := h hunpriced
                cases hd
                cases hstatus
              · exact absurd hunpriced h

/-! ### `compute_containment` -/

/-- The rate of the cases handled without a human, as the column gets it. -/
def containmentRate (c : Computation F) (s : Records) (bounds : ℤ × ℤ) : Decimal :=
  c.fl.toDecimal (c.fl.round (c.fl.ratio (c.handled s bounds).1
    ((c.handled s bounds).1 + (c.handled s bounds).2)) 6)

/-- The figure of the cases handled without a human. -/
def containmentDraft (c : Computation F) (s : Records) (bounds : ℤ × ℤ) : Draft :=
  let corroborating := corroboratingCount c.plan s.evidence.db c.deploymentId bounds
    s.evidence.books.serviceUsers
  { figureRef := py "fig_containment_" ++ c.period
    period := c.period
    claim := py "containment_rate"
    status := .computed
    grade := some (if 0 < corroborating then .verified else .measured)
    valueClass := some .realized
    value := some (c.containmentRate s bounds)
    lineage := [(py "autonomous", .num (.int (c.handled s bounds).1)),
      (py "escalated", .num (.int (c.handled s bounds).2)),
      (py "g6_corroborating_events", .num (.int corroborating))] }

theorem accepted_containmentDraft : Accepted s c.deploymentId (c.containmentDraft s bounds) ↔
    c.Room s (py "fig_containment_") ∧ FitsColumn (.ok (c.containmentRate s bounds)) := by
  refine (accepted_computed rfl rfl).trans (and_congr_right fun _ => ?_)
  have hlineage : jsonbOk (.obj (c.containmentDraft s bounds).lineage) = true := by
    refine jsonbOk_obj.2 ?_
    simp only [containmentDraft, List.forall_mem_cons]
    exact ⟨⟨by decide, rfl⟩, ⟨by decide, rfl⟩, ⟨by decide, rfl⟩, by simp⟩
  rw [hlineage]
  simp [containmentDraft, FitsColumn]

theorem containment_iff (hbounds : periodBounds c.period = .ok bounds) :
    Feasible s c.deploymentId (c.containment s) ↔
      ((c.handled s bounds).1 + (c.handled s bounds).2 ≠ 0 →
        c.Room s (py "fig_containment_") ∧ FitsColumn (.ok (c.containmentRate s bounds))) := by
  have hmethod : c.containment s = if (c.handled s bounds).1 + (c.handled s bounds).2 = 0 then
      .ok none else .ok (some (c.containmentDraft s bounds)) := by
    simp only [containment, computeContainment, hbounds, liftPython, bind, Except.bind]
    rfl
  rw [hmethod]
  by_cases hzero : (c.handled s bounds).1 + (c.handled s bounds).2 = 0
  · simp [hzero, Feasible]
  · simp only [hzero, if_false, Feasible, Except.ok.injEq, exists_eq_left', Option.mem_def,
      Option.some.injEq, forall_eq', ne_eq, not_false_eq_true, forall_const,
      accepted_containmentDraft]

/-! ### The whole call -/

theorem outcomes_eq (c : Computation F) (s : Records) : c.outcomes s =
    (methodsOf c.plan c.rt c.fl c.workspaceId c.deploymentId c.period (c.deploymentType s)).map
      fun m => m s.evidence := by
  unfold outcomes methodsOf
  rw [List.map_append]
  congr 1
  split <;> rfl

/-- The deployment is one of the workspace, and the period one the table takes. -/
structure WellCalled (c : Computation F) (s : Records) : Prop where
  deployment : ∃ e ∈ s.evidence.books.deployments, e.id = c.deploymentId ∧
    e.workspaceId = c.workspaceId
  period : periodOk c.period = true

theorem WellCalled.drafting (h : c.WellCalled s) : Drafting s.evidence
    (methodsOf c.plan c.rt c.fl c.workspaceId c.deploymentId c.period (c.deploymentType s)) where
  refs := separateFigures_methodsOf _ _
  periods m hm d hd := by
    rw [methodsOf_period hm hd]
    exact h.period

/-- One transaction: all the figures are stored where each of them can be. -/
theorem delivers_iff_feasible (hhistory : VersionHistory s) (hcall : c.WellCalled s) {n : ℕ} :
    c.Delivers s n ↔ (∀ x ∈ c.outcomes s, Feasible s c.deploymentId x) ∧
      ∀ bounds, periodBounds c.period = .ok bounds → c.AwaitsPrices s bounds := by
  have heval := @eval_runMethods_isOk_iff c.workspaceId c.deploymentId s n [] _ hcall.deployment
    hhistory hcall.drafting
  have houtcomes : (∀ x ∈ c.outcomes s, Feasible s c.deploymentId x) ↔
      ∀ m ∈ methodsOf c.plan c.rt c.fl c.workspaceId c.deploymentId c.period (c.deploymentType s),
        Feasible s c.deploymentId (m s.evidence) := by
    rw [outcomes_eq, List.forall_mem_map]
  rw [houtcomes, ← heval]
  constructor
  · rintro ⟨refs, s', n', hrun, -, hawaits⟩
    exact ⟨⟨_, s', n', hrun⟩, hawaits⟩
  · rintro ⟨⟨a, s', n', hrun⟩, hawaits⟩
    obtain ⟨refs, rfl, hmethods⟩ := methodRun_of_eval hhistory hrun
    refine ⟨_, s', n', hrun, ?_, hawaits⟩
    rw [outcomes_eq, List.forall_mem_map]
    exact (hmethods.stored hhistory hcall.drafting).2

theorem awaitsPrices_iff : c.AwaitsPrices s bounds ↔
    (c.CostUnpriced s bounds → ∃ d, c.cost s = .ok d ∧ d.status = .awaitingParameters) ∧
      (c.SeatsUnpriced s bounds → ∃ d, c.seats s = .ok d ∧ d.status = .awaitingParameters) ∧
      (c.HoursUnpriced s bounds →
        ∃ d, c.timeSavings s = .ok (some d) ∧ d.status = .awaitingParameters) := by
  constructor
  · exact fun h => ⟨h.cost, h.seats, h.hours⟩
  · exact fun h => ⟨h.1, h.2.1, h.2.2⟩

def PayloadsStored (b : Books) : Prop :=
  ∀ p ∈ b.parameterSets, jsonbOk (.obj p.payload) = true

theorem jsonbOk_parameters (h : PayloadsStored s.evidence.books) :
    jsonbOk (.obj (c.parameters s bounds).2) = true := by
  unfold parameters Books.resolveParameterVersion
  cases hset : s.evidence.books.parameterSetAt c.workspaceId bounds.1 with
  | none => rfl
  | some p =>
    exact h p (List.mem_filter.1 (List.argmax_mem hset)).1

theorem feasible_outcomes : (∀ x ∈ c.outcomes s, Feasible s c.deploymentId x) ↔
    (∃ d, c.cost s = .ok d ∧ Accepted s c.deploymentId d) ∧
      (∃ d, c.seats s = .ok d ∧ Accepted s c.deploymentId d) ∧
      Feasible s c.deploymentId (c.timeSavings s) ∧
      (c.deploymentType s = some .agent → Feasible s c.deploymentId (c.containment s)) := by
  simp only [outcomes, List.forall_mem_append, List.forall_mem_cons, feasible_map]
  by_cases hagent : c.deploymentType s = some .agent
  · simp [hagent, and_assoc]
  · simp [hagent]

/-- Run alone, a call of `compute_deployment` commits every figure its methods draft, as the
next version of each, and has the figures whose price is missing await it, exactly where the
period has bounds and every price the methods look up is one they can use or await. -/
theorem delivers_iff_payable (hhistory : VersionHistory s) (hcall : c.WellCalled s)
    (hstored : PayloadsStored s.evidence.books) {n : ℕ} :
    c.Delivers s n ↔ ∃ bounds, periodBounds c.period = .ok bounds ∧ c.Payable s bounds := by
  rw [delivers_iff_feasible hhistory hcall, feasible_outcomes]
  constructor
  · rintro ⟨⟨⟨d, hcost, haccepted⟩, hseats, hhours, hcontainment⟩, hawaits⟩
    obtain ⟨bounds, hbounds, -⟩ := bind_eq_ok hcost
    have hbounds := eq_ok_of_liftPython hbounds
    obtain ⟨hawaitsCost, hawaitsSeats, hawaitsHours⟩ := awaitsPrices_iff.1 (hawaits bounds hbounds)
    refine ⟨bounds, hbounds, ?_, ?_, ?_, ?_⟩
    · exact (cost_iff hbounds).1 ⟨⟨d, hcost, haccepted⟩, hawaitsCost⟩
    · exact (seats_iff hbounds).1 ⟨hseats, hawaitsSeats⟩
    · exact (hours_iff hbounds (jsonbOk_parameters hstored)).1 ⟨hhours, hawaitsHours⟩
    · exact fun hagent => (containment_iff hbounds).1 (hcontainment hagent)
  · rintro ⟨bounds, hbounds, hpayable⟩
    obtain ⟨hcost, hawaitsCost⟩ := (cost_iff hbounds).2 hpayable.cost
    obtain ⟨hseats, hawaitsSeats⟩ := (seats_iff hbounds).2 hpayable.seats
    obtain ⟨hhours, hawaitsHours⟩ :=
      (hours_iff hbounds (jsonbOk_parameters hstored)).2 hpayable.hours
    refine ⟨⟨hcost, hseats, hhours, fun hagent => ?_⟩, fun bounds' hbounds' => ?_⟩
    · exact (containment_iff hbounds).2 (hpayable.containment hagent)
    · cases hbounds.symm.trans hbounds'
      exact awaitsPrices_iff.2 ⟨hawaitsCost, hawaitsSeats, hawaitsHours⟩

/-! ### July without a price -/

/-- `compute_deployment` for July. -/
def julyFigures : Computation ℚ :=
  ⟨.utc, ⟨fun _ => none, id⟩, exactFloats, 1, 1, py "2026-07"⟩

/-- Nothing is computed yet; a license may have been declared, without its price. -/
def julyRecords (licenses : List LicenseRow) : Records :=
  (∅ : Records).insert .evidence ⟨∅, { sampleBooks with licenses := licenses }⟩

theorem julyRecords_history (licenses : List LicenseRow) :
    VersionHistory (julyRecords licenses) :=
  versionHistory_of_noFigures fun _ hk => AList.lookup_insert_ne hk

theorem evidence_julyRecords (licenses : List LicenseRow) : (julyRecords licenses).evidence =
    ⟨∅, { sampleBooks with licenses := licenses }⟩ := by
  rw [julyRecords, Records.evidence, AList.lookup_insert]
  rfl

theorem julyFigures_called (licenses : List LicenseRow) :
    julyFigures.WellCalled (julyRecords licenses) := by
  refine ⟨⟨⟨1, 1, .saasTool⟩, ?_, rfl, rfl⟩, by decide⟩
  rw [evidence_julyRecords]
  exact List.mem_singleton_self _

theorem julyFigures_stored (licenses : List LicenseRow) :
    PayloadsStored (julyRecords licenses).evidence.books := by
  rw [evidence_julyRecords]
  exact fun _ hp => absurd hp List.not_mem_nil

/-- Without a license the figures are delivered; with one that has no price the call fails. -/
theorem delivers_iff_payable_july : julyFigures.Delivers (julyRecords []) 0 ∧
    ¬ julyFigures.Delivers (julyRecords [⟨1, 1, .month, 5, none, "USD", 739798, none⟩]) 0 := by
  constructor
  · refine (delivers_iff_payable (julyRecords_history _) (julyFigures_called _)
      (julyFigures_stored _)).2 ⟨(739798, 739828), by decide +kernel, ?_⟩
    have hroom : ∀ word ∈ [py "fig_cost_", py "fig_seats_"],
        (julyRecords []).nextVersion 1 (word ++ py "2026-07") ≤ integerMax := by decide +kernel
    obtain ⟨hcost, hseats, -⟩ := List.forall_mem_cons.1 hroom |>.imp_right List.forall_mem_cons.1
    refine ⟨⟨hcost, .inl rfl⟩, ⟨hseats, ?_⟩, ?_, ?_⟩
    · exact fun _ hl => absurd hl (by simp [license, evidence_julyRecords])
    · intro hpaired
      exact absurd rfl hpaired
    · intro hagent
      simp [deploymentType, evidence_julyRecords, sampleBooks, julyFigures] at hagent
  · rw [delivers_iff_payable (julyRecords_history _) (julyFigures_called _) (julyFigures_stored _)]
    rintro ⟨bounds, -, hpayable⟩
    obtain ⟨q, hq, -⟩ := hpayable.seats.2 ⟨1, 1, .month, 5, none, "USD", 739798, none⟩
      (by simp [license, evidence_julyRecords, julyFigures])
    simp [seatQuote, parameters, evidence_julyRecords, sampleBooks, Books.resolveParameterVersion,
      Books.parameterSetAt] at hq

end Computation

end TrueFigure.Server
