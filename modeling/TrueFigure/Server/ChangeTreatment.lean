import TrueFigure.Server.Figures

/-!
# Change treatment

`_change_treatment` stamps a figure with the earliest change that applies to it. The
stamp speaks for all of them exactly where none of the others asks for more than the
earliest does.
-/
namespace TrueFigure.Server

open TrueFigure.Python

/-- How much of a measurement a change asks to adjust. -/
def ChangeRow.weight (c : ChangeRow) : ℕ :=
  if c.sidedType = .symmetric then 0 else if c.changeType = .toolChange then 2 else 1

def ChangeRow.treatment (c : ChangeRow) : PyStr :=
  if c.sidedType = .symmetric then py "symmetric_cancel"
  else if c.changeType = .toolChange then py "incumbent_tool_change_excluded"
  else py "one_sided_adjusted"

/-- An unsuperseded change of a period that applies to a deployment: scoped to it, or
to the whole workspace. -/
def ChangeRow.Applies (dayOf : ℤ → ℤ) (workspaceId deploymentId : ℕ) (start last : ℤ)
    (c : ChangeRow) : Prop :=
  c.workspaceId = workspaceId ∧ c.superseded = false ∧
    start ≤ dayOf c.occurredAt ∧ dayOf c.occurredAt ≤ last ∧
    (c.deploymentId = some deploymentId ∨ c.deploymentId = none)

instance (dayOf : ℤ → ℤ) (workspaceId deploymentId : ℕ) (start last : ℤ) :
    DecidablePred (ChangeRow.Applies dayOf workspaceId deploymentId start last) :=
  fun _ => inferInstanceAs (Decidable (_ ∧ _))

def Books.applicableChanges (b : Books) (dayOf : ℤ → ℤ) (workspaceId deploymentId : ℕ)
    (start last : ℤ) : List ChangeRow :=
  b.changeLog.filter (ChangeRow.Applies dayOf workspaceId deploymentId start last)

/-- The stamp speaks for all of these changes. -/
structure StampOk (rows : List ChangeRow) (stamp : Option PyStr) : Prop where
  oneSided : (∃ c ∈ rows, c.sidedType = .oneSided) →
    stamp = some (py "one_sided_adjusted") ∨ stamp = some (py "incumbent_tool_change_excluded")
  toolChange : (∃ c ∈ rows, c.sidedType = .oneSided ∧ c.changeType = .toolChange) →
    stamp = some (py "incumbent_tool_change_excluded")
  symmetric : stamp = some (py "symmetric_cancel") → ∀ c ∈ rows, c.sidedType = .symmetric
  absent : stamp = none → rows = []

/-- `_change_treatment` speaks for all applicable changes, in whatever order they were
declared and are read. -/
def Summarised (b : Books) (plan : Planner) (workspaceId deploymentId : ℕ) (start last : ℤ) :
    Prop :=
  ∃ stamp, StampOk (b.applicableChanges plan.dayOf workspaceId deploymentId start last) stamp ∧
    ∀ (plan' : Planner) (b' : Books), plan'.dayOf = plan.dayOf → b'.changeLog.Perm b.changeLog →
      b'.changeTreatment plan' workspaceId deploymentId start last = stamp

/-- A change of these that no other one precedes. -/
def Earliest (rows : List ChangeRow) (c : ChangeRow) : Prop :=
  c ∈ rows ∧ ∀ d ∈ rows, c.occurredAt ≤ d.occurredAt

section Stamp

variable {rows : List ChangeRow} {c d : ChangeRow}

theorem treatment_congr (h : c.weight = d.weight) : c.treatment = d.treatment := by
  unfold ChangeRow.weight at h
  unfold ChangeRow.treatment
  split_ifs at h ⊢ <;> first | rfl | omega

theorem ChangeRow.kinds (c : ChangeRow) :
    (c.sidedType = .symmetric ∧ c.weight = 0 ∧ c.treatment = py "symmetric_cancel") ∨
      (c.sidedType = .oneSided ∧ c.changeType ≠ .toolChange ∧ c.weight = 1 ∧
        c.treatment = py "one_sided_adjusted") ∨
      (c.sidedType = .oneSided ∧ c.changeType = .toolChange ∧ c.weight = 2 ∧
        c.treatment = py "incumbent_tool_change_excluded") := by
  unfold ChangeRow.weight ChangeRow.treatment
  cases hsided : c.sidedType with
  | symmetric => simp
  | oneSided => by_cases htool : c.changeType = .toolChange <;> simp [htool]

theorem cancel_ne_adjusted : py "symmetric_cancel" ≠ py "one_sided_adjusted" := by decide

theorem cancel_ne_excluded : py "symmetric_cancel" ≠ py "incumbent_tool_change_excluded" := by
  decide

theorem adjusted_ne_excluded : py "one_sided_adjusted" ≠ py "incumbent_tool_change_excluded" := by
  decide

theorem StampOk.weight_le (h : StampOk rows (some c.treatment)) (hd : d ∈ rows) :
    d.weight ≤ c.weight := by
  rcases d.kinds with ⟨-, hweight, -⟩ | ⟨hsided, -, hweight, -⟩ | ⟨hsided, htool, hweight, -⟩
  · omega
  · rcases c.kinds with ⟨-, -, htreatment⟩ | ⟨-, -, hc, -⟩ | ⟨-, -, hc, -⟩
    · -- A one-sided change is not cancelled.
      rcases h.oneSided ⟨d, hd, hsided⟩ with hstamp | hstamp
      · exact absurd (htreatment.symm.trans (Option.some.inj hstamp)) cancel_ne_adjusted
      · exact absurd (htreatment.symm.trans (Option.some.inj hstamp)) cancel_ne_excluded
    · omega
    · omega
  · have hstamp := Option.some.inj (h.toolChange ⟨d, hd, hsided, htool⟩)
    rcases c.kinds with ⟨-, -, htreatment⟩ | ⟨-, -, -, htreatment⟩ | ⟨-, -, hc, -⟩
    · exact absurd (htreatment.symm.trans hstamp) cancel_ne_excluded
    · exact absurd (htreatment.symm.trans hstamp) adjusted_ne_excluded
    · omega

/-- The treatment of a change that weighs the most speaks for all. -/
theorem stampOk_of_weight_le (hle : ∀ d ∈ rows, d.weight ≤ c.weight) :
    StampOk rows (some c.treatment) := by
  constructor
  · rintro ⟨d, hd, hsided⟩
    have hd := hle d hd
    rcases c.kinds with ⟨-, hweight, -⟩ | ⟨-, -, -, htreatment⟩ | ⟨-, -, -, htreatment⟩
    · rcases d.kinds with ⟨hsymmetric, -⟩ | ⟨-, -, hdw, -⟩ | ⟨-, -, hdw, -⟩
      · cases hsided.symm.trans hsymmetric
      · omega
      · omega
    · exact .inl (congrArg some htreatment)
    · exact .inr (congrArg some htreatment)
  · rintro ⟨d, hd, hsided, htool⟩
    have hd := hle d hd
    have hdw : d.weight = 2 := by
      unfold ChangeRow.weight
      rw [hsided, htool]
      rfl
    rcases c.kinds with ⟨-, hweight, -⟩ | ⟨-, -, hweight, -⟩ | ⟨-, -, -, htreatment⟩
    · omega
    · omega
    · exact congrArg some htreatment
  · intro hstamp d hd
    have hd := hle d hd
    rcases c.kinds with ⟨-, hweight, -⟩ | ⟨-, -, -, htreatment⟩ | ⟨-, -, -, htreatment⟩
    · rcases d.kinds with ⟨hsymmetric, -⟩ | ⟨-, -, hdw, -⟩ | ⟨-, -, hdw, -⟩
      · exact hsymmetric
      · omega
      · omega
    · exact absurd ((Option.some.inj hstamp).symm.trans htreatment) cancel_ne_adjusted
    · exact absurd ((Option.some.inj hstamp).symm.trans htreatment) cancel_ne_excluded
  · intro hstamp
    cases hstamp

end Stamp

/-! ### The row the query keeps -/

section Earliest

variable {b b' : Books} {plan plan' : Planner} {ws dep : ℕ} {start last : ℤ} {rows : List ChangeRow}
  {c : ChangeRow}

/-- `ORDER BY occurred_at LIMIT 1`. -/
def earliestChange (rows : List ChangeRow) : Option ChangeRow :=
  @List.argmin _ _ Int.instLinearOrder.toPreorder Int.instLinearOrder.toDecidableLT
    ChangeRow.occurredAt rows

theorem changeTreatment_eq (b : Books) (plan : Planner) (ws dep : ℕ) (start last : ℤ) :
    b.changeTreatment plan ws dep start last =
      (earliestChange (plan.changes (b.applicableChanges plan.dayOf ws dep start last))).map
        ChangeRow.treatment := rfl

theorem earliest_of_earliestChange (h : earliestChange rows = some c) : Earliest rows c := by
  constructor
  · exact List.argmin_mem h
  · intro d hd
    exact List.le_of_mem_argmin hd h

/-- Of several earliest rows the query may keep any. -/
theorem earliestChange_cons (h : ∀ d ∈ rows, c.occurredAt ≤ d.occurredAt) :
    earliestChange (c :: rows) = some c := by
  unfold earliestChange
  rw [List.argmin_cons]
  cases hrest : List.argmin ChangeRow.occurredAt rows with
  | none => rfl
  | some d => exact if_neg (not_lt_of_ge (h d (List.argmin_mem hrest)))

theorem Earliest.perm {rows' : List ChangeRow} (h : Earliest rows c) (hperm : rows.Perm rows') :
    Earliest rows' c :=
  ⟨hperm.mem_iff.1 h.1, fun d hd => h.2 d (hperm.mem_iff.2 hd)⟩

theorem applicableChanges_perm (hday : plan'.dayOf = plan.dayOf)
    (hlog : b'.changeLog.Perm b.changeLog) :
    (b'.applicableChanges plan'.dayOf ws dep start last).Perm
      (b.applicableChanges plan.dayOf ws dep start last) := by
  rw [hday]
  exact hlog.filter _

theorem exists_planner_first (plan : Planner) (hc : c ∈ rows) :
    ∃ plan' : Planner, plan'.dayOf = plan.dayOf ∧ ∃ rest, plan'.changes rows = c :: rest ∧
      (c :: rest).Perm rows := by
  classical
  refine ⟨{ plan with
    changes := fun xs => if c ∈ xs then c :: xs.erase c else xs
    changes_rows := fun xs => ?_ }, rfl, rows.erase c, if_pos hc, ?_⟩
  · split_ifs with hmem
    · exact (List.perm_cons_erase hmem).symm
    · exact List.Perm.refl xs
  · exact (List.perm_cons_erase hc).symm

/-- The stamp speaks for all changes exactly where each of the earliest ones weighs
the most. -/
theorem summarised_iff : Summarised b plan ws dep start last ↔
    ∀ c, Earliest (b.applicableChanges plan.dayOf ws dep start last) c →
      ∀ d ∈ b.applicableChanges plan.dayOf ws dep start last, d.weight ≤ c.weight := by
  generalize hrows : b.applicableChanges plan.dayOf ws dep start last = rows
  constructor
  · rintro ⟨stamp, hok, hstamp⟩ c hc d hd
    rw [hrows] at hok
    obtain ⟨plan', hday, rest, hfirst, hperm⟩ := exists_planner_first plan hc.1
    have hread := hstamp plan' b hday (List.Perm.refl _)
    rw [changeTreatment_eq, hday, hrows, hfirst, earliestChange_cons fun e he =>
      hc.2 e (hperm.mem_iff.1 (List.mem_cons_of_mem c he))] at hread
    subst hread
    exact hok.weight_le hd
  · intro hweight
    cases hfirst : earliestChange rows with
    | none =>
      have hnil : rows = [] := List.argmin_eq_none.1 hfirst
      subst hnil
      have hok : StampOk [] none := ⟨by simp, by simp, by simp, by simp⟩
      refine ⟨none, hrows.symm ▸ hok, fun plan' b' hday hlog => ?_⟩
      have hperm := @applicableChanges_perm b b' plan plan' ws dep start last hday hlog
      rw [hrows] at hperm
      rw [changeTreatment_eq, List.Perm.eq_nil ((plan'.changes_rows _).trans hperm)]
      rfl
    | some c =>
      have hc := earliest_of_earliestChange hfirst
      refine ⟨some c.treatment, hrows ▸ stampOk_of_weight_le (hweight c hc),
        fun plan' b' hday hlog => ?_⟩
      have hperm := (plan'.changes_rows _).trans
        (@applicableChanges_perm b b' plan plan' ws dep start last hday hlog)
      rw [hrows] at hperm
      rw [changeTreatment_eq]
      cases hread : earliestChange
        (plan'.changes (b'.applicableChanges plan'.dayOf ws dep start last)) with
      | none =>
        rw [List.argmin_eq_none.1 hread] at hperm
        exact absurd (hperm.symm.eq_nil ▸ hc.1) List.not_mem_nil
      | some d =>
        have hd := (earliest_of_earliestChange hread).perm hperm
        have heq : d.weight = c.weight :=
          Nat.le_antisymm (hweight c hc d hd.1) (hweight d hd c hc.1)
        exact congrArg some (treatment_congr heq)

end Earliest

/-! ### A tool change after another change -/

/-- A process change on both sides on 2 July 2026, a tool change on one side a week
later. -/
def laterToolChange : Books where
  deployments := []
  parameterSets := []
  licenses := []
  changeLog :=
    [⟨1, none, false, .processChange, .symmetric, 63918547200000⟩,
      ⟨1, none, false, .toolChange, .oneSided, 63919152000000⟩]
  serviceUsers := []

theorem laterToolChange_cancelled :
    laterToolChange.changeTreatment .utc 1 1 739798 739828 = some (py "symmetric_cancel") ∧
      ¬ Summarised laterToolChange .utc 1 1 739798 739828 := by
  have hstamp : laterToolChange.changeTreatment .utc 1 1 739798 739828 =
      some (py "symmetric_cancel") := by decide +kernel
  refine ⟨hstamp, ?_⟩
  rintro ⟨stamp, hok, hread⟩
  rw [hread .utc laterToolChange rfl (List.Perm.refl _)] at hstamp
  have hexcluded := hok.toolChange
    ⟨⟨1, none, false, .toolChange, .oneSided, 63919152000000⟩,
      List.mem_filter.2 ⟨by simp [laterToolChange], by decide +kernel⟩, rfl, rfl⟩
  exact cancel_ne_excluded (Option.some.inj (hstamp.symm.trans hexcluded))

end TrueFigure.Server
