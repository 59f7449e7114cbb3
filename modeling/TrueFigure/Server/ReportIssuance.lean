import TrueFigure.Server.EngineCalls

/-!
# Issuance and storage

The rows of a report are committed before its artifact is put into storage. Up to the commit
an issuance is taken back as a whole; after it, a put that fails, or a crash before it, leaves
a report version whose document does not exist.
-/
namespace TrueFigure.Server

open TrueFigure.Library TrueFigure.Python

namespace EngineState

variable (s s' : EngineState)

/-- The path of the report a call comes to. -/
def issuePath (c : Issue) : PyStr :=
  artifactPathOf c.workspaceId (reportRefOf c.period) (issuedVersion c s.records)

/-- No row of `reports` or `report_figures` differs. -/
def SameReports : Prop :=
  (∀ d ref v, s'.records.lookup (.report d ref v) = s.records.lookup (.report d ref v)) ∧
    ∀ r f, s'.records.lookup (.reportFigure r f) = s.records.lookup (.reportFigure r f)

/-- The next version of a report, with a row of `report_figures` for exactly the figures its
document shows, and with its document. -/
def IssuedWhole (c : Issue) : Prop :=
  ∃ collate, ∃ row : ReportRow,
    s.records.lookup (.report c.deploymentId (reportRefOf c.period) (issuedVersion c s.records)) =
      none ∧
    s'.records.lookup (.report c.deploymentId (reportRefOf c.period) (issuedVersion c s.records)) =
      some row ∧
    (∀ f, (s'.records.lookup (.reportFigure row.id f)).isSome ↔
      f ∈ (boundBy collate c s.records).map fun f => f.id) ∧
    s'.objects row.artifactPath =
      some (artifactOf c (issuedVersion c s.records) (boundBy collate c s.records))

/-- Every report version has a document under its path. -/
def Documented : Prop :=
  ∀ d ref v (row : ReportRow), s.records.lookup (.report d ref v) = some row →
    (s.objects row.artifactPath).isSome

/-- A step issues a report as a whole, or adds nothing to the reports. -/
def Whole (l : EngineLabel) : Prop :=
  s.SameReports s' ∨ ∃ c, l = .issued c ∧ s.IssuedWhole s' c

end EngineState

/-- Every step of a run issues as a whole, and no report version is ever without a document. -/
def IssuesWhole (env : HookEnv) (s : EngineState) (trace : List (EngineState × EngineLabel))
    (s' : EngineState) : Prop :=
  Run (fun s l t => EngineStep env s l t ∧ s.Whole t l) s trace s' ∧ s'.Documented ∧
    ∀ x ∈ trace, x.1.Documented

/-- Storage takes the artifact of the call, if its transaction commits. -/
def EngineLabel.Stored (l : EngineLabel) : Prop := ∀ c, l = .issued c → c.stored = true

section Steps

variable {env : HookEnv} {s s' : EngineState} {l : EngineLabel}

theorem announceReport_objects (c : Issue) (announced : Bool) (artifact : Artifact) (now : ℕ) :
    (s.announceReport env c announced artifact now).objects = s.objects := by
  unfold EngineState.announceReport
  split_ifs <;> rfl

theorem announceReport_records (c : Issue) (announced : Bool) (artifact : Artifact) (now : ℕ) :
    (s.announceReport env c announced artifact now).records = s.records := by
  unfold EngineState.announceReport
  split_ifs <;> rfl

/-- A committed call: its rows, and what storage did with the artifact. -/
theorem issued_step {c : Issue} (hok : EngineOk s) (hs : EngineStep env s (.issued c) s') :
    ∃ collate, ∃ row : ReportRow,
      Issued collate c s.records s'.records s.sequence row ∧
        (∀ f, (s'.records.lookup (.reportFigure row.id f)).isSome ↔
          f ∈ (boundBy collate c s.records).map fun f => f.id) ∧
        (c.stored = true → s'.objects = Function.update s.objects (s.issuePath c)
          (some (artifactOf c (issuedVersion c s.records) (boundBy collate c s.records)))) ∧
        (c.stored = false → s'.objects (s.issuePath c) = s.objects (s.issuePath c) ∨
          s'.objects (s.issuePath c) = none) := by
  cases hs with
  | @issue collate _ n records path artifact torn announced now heval =>
    obtain ⟨row, hissued, -, -, hreply, -⟩ := issued_of_eval heval
    cases hreply
    have hpath : row.artifactPath = s.issuePath c := hissued.located
    refine ⟨collate, row, ?_, fun f => ?_, fun hstored => ?_, fun hstored => ?_⟩
    · rw [announceReport_records, put_records]
      exact hissued
    · rw [announceReport_records, put_records]
      exact isSome_reportFigure hissued hok.identified f
    · rw [announceReport_objects, EngineState.put, if_pos hstored, hpath]
    · rw [announceReport_objects, EngineState.put, if_neg (by simp [hstored]), hpath]
      split
      · exact .inr (Function.update_self _ _ _)
      · exact .inl rfl

/-- A step other than a committed issuance leaves reports and storage alone. -/
theorem unissued_step (hok : EngineOk s) (hs : EngineStep env s l s')
    (hl : ∀ c, l ≠ .issued c) : s.SameReports s' ∧ s'.objects = s.objects := by
  cases hs with
  | compute heval =>
    have hfigured := figured_of_computeDeployment hok.history heval
    exact ⟨⟨fun d ref v => hfigured.others _ (by simp), fun r f => hfigured.others _ (by simp)⟩, rfl⟩
  | issue => exact absurd rfl (hl _)
  | data =>
    exact ⟨⟨fun d ref v => AList.lookup_insert_ne (by simp),
      fun r f => AList.lookup_insert_ne (by simp)⟩, rfl⟩
  | undone | monitors | ack | hooks => exact ⟨⟨fun _ _ _ => rfl, fun _ _ => rfl⟩, rfl⟩

theorem EngineStep.whole (hs : EngineStep env s l s') (hok : EngineOk s) (hstored : l.Stored)
    (h : s.Documented) : s.Whole s' l ∧ s'.Documented := by
  by_cases hl : ∃ c, l = .issued c
  · obtain ⟨c, rfl⟩ := hl
    obtain ⟨collate, row, hissued, hbound, hput, -⟩ := issued_step hok hs
    have hobjects := hput (hstored c rfl)
    refine ⟨.inr ⟨c, rfl, collate, row, hissued.added, hissued.report, hbound, ?_⟩, ?_⟩
    · rw [hobjects, hissued.located]
      exact Function.update_self _ _ _
    · intro d ref v row' hrow
      rw [hobjects]
      by_cases hpath : row'.artifactPath = s.issuePath c
      · rw [hpath, Function.update_self]
        rfl
      · rw [Function.update_of_ne hpath]
        by_cases hkey : RecordKey.report d ref v =
            .report c.deploymentId (reportRefOf c.period) (issuedVersion c s.records)
        · cases hkey
          rw [hissued.report] at hrow
          cases hrow
          exact absurd hissued.located hpath
        · rw [hissued.others _ hkey (by simp)] at hrow
          exact h d ref v row' hrow
  · obtain ⟨hsame, hobjects⟩ := unissued_step hok hs fun c hc => hl ⟨c, hc⟩
    refine ⟨.inl hsame, fun d ref v row hrow => ?_⟩
    rw [hsame.1] at hrow
    rw [hobjects]
    exact h d ref v row hrow

end Steps

/-- Reports are issued as a whole in every run in which storage takes the artifact of each
committed issuance. Where it does not, the document is missing unless its path was taken. -/
theorem issuesWhole_of_stored {env : HookEnv} {s s' : EngineState}
    {trace : List (EngineState × EngineLabel)} (hstart : EngineStart s)
    (hrun : Run (EngineStep env) s trace s') :
    ((∀ x ∈ trace, x.2.Stored) → IssuesWhole env s trace s') ∧
      (IssuesWhole env s trace s' → ∀ x ∈ trace, ∀ c, x.2 = .issued c →
        c.stored = true ∨ (x.1.objects (x.1.issuePath c)).isSome) := by
  have hok : EngineOk s := engineOk_start hstart
  have hnone : s.Documented := by
    intro d ref v row hrow
    rw [hstart.rows _ (by simp)] at hrow
    cases hrow
  constructor
  · intro hstored
    have hsteps : ∀ s l t, (EngineOk s ∧ s.Documented) → EngineStep env s l t ∧ l.Stored →
        (EngineOk t ∧ t.Documented) := fun s l t h hs =>
      ⟨(hs.1.keeps h.1).1, (hs.1.whole h.1 hs.2 h.2).2⟩
    have hrun' := hrun.restrict (p := fun _ l => l.Stored) hstored
    obtain ⟨hend, htrace⟩ := hrun'.invariant ⟨hok, hnone⟩ hsteps
    refine ⟨?_, hend.2, fun x hx => (htrace x hx).2⟩
    refine (hrun'.restrict (p := fun s _ => EngineOk s ∧ s.Documented) htrace).mono fun s l t h => ?_
    exact ⟨h.1.1, (h.1.1.whole h.2.1 h.1.2 h.2.2).1⟩
  · rintro ⟨hwhole, -, -⟩ x hx c hlabel
    obtain ⟨u, hs, hu⟩ := hwhole.step_of_mem hx
    have hxok := (engineOk_reachable hstart hrun).2 x hx
    rw [hlabel] at hs hu
    obtain ⟨collate, row, hissued, -, -, hlost⟩ := issued_step hxok hs
    rcases hu with hsame | ⟨c', hc', collate', row', -, hrow', -, hobject⟩
    · have hsome := hsame.1 c.deploymentId (reportRefOf c.period) (issuedVersion c x.1.records)
      rw [hissued.report, hissued.added] at hsome
      cases hsome
    · cases hc'
      rw [hissued.report] at hrow'
      cases hrow'
      rw [hissued.located] at hobject
      cases hstored : c.stored with
      | true => exact .inl rfl
      | false =>
        rcases hlost hstored with hkept | htorn
        · refine .inr ?_
          rw [← hkept]
          exact Option.isSome_iff_exists.2 ⟨_, hobject⟩
        · cases htorn.symm.trans hobject

/-! ### One issuance -/

/-- Deployment 1 is known, nothing has been issued. -/
def unissued : EngineState :=
  ⟨(∅ : Records).insert .evidence ⟨∅, sampleBooks⟩, 0, ⟨∅, [], .empty, by decide⟩, fun _ => none⟩

theorem engineStart_unissued : EngineStart unissued :=
  ⟨fun _ hk => AList.lookup_insert_ne hk, rfl⟩

/-- A call for July whose artifact storage takes or not. -/
def julyCall (stored : Bool) : Issue := { julyIssue with stored := stored }

theorem mem_sampleBooks : (⟨1, 1, .saasTool⟩ : MeasuredDeployment) ∈ sampleBooks.deployments :=
  List.mem_cons_self

theorem issuable_julyCall (stored : Bool) : Issuable (julyCall stored) unissued.records :=
  ⟨by cases stored <;> decide, by cases stored <;> decide, ⟨1, 1, .saasTool⟩, mem_sampleBooks, rfl⟩

theorem run_julyCall (stored : Bool) : ∃ s', Run (EngineStep sampleHookEnv) unissued
    [(unissued, .issued (julyCall stored))] s' := by
  have hok := engineOk_start engineStart_unissued
  obtain ⟨⟨a, records⟩, heval⟩ := @exists_issue (fun _ _ => true) _ _ _ hok.history.kept
    hok.identified (issuable_julyCall stored)
  obtain ⟨row, -, -, -, rfl, -⟩ := issued_of_eval heval
  exact ⟨_, .single (.issue false true 0 heval)⟩

/-- Four work items handled, nothing computed. -/
def uncomputed : EngineState :=
  { unissued with records := (∅ : Records).insert .evidence (handledEvidence true none) }

theorem engineStart_uncomputed : EngineStart uncomputed :=
  ⟨fun _ hk => AList.lookup_insert_ne hk, rfl⟩

/-- `compute_deployment` for July. -/
def julyComputation : RecordTxn :=
  computeDeployment .utc ⟨fun _ => none, id⟩ exactFloats 1 1 (py "2026-07")

/-- A figure of July that its report is to bind. -/
def bindable (records : Records) (f : FigureRow) : Bool :=
  f.deploymentId = 1 ∧ f.period = py "2026-07" ∧
    ∀ g ∈ (records.archive 0).figures, g.version ≤ f.version

/-- The July report can be issued on what was written. -/
def readyForJuly : Except Failure (RecordReply × Records) × ℕ → Bool
  | (.ok (.written _, records), _) =>
    ((records.lookup (.figure 1 (py "fig_time_2026-07") 1)).any fun f : Figure =>
      f.period = py "2026-07") && (records.archive 0).figures.any (bindable records) &&
      decide (issuedVersion julyIssue records ≤ integerMax) &&
      (Records.evidence records).books.deployments.any fun d => d.id = 1
  | _ => false

theorem exists_computed : ∃ refs records n,
    julyComputation.eval uncomputed.records 0 = (.ok (.written refs, records), n) ∧
      (∃ f : Figure, records.lookup (.figure 1 (py "fig_time_2026-07") 1) = some f ∧
        f.period = py "2026-07") ∧
      (∀ collate, ∃ f, f ∈ boundBy collate julyIssue records) ∧ Issuable julyIssue records := by
  have h : readyForJuly (julyComputation.eval uncomputed.records 0) = true := by decide +kernel
  unfold readyForJuly at h
  split at h
  · rename_i refs records n heval
    simp only [Bool.and_eq_true, Option.any_eq_true, decide_eq_true_eq, List.any_eq_true] at h
    obtain ⟨⟨⟨⟨f, hf, hperiod⟩, g, hg, hbindable⟩, hversion⟩, hknown⟩ := h
    simp only [bindable, decide_eq_true_eq] at hbindable
    obtain ⟨hdeployment, hjuly, hnewest⟩ := hbindable
    refine ⟨refs, records, n, heval, ⟨f, hf, hperiod⟩, fun collate => ⟨g, ?_⟩,
      hversion, by decide, hknown⟩
    exact mem_boundBy.2 ⟨⟨hg, hdeployment, hjuly⟩, fun g' hg' _ _ _ => hnewest g' hg'⟩
  · cases h

/-- The figures of July are computed, then its report is issued and binds some of them. -/
theorem issuesWhole_of_stored_july : ∃ trace s', IssuesWhole sampleHookEnv uncomputed trace s' ∧
    ∃ v, ∃ row : ReportRow, s'.records.lookup (.report 1 (py "rep_2026-07") v) = some row ∧
      ∃ f, (s'.records.lookup (.reportFigure row.id f)).isSome := by
  obtain ⟨refs, records, n, hcompute, -, hbound, hissuable⟩ := exists_computed
  have hs : EngineStep sampleHookEnv uncomputed .other _ :=
    @EngineStep.compute _ _ _ _ _ _ _ _ _ _ _ _ id _ hcompute List.nil_prefix
  have hok := (hs.keeps (engineOk_start engineStart_uncomputed)).1
  obtain ⟨⟨a, records'⟩, heval⟩ := @exists_issue (fun _ _ => true) (julyCall true) _ _
    hok.history.kept hok.identified hissuable
  obtain ⟨row, -, -, -, rfl, -⟩ := issued_of_eval heval
  have hs' := @EngineStep.issue sampleHookEnv _ _ _ _ _ _ _ false true 0 heval
  refine ⟨_, _, (issuesWhole_of_stored engineStart_uncomputed (.head hs (.single hs'))).1 ?_, ?_⟩
  · intro x hx c hlabel
    rcases List.mem_pair.1 hx with rfl | rfl <;> cases hlabel
    rfl
  · obtain ⟨collate, row, hissued, hfigures, -⟩ := issued_step hok hs'
    obtain ⟨f, hf⟩ := hbound collate
    exact ⟨_, row, hissued.report, f.id, (hfigures f.id).2 (List.mem_map_of_mem hf)⟩

/-- The report is committed and storage does not take its artifact. -/
theorem july_without_document : ∃ s', Run (EngineStep sampleHookEnv) unissued
    [(unissued, .issued (julyCall false))] s' ∧ EngineStart unissued ∧
      (s'.records.lookup (.report 1 (py "rep_2026-07") 1)).isSome ∧
      s'.objects (py "1/rep_2026-07.v1.json") = none ∧
      ¬ IssuesWhole sampleHookEnv unissued [(unissued, .issued (julyCall false))] s' := by
  obtain ⟨s', hrun⟩ := run_julyCall false
  cases hrun with
  | head hs hrest =>
    cases hrest
    obtain ⟨collate, row, hissued, -, -, hlost⟩ :=
      issued_step (engineOk_start engineStart_unissued) hs
    have hpath : unissued.issuePath (julyCall false) = py "1/rep_2026-07.v1.json" := by decide
    have hobject : s'.objects (py "1/rep_2026-07.v1.json") = none := by
      rw [← hpath]
      exact (hlost rfl).elim id id
    have hreport : s'.records.lookup (.report 1 (py "rep_2026-07") 1) = some row := hissued.report
    refine ⟨s', .single hs, engineStart_unissued, by rw [hreport]; rfl, hobject, fun h => ?_⟩
    have hdocument := h.2.1 _ _ _ row hreport
    rw [hissued.located] at hdocument
    change (s'.objects (unissued.issuePath (julyCall false))).isSome at hdocument
    rw [hpath, hobject] at hdocument
    cases hdocument

end TrueFigure.Server
