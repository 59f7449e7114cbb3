import TrueFigure.Server.Reports
import Mathlib.Data.List.Infix

/-!
# Where the artifacts of reports lie

A path is decided by workspace, period and version, but versions count per
deployment. So an artifact stays the document it was issued as exactly as long
as no other deployment of the workspace comes to its version for its period.
-/
namespace TrueFigure.Server

open TrueFigure.Library TrueFigure.Python

/-! ### Paths -/

/-- Neither `/` nor `.`, which separate the parts of a path. -/
def plainChar (c : CodePoint) : Bool := c != chr '/' && c != chr '.'

theorem plainChar_of_isDigit {c : CodePoint} (h : isDigit c = true) : plainChar c = true := by
  simp only [isDigit, Bool.and_eq_true, decide_eq_true_eq] at h
  have hslash : c ≠ chr '/' := by
    rintro rfl
    exact absurd h (by decide)
  have hdot : c ≠ chr '.' := by
    rintro rfl
    exact absurd h (by decide)
  simp [plainChar, hslash, hdot]

theorem plainChar_numeral {n : ℕ} : (py (toString n)).all plainChar = true :=
  List.all_eq_true.2 fun _ hc => plainChar_of_isDigit (isDigit_of_mem_numeral hc)

theorem plainChar_period {period : PyStr} (h : periodOk period = true) :
    period.all plainChar = true := by
  simp only [periodOk, Bool.and_eq_true, decide_eq_true_eq, List.all_eq_true] at h
  obtain ⟨⟨⟨-, hyear⟩, hdash⟩, hrest⟩ := h
  have hsplit : period = period.take 4 ++ (py "-" ++ period.drop 5) := by
    rw [← hdash, ← List.drop_drop (i := 1) (j := 4), List.take_append_drop,
      List.take_append_drop]
  have hnames : ([py "q1", py "q2", py "q3", py "q4", py "01", py "02", py "03", py "04", py "05",
      py "06", py "07", py "08", py "09", py "10", py "11", py "12"].all
        fun p => p.all plainChar) = true := by decide
  have hyear' : (period.take 4).all plainChar = true :=
    List.all_eq_true.2 fun c hc => plainChar_of_isDigit (hyear c hc)
  rw [hsplit, List.all_append, List.all_append, hyear',
    List.all_eq_true.1 hnames _ (List.contains_iff_mem.1 hrest)]
  decide

theorem not_mem_of_plain {s : PyStr} (h : s.all plainChar = true) {c : CodePoint}
    (hc : plainChar c = false) : c ∉ s := by
  intro hmem
  rw [List.all_eq_true.1 h c hmem] at hc
  cases hc

theorem plainChar_reportRef {period : PyStr} (h : periodOk period = true) :
    (reportRefOf period).all plainChar = true := by
  rw [reportRefOf, List.all_append, plainChar_period h]
  decide

/-- The parts of a file name are plain. -/
theorem artifactPathOf_eq (ws v : ℕ) (ref : PyStr) : artifactPathOf ws ref v =
    joined (chr '/') [py (toString ws),
      joined (chr '.') [ref, py "v" ++ py (toString v), py "json"]] := by
  simp [artifactPathOf, joined, py, chr]

theorem artifactPathOf_inj {ws ws' v v' : ℕ} {p p' : PyStr} (hp : periodOk p = true)
    (hp' : periodOk p' = true)
    (h : artifactPathOf ws (reportRefOf p) v = artifactPathOf ws' (reportRefOf p') v') :
    ws = ws' ∧ p = p' ∧ v = v' := by
  have hname : ∀ {v : ℕ} {p : PyStr}, periodOk p = true →
      ∀ f ∈ [reportRefOf p, py "v" ++ py (toString v), py "json"], f.all plainChar = true := by
    intro v p hp f hf
    simp only [List.mem_cons, List.not_mem_nil, or_false] at hf
    rcases hf with rfl | rfl | rfl
    · exact plainChar_reportRef hp
    · rw [List.all_append, plainChar_numeral]
      decide
    · decide
  have hdirectory : ∀ {ws v : ℕ} {p : PyStr}, periodOk p = true →
      ∀ f ∈ [py (toString ws), joined (chr '.') [reportRefOf p, py "v" ++ py (toString v),
        py "json"]], chr '/' ∉ f := by
    intro ws v p hp f hf
    simp only [List.mem_cons, List.not_mem_nil, or_false] at hf
    rcases hf with rfl | rfl
    · exact not_mem_of_plain plainChar_numeral (by decide)
    · intro hmem
      rcases mem_joined hmem with hdot | ⟨f, hf, hslash⟩
      · exact absurd hdot (by decide)
      · exact not_mem_of_plain (hname hp f hf) (by decide) hslash
  rw [artifactPathOf_eq, artifactPathOf_eq] at h
  have hparts := joined_injOn (by simp) (by simp) (hdirectory hp) (hdirectory hp') h
  simp only [List.cons.injEq, and_true] at hparts
  obtain ⟨hws, hfile⟩ := hparts
  have hnames := joined_injOn (by simp) (by simp)
    (fun f hf => not_mem_of_plain (hname hp f hf) (by decide))
    (fun f hf => not_mem_of_plain (hname hp' f hf) (by decide)) hfile
  simp only [List.cons.injEq, and_true, List.append_cancel_left_eq, reportRefOf] at hnames
  exact ⟨numeral_injective hws, hnames.1, numeral_injective hnames.2⟩

/-! ### One call -/

variable {collate : PyStr → PyStr → Bool} {s s' : Archive} {c : Issue} {path : PyStr}
  {artifact : Artifact}

def Archive.comesTo (s : Archive) (c : Issue) : ℕ :=
  s.nextVersion c.deploymentId (reportRefOf c.period)

/-- The call passes the constraints of `reports`. -/
structure Archive.Accepts (s : Archive) (c : Issue) : Prop where
  version : s.comesTo c ≤ integerMax
  period : periodOk c.period = true
  deployment : c.deploymentId ∈ s.deployments

/-- The row a call adds. -/
structure RowOf (s : Archive) (c : Issue) (path : PyStr) (row : ReportRow) : Prop where
  deployment : row.deploymentId = c.deploymentId
  ref : row.reportRef = reportRefOf row.period
  version : row.version = s.comesTo c
  period : row.period = c.period
  located : row.artifactPath = path
  named : path = artifactPathOf c.workspaceId (reportRefOf c.period) (s.comesTo c)

theorem bindReport_eq_ok (h : s.bindReport collate c = .ok (s', path, artifact)) :
    s.Accepts c ∧ s'.objects = s.objects ∧
      ∃ row, RowOf s c path row ∧ s'.reports = s.reports ++ [row] := by
  unfold Archive.bindReport at h
  extract_lets figs gradeProfile reportRef version artifactPath row bound at h
  split_ifs at h with hversion hperiod hdeployment
  simp only [Except.ok.injEq, Prod.mk.injEq] at h
  obtain ⟨rfl, hpath, -⟩ := h
  have hversion : s.comesTo c ≤ integerMax := Nat.le_of_not_lt hversion
  exact ⟨⟨hversion, by simpa using hperiod, by simpa using hdeployment⟩, rfl, row,
    ⟨rfl, rfl, rfl, rfl, hpath, hpath.symm⟩, rfl⟩

variable (collate) in
theorem exists_bindReport (h : s.Accepts c) :
    ∃ r, s.bindReport collate c = .ok r := by
  unfold Archive.bindReport
  extract_lets figs gradeProfile reportRef version artifactPath row bound
  have hversion : ¬ integerMax < version := Nat.not_lt.2 h.version
  rw [if_neg hversion, if_neg (by simp [h.period]), if_neg (by simp [h.deployment])]
  exact ⟨_, rfl⟩

theorem lt_comesTo {row : ReportRow} (hrow : row ∈ s.reports)
    (hdeployment : row.deploymentId = c.deploymentId) (href : row.reportRef = reportRefOf c.period) :
    row.version < s.comesTo c := by
  have hle : ∀ (xs : List ℕ) x, x ∈ xs → x ≤ xs.foldr max 0 := by
    intro xs
    induction xs with
    | nil => nofun
    | cons y xs ih =>
      intro x hx
      rw [List.foldr_cons]
      rcases List.mem_cons.1 hx with rfl | hx
      · exact le_max_left _ _
      · exact (ih x hx).trans (le_max_right _ _)
  refine Nat.lt_succ_of_le (hle _ _ (List.mem_map_of_mem (List.mem_filter.2 ⟨hrow, ?_⟩)))
  simpa using ⟨hdeployment, href⟩

/-- The artifact of the row lies in the directory of this workspace. -/
def ReportRow.IssuedUnder (row : ReportRow) (workspaceId : ℕ) : Prop :=
  row.artifactPath = artifactPathOf workspaceId row.reportRef row.version

/-- No other deployment has a report of this workspace and period with the
version the call comes to. -/
def Archive.Solo (s : Archive) (c : Issue) : Prop :=
  ∀ row ∈ s.reports, row.deploymentId ≠ c.deploymentId → row.period = c.period →
    row.version = s.comesTo c → ¬ row.IssuedUnder c.workspaceId

/-- Every row was issued under some workspace. -/
def RowsOk (s : Archive) : Prop :=
  ∀ row ∈ s.reports, periodOk row.period = true ∧ row.reportRef = reportRefOf row.period ∧
    ∃ ws, row.IssuedUnder ws

/-- A call takes a path of its own exactly when it is solo. -/
theorem fresh_iff_solo (hrows : RowsOk s) (hperiod : periodOk c.period = true) :
    artifactPathOf c.workspaceId (reportRefOf c.period) (s.comesTo c) ∉
      s.reports.map ReportRow.artifactPath ↔ s.Solo c := by
  constructor
  · intro hfresh row hrow hdeployment hsame hversion hunder
    obtain ⟨-, href, -⟩ := hrows row hrow
    refine hfresh (List.mem_map.2 ⟨row, hrow, ?_⟩)
    rw [hunder, href, hsame, hversion]
  · intro hsolo hmem
    obtain ⟨row, hrow, hpath⟩ := List.mem_map.1 hmem
    obtain ⟨hok, href, ws, hunder⟩ := hrows row hrow
    have hpaths := hunder.symm.trans hpath
    rw [href] at hpaths
    obtain ⟨rfl, hsame, hversion⟩ := artifactPathOf_inj hok hperiod hpaths
    by_cases hdeployment : row.deploymentId = c.deploymentId
    · have hlt := lt_comesTo hrow hdeployment (href.trans (congrArg reportRefOf hsame))
      omega
    · exact hsolo row hrow hdeployment hsame hversion hunder

/-! ### Runs -/

variable {calls : List ReportCall}

theorem archiveAfter_append (calls more : List ReportCall) : archiveAfter collate (calls ++ more) =
    more.foldl (Archive.perform collate) (archiveAfter collate calls) :=
  List.foldl_append

theorem archiveAfter_snoc (calls : List ReportCall) (call : ReportCall) :
    archiveAfter collate (calls ++ [call]) = (archiveAfter collate calls).perform collate call := by
  rw [archiveAfter_append]
  rfl

theorem perform_issue_reports (hbind : s.bindReport collate c = .ok (s', path, artifact)) :
    (s.perform collate (.issue c)).reports = s'.reports := by
  rw [Archive.perform, Archive.issueReport, hbind]
  dsimp only
  split_ifs
  · rfl
  · rfl

variable (collate) in
/-- What a call does to rows and objects. -/
theorem perform_cases (s : Archive) (call : ReportCall) :
    ((s.perform collate call).reports = s.reports ∧ (s.perform collate call).objects = s.objects) ∨
      ∃ c s' path artifact row, call = .issue c ∧
        s.bindReport collate c = .ok (s', path, artifact) ∧ RowOf s c path row ∧
        (s.perform collate call).reports = s.reports ++ [row] ∧
        ∀ p, p ≠ path → (s.perform collate call).objects p = s.objects p := by
  cases call with
  | change figures deployments => exact .inl ⟨rfl, rfl⟩
  | issue c =>
    cases hbind : s.bindReport collate c with
    | error e =>
      refine .inl ?_
      rw [Archive.perform, Archive.issueReport, hbind]
      exact ⟨rfl, rfl⟩
    | ok r =>
      obtain ⟨s', path, artifact⟩ := r
      obtain ⟨-, hobjects, row, hrow, hreports⟩ := bindReport_eq_ok hbind
      refine .inr ⟨c, s', path, artifact, row, rfl, hbind, hrow, ?_, ?_⟩
      · rw [perform_issue_reports hbind, hreports]
      · intro p hp
        rw [Archive.perform, Archive.issueReport, hbind, ← hobjects]
        dsimp only
        split_ifs
        · exact Function.update_of_ne hp _ _
        · rfl

theorem rowsOk_archiveAfter (calls : List ReportCall) : RowsOk (archiveAfter collate calls) := by
  induction calls using List.reverseRecOn with
  | nil => exact fun row hrow => nomatch hrow
  | append_singleton calls call ih =>
    rw [archiveAfter_snoc]
    rcases perform_cases collate (archiveAfter collate calls) call with ⟨hreports, -⟩ |
      ⟨c, s', path, artifact, row, -, hbind, hrow, hreports, -⟩
    · intro row hrow
      rw [hreports] at hrow
      exact ih row hrow
    · intro row' hrow'
      rw [hreports, List.mem_append, List.mem_singleton] at hrow'
      rcases hrow' with hold | rfl
      · exact ih row' hold
      · obtain ⟨haccepts, -⟩ := bindReport_eq_ok hbind
        refine ⟨hrow.period ▸ haccepts.period, hrow.ref, c.workspaceId, ?_⟩
        rw [ReportRow.IssuedUnder, hrow.located, hrow.named, hrow.ref, hrow.period, hrow.version]

/-- No two reports share a path, and every artifact storage took is still the
document its version was issued with. -/
structure Immutable (collate : PyStr → PyStr → Bool) (calls : List ReportCall) : Prop where
  paths : ((archiveAfter collate calls).reports.map ReportRow.artifactPath).Nodup
  documents : ∀ pre c post s' path artifact, calls = pre ++ .issue c :: post → c.stored = true →
    (archiveAfter collate pre).bindReport collate c = .ok (s', path, artifact) →
      (archiveAfter collate calls).objects path = some artifact

theorem path_mem_of_issued {pre : List ReportCall} (post : List ReportCall)
    (hbind : (archiveAfter collate pre).bindReport collate c = .ok (s', path, artifact)) :
    path ∈ (archiveAfter collate (pre ++ .issue c :: post)).reports.map ReportRow.artifactPath := by
  induction post using List.reverseRecOn with
  | nil =>
    obtain ⟨-, -, row, hrow, hreports⟩ := bindReport_eq_ok hbind
    rw [archiveAfter_snoc, perform_issue_reports hbind, hreports]
    simp [hrow.located]
  | append_singleton post call ih =>
    rw [← List.cons_append, ← List.append_assoc, archiveAfter_snoc]
    rcases perform_cases collate (archiveAfter collate (pre ++ .issue c :: post)) call
      with ⟨hreports, -⟩ | ⟨-, -, -, -, row, -, -, -, hreports, -⟩
    · rw [hreports]
      exact ih
    · rw [hreports, List.map_append]
      exact List.mem_append_left _ ih

theorem immutable_of_solo
    (h : ∀ pre c, pre ++ [.issue c] <+: calls → (archiveAfter collate pre).Accepts c →
      (archiveAfter collate pre).Solo c) : Immutable collate calls := by
  induction calls using List.reverseRecOn with
  | nil =>
    refine ⟨List.nodup_nil, fun pre c post s' path artifact hcalls => ?_⟩
    simp at hcalls
  | append_singleton calls call ih =>
    have hprefix := ih fun pre c hpre => h pre c (hpre.trans (List.prefix_append _ _))
    have hfresh : ∀ c s' path artifact, call = .issue c →
        (archiveAfter collate calls).bindReport collate c = .ok (s', path, artifact) →
        path ∉ (archiveAfter collate calls).reports.map ReportRow.artifactPath := by
      rintro c s' path artifact rfl hbind
      obtain ⟨haccepts, -, row, hrow, -⟩ := bindReport_eq_ok hbind
      rw [hrow.named, fresh_iff_solo (rowsOk_archiveAfter calls) haccepts.period]
      exact h calls c (List.prefix_refl _) haccepts
    have hcases := perform_cases collate (archiveAfter collate calls) call
    constructor
    · rw [archiveAfter_snoc]
      rcases hcases with ⟨hreports, -⟩ | ⟨c, s', path, artifact, row, rfl, hbind, hrow, hreports, -⟩
      · rw [hreports]
        exact hprefix.paths
      · rw [hreports, List.map_append, List.map_singleton, hrow.located,
          ← List.concat_eq_append, List.nodup_concat]
        exact ⟨hfresh c s' path artifact rfl hbind, hprefix.paths⟩
    · intro pre c post s' path artifact hcalls hstored hbind
      rcases List.eq_nil_or_concat post with rfl | ⟨post, last, rfl⟩
      · obtain ⟨rfl, hlast⟩ := List.append_inj' hcalls rfl
        obtain rfl : call = .issue c := List.singleton_inj.1 hlast
        rw [archiveAfter_snoc, Archive.perform, Archive.issueReport, hbind]
        simp only [hstored, if_true]
        exact Function.update_self _ _ _
      · rw [List.concat_eq_append, ← List.cons_append, ← List.append_assoc] at hcalls
        obtain ⟨rfl, hlast⟩ := List.append_inj' hcalls rfl
        obtain rfl : call = last := List.singleton_inj.1 hlast
        have hkept := hprefix.documents pre c post s' path artifact rfl hstored hbind
        have hmem := path_mem_of_issued post hbind
        rw [archiveAfter_snoc]
        rcases hcases with ⟨-, hobjects⟩ | ⟨c', s'', path', artifact', row, rfl, hbind', -, -, hobjects⟩
        · rw [hobjects]
          exact hkept
        · rw [hobjects path fun heq => hfresh c' s'' path' artifact' rfl hbind' (heq ▸ hmem)]
          exact hkept

/-- In every state of a run the artifacts are the documents issued, exactly when
every call that adds a row is solo. -/
theorem immutable_iff_solo (collate : PyStr → PyStr → Bool) (calls : List ReportCall) :
    (∀ pre, pre <+: calls → Immutable collate pre) ↔
      ∀ pre c, pre ++ [.issue c] <+: calls → (archiveAfter collate pre).Accepts c →
        (archiveAfter collate pre).Solo c := by
  constructor
  · intro h pre c hpre haccepts
    obtain ⟨⟨s', path, artifact⟩, hbind⟩ := exists_bindReport collate haccepts
    obtain ⟨-, -, row, hrow, hreports⟩ := bindReport_eq_ok hbind
    have hnodup := (h _ hpre).paths
    rw [archiveAfter_snoc, perform_issue_reports hbind, hreports, List.map_append,
      List.map_singleton, ← List.concat_eq_append, List.nodup_concat, hrow.located,
      hrow.named] at hnodup
    exact (fresh_iff_solo (rowsOk_archiveAfter pre) haccepts.period).1 hnodup.1
  · intro h pre hpre
    exact immutable_of_solo fun pre' c hpre' => h pre' c (hpre'.trans hpre)

/-! ### Two deployments of a workspace -/

def costFigure (id deploymentId : ℕ) (value : Numeric) : FigureRow where
  id := id
  deploymentId := deploymentId
  figureRef := py "fig_cost_2026-07"
  version := 1
  period := py "2026-07"
  figureStatus := .computed
  gradeType := some .measured
  claim := some (py "priced_cost")
  value := some (.number value)

def july (deploymentId : ℕ) : Issue where
  workspaceId := 1
  deploymentId := deploymentId
  period := py "2026-07"
  now := 0
  stored := true

/-- Deployments 1 and 2 of workspace 1 are each issued a report for July. -/
def julyReports : List ReportCall :=
  [.change [costFigure 1 1 ⟨5000000, by decide⟩, costFigure 2 2 .zero] [1, 2],
    .issue (july 1), .issue (july 2)]

/-- Both reports have one path, and the second document has replaced the first. -/
theorem julyReports_overwrites :
    ((archiveAfter (fun _ _ => true) julyReports).reports.map fun r =>
      (r.deploymentId, r.artifactPath)) =
        [(1, py "1/rep_2026-07.v1.json"), (2, py "1/rep_2026-07.v1.json")] ∧
    (((archiveAfter (fun _ _ => true) julyReports).objects
      (py "1/rep_2026-07.v1.json")).map fun a => a.figures.map ArtifactFigure.value) =
        some [some (.number .zero)] ∧
    ¬ Immutable (fun _ _ => true) julyReports := by
  refine ⟨by decide +kernel, by decide +kernel, fun h => ?_⟩
  have hpaths := h.paths
  revert hpaths
  decide +kernel

end TrueFigure.Server
