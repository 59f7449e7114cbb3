import TrueFigure.Library.Sequential
import TrueFigure.Library.Snapshots
import TrueFigure.Server.Records

/-!
# Version histories under concurrency

Every writer of `figures` and `reports` reads the greatest version and inserts the
next one. Rows are only added, so what it read is still there when it commits, and
the unique key refuses a version that came in between: the committed versions are
always the first ones, without a gap.
-/
namespace TrueFigure.Server

open TrueFigure.Library TrueFigure.Python

/-- The versions present are the first `n`. -/
def Contiguous (present : ℕ → Prop) : Prop := ∃ n, ∀ v, present v ↔ 1 ≤ v ∧ v ≤ n

/-- A row stands under its own columns; a report names the version before it. -/
def WellKept : (k : RecordKey) → Record k → Prop
  | .evidence, _ => True
  | .figure d ref v, row =>
    (row : Figure).deploymentId = d ∧ (row : Figure).figureRef = ref ∧ (row : Figure).version = v
  | .report d ref v, row =>
    (row : ReportRow).deploymentId = d ∧ (row : ReportRow).reportRef = ref ∧
      (row : ReportRow).version = v ∧
      (row : ReportRow).supersedesVersion = if 1 < v then some (v - 1) else none
  | .reportFigure r f, row =>
    (row : ReportFigureRow).reportId = r ∧ (row : ReportFigureRow).figureId = f

def AllKept (s : Records) : Prop := ∀ k (row : Record k), s.lookup k = some row → WellKept k row

/-- The versions of every figure and every report are the first ones. -/
structure VersionHistory (s : Records) : Prop where
  figures : ∀ d ref, Contiguous fun v => (s.lookup (.figure d ref v)).isSome
  reports : ∀ d ref, Contiguous fun v => (s.lookup (.report d ref v)).isSome
  kept : AllKept s

/-- No row of `figures`, `reports` or `report_figures` is changed or removed. -/
def Kept (s t : Records) : Prop :=
  ∀ k (row : Record k), k ≠ .evidence → s.lookup k = some row → t.lookup k = some row

instance : Std.Refl Kept := ⟨fun _ _ _ _ h => h⟩

instance : IsTrans Records Kept := ⟨fun _ _ _ h h' k row hk hrow => h' k row hk (h k row hk hrow)⟩

/-! ### The next version -/

/-- The greatest of the versions is one of them, or there is none. -/
theorem foldr_max_mem (xs : List ℕ) : xs.foldr max 0 = 0 ∨ xs.foldr max 0 ∈ xs := by
  induction xs with
  | nil => exact .inl rfl
  | cons x xs ih =>
    rw [List.foldr_cons]
    rcases max_choice x (xs.foldr max 0) with hmax | hmax
    · rw [hmax]
      exact .inr List.mem_cons_self
    · rw [hmax]
      exact ih.imp_right (List.mem_cons_of_mem x)

/-- One more than the greatest of some versions, where it is new, continues them
all. -/
theorem Contiguous.insert {present : ℕ → Prop} (h : Contiguous present) {versions : List ℕ}
    (hseen : ∀ v ∈ versions, present v) (hnew : ¬ present (versions.foldr max 0 + 1)) :
    Contiguous fun v => v = versions.foldr max 0 + 1 ∨ present v := by
  obtain ⟨n, hn⟩ := h
  have hle : versions.foldr max 0 ≤ n := by
    rcases foldr_max_mem versions with hzero | hmem
    · omega
    · exact ((hn _).1 (hseen _ hmem)).2
  have hge : n ≤ versions.foldr max 0 := by
    by_contra hlt
    exact hnew ((hn _).2 ⟨by omega, by omega⟩)
  refine ⟨n + 1, fun v => ?_⟩
  beta_reduce
  rw [hn]
  omega

theorem Contiguous.congr {present present' : ℕ → Prop} (h : Contiguous present)
    (heq : ∀ v, present' v ↔ present v) : Contiguous present' := by
  obtain ⟨n, hn⟩ := h
  exact ⟨n, fun v => (heq v).trans (hn v)⟩

section Rows

variable {s t : Records} {d : ℕ} {ref : PyStr}

/-- The versions `_write_figure` counts stand under their keys. -/
theorem figure_isSome (hkept : AllKept t) {v : ℕ}
    (hv : v ∈ ((t.archive 0).figures.filter fun f =>
      f.deploymentId = d ∧ f.figureRef = ref).map fun f => f.version) :
    (t.lookup (.figure d ref v)).isSome := by
  obtain ⟨f, hf, rfl⟩ := List.mem_map.1 hv
  obtain ⟨hmem, hcolumns⟩ := List.mem_filter.1 hf
  obtain ⟨row, hrow, rfl⟩ := List.mem_map.1 hmem
  obtain ⟨⟨k, r⟩, hentry, hk⟩ := List.mem_filterMap.1 hrow
  cases k with
  | figure d' ref' v' =>
    cases hk
    have hlookup := AList.mem_lookup_iff.2 hentry
    obtain ⟨hd, href, hversion⟩ := hkept _ _ hlookup
    simp only [decide_eq_true_eq] at hcolumns
    rw [← hcolumns.1, ← hcolumns.2, hd, href, hversion, hlookup]
    rfl
  | _ => cases hk

/-- The versions `issue_report` counts stand under their keys. -/
theorem report_isSome (hkept : AllKept t) {v : ℕ}
    (hv : v ∈ ((t.archive 0).reports.filter fun r =>
      r.deploymentId = d ∧ r.reportRef = ref).map ReportRow.version) :
    (t.lookup (.report d ref v)).isSome := by
  obtain ⟨r, hr, rfl⟩ := List.mem_map.1 hv
  obtain ⟨hmem, hcolumns⟩ := List.mem_filter.1 hr
  obtain ⟨⟨k, row⟩, hentry, hk⟩ := List.mem_filterMap.1 hmem
  cases k with
  | report d' ref' v' =>
    cases hk
    have hlookup := AList.mem_lookup_iff.2 hentry
    obtain ⟨hd, href, hversion, -⟩ := hkept _ _ hlookup
    simp only [decide_eq_true_eq] at hcolumns
    rw [← hcolumns.1, ← hcolumns.2, hd, href, hversion, hlookup]
    rfl
  | _ => cases hk

theorem isSome_of_kept (h : Kept t s) {k : RecordKey} (hk : k ≠ .evidence)
    (hsome : (t.lookup k).isSome) : (s.lookup k).isSome := by
  obtain ⟨row, hrow⟩ := Option.isSome_iff_exists.1 hsome
  rw [h k row hk hrow]
  rfl

theorem isSome_insert {k k' : RecordKey} (row : Record k) :
    ((s.insert k row).lookup k').isSome ↔ k' = k ∨ (s.lookup k').isSome := by
  by_cases hk : k' = k
  · subst hk
    simp
  · rw [AList.lookup_insert_ne hk]
    simp [hk]

theorem kept_insert {k : RecordKey} (row : Record k) (hnew : s.lookup k = none) :
    Kept s (s.insert k row) := by
  intro k' row' hk' hlookup
  have hne : k' ≠ k := by
    rintro rfl
    cases hnew.symm.trans hlookup
  rw [AList.lookup_insert_ne hne, hlookup]

theorem allKept_insert (h : AllKept s) {k : RecordKey} {row : Record k} (hrow : WellKept k row) :
    AllKept (s.insert k row) := by
  intro k' row' hlookup
  by_cases hk : k' = k
  · subst hk
    rw [AList.lookup_insert] at hlookup
    cases hlookup
    exact hrow
  · rw [AList.lookup_insert_ne hk] at hlookup
    exact h k' row' hlookup

/-- A figure continues its history when its version is the next one of rows that
are all still there. -/
theorem VersionHistory.insert_figure (h : VersionHistory s) (hkept : AllKept t) (hle : Kept t s)
    {row : Figure} (hrow : WellKept (.figure d ref (t.nextVersion d ref)) row)
    (hnew : s.lookup (.figure d ref (t.nextVersion d ref)) = none) :
    VersionHistory (s.insert (.figure d ref (t.nextVersion d ref)) row) := by
  refine ⟨fun d' ref' => ?_, fun d' ref' => ?_, allKept_insert h.kept hrow⟩
  · by_cases hkey : d' = d ∧ ref' = ref
    · obtain ⟨rfl, rfl⟩ := hkey
      have hnext := (h.figures d' ref').insert
        (fun v hv => isSome_of_kept hle (by simp) (figure_isSome hkept hv))
        (by change ¬ (s.lookup (.figure d' ref' (t.nextVersion d' ref'))).isSome = true
            simp [hnew])
      refine hnext.congr fun v => ?_
      rw [isSome_insert, RecordKey.figure.injEq]
      simp [Records.nextVersion]
    · refine (h.figures d' ref').congr fun v => ?_
      rw [isSome_insert, RecordKey.figure.injEq]
      exact or_iff_right fun heq => hkey ⟨heq.1, heq.2.1⟩
  · refine (h.reports d' ref').congr fun v => ?_
    rw [isSome_insert]
    simp

/-- So does a report. -/
theorem VersionHistory.insert_report (h : VersionHistory s) (hkept : AllKept t) (hle : Kept t s)
    {row : ReportRow} (hrow : WellKept (.report d ref ((t.archive 0).nextVersion d ref)) row)
    (hnew : s.lookup (.report d ref ((t.archive 0).nextVersion d ref)) = none) :
    VersionHistory (s.insert (.report d ref ((t.archive 0).nextVersion d ref)) row) := by
  refine ⟨fun d' ref' => ?_, fun d' ref' => ?_, allKept_insert h.kept hrow⟩
  · refine (h.figures d' ref').congr fun v => ?_
    rw [isSome_insert]
    simp
  · by_cases hkey : d' = d ∧ ref' = ref
    · obtain ⟨rfl, rfl⟩ := hkey
      have hnext := (h.reports d' ref').insert
        (fun v hv => isSome_of_kept hle (by simp) (report_isSome hkept hv))
        (by change ¬ (s.lookup (.report d' ref' ((t.archive 0).nextVersion d' ref'))).isSome = true
            simp [hnew])
      refine hnext.congr fun v => ?_
      rw [isSome_insert, RecordKey.report.injEq]
      simp [Archive.nextVersion]
    · refine (h.reports d' ref').congr fun v => ?_
      rw [isSome_insert, RecordKey.report.injEq]
      exact or_iff_right fun heq => hkey ⟨heq.1, heq.2.1⟩

/-- A row of another table leaves the histories alone. -/
theorem VersionHistory.insert_other (h : VersionHistory s) {k : RecordKey} {row : Record k}
    (hrow : WellKept k row) (hfigure : ∀ d ref v, k ≠ .figure d ref v)
    (hreport : ∀ d ref v, k ≠ .report d ref v) : VersionHistory (s.insert k row) := by
  refine ⟨fun d ref => ?_, fun d ref => ?_, allKept_insert h.kept hrow⟩
  · refine (h.figures d ref).congr fun v => ?_
    rw [isSome_insert]
    exact or_iff_right (hfigure d ref v).symm
  · refine (h.reports d ref).congr fun v => ?_
    rw [isSome_insert]
    exact or_iff_right (hreport d ref v).symm

end Rows

/-! ### The statements of a transaction -/

variable {s : Records} {pre more : List (Change Record)} {a : RecordReply}

/-- What a transaction has written so far over the rows it is committed to: new
rows only, each under its columns, that continue the histories. -/
structure Tidy (s : Records) (pre : List (Change Record)) : Prop where
  history : VersionHistory (view pre s)
  above : Kept s (view pre s)
  rows : ∀ c ∈ pre, WellKept c.key c.after

theorem tidy_nil (h : VersionHistory s) : Tidy s [] := by
  constructor
  · rw [view_nil]
    exact h
  · rw [view_nil]
    exact Std.Refl.refl s
  · intro c hc
    exact absurd hc List.not_mem_nil

/-- The rest of a transaction that has read rows below `s` keeps the log tidy. -/
def Continued (s : Records) (pre : List (Change Record)) (rest : RecordTxn) : Prop :=
  ∀ more a, Sees (Earlier VersionHistory Kept s) pre rest more (.ok a) →
    Consistent (pre ++ more) s → Tidy s pre → Tidy s (pre ++ more)

theorem Kept.view {t : Records} (h : Kept t s) (pre : List (Change Record)) :
    Kept (view pre t) (view pre s) := by
  induction pre generalizing s t with
  | nil => exact h
  | cons c pre ih =>
    refine ih fun k row hk hrow => ?_
    by_cases hkey : k = c.key
    · subst hkey
      rw [AList.lookup_insert] at hrow ⊢
      exact hrow
    · rw [AList.lookup_insert_ne hkey] at hrow ⊢
      exact h k row hk hrow

theorem allKept_view {t : Records} (h : AllKept t) (hrows : ∀ c ∈ pre, WellKept c.key c.after) :
    AllKept (view pre t) := by
  induction pre generalizing t with
  | nil => exact h
  | cons c pre ih =>
    exact ih (allKept_insert h (hrows c List.mem_cons_self))
      fun d hd => hrows d (List.mem_cons_of_mem c hd)

theorem Tidy.snoc (h : Tidy s pre) {c : Change Record} (hnew : (view pre s).lookup c.key = none)
    (hhistory : VersionHistory ((view pre s).insert c.key c.after))
    (hrow : WellKept c.key c.after) : Tidy s (pre ++ [c]) := by
  refine ⟨?_, ?_, fun d hd => ?_⟩
  · rw [view_append]
    exact hhistory
  · rw [view_append]
    exact IsTrans.trans _ _ _ h.above (kept_insert c.after hnew)
  · rcases List.mem_append.1 hd with hd | hd
    · exact h.rows d hd
    · rw [List.mem_singleton.1 hd]
      exact hrow

theorem insertNew_eq_ok {α : Type} {row after : α} {before : Option α}
    (h : insertNew row before = .ok after) : before = none ∧ after = row := by
  cases before with
  | some old => cases h
  | none =>
    cases h
    exact ⟨rfl, rfl⟩

theorem figureValues_eq_ok {b : Books} {id ws d version : ℕ} {draft : Draft} {row : Figure}
    (h : figureValues b id ws d version draft = .ok row) :
    WellKept (.figure d draft.figureRef version) row := by
  unfold figureValues at h
  split_ifs at h
  · obtain ⟨value, -, h⟩ := bind_eq_ok h
    cases h
  · obtain ⟨value, -, h⟩ := bind_eq_ok h
    cases h
  · obtain ⟨value, -, h⟩ := bind_eq_ok h
    cases h
    exact ⟨rfl, rfl, rfl⟩

theorem reportValues_eq_ok {b : Books} {id version : ℕ} {c : Issue} {profile : List (PyStr × ℕ)}
    {row : ReportRow} (h : reportValues b id version c profile = .ok row) :
    WellKept (.report c.deploymentId (reportRefOf c.period) version) row := by
  unfold reportValues at h
  split_ifs at h with _ _ _ hlt
  · cases h
    exact ⟨rfl, rfl, rfl, (if_pos hlt).symm⟩
  · cases h
    exact ⟨rfl, rfl, rfl, (if_neg hlt).symm⟩

theorem continued_pure (a : RecordReply) : Continued s pre (.pure a) := by
  intro more a' hsees _ htidy
  obtain ⟨rfl, -⟩ := hsees.of_pure
  rwa [List.append_nil]

/-- A read shows rows still there under what the transaction has written. -/
theorem continued_read {next : Records → RecordTxn}
    (h : ∀ t, AllKept t → Kept t (view pre s) → Continued s pre (next t)) :
    Continued s pre (.read next) := by
  intro more a hsees hlog htidy
  obtain ⟨t, ⟨hhistory, hle⟩, hsees⟩ := hsees.of_read
  exact h _ (allKept_view hhistory.kept htidy.rows) (hle.view pre) more a hsees hlog htidy

theorem continued_fresh {next : ℕ → RecordTxn} (h : ∀ n, Continued s pre (next n)) :
    Continued s pre (.fresh next) := by
  intro more a hsees hlog htidy
  obtain ⟨n, hsees⟩ := hsees.of_fresh
  exact h n more a hsees hlog htidy

theorem continued_insert {k : RecordKey} {values : Except DbError (Record k)}
    {next : Record k → RecordTxn}
    (hrow : ∀ row, values = .ok row → (view pre s).lookup k = none →
      VersionHistory (view pre s) → WellKept k row ∧ VersionHistory ((view pre s).insert k row))
    (h : ∀ c row, Continued s (pre ++ [c]) (next row)) :
    Continued s pre (.write k (fun before => liftDb do
      let row ← values
      insertNew row before) next) := by
  intro more a hsees hlog htidy
  obtain ⟨before, after, rest, hu, rfl, hrest⟩ := hsees.of_write
  obtain ⟨row, hvalues, hinsert⟩ := bind_eq_ok (liftDb_eq_ok hu)
  obtain ⟨rfl, rfl⟩ := insertNew_eq_ok hinsert
  obtain ⟨-, hnew, -⟩ := (consistent_append _ _ _).1 hlog
  obtain ⟨hwell, hhistory⟩ := hrow after hvalues hnew htidy.history
  rw [← List.singleton_append, ← List.append_assoc] at hlog ⊢
  exact h _ _ rest a hrest hlog (htidy.snoc hnew hhistory hwell)

/-! ### The transactions -/

theorem continued_writeFigure {ws d : ℕ} {draft : Draft} {next : RecordTxn}
    (h : ∀ pre, Continued s pre next) : Continued s pre (writeFigure ws d draft next) := by
  refine continued_read fun t hkept hle => continued_fresh fun id => ?_
  refine continued_insert (fun row hvalues hnew hhistory => ?_) fun c row => h _
  have hwell := figureValues_eq_ok hvalues
  exact ⟨hwell, hhistory.insert_figure hkept hle hwell hnew⟩

theorem continued_runMethods {ws d : ℕ}
    (methods : List (Evidence → Except Failure (Option Draft))) (written : List PyStr) :
    ∀ pre, Continued s pre (runMethods ws d methods written) := by
  induction methods generalizing written with
  | nil => exact fun pre => continued_pure _
  | cons method methods ih =>
    refine fun pre => continued_read fun t hkept hle => ?_
    cases method t.evidence with
    | error e => exact fun more a hsees => hsees.not_throw.elim
    | ok draft =>
      cases draft with
      | none => exact ih written pre
      | some draft => exact continued_writeFigure (ih _)

theorem continued_bindFigures {d id : ℕ} {next : RecordTxn} (h : ∀ pre, Continued s pre next)
    (figs : List FigureRow) : ∀ pre, Continued s pre (bindFigures d id next figs) := by
  induction figs with
  | nil => exact h
  | cons f figs ih =>
    refine fun pre => @continued_insert s pre (.reportFigure id f.id) (.ok ⟨d, id, f.id⟩) _
      (fun row hvalues _ hhistory => ?_) fun c row => ih _
    cases hvalues
    have hwell : WellKept (.reportFigure id f.id) (⟨d, id, f.id⟩ : ReportFigureRow) := ⟨rfl, rfl⟩
    exact ⟨hwell, hhistory.insert_other hwell (by simp) (by simp)⟩

theorem continued_issueTransaction {collate : PyStr → PyStr → Bool} {c : Issue} :
    Continued s pre (issueTransaction collate c) := by
  refine continued_read fun _ _ _ => continued_read fun t hkept hle => continued_fresh fun id => ?_
  refine continued_insert (fun row hvalues hnew hhistory => ?_)
    fun c row => continued_bindFigures (fun pre => continued_pure _) _ _
  have hwell := reportValues_eq_ok hvalues
  exact ⟨hwell, hhistory.insert_report hkept hle hwell hnew⟩

/-! ### Every interleaving -/

/-- The transaction writes none of the three tables. -/
def Elsewhere (body : RecordTxn) : Prop :=
  ∀ log r, Runs body log r → ∀ c ∈ log, c.key = .evidence

/-- A computation, an issuance, or a transaction of anything else. -/
inductive EngineTxn : RecordTxn → Prop
  | compute {F : Type} (plan : Planner) (rt : DecimalText) (fl : Floats F)
      (workspaceId deploymentId : ℕ) (period : PyStr) :
      EngineTxn (computeDeployment plan rt fl workspaceId deploymentId period)
  | issue (collate : PyStr → PyStr → Bool) (c : Issue) : EngineTxn (issueTransaction collate c)
  | elsewhere {body : RecordTxn} (h : Elsewhere body) : EngineTxn body

theorem preservesSeen_of_continued {body : RecordTxn} (h : ∀ s, Continued s [] body) :
    PreservesSeen VersionHistory Kept body := by
  intro log a s hsees hlog hhistory
  have htidy := h s log a hsees hlog (tidy_nil hhistory)
  exact ⟨htidy.history, htidy.above⟩

theorem evidence_view {log : List (Change Record)} (hkeys : ∀ c ∈ log, c.key = .evidence)
    (h : VersionHistory s) : VersionHistory (view log s) ∧ Kept s (view log s) := by
  induction log generalizing s with
  | nil => exact ⟨h, Std.Refl.refl s⟩
  | cons c log ih =>
    have hkey := hkeys c List.mem_cons_self
    obtain ⟨k, before, after⟩ := c
    obtain rfl : k = .evidence := hkey
    have hinsert : VersionHistory (s.insert .evidence after) :=
      h.insert_other trivial (by simp) (by simp)
    obtain ⟨hhistory, hkept⟩ := ih (fun d hd => hkeys d (List.mem_cons_of_mem _ hd)) hinsert
    refine ⟨hhistory, fun k row hk hrow => hkept k row hk ?_⟩
    rwa [AList.lookup_insert_ne hk]

theorem EngineTxn.preservesSeen {body : RecordTxn} (h : EngineTxn body) :
    PreservesSeen VersionHistory Kept body := by
  cases h with
  | compute plan rt fl ws d period =>
    exact preservesSeen_of_continued fun s =>
      continued_read fun _ _ _ => continued_runMethods _ _ []
  | issue collate c => exact preservesSeen_of_continued fun s => continued_issueTransaction
  | elsewhere h =>
    intro log a s hsees _ hhistory
    exact evidence_view (h log _ hsees.runs) hhistory

/-- No figure has been computed and no report issued. -/
def NoFigures (s : Records) : Prop := ∀ k, k ≠ .evidence → s.lookup k = none

theorem versionHistory_of_noFigures (h : NoFigures s) : VersionHistory s := by
  refine ⟨fun d ref => ⟨0, fun v => ?_⟩, fun d ref => ⟨0, fun v => ?_⟩, fun k row hrow => ?_⟩
  · beta_reduce
    rw [h _ (by simp)]
    simp only [Option.isSome_none, Bool.false_eq_true, false_iff]
    omega
  · beta_reduce
    rw [h _ (by simp)]
    simp only [Option.isSome_none, Bool.false_eq_true, false_iff]
    omega
  · cases k with
    | evidence => trivial
    | _ =>
      rw [h _ (by simp)] at hrow
      cases hrow

section Interleavings

variable {ι ω : Type} [DecidableEq ι] {faults : Failure → Prop}
  {w w' : World ι Record Failure RecordReply ω}

/-- Whatever computations, issuances and other transactions run concurrently and
wherever they are aborted: the committed versions of every figure and every report
are the first ones, each report names the version before it, no row is changed or
removed from then on, and a transaction that does not commit as a whole leaves the
rows as they are. -/
theorem versions_reachable (hstart : NoFigures w.committed) (hparties : w.Idle EngineTxn)
    (hreach : Reachable faults w w') :
    VersionHistory w'.committed ∧
      (∀ w'', Reachable faults w' w'' → Kept w'.committed w''.committed) ∧
      ∀ i w'', Step faults i w' w'' → (¬ ∃ log a, Commits i log a w' w'') →
        w''.committed = w'.committed := by
  have hidle : w.Idle (PreservesSeen VersionHistory Kept) := by
    intro i
    obtain ⟨p, hp, hall⟩ := hparties i
    exact ⟨p, hp, hall.mono fun _ => EngineTxn.preservesSeen⟩
  have hseen := ((hidle.worldSeen (versionHistory_of_noFigures hstart)).reachable hreach).1
  refine ⟨hseen.committed, fun w'' hlater => (hseen.reachable hlater).2, fun i w'' hs hnot => ?_⟩
  exact hs.committed_eq.resolve_right hnot

end Interleavings

/-! ### A report issued twice -/

def sampleBooks : Books where
  deployments := [⟨1, 1, .saasTool⟩]
  parameterSets := []
  licenses := []
  changeLog := []
  serviceUsers := []

def julyIssue : Issue where
  workspaceId := 1
  deploymentId := 1
  period := py "2026-07"
  now := 0
  stored := true

/-- One process issues a report twice, another one issues it too. -/
def twoIssuers : World Bool Record Failure RecordReply Unit where
  committed := (∅ : Records).insert .evidence ⟨∅, sampleBooks⟩
  sequence := 7
  stations := fun b =>
    let issue := issueTransaction (fun _ _ => true) julyIssue
    if b then .resting (.txn issue fun _ => .txn issue fun _ => .done ())
    else .resting (.txn issue fun _ => .done ())

theorem noFigures_twoIssuers : NoFigures twoIssuers.committed := by
  intro k hk
  exact AList.lookup_insert_ne hk

theorem idle_twoIssuers : twoIssuers.Idle EngineTxn := by
  intro b
  cases b with
  | false => exact ⟨_, rfl, .issue _ _, fun _ => trivial⟩
  | true => exact ⟨_, rfl, .issue _ _, fun _ => ⟨.issue _ _, fun _ => trivial⟩⟩

set_option maxRecDepth 4000 in
theorem versions_reachable_twoIssuers : ∃ w', Reachable (fun _ => True) twoIssuers w' ∧
    VersionHistory w'.committed ∧
    (w'.committed.lookup (.report 1 (py "rep_2026-07") 2)).map ReportRow.supersedesVersion =
      some (some 1) := by
  have hrun : Reachable (fun _ => True) twoIssuers _ :=
    run_reachable (i := true) _ rfl fun k j _ => by
      cases j <;> simp [twoIssuers, Station.locks]
  refine ⟨_, hrun, ?_, by decide +kernel⟩
  exact (versions_reachable noFigures_twoIssuers idle_twoIssuers hrun).1

end TrueFigure.Server
