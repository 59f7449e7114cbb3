import TrueFigure.Server.MethodRuns

/-!
# What the engine's transactions leave

A committed call of `compute_deployment` or `issue_report`, run alone: the rows it adds, and
the identities it draws for them. Identities are never drawn twice, so the rows that refer
to one another go on doing so.
-/
namespace TrueFigure.Server

open TrueFigure.Library TrueFigure.Python

/-! ### Identities -/

/-- `id` of `figures` and `reports`. -/
def rowId : (k : RecordKey) → Record k → Option ℕ
  | .figure .., row => some (row : Figure).id
  | .report .., row => some (row : ReportRow).id
  | _, _ => none

/-- The identities a row of `report_figures` refers to. -/
def rowRefs : RecordKey → List ℕ
  | .reportFigure reportId figureId => [reportId, figureId]
  | _ => []

/-- Every row has an identity of its own, drawn before, and refers to drawn ones. -/
structure Identified (s : Records) (n : ℕ) : Prop where
  below : ∀ {k : RecordKey} {row : Record k} {i : ℕ}, s.lookup k = some row →
    rowId k row = some i → i < n
  own : ∀ {k k' : RecordKey} {row : Record k} {row' : Record k'} {i : ℕ}, s.lookup k = some row →
    s.lookup k' = some row' → rowId k row = some i → rowId k' row' = some i → k = k'
  refs : ∀ {k : RecordKey} {row : Record k} {i : ℕ}, s.lookup k = some row → i ∈ rowRefs k → i < n

section Identities

variable {s : Records} {n n' : ℕ} {k : RecordKey} {row : Record k}

theorem lookup_insert_cases {k' : RecordKey} {row' : Record k'}
    (h : (s.insert k row).lookup k' = some row') :
    (∃ hk : k' = k, row' = hk ▸ row) ∨ k' ≠ k ∧ s.lookup k' = some row' := by
  by_cases hk : k' = k
  · subst hk
    rw [AList.lookup_insert] at h
    exact .inl ⟨rfl, (Option.some.inj h).symm⟩
  · rw [AList.lookup_insert_ne hk] at h
    exact .inr ⟨hk, h⟩

theorem Identified.mono (h : Identified s n) (hle : n ≤ n') : Identified s n' where
  below hrow hid := (h.below hrow hid).trans_le hle
  own := h.own
  refs hrow hi := (h.refs hrow hi).trans_le hle

/-- A row that draws the next identity. -/
theorem Identified.insert (h : Identified s n) (hid : rowId k row = some n)
    (hrefs : ∀ i ∈ rowRefs k, i < n) : Identified (s.insert k row) (n + 1) where
  below := by
    intro k' row' i hrow hi
    rcases lookup_insert_cases hrow with ⟨rfl, rfl⟩ | ⟨-, hold⟩
    · obtain rfl := Option.some.inj (hid.symm.trans hi)
      exact Nat.lt_succ_self _
    · exact (h.below hold hi).trans (Nat.lt_succ_self n)
  own := by
    intro k' k'' row' row'' i hrow hrow' hi hi'
    rcases lookup_insert_cases hrow with ⟨rfl, rfl⟩ | ⟨-, hold⟩
    · rcases lookup_insert_cases hrow' with ⟨rfl, -⟩ | ⟨-, hold'⟩
      · rfl
      · obtain rfl := Option.some.inj (hid.symm.trans hi)
        exact absurd (h.below hold' hi') (Nat.lt_irrefl _)
    · rcases lookup_insert_cases hrow' with ⟨rfl, rfl⟩ | ⟨-, hold'⟩
      · obtain rfl := Option.some.inj (hid.symm.trans hi')
        exact absurd (h.below hold hi) (Nat.lt_irrefl _)
      · exact h.own hold hold' hi hi'
  refs := by
    intro k' row' i hrow hi
    rcases lookup_insert_cases hrow with ⟨rfl, -⟩ | ⟨-, hold⟩
    · exact (hrefs i hi).trans (Nat.lt_succ_self n)
    · exact (h.refs hold hi).trans (Nat.lt_succ_self n)

/-- A row without an identity of its own. -/
theorem Identified.insert_none (h : Identified s n) (hid : rowId k row = none)
    (hrefs : ∀ i ∈ rowRefs k, i < n) : Identified (s.insert k row) n where
  below := by
    intro k' row' i hrow hi
    rcases lookup_insert_cases hrow with ⟨rfl, rfl⟩ | ⟨-, hold⟩
    · cases hid.symm.trans hi
    · exact h.below hold hi
  own := by
    intro k' k'' row' row'' i hrow hrow' hi hi'
    rcases lookup_insert_cases hrow with ⟨rfl, rfl⟩ | ⟨-, hold⟩
    · cases hid.symm.trans hi
    · rcases lookup_insert_cases hrow' with ⟨rfl, rfl⟩ | ⟨-, hold'⟩
      · cases hid.symm.trans hi'
      · exact h.own hold hold' hi hi'
  refs := by
    intro k' row' i hrow hi
    rcases lookup_insert_cases hrow with ⟨rfl, -⟩ | ⟨-, hold⟩
    · exact hrefs i hi
    · exact h.refs hold hi

end Identities

/-! ### `compute_deployment` -/

theorem figureValues_columns {b : Books} {id ws d version : ℕ} {draft : Draft} {row : Figure}
    (h : figureValues b id ws d version draft = .ok row) :
    row.id = id ∧ row.period = draft.period ∧ periodOk draft.period = true := by
  unfold figureValues at h
  split_ifs at h with hversion hjson hcheck hforeign
  · obtain ⟨value, -, h⟩ := bind_eq_ok h
    cases h
  · obtain ⟨value, -, h⟩ := bind_eq_ok h
    cases h
  · obtain ⟨value, -, h⟩ := bind_eq_ok h
    cases h
    rw [Bool.or_eq_true, not_or] at hcheck
    exact ⟨rfl, rfl, by simpa using hcheck.1⟩

/-- Figures of a deployment have been added, the named ones among them, and nothing else. -/
structure Figured (dep : ℕ) (period : PyStr) (refs : List PyStr) (s s' : Records) (n n' : ℕ) :
    Prop where
  drawn : n ≤ n'
  identified : Identified s n → Identified s' n'
  others : ∀ k, (∀ d ref v, k ≠ .figure d ref v) → s'.lookup k = s.lookup k
  figures : ∀ {d ref v} {row : Figure}, s'.lookup (.figure d ref v) = some row →
    s.lookup (.figure d ref v) = some row ∨
      d = dep ∧ row.period = period ∧ periodOk period = true
  named : ∀ ref ∈ refs, ∃ v, ∃ row : Figure, s'.lookup (.figure dep ref v) = some row ∧
    row.period = period

section Compute

variable {s s' : Records} {ws dep n n' : ℕ} {written refs : List PyStr} {period : PyStr}
  {methods : List (Evidence → Except Failure (Option Draft))}

theorem figured_nil : Figured dep period [] s s n n where
  drawn := le_rfl
  identified := id
  others _ _ := rfl
  figures h := .inl h
  named _ h := absurd h List.not_mem_nil

theorem Figured.cons {ref : PyStr} {v : ℕ} {row : Figure}
    (hrow : row.id = n ∧ row.period = period ∧ periodOk period = true)
    (hkept : Kept (s.insert (.figure dep ref v) row) s')
    (h : Figured dep period refs (s.insert (.figure dep ref v) row) s' (n + 1) n') :
    Figured dep period (ref :: refs) s s' n n' where
  drawn := (Nat.le_succ n).trans h.drawn
  identified hs := h.identified (hs.insert (congrArg some hrow.1) (by simp [rowRefs]))
  others k hk := by
    rw [h.others k hk, AList.lookup_insert_ne (hk _ _ _)]
  figures := by
    intro d r v' row' hlookup
    rcases h.figures hlookup with hearlier | hnew
    · rcases lookup_insert_cases hearlier with ⟨hkey, hrow'⟩ | ⟨-, hold⟩
      · cases hkey
        exact .inr ⟨rfl, hrow' ▸ hrow.2⟩
      · exact .inl hold
    · exact .inr hnew
  named := by
    intro r hr
    rcases List.mem_cons.1 hr with rfl | hr
    · exact ⟨v, row, hkept (.figure dep r v) row (by simp) (AList.lookup_insert _), hrow.2.1⟩
    · exact h.named r hr

theorem MethodRun.figured (hrun : MethodRun ws dep methods s n refs s' n') (h : VersionHistory s)
    (hperiod : ∀ m ∈ methods, ∀ d, m s.evidence = .ok (some d) → d.period = period) :
    Kept s s' ∧ Figured dep period refs s s' n n' := by
  induction hrun with
  | nil s n => exact ⟨Std.Refl.refl _, figured_nil⟩
  | skip hmethod hrest ih => exact ih h (List.forall_mem_cons.1 hperiod).2
  | @write method methods s s' n n' refs d row hmethod hvalues hrest ih =>
    obtain ⟨hfirst, hothers⟩ := List.forall_mem_cons.1 hperiod
    have hevidence := @evidence_insert_figure s dep d.figureRef
      (s.nextVersion dep d.figureRef) row
    obtain ⟨hkept, hfigured⟩ := ih (history_of_figureValues h hvalues) (hevidence ▸ hothers)
    obtain ⟨hid, hcolumn, hok⟩ := figureValues_columns hvalues
    rw [hfirst d hmethod] at hcolumn hok
    exact ⟨IsTrans.trans _ _ _ (kept_insert row (nextVersion_new h.kept)) hkept,
      hfigured.cons ⟨hid, hcolumn, hok⟩ hkept⟩

end Compute

/-! ### The period of a draft -/

section Periods

variable {F : Type} {plan : Planner} {rt : DecimalText} {fl : Floats F} {s : Db} {b : Books}
  {ws dep : ℕ} {period : PyStr} {d : Draft}

theorem computeCost_period (h : computeCost plan rt s b ws dep period = .ok d) :
    d.period = period := by
  obtain ⟨bounds, -, h⟩ := bind_eq_ok h
  split at h
  · cases h
    rfl
  · obtain ⟨⟨total, priced, unpriced⟩, -, h⟩ := bind_eq_ok h
    cases h
    unfold costDraft
    split <;> rfl

theorem computeSeats_period (h : computeSeats rt s b ws dep period = .ok d) :
    d.period = period := by
  obtain ⟨bounds, -, h⟩ := bind_eq_ok h
  split at h
  · cases h
    rfl
  · obtain ⟨⟨price, provenance⟩, -, h⟩ := bind_eq_ok h
    obtain ⟨value, -, h⟩ := bind_eq_ok h
    cases h
    rfl

theorem timeDraft_period {bounds : ℤ × ℤ} {assisted unassisted : List F}
    (h : timeDraft plan fl b ws dep period bounds assisted unassisted = .ok d) :
    d.period = period := by
  unfold timeDraft at h
  dsimp only at h
  split at h
  · cases h
    rfl
  · split at h
    · cases h
      rfl
    · obtain ⟨rate, -, h⟩ := bind_eq_ok h
      split at h
      · cases h
        rfl
      · obtain ⟨hourly, -, h⟩ := bind_eq_ok h
        cases h
        rfl

theorem computeTimeSavings_period
    (h : computeTimeSavings plan fl s b ws dep period = .ok (some d)) : d.period = period := by
  obtain ⟨bounds, -, h⟩ := bind_eq_ok h
  dsimp only at h
  split at h
  · cases h
  · cases hdraft : timeDraft plan fl b ws dep period bounds
      (handlingHours fl (handlingRows plan s dep bounds) true)
      (handlingHours fl (handlingRows plan s dep bounds) false) with
    | error e =>
      rw [hdraft] at h
      cases h
    | ok d' =>
      rw [hdraft] at h
      cases h
      exact timeDraft_period hdraft

theorem computeContainment_period
    (h : computeContainment plan fl s b dep period = .ok (some d)) : d.period = period := by
  obtain ⟨bounds, -, h⟩ := bind_eq_ok h
  dsimp only at h
  split at h
  · cases h
  · cases h
    rfl

theorem methodsOf_period {e : Evidence} {t : Option DeploymentType}
    {m : Evidence → Except Failure (Option Draft)} (hm : m ∈ methodsOf plan rt fl ws dep period t)
    (h : m e = .ok (some d)) : d.period = period := by
  rcases List.mem_append.1 hm with hm | hm
  · simp only [List.mem_cons, List.not_mem_nil, or_false] at hm
    rcases hm with rfl | rfl | rfl
    · exact computeCost_period (map_some_eq_ok h)
    · exact computeSeats_period (map_some_eq_ok h)
    · exact computeTimeSavings_period h
  · split at hm
    · obtain rfl := List.mem_singleton.1 hm
      exact computeContainment_period h
    · cases hm

end Periods

theorem figured_of_computeDeployment {F : Type} {plan : Planner} {rt : DecimalText} {fl : Floats F}
    {ws dep n n' : ℕ} {period : PyStr} {s s' : Records} {refs : List PyStr} (h : VersionHistory s)
    (heval : (computeDeployment plan rt fl ws dep period).eval s n =
      (.ok (.written refs, s'), n')) : Figured dep period refs s s' n n' := by
  obtain ⟨refs', hrefs, hrun⟩ := methodRun_of_eval h heval
  cases hrefs
  exact (hrun.figured h fun m hm d hd => methodsOf_period hm hd).2

/-! ### `issue_report` -/

/-- The rows of `report_figures` a report adds. -/
def bound (deploymentId reportId : ℕ) (figs : List FigureRow) (s : Records) : Records :=
  figs.foldl (fun s f => s.insert (.reportFigure reportId f.id) ⟨deploymentId, reportId, f.id⟩) s

section Issue

variable {s s' : Records} {deploymentId reportId n n' : ℕ} {figs : List FigureRow}
  {a a' : RecordReply}

theorem bound_lookup (hnodup : (figs.map fun f => f.id).Nodup) (k : RecordKey) :
    (bound deploymentId reportId figs s).lookup k = s.lookup k ∧
        (∀ f ∈ figs, k ≠ .reportFigure reportId f.id) ∨
      ∃ f ∈ figs, ∃ hk : k = .reportFigure reportId f.id,
        (bound deploymentId reportId figs s).lookup k =
          some (hk ▸ (⟨deploymentId, reportId, f.id⟩ : ReportFigureRow)) := by
  induction figs generalizing s with
  | nil => exact .inl ⟨rfl, by simp⟩
  | cons f figs ih =>
    rw [List.map_cons, List.nodup_cons] at hnodup
    have hfold : bound deploymentId reportId (f :: figs) s = bound deploymentId reportId figs
        (s.insert (.reportFigure reportId f.id) ⟨deploymentId, reportId, f.id⟩) := rfl
    rw [hfold]
    rcases @ih (s.insert (.reportFigure reportId f.id) ⟨deploymentId, reportId, f.id⟩) hnodup.2
      with ⟨hlookup, hnot⟩ | ⟨g, hg, hk, hlookup⟩
    · by_cases hk : k = .reportFigure reportId f.id
      · subst hk
        refine .inr ⟨f, List.mem_cons_self, rfl, ?_⟩
        rw [hlookup, AList.lookup_insert]
      · refine .inl ⟨by rw [hlookup, AList.lookup_insert_ne hk], fun g hg => ?_⟩
        rcases List.mem_cons.1 hg with rfl | hg
        · exact hk
        · exact hnot g hg
    · exact .inr ⟨g, List.mem_cons_of_mem _ hg, hk, hlookup⟩

theorem eval_bindFigures (h : (bindFigures deploymentId reportId (.pure a) figs).eval s n =
    (.ok (a', s'), n')) :
    a' = a ∧ n' = n ∧ s' = bound deploymentId reportId figs s ∧ (figs.map fun f => f.id).Nodup ∧
      ∀ f ∈ figs, s.lookup (.reportFigure reportId f.id) = none := by
  induction figs generalizing s with
  | nil =>
    cases h
    exact ⟨rfl, rfl, rfl, List.nodup_nil, by simp⟩
  | cons f figs ih =>
    simp only [bindFigures, Txn.eval] at h
    cases hold : s.lookup (.reportFigure reportId f.id) with
    | some row =>
      rw [hold] at h
      cases h
    | none =>
      rw [hold] at h
      obtain ⟨rfl, rfl, rfl, hnodup, hnew⟩ := ih h
      have hout : ∀ g ∈ figs, g.id ≠ f.id := by
        intro g hg hid
        have hsome := hnew g hg
        rw [hid, AList.lookup_insert] at hsome
        cases hsome
      refine ⟨rfl, rfl, rfl, ?_, ?_⟩
      · refine List.nodup_cons.2 ⟨fun hmem => ?_, hnodup⟩
        obtain ⟨g, hg, hid⟩ := List.mem_map.1 hmem
        exact hout g hg hid
      · intro g hg
        rcases List.mem_cons.1 hg with rfl | hg
        · exact hold
        · have hnone := hnew g hg
          rwa [AList.lookup_insert_ne (by simpa using hout g hg)] at hnone

end Issue

/-- The figures a report of a deployment and a period binds. -/
def boundBy (collate : PyStr → PyStr → Bool) (c : Issue) (s : Records) : List FigureRow :=
  (s.archive 0).latestFigures collate c.deploymentId c.period

/-- The version a call of `issue_report` comes to. -/
def issuedVersion (c : Issue) (s : Records) : ℕ :=
  (s.archive 0).nextVersion c.deploymentId (reportRefOf c.period)

/-- A committed call of `issue_report`: the row of `reports`, one row of `report_figures` for
each figure it binds, and nothing else. -/
structure Issued (collate : PyStr → PyStr → Bool) (c : Issue) (s s' : Records) (n : ℕ)
    (row : ReportRow) : Prop where
  id : row.id = n
  period : row.period = c.period
  profile : row.gradeProfile = (boundBy collate c s).foldl Archive.countGrade []
  located : row.artifactPath =
    artifactPathOf c.workspaceId (reportRefOf c.period) (issuedVersion c s)
  report : s'.lookup (.report c.deploymentId (reportRefOf c.period) (issuedVersion c s)) = some row
  added : s.lookup (.report c.deploymentId (reportRefOf c.period) (issuedVersion c s)) = none
  nodup : ((boundBy collate c s).map fun f => f.id).Nodup
  figures : ∀ r f, s'.lookup (.reportFigure r f) =
    if r = n ∧ f ∈ (boundBy collate c s).map fun f => f.id then
      some (⟨c.deploymentId, n, f⟩ : ReportFigureRow)
    else s.lookup (.reportFigure r f)
  others : ∀ k, k ≠ .report c.deploymentId (reportRefOf c.period) (issuedVersion c s) →
    (∀ r f, k ≠ .reportFigure r f) → s'.lookup k = s.lookup k

section Issuance

variable {collate : PyStr → PyStr → Bool} {c : Issue} {s s' : Records} {n n' : ℕ}
  {a : RecordReply}

theorem reportValues_columns {b : Books} {id version : ℕ} {profile : List (PyStr × ℕ)}
    {row : ReportRow} (h : reportValues b id version c profile = .ok row) :
    row.id = id ∧ row.period = c.period ∧ row.gradeProfile = profile ∧
      row.artifactPath = artifactPathOf c.workspaceId (reportRefOf c.period) version := by
  unfold reportValues at h
  split_ifs at h <;> cases h <;> exact ⟨rfl, rfl, rfl, rfl⟩

/-- The call passes the constraints of `reports`. -/
structure Issuable (c : Issue) (s : Records) : Prop where
  version : issuedVersion c s ≤ integerMax
  period : periodOk c.period = true
  deployment : ∃ d ∈ s.evidence.books.deployments, d.id = c.deploymentId

theorem reportValues_isOk_iff {profile : List (PyStr × ℕ)} :
    (∃ row, reportValues s.evidence.books n (issuedVersion c s) c profile = .ok row) ↔
      Issuable c s := by
  have hdeployment : (s.evidence.books.deployments.any fun d => d.id = c.deploymentId) = true ↔
      ∃ d ∈ s.evidence.books.deployments, d.id = c.deploymentId := by simp
  constructor
  · rintro ⟨row, h⟩
    unfold reportValues at h
    split at h
    · cases h
    · rename_i hversion
      split at h
      · cases h
      · rename_i hperiod
        split at h
        · cases h
        · rename_i hknown
          refine ⟨Nat.le_of_not_lt hversion, by simpa using hperiod, hdeployment.1 ?_⟩
          simpa using hknown
  · intro h
    unfold reportValues
    rw [if_neg (Nat.not_lt.2 h.version), if_neg (by simp [h.period]),
      if_neg (by simpa using hdeployment.2 h.deployment)]
    exact ⟨_, rfl⟩

theorem lt_issuedVersion (hkept : AllKept s) {v : ℕ} {row : ReportRow}
    (h : s.lookup (.report c.deploymentId (reportRefOf c.period) v) = some row) :
    v < issuedVersion c s := by
  obtain ⟨hd, href, hv, -⟩ := hkept _ _ h
  have hmem : row ∈ (s.archive 0).reports :=
    List.mem_filterMap.2 ⟨_, AList.mem_lookup_iff.1 h, rfl⟩
  have hversion : row.version ∈ ((s.archive 0).reports.filter fun r =>
      r.deploymentId = c.deploymentId ∧ r.reportRef = reportRefOf c.period).map
        ReportRow.version := by
    refine List.mem_map_of_mem (List.mem_filter.2 ⟨hmem, ?_⟩)
    simp [hd, href]
  rw [← hv]
  exact Nat.lt_succ_of_le (List.le_max_of_le hversion (le_refl _))

theorem issuedVersion_new (hkept : AllKept s) :
    s.lookup (.report c.deploymentId (reportRefOf c.period) (issuedVersion c s)) = none := by
  cases h : s.lookup (.report c.deploymentId (reportRefOf c.period) (issuedVersion c s)) with
  | none => rfl
  | some row => exact absurd (lt_issuedVersion hkept h) (Nat.lt_irrefl _)

theorem eval_issueTransaction : (issueTransaction collate c).eval s n =
    (Txn.write (.report c.deploymentId (reportRefOf c.period) (issuedVersion c s))
      (fun before => liftDb do
        let row ← reportValues s.evidence.books n (issuedVersion c s) c
          ((boundBy collate c s).foldl Archive.countGrade [])
        insertNew row before)
      (fun _ => bindFigures c.deploymentId n
        (.pure (.issued (artifactPathOf c.workspaceId (reportRefOf c.period) (issuedVersion c s))
          (artifactOf c (issuedVersion c s) (boundBy collate c s)))) (boundBy collate c s))).eval s
      (n + 1) := rfl

theorem mem_figures {f : FigureRow} : f ∈ (s.archive 0).figures ↔
    ∃ d ref v, ∃ row : Figure, s.lookup (.figure d ref v) = some row ∧ row.toFigureRow = f := by
  constructor
  · intro hf
    obtain ⟨row, hrow, rfl⟩ := List.mem_map.1 hf
    obtain ⟨⟨k, row'⟩, hentry, hk⟩ := List.mem_filterMap.1 hrow
    cases k with
    | figure d ref v =>
      cases hk
      exact ⟨d, ref, v, row, AList.mem_lookup_iff.2 hentry, rfl⟩
    | _ => cases hk
  · rintro ⟨d, ref, v, row, hrow, rfl⟩
    exact List.mem_map_of_mem (List.mem_filterMap.2 ⟨_, AList.mem_lookup_iff.1 hrow, rfl⟩)

theorem mem_boundBy {f : FigureRow} : f ∈ boundBy collate c s ↔
    (f ∈ (s.archive 0).figures ∧ f.deploymentId = c.deploymentId ∧ f.period = c.period) ∧
      ∀ g ∈ (s.archive 0).figures, g.deploymentId = c.deploymentId → g.period = c.period →
        g.figureRef = f.figureRef → g.version ≤ f.version := by
  simp only [boundBy, Archive.latestFigures, List.mem_mergeSort, List.mem_filter,
    List.all_eq_true, decide_eq_true_eq, and_imp]

theorem id_lt_of_mem_figures (h : Identified s n) {f : FigureRow}
    (hf : f ∈ (s.archive 0).figures) : f.id < n := by
  obtain ⟨d, ref, v, row, hrow, rfl⟩ := mem_figures.1 hf
  exact h.below hrow rfl

theorem nodup_figures (h : Identified s n) : ((s.archive 0).figures.map fun f => f.id).Nodup := by
  have hkeys := s.nodupKeys
  have hown : ∀ x ∈ s.entries, ∀ y ∈ s.entries, ∀ i, rowId x.1 x.2 = some i →
      rowId y.1 y.2 = some i → x.1 = y.1 := fun x hx y hy i =>
    h.own (AList.mem_lookup_iff.2 hx) (AList.mem_lookup_iff.2 hy)
  simp only [Records.archive, List.map_map]
  revert hown hkeys
  generalize s.entries = entries
  intro hkeys hown
  induction entries with
  | nil => exact List.nodup_nil
  | cons x entries ih =>
    have hrest := ih (List.nodupKeys_cons.1 hkeys).2 fun x hx y hy =>
      hown x (List.mem_cons_of_mem _ hx) y (List.mem_cons_of_mem _ hy)
    obtain ⟨k, row⟩ := x
    cases k with
    | figure d ref v =>
      rw [List.filterMap_cons_some (by rfl), List.map_cons]
      refine List.nodup_cons.2 ⟨fun hmem => ?_, hrest⟩
      obtain ⟨row', hrow', hid⟩ := List.mem_map.1 hmem
      obtain ⟨⟨k', row''⟩, hentry, hk'⟩ := List.mem_filterMap.1 hrow'
      cases k' with
      | figure d' ref' v' =>
        cases hk'
        have heq := hown _ List.mem_cons_self _ (List.mem_cons_of_mem _ hentry) row.id rfl
          (congrArg some hid)
        refine (List.nodupKeys_cons.1 hkeys).1 ?_
        dsimp only at heq ⊢
        rw [heq]
        exact List.mem_keys_of_mem hentry
      | _ => cases hk'
    | _ => exact hrest

theorem nodup_boundBy (h : Identified s n) : ((boundBy collate c s).map fun f => f.id).Nodup := by
  have hsub : ((((s.archive 0).figures.filter fun f =>
      f.deploymentId = c.deploymentId ∧ f.period = c.period).filter fun f =>
        ((s.archive 0).figures.filter fun f =>
          f.deploymentId = c.deploymentId ∧ f.period = c.period).all fun g =>
            decide (g.figureRef = f.figureRef → g.version ≤ f.version)).map fun f => f.id).Nodup :=
    (nodup_figures h).sublist ((List.filter_sublist.trans List.filter_sublist).map _)
  exact (((List.mergeSort_perm _ _).map _).nodup_iff).2 hsub

theorem eval_bindFigures_of_new {deploymentId reportId : ℕ} {figs : List FigureRow}
    (hnodup : (figs.map fun f => f.id).Nodup)
    (hnew : ∀ f ∈ figs, s.lookup (.reportFigure reportId f.id) = none) :
    (bindFigures deploymentId reportId (.pure a) figs).eval s n =
      (.ok (a, bound deploymentId reportId figs s), n) := by
  induction figs generalizing s with
  | nil => rfl
  | cons f figs ih =>
    obtain ⟨hout, hrest⟩ := List.nodup_cons.1 hnodup
    simp only [bindFigures, Txn.eval, hnew f List.mem_cons_self]
    refine ih hrest fun g hg => ?_
    have hne : g.id ≠ f.id := fun heq => hout (List.mem_map.2 ⟨g, hg, heq⟩)
    rw [AList.lookup_insert_ne (by simpa using hne)]
    exact hnew g (List.mem_cons_of_mem _ hg)

/-- A call that passes the constraints of `reports` commits. -/
theorem exists_issue (hkept : AllKept s) (hid : Identified s n) (h : Issuable c s) :
    ∃ r, (issueTransaction collate c).eval s n = (.ok r, n + 1) := by
  obtain ⟨row, hvalues⟩ := (@reportValues_isOk_iff c s n
    ((boundBy collate c s).foldl Archive.countGrade [])).2 h
  have hnew : ∀ f ∈ boundBy collate c s, (s.insert (.report c.deploymentId
      (reportRefOf c.period) (issuedVersion c s)) row).lookup (.reportFigure n f.id) = none := by
    intro f hf
    rw [AList.lookup_insert_ne (by simp)]
    cases hrow : s.lookup (.reportFigure n f.id) with
    | none => rfl
    | some row' => exact absurd (hid.refs (i := n) hrow (by simp [rowRefs])) (Nat.lt_irrefl n)
  have hbind := @eval_bindFigures_of_new _ (n + 1)
    (.issued (artifactPathOf c.workspaceId (reportRefOf c.period) (issuedVersion c s))
      (artifactOf c (issuedVersion c s) (boundBy collate c s))) c.deploymentId n _
    (nodup_boundBy hid) hnew
  refine ⟨_, Eq.trans ?_ hbind⟩
  rw [eval_issueTransaction, Txn.eval, hvalues, issuedVersion_new hkept]
  rfl

/-- A committed call, as the rows show it. -/
theorem issued_of_eval
    (h : (issueTransaction collate c).eval s n = (.ok (a, s'), n')) :
    ∃ row, Issued collate c s s' n row ∧ n' = n + 1 ∧ Issuable c s ∧
      a = .issued row.artifactPath (artifactOf c (issuedVersion c s) (boundBy collate c s)) ∧
      s' = bound c.deploymentId n (boundBy collate c s)
        (s.insert (.report c.deploymentId (reportRefOf c.period) (issuedVersion c s)) row) ∧
      reportValues s.evidence.books n (issuedVersion c s) c
        ((boundBy collate c s).foldl Archive.countGrade []) = .ok row := by
  rw [eval_issueTransaction, Txn.eval] at h
  cases hvalues : reportValues s.evidence.books n (issuedVersion c s) c
      ((boundBy collate c s).foldl Archive.countGrade []) with
  | error e =>
    rw [hvalues] at h
    cases h
  | ok row =>
    rw [hvalues] at h
    cases hold : s.lookup (.report c.deploymentId (reportRefOf c.period) (issuedVersion c s)) with
    | some old =>
      rw [hold] at h
      cases h
    | none =>
      rw [hold] at h
      obtain ⟨rfl, rfl, rfl, hnodup, -⟩ := eval_bindFigures h
      obtain ⟨hid, hperiod, hprofile, hlocated⟩ := reportValues_columns hvalues
      refine ⟨row, ⟨hid, hperiod, hprofile, hlocated, ?_, hold, hnodup, ?_, ?_⟩, rfl,
        reportValues_isOk_iff.1 ⟨row, hvalues⟩, by rw [hlocated], rfl, rfl⟩
      · rcases @bound_lookup (s.insert
            (.report c.deploymentId (reportRefOf c.period) (issuedVersion c s)) row)
          c.deploymentId n _ hnodup
          (.report c.deploymentId (reportRefOf c.period) (issuedVersion c s))
          with ⟨hlookup, -⟩ | ⟨f, -, hk, -⟩
        · rw [hlookup, AList.lookup_insert]
        · cases hk
      · intro r f
        rcases @bound_lookup (s.insert
            (.report c.deploymentId (reportRefOf c.period) (issuedVersion c s)) row)
          c.deploymentId n _ hnodup (.reportFigure r f) with ⟨hlookup, hnot⟩ | ⟨g, hg, hk, hlookup⟩
        · rw [hlookup, AList.lookup_insert_ne (by simp), if_neg]
          rintro ⟨rfl, hf⟩
          obtain ⟨g, hg, rfl⟩ := List.mem_map.1 hf
          exact hnot g hg rfl
        · cases hk
          rw [hlookup, if_pos ⟨rfl, List.mem_map_of_mem hg⟩]
      · intro k hreport hfigure
        rcases @bound_lookup (s.insert
            (.report c.deploymentId (reportRefOf c.period) (issuedVersion c s)) row)
          c.deploymentId n _ hnodup k with ⟨hlookup, -⟩ | ⟨g, -, hk, -⟩
        · rw [hlookup, AList.lookup_insert_ne hreport]
        · exact absurd hk (hfigure _ _)

section Kept

variable {row : ReportRow}

theorem Issued.identified (h : Issued collate c s s' n row) (hid : Identified s n) :
    Identified s' (n + 1) := by
  have hcases : ∀ {k : RecordKey} {r : Record k}, s'.lookup k = some r →
      (rowId k r = some n ∧ k = .report c.deploymentId (reportRefOf c.period) (issuedVersion c s) ∨
        rowId k r = none ∨ s.lookup k = some r) ∧ ∀ i ∈ rowRefs k, i < n + 1 := by
    intro k r hr
    by_cases hreport : k = .report c.deploymentId (reportRefOf c.period) (issuedVersion c s)
    · subst hreport
      rw [h.report] at hr
      cases hr
      exact ⟨.inl ⟨congrArg some h.id, rfl⟩, by simp [rowRefs]⟩
    · cases k with
      | reportFigure i f =>
        refine ⟨.inr (.inl rfl), ?_⟩
        rw [h.figures] at hr
        split at hr
        · rename_i hbound
          obtain ⟨rfl, hf⟩ := hbound
          obtain ⟨g, hg, rfl⟩ := List.mem_map.1 hf
          have hlt := id_lt_of_mem_figures hid (mem_boundBy.1 hg).1.1
          intro j hj
          rcases List.mem_cons.1 hj with rfl | hj
          · exact Nat.lt_succ_self _
          · rw [List.mem_singleton.1 hj]
            exact hlt.trans (Nat.lt_succ_self _)
        · exact fun j hj => (hid.refs hr hj).trans (Nat.lt_succ_self n)
      | _ =>
        rw [h.others _ hreport (by simp)] at hr
        exact ⟨.inr (.inr hr), by simp [rowRefs]⟩
  refine ⟨fun hr hi => ?_, fun hr hr' hi hi' => ?_, fun hr hi => (hcases hr).2 _ hi⟩
  · rcases (hcases hr).1 with ⟨hn, -⟩ | hnone | hold
    · rw [Option.some.inj (hi.symm.trans hn)]
      exact Nat.lt_succ_self n
    · cases hnone.symm.trans hi
    · exact (hid.below hold hi).trans (Nat.lt_succ_self n)
  · rcases (hcases hr).1 with ⟨hn, hk⟩ | hnone | hold
    · rcases (hcases hr').1 with ⟨-, hk'⟩ | hnone' | hold'
      · rw [hk, hk']
      · cases hnone'.symm.trans hi'
      · obtain rfl := Option.some.inj (hi.symm.trans hn)
        exact absurd (hid.below hold' hi') (Nat.lt_irrefl _)
    · cases hnone.symm.trans hi
    · rcases (hcases hr').1 with ⟨hn', -⟩ | hnone' | hold'
      · obtain rfl := Option.some.inj (hi'.symm.trans hn')
        exact absurd (hid.below hold hi) (Nat.lt_irrefl _)
      · cases hnone'.symm.trans hi'
      · exact hid.own hold hold' hi hi'

theorem isSome_reportFigure (h : Issued collate c s s' n row) (hid : Identified s n) (i : ℕ) :
    (s'.lookup (.reportFigure row.id i)).isSome ↔
      i ∈ (boundBy collate c s).map fun f => f.id := by
  rw [h.id, h.figures]
  split
  · rename_i hbound
    simpa using hbound.2
  · rename_i hnot
    have hnone : s.lookup (.reportFigure n i) = none := by
      cases hrow : s.lookup (.reportFigure n i) with
      | none => rfl
      | some row' => exact absurd (hid.refs (i := n) hrow (by simp [rowRefs])) (Nat.lt_irrefl _)
    rw [hnone]
    simpa using hnot

theorem Issued.kept (h : Issued collate c s s' n row) (hid : Identified s n) : Kept s s' := by
  intro k r hk hr
  by_cases hreport : k = .report c.deploymentId (reportRefOf c.period) (issuedVersion c s)
  · subst hreport
    cases h.added.symm.trans hr
  · cases k with
    | reportFigure i f =>
      rw [h.figures, if_neg, hr]
      rintro ⟨rfl, -⟩
      exact absurd (hid.refs (i := i) hr (by simp [rowRefs])) (Nat.lt_irrefl i)
    | evidence => exact absurd rfl hk
    | _ => rw [h.others _ hreport (by simp), hr]

theorem versionHistory_bound {deploymentId reportId : ℕ} {figs : List FigureRow}
    (h : VersionHistory s) : VersionHistory (bound deploymentId reportId figs s) := by
  induction figs generalizing s with
  | nil => exact h
  | cons f figs ih =>
    have hwell : WellKept (.reportFigure reportId f.id)
        (⟨deploymentId, reportId, f.id⟩ : ReportFigureRow) := ⟨rfl, rfl⟩
    exact ih (h.insert_other hwell (by simp) (by simp))

theorem versionHistory_of_issue (h : VersionHistory s)
    (heval : (issueTransaction collate c).eval s n = (.ok (a, s'), n')) : VersionHistory s' := by
  obtain ⟨row, hissued, -, -, -, rfl, hvalues⟩ := issued_of_eval heval
  exact versionHistory_bound
    (h.insert_report h.kept (Std.Refl.refl s) (reportValues_eq_ok hvalues) hissued.added)

end Kept

end Issuance

end TrueFigure.Server
