import TrueFigure.Server.RefusalLifted
import TrueFigure.Server.ReportIssuance

/-!
# What a report binds

A report binds the newest version of each figure of its deployment and period, once. Its
profile counts what it binds, its document shows the same figures, and `get_report` returns
the same for this version ever after: rows are only added, under identities not drawn before.
-/
namespace TrueFigure.Server

open TrueFigure.Library TrueFigure.Python

/-! ### `get_report` -/

namespace Records

variable (s : Records)

/-- `report_figures rf JOIN figures f ON f.id=rf.figure_id WHERE rf.report_id=%s`. -/
def boundRows (reportId : ℕ) : List FigureRow :=
  ((s.archive 0).reportFigures.filter fun rf => rf.reportId = reportId).flatMap fun rf =>
    (s.archive 0).figures.filter fun f => f.id = rf.figureId

end Records

/-- What `get_report` returns; it asks for no order of the figures. -/
structure ReportView where
  reportId : PyStr
  version : ℕ
  period : PyStr
  issuedAt : ℤ
  gradeProfile : List (PyStr × ℕ)
  supersedesVersion : Option ℕ
  artifactPath : PyStr
  figures : Multiset (PyStr × ℕ)

/-- The view of one row of `reports`. -/
def reportView (s : Records) (row : ReportRow) : ReportView where
  reportId := row.reportRef
  version := row.version
  period := row.period
  issuedAt := row.issuedAt
  gradeProfile := row.gradeProfile
  supersedesVersion := row.supersedesVersion
  artifactPath := row.artifactPath
  figures := (s.boundRows row.id).map fun f => (f.figureRef, f.version)

/-- `get_report`: the newest version. -/
def getReport (s : Records) (deploymentId : ℕ) (reportRef : PyStr) : Option ReportView :=
  ((((s.archive 0).reports.filter fun r =>
    r.deploymentId = deploymentId ∧ r.reportRef = reportRef).insertionSort
      fun r t => t.version ≤ r.version).head?).map (reportView s)

/-! ### The profile -/

/-- `f["grade_type"] or f["figure_status"]`. -/
def FigureRow.grade (f : FigureRow) : PyStr :=
  (f.gradeType.map GradeType.wire).getD f.figureStatus.wire

section Profile

variable {profile : List (PyStr × ℕ)} {f : FigureRow} {g : PyStr}

theorem lookup_map_count (profile : List (PyStr × ℕ)) (g g' : PyStr) :
    (profile.map fun entry => if entry.1 = g then (entry.1, entry.2 + 1) else entry).lookup g' =
      (profile.lookup g').map fun n => if g' = g then n + 1 else n := by
  induction profile with
  | nil => rfl
  | cons entry profile ih =>
    obtain ⟨k, n⟩ := entry
    rw [List.map_cons]
    by_cases hk : g' = k
    · subst hk
      by_cases hg : g' = g <;> simp [hg]
    · have hbeq : (g' == k) = false := beq_eq_false_iff_ne.2 hk
      by_cases hg : k = g
      · simp only [hg, if_true, List.lookup_cons, ih]
        rw [← hg, hbeq]
      · simp only [hg, if_false, List.lookup_cons, ih, hbeq]

theorem lookup_countGrade : ((Archive.countGrade profile f).lookup g).getD 0 =
    (profile.lookup g).getD 0 + if f.grade = g then 1 else 0 := by
  unfold Archive.countGrade
  change ((if (profile.lookup f.grade).isSome then _ else _ : List (PyStr × ℕ)).lookup g).getD 0 = _
  by_cases hg : f.grade = g
  · subst hg
    rw [if_pos rfl]
    split
    · rename_i hsome
      obtain ⟨n, hn⟩ := Option.isSome_iff_exists.1 hsome
      change ((profile.map fun entry => if entry.1 = f.grade then (entry.1, entry.2 + 1)
        else entry).lookup f.grade).getD 0 = _
      rw [lookup_map_count, hn]
      simp
    · rename_i hnone
      have hnone : profile.lookup f.grade = none := Option.not_isSome_iff_eq_none.1 hnone
      change ((profile ++ [(f.grade, 1)]).lookup f.grade).getD 0 = _
      rw [List.lookup_append, hnone]
      simp
  · rw [if_neg hg, Nat.add_zero]
    split
    · change ((profile.map fun entry => if entry.1 = f.grade then (entry.1, entry.2 + 1)
        else entry).lookup g).getD 0 = _
      rw [lookup_map_count]
      have hne : g ≠ f.grade := fun h => hg h.symm
      simp [hne]
    · change ((profile ++ [(f.grade, 1)]).lookup g).getD 0 = _
      have hbeq : (g == f.grade) = false := beq_eq_false_iff_ne.2 fun h => hg h.symm
      rw [List.lookup_append]
      simp [List.lookup_cons, hbeq]

theorem lookup_profile (figs : List FigureRow) (g : PyStr) :
    ((figs.foldl Archive.countGrade profile).lookup g).getD 0 =
      (profile.lookup g).getD 0 + figs.countP fun f => f.grade = g := by
  induction figs generalizing profile with
  | nil => rfl
  | cons f figs ih =>
    rw [List.foldl_cons, ih, lookup_countGrade, List.countP_cons]
    simp only [decide_eq_true_eq]
    omega

theorem keys_map_count (profile : List (PyStr × ℕ)) (g : PyStr) :
    (profile.map fun entry => if entry.1 = g then (entry.1, entry.2 + 1) else entry).map Prod.fst =
      profile.map Prod.fst := by
  rw [List.map_map]
  refine List.map_congr_left fun entry _ => ?_
  dsimp only [Function.comp_apply]
  split <;> rfl

theorem mem_keys_of_lookup {n : ℕ} (h : profile.lookup g = some n) : g ∈ profile.map Prod.fst := by
  induction profile with
  | nil => cases h
  | cons entry profile ih =>
    obtain ⟨k, m⟩ := entry
    by_cases hk : g = k
    · exact hk ▸ List.mem_cons_self
    · rw [List.lookup_cons, beq_eq_false_iff_ne.2 hk] at h
      exact List.mem_cons_of_mem _ (ih h)

theorem sum_map_count (hnodup : (profile.map Prod.fst).Nodup) (hmem : g ∈ profile.map Prod.fst) :
    ((profile.map fun entry => if entry.1 = g then (entry.1, entry.2 + 1) else entry).map
      Prod.snd).sum = (profile.map Prod.snd).sum + 1 := by
  induction profile with
  | nil => cases hmem
  | cons entry profile ih =>
    obtain ⟨k, n⟩ := entry
    rw [List.map_cons, List.nodup_cons] at hnodup
    rw [List.map_cons, List.map_cons, List.sum_cons, List.map_cons, List.sum_cons]
    by_cases hk : k = g
    · subst hk
      have hsame : (profile.map fun entry => if entry.1 = k then (entry.1, entry.2 + 1)
          else entry) = profile := by
        refine (List.map_congr_left fun entry hentry => if_neg fun heq => ?_).trans (List.map_id _)
        exact hnodup.1 (List.mem_map.2 ⟨entry, hentry, heq⟩)
      rw [hsame, if_pos rfl]
      dsimp only
      omega
    · have hrest := ih hnodup.2 ((List.mem_cons.1 hmem).resolve_left fun h => hk h.symm)
      rw [hrest, if_neg hk]
      omega

/-- The grades of a profile are distinct, and its counts sum to the figures counted. -/
theorem sum_profile (figs : List FigureRow) (hnodup : (profile.map Prod.fst).Nodup) :
    ((figs.foldl Archive.countGrade profile).map Prod.fst).Nodup ∧
      ((figs.foldl Archive.countGrade profile).map Prod.snd).sum =
        (profile.map Prod.snd).sum + figs.length := by
  induction figs generalizing profile with
  | nil => exact ⟨hnodup, rfl⟩
  | cons f figs ih =>
    have hstep : ((Archive.countGrade profile f).map Prod.fst).Nodup ∧
        ((Archive.countGrade profile f).map Prod.snd).sum = (profile.map Prod.snd).sum + 1 := by
      unfold Archive.countGrade
      dsimp only
      split
      · rename_i hsome
        obtain ⟨n, hn⟩ := Option.isSome_iff_exists.1 hsome
        exact ⟨keys_map_count profile _ ▸ hnodup, sum_map_count hnodup (mem_keys_of_lookup hn)⟩
      · rename_i hnone
        constructor
        · rw [List.map_append, List.map_singleton, ← List.concat_eq_append, List.nodup_concat]
          refine ⟨fun hmem => hnone ?_, hnodup⟩
          obtain ⟨entry, hentry, hkey⟩ := List.mem_map.1 hmem
          exact List.lookup_isSome_iff.2 ⟨entry, hentry, by simp [hkey]⟩
        · simp
    obtain ⟨hkeys, hsum⟩ := ih hstep.1
    refine ⟨hkeys, ?_⟩
    rw [List.foldl_cons, hsum, hstep.2, List.length_cons]
    omega

end Profile

/-! ### The rows of a report -/

section Rows

variable {s s' : Records} {n : ℕ} {id : ℕ}

theorem mem_reportFigures {rf : ReportFigureRow} : rf ∈ (s.archive 0).reportFigures ↔
    ∃ r f, s.lookup (.reportFigure r f) = some rf := by
  constructor
  · intro hrf
    obtain ⟨⟨k, row⟩, hentry, hk⟩ := List.mem_filterMap.1 hrf
    cases k with
    | reportFigure r f =>
      cases hk
      exact ⟨r, f, AList.mem_lookup_iff.2 hentry⟩
    | _ => cases hk
  · rintro ⟨r, f, hrow⟩
    exact List.mem_filterMap.2 ⟨_, AList.mem_lookup_iff.1 hrow, rfl⟩

theorem mem_boundRows (hkept : AllKept s) {f : FigureRow} : f ∈ s.boundRows id ↔
    f ∈ (s.archive 0).figures ∧ (s.lookup (.reportFigure id f.id)).isSome := by
  simp only [Records.boundRows, List.mem_flatMap, List.mem_filter, decide_eq_true_eq]
  constructor
  · rintro ⟨rf, ⟨hrf, hreport⟩, hf, hfigure⟩
    obtain ⟨r, i, hrow⟩ := mem_reportFigures.1 hrf
    obtain ⟨hr, hi⟩ := hkept _ _ hrow
    refine ⟨hf, ?_⟩
    rw [← hreport, hfigure, hr, hi, hrow]
    rfl
  · rintro ⟨hf, hsome⟩
    obtain ⟨rf, hrow⟩ := Option.isSome_iff_exists.1 hsome
    obtain ⟨hr, hi⟩ := hkept _ _ hrow
    exact ⟨rf, ⟨mem_reportFigures.2 ⟨_, _, hrow⟩, hr⟩, hf, hi.symm⟩

theorem nodup_reportFigures (hkept : AllKept s) :
    ((s.archive 0).reportFigures.map fun rf => RecordKey.reportFigure rf.reportId
      rf.figureId).Nodup := by
  refine nodup_filterMap_keys fun x hx rf hrf => ?_
  obtain ⟨k, row⟩ := x
  cases k with
  | reportFigure r f =>
    cases hrf
    obtain ⟨hr, hf⟩ := hkept _ _ (AList.mem_lookup_iff.2 hx)
    exact congrArg₂ RecordKey.reportFigure hr hf
  | _ => cases hrf

theorem nodup_boundRows (hkept : AllKept s) (hid : Identified s n) : (s.boundRows id).Nodup := by
  refine List.nodup_flatMap.2 ⟨fun rf _ => ((nodup_figures hid).of_map _).filter _, ?_⟩
  refine ((List.pairwise_map.1 (nodup_reportFigures hkept)).filter _).imp_of_mem ?_
  intro rf rf' hrf hrf' hne f hf hf'
  have hreport := (List.mem_filter.1 hrf).2
  have hreport' := (List.mem_filter.1 hrf').2
  have hfigure := (List.mem_filter.1 hf).2
  have hfigure' := (List.mem_filter.1 hf').2
  simp only [decide_eq_true_eq] at hreport hreport' hfigure hfigure'
  exact hne (by rw [hreport, hreport', ← hfigure, ← hfigure'])

theorem figures_congr (h : ∀ d ref v, s'.lookup (.figure d ref v) = s.lookup (.figure d ref v))
    (f : FigureRow) : f ∈ (s'.archive 0).figures ↔ f ∈ (s.archive 0).figures := by
  simp only [mem_figures, h]

end Rows

section Binding

variable {collate : PyStr → PyStr → Bool} {c : Issue} {s s' : Records} {n : ℕ} {row : ReportRow}

/-- What the join returns is what the call selected. -/
theorem boundRows_perm (h : Issued collate c s s' n row) (hid : Identified s n)
    (hkept : AllKept s') : (s'.boundRows row.id).Perm (boundBy collate c s) := by
  have hnodup := @nodup_boundRows _ _ row.id hkept (h.identified hid)
  refine (List.perm_ext_iff_of_nodup hnodup (h.nodup.of_map _)).2 fun f => ?_
  rw [mem_boundRows hkept, isSome_reportFigure h hid,
    figures_congr fun d ref v => h.others _ (by simp) (by simp)]
  constructor
  · rintro ⟨hf, hmem⟩
    obtain ⟨g, hg, heq⟩ := List.mem_map.1 hmem
    rwa [← List.inj_on_of_nodup_map (nodup_figures hid) (mem_boundBy.1 hg).1.1 hf heq]
  · intro hf
    exact ⟨(mem_boundBy.1 hf).1.1, List.mem_map_of_mem hf⟩

end Binding

/-! ### Newest versions -/

/-- The figure has this version in the deployment and period of the call. -/
def HasVersion (c : Issue) (s : Records) (ref : PyStr) (v : ℕ) : Prop :=
  ∃ f : Figure, s.lookup (.figure c.deploymentId ref v) = some f ∧ f.period = c.period

def NewestVersion (c : Issue) (s : Records) (ref : PyStr) (v : ℕ) : Prop :=
  HasVersion c s ref v ∧ ∀ v', HasVersion c s ref v' → v' ≤ v

/-- The report binds this version of a figure. -/
def Binds (s : Records) (reportId d : ℕ) (ref : PyStr) (v : ℕ) : Prop :=
  ∃ f : Figure, s.lookup (.figure d ref v) = some f ∧
    (s.lookup (.reportFigure reportId f.id)).isSome

/-- A report binds the newest version of each figure, once, and nothing else; its profile and
its document agree with what it binds. -/
structure BindsNewest (c : Issue) (s s' : Records) (row : ReportRow) (artifact : Artifact) :
    Prop where
  figures : ∀ d ref v, Binds s' row.id d ref v ↔ d = c.deploymentId ∧ NewestVersion c s ref v
  once : ∀ ref, (∃ v, HasVersion c s ref v) → ∃! v, Binds s' row.id c.deploymentId ref v
  rows : ∀ i, (s'.lookup (.reportFigure row.id i)).isSome →
    ∃ f ∈ (s'.archive 0).figures, f.id = i
  counts : ∀ g, (row.gradeProfile.lookup g).getD 0 =
    (s'.boundRows row.id).countP fun f => f.grade = g
  grades : (row.gradeProfile.map Prod.fst).Nodup
  total : (row.gradeProfile.map Prod.snd).sum = (s'.boundRows row.id).length
  document : (artifact.figures.map fun f => (f.figureRef, f.version)).Perm
    ((s'.boundRows row.id).map fun f => (f.figureRef, f.version))
  shown : artifact.gradeProfile = row.gradeProfile

section Newest

variable {collate : PyStr → PyStr → Bool} {c : Issue} {s s' : Records} {n v : ℕ} {ref : PyStr}
  {row : ReportRow}

theorem exists_newestVersion (hkept : AllKept s) (h : ∃ v, HasVersion c s ref v) :
    ∃ v, NewestVersion c s ref v := by
  classical
  obtain ⟨u, hu⟩ := h
  have hle : ∀ v, HasVersion c s ref v → v ≤ s.nextVersion c.deploymentId ref :=
    fun v ⟨_, hf, _⟩ => (lt_nextVersion hkept hf).le
  refine ⟨Nat.findGreatest (HasVersion c s ref) (s.nextVersion c.deploymentId ref), ?_, ?_⟩
  · exact Nat.findGreatest_spec (hle u hu) hu
  · exact fun v hv => Nat.le_findGreatest (hle v hv) hv

theorem newestVersion_unique {v' : ℕ} (h : NewestVersion c s ref v) (h' : NewestVersion c s ref v') :
    v = v' :=
  le_antisymm (h'.2 v h.1) (h.2 v' h'.1)

/-- The selection takes the newest versions of the deployment and period. -/
theorem mem_boundBy_iff (hkept : AllKept s) {d : ℕ} {f : Figure}
    (hf : s.lookup (.figure d ref v) = some f) :
    f.toFigureRow ∈ boundBy collate c s ↔ d = c.deploymentId ∧ f.period = c.period ∧
      ∀ v', HasVersion c s ref v' → v' ≤ v := by
  obtain ⟨hd, href, hv⟩ := hkept _ _ hf
  rw [mem_boundBy]
  constructor
  · rintro ⟨⟨-, hdep, hperiod⟩, hnewest⟩
    refine ⟨hd ▸ hdep, hperiod, ?_⟩
    rintro v' ⟨f', hf', hperiod'⟩
    obtain ⟨hd', href', hv'⟩ := hkept _ _ hf'
    rw [← hv, ← hv']
    exact hnewest _ (mem_figures.2 ⟨_, _, _, f', hf', rfl⟩) hd' hperiod' (href'.trans href.symm)
  · rintro ⟨rfl, hperiod, hnewest⟩
    refine ⟨⟨mem_figures.2 ⟨_, _, _, f, hf, rfl⟩, hd, hperiod⟩, fun g hg hdep hperiod' hsame => ?_⟩
    obtain ⟨d', ref', v', g', hg', rfl⟩ := mem_figures.1 hg
    obtain ⟨hd', href', hv'⟩ := hkept _ _ hg'
    obtain rfl : d' = c.deploymentId := hd'.symm.trans hdep
    obtain rfl : ref' = ref := href'.symm.trans (hsame.trans href)
    rw [hv, hv']
    exact hnewest v' ⟨g', hg', hperiod'⟩

theorem binds_iff (h : Issued collate c s s' n row) (hid : Identified s n) (hkept : AllKept s)
    (d : ℕ) (ref : PyStr) (v : ℕ) :
    Binds s' row.id d ref v ↔ d = c.deploymentId ∧ NewestVersion c s ref v := by
  have hsame : s'.lookup (.figure d ref v) = s.lookup (.figure d ref v) :=
    h.others _ (by simp) (by simp)
  have hmem : ∀ f : Figure, s.lookup (.figure d ref v) = some f →
      ((s'.lookup (.reportFigure row.id f.id)).isSome ↔ f.toFigureRow ∈ boundBy collate c s) := by
    intro f hf
    rw [isSome_reportFigure h hid]
    constructor
    · intro hbound
      obtain ⟨g, hg, heq⟩ := List.mem_map.1 hbound
      have hfig : f.toFigureRow ∈ (s.archive 0).figures := mem_figures.2 ⟨_, _, _, f, hf, rfl⟩
      rwa [List.inj_on_of_nodup_map (nodup_figures hid) hfig (mem_boundBy.1 hg).1.1 heq.symm]
    · exact fun hbound => List.mem_map_of_mem (f := fun f => f.id) hbound
  constructor
  · rintro ⟨f, hf, hbound⟩
    rw [hsame] at hf
    obtain ⟨rfl, hperiod, hnewest⟩ := (mem_boundBy_iff hkept hf).1 ((hmem f hf).1 hbound)
    exact ⟨rfl, ⟨f, hf, hperiod⟩, hnewest⟩
  · rintro ⟨rfl, ⟨f, hf, hperiod⟩, hnewest⟩
    refine ⟨f, hsame.trans hf, (hmem f hf).2 ?_⟩
    exact (mem_boundBy_iff hkept hf).2 ⟨rfl, hperiod, hnewest⟩

theorem bindsNewest_of_issued (h : Issued collate c s s' n row) (hid : Identified s n)
    (hkept : AllKept s) (hkept' : AllKept s') :
    BindsNewest c s s' row (artifactOf c (issuedVersion c s) (boundBy collate c s)) := by
  have hperm := boundRows_perm h hid hkept'
  have hcounted := @sum_profile [] (boundBy collate c s) List.nodup_nil
  refine ⟨binds_iff h hid hkept, fun ref hhas => ?_, fun i hi => ?_, fun g => ?_, ?_, ?_, ?_,
    h.profile.symm⟩
  · obtain ⟨v, hv⟩ := exists_newestVersion hkept hhas
    refine ⟨v, (binds_iff h hid hkept _ _ _).2 ⟨rfl, hv⟩, fun v' hv' => ?_⟩
    exact newestVersion_unique ((binds_iff h hid hkept _ _ _).1 hv').2 hv
  · obtain ⟨f, hf, rfl⟩ := List.mem_map.1 ((isSome_reportFigure h hid i).1 hi)
    refine ⟨f, ?_, rfl⟩
    exact (figures_congr (fun d ref v => h.others _ (by simp) (by simp)) f).2 (mem_boundBy.1 hf).1.1
  · rw [h.profile, lookup_profile, hperm.countP_eq]
    simp
  · rw [h.profile]
    exact hcounted.1
  · rw [h.profile, hcounted.2, hperm.length_eq]
    simp
  · refine List.Perm.trans (List.Perm.of_eq ?_) (hperm.symm.map _)
    simp [artifactOf]

end Newest

/-! ### Later calls -/

section Later

variable {env : HookEnv} {s s' : EngineState} {l : EngineLabel}
  {trace : List (EngineState × EngineLabel)}

theorem EngineStep.bindings (hs : EngineStep env s l s') (hok : EngineOk s) :
    s.sequence ≤ s'.sequence ∧ ∀ r f, r < s.sequence →
      s'.records.lookup (.reportFigure r f) = s.records.lookup (.reportFigure r f) := by
  cases hs with
  | compute heval =>
    have hfigured := figured_of_computeDeployment hok.history heval
    exact ⟨hfigured.drawn, fun r f _ => hfigured.others _ (by simp)⟩
  | @issue collate c n records path artifact torn announced now heval =>
    obtain ⟨row, hissued, rfl, -⟩ := issued_of_eval heval
    obtain ⟨t, ht⟩ := announceReport_eq env (({ s with records, sequence := s.sequence + 1 } :
      EngineState).put c torn path artifact) c announced artifact now
    rw [ht]
    refine ⟨?_, fun r f hr => ?_⟩
    · simp [EngineState.withHooks]
    · have hlookup := hissued.figures r f
      rw [if_neg fun hbound => hr.ne hbound.1] at hlookup
      simpa [EngineState.withHooks] using hlookup
  | undone hle => exact ⟨hle, fun _ _ _ => rfl⟩
  | data => exact ⟨le_rfl, fun _ _ _ => AList.lookup_insert_ne (by simp)⟩
  | monitors | ack | hooks => exact ⟨le_rfl, fun _ _ _ => rfl⟩

theorem bindings_of_run (hok : EngineOk s) (hrun : Run (EngineStep env) s trace s') :
    s.sequence ≤ s'.sequence ∧ ∀ r f, r < s.sequence →
      s'.records.lookup (.reportFigure r f) = s.records.lookup (.reportFigure r f) := by
  induction hrun with
  | refl => exact ⟨le_rfl, fun _ _ _ => rfl⟩
  | head hs _ ih =>
    obtain ⟨hle, hsame⟩ := hs.bindings hok
    obtain ⟨hle', hsame'⟩ := ih (hs.keeps hok).1
    exact ⟨hle.trans hle', fun r f hr => (hsame' r f (hr.trans_le hle)).trans (hsame r f hr)⟩

theorem engineOk_of_run (hok : EngineOk s) (hrun : Run (EngineStep env) s trace s') :
    EngineOk s' :=
  (hrun.invariant hok fun _ _ _ h hs => (hs.keeps h).1).1

theorem reportView_of_run {d v : ℕ} {ref : PyStr} {row : ReportRow} (hok : EngineOk s)
    (hrow : s.records.lookup (.report d ref v) = some row)
    (hrows : ∀ i, (s.records.lookup (.reportFigure row.id i)).isSome →
      ∃ f ∈ (s.records.archive 0).figures, f.id = i)
    (hrun : Run (EngineStep env) s trace s') :
    s'.records.lookup (.report d ref v) = some row ∧
      reportView s'.records row = reportView s.records row := by
  have hok' := engineOk_of_run hok hrun
  have hpersists := persists_of_run hok hrun
  have hsame := fun f => (bindings_of_run hok hrun).2 row.id f (hok.identified.below hrow rfl)
  have hfigures : ∀ f ∈ (s.records.archive 0).figures, f ∈ (s'.records.archive 0).figures := by
    intro f hf
    obtain ⟨d, ref, v, row, hlookup, rfl⟩ := mem_figures.1 hf
    exact mem_figures.2 ⟨d, ref, v, row, hpersists.rows _ _ (by simp) hlookup, rfl⟩
  refine ⟨hpersists.rows _ _ (by simp) hrow, ?_⟩
  have hperm : (s'.records.boundRows row.id).Perm (s.records.boundRows row.id) := by
    refine (List.perm_ext_iff_of_nodup (nodup_boundRows hok'.history.kept hok'.identified)
      (nodup_boundRows hok.history.kept hok.identified)).2 fun f => ?_
    rw [mem_boundRows hok'.history.kept, mem_boundRows hok.history.kept, hsame]
    refine ⟨fun ⟨hf, hbound⟩ => ⟨?_, hbound⟩, fun ⟨hf, hbound⟩ => ⟨hfigures f hf, hbound⟩⟩
    obtain ⟨g, hg, heq⟩ := hrows _ hbound
    rwa [List.inj_on_of_nodup_map (nodup_figures hok'.identified) hf (hfigures g hg) heq.symm]
  unfold reportView
  rw [Multiset.coe_eq_coe.2 (hperm.map fun f => (f.figureRef, f.version))]

end Later

/-! ### The newest report -/

section GetReport

variable {s : Records} {d v : ℕ} {ref : PyStr} {row : ReportRow}

theorem lookup_of_mem_reports (hkept : AllKept s) {r : ReportRow} (hr : r ∈ (s.archive 0).reports) :
    s.lookup (.report r.deploymentId r.reportRef r.version) = some r := by
  obtain ⟨⟨k, row⟩, hentry, hk⟩ := List.mem_filterMap.1 hr
  cases k with
  | report d ref v =>
    cases hk
    have hlookup := AList.mem_lookup_iff.2 hentry
    obtain ⟨hd, href, hv, -⟩ := hkept _ _ hlookup
    rw [hd, href, hv]
    exact hlookup
  | _ => cases hk

theorem getReport_eq_some (hkept : AllKept s) {view : ReportView}
    (h : getReport s d ref = some view) :
    ∃ r, s.lookup (.report d ref r.version) = some r ∧ view = reportView s r := by
  obtain ⟨r, hhead, rfl⟩ := Option.map_eq_some_iff.1 h
  have hmem := List.mem_of_head? hhead
  rw [List.mem_insertionSort, List.mem_filter, decide_eq_true_eq] at hmem
  obtain ⟨hr, hd, href⟩ := hmem
  refine ⟨r, ?_, rfl⟩
  rw [← hd, ← href]
  exact lookup_of_mem_reports hkept hr

theorem getReport_of_newest (hkept : AllKept s) (hrow : s.lookup (.report d ref v) = some row)
    (hnewest : ∀ v' (r : ReportRow), s.lookup (.report d ref v') = some r → v' ≤ v) :
    getReport s d ref = some (reportView s row) := by
  obtain ⟨hd, href, hv, -⟩ := hkept _ _ hrow
  have hmem : row ∈ ((s.archive 0).reports.filter fun r =>
      r.deploymentId = d ∧ r.reportRef = ref).insertionSort fun r t => t.version ≤ r.version := by
    rw [List.mem_insertionSort, List.mem_filter, decide_eq_true_eq]
    exact ⟨List.mem_filterMap.2 ⟨_, AList.mem_lookup_iff.1 hrow, rfl⟩, hd, href⟩
  have hsorted := List.pairwise_insertionSort (fun r t : ReportRow => t.version ≤ r.version)
    ((s.archive 0).reports.filter fun r => r.deploymentId = d ∧ r.reportRef = ref)
  have hstored : ∀ r ∈ (((s.archive 0).reports.filter fun r =>
      r.deploymentId = d ∧ r.reportRef = ref).insertionSort fun r t => t.version ≤ r.version),
      s.lookup (.report d ref r.version) = some r := by
    intro r hr
    rw [List.mem_insertionSort, List.mem_filter, decide_eq_true_eq] at hr
    obtain ⟨hr, rfl, rfl⟩ := hr
    exact lookup_of_mem_reports hkept hr
  unfold getReport
  revert hmem hsorted hstored
  generalize ((s.archive 0).reports.filter fun r =>
    r.deploymentId = d ∧ r.reportRef = ref).insertionSort (fun r t => t.version ≤ r.version) = rows
  intro hmem hsorted hstored
  cases rows with
  | nil => cases hmem
  | cons r rows =>
    have hr := hstored r List.mem_cons_self
    have hge : v ≤ r.version := by
      rcases List.mem_cons.1 hmem with rfl | hrest
      · exact hv.ge
      · exact hv ▸ (List.pairwise_cons.1 hsorted).1 row hrest
    rw [le_antisymm (hnewest _ r hr) hge, hrow] at hr
    cases hr
    rfl

end GetReport

/-- In every reachable state a call of `issue_report` commits exactly where the constraints of
`reports` admit it. Then it binds the newest version of each figure of its deployment and
period, `get_report` returns its report, and for this version the same after any later calls. -/
theorem issued_report_binds {env : HookEnv} {start s : EngineState}
    {trace : List (EngineState × EngineLabel)} (hstart : EngineStart start)
    (hrun : Run (EngineStep env) start trace s) (collate : PyStr → PyStr → Bool) (c : Issue) :
    ((∃ r, ((issueTransaction collate c).eval s.records s.sequence).1 = .ok r) ↔
      Issuable c s.records) ∧
    ∀ path artifact (s' : EngineState),
      (issueTransaction collate c).eval s.records s.sequence =
        (.ok (.issued path artifact, s'.records), s'.sequence) →
      ∃ row : ReportRow, BindsNewest c s.records s'.records row artifact ∧
        getReport s'.records c.deploymentId (reportRefOf c.period) =
          some (reportView s'.records row) ∧
        ∀ later s'', Run (EngineStep env) s' later s'' →
          s''.records.lookup (.report c.deploymentId (reportRefOf c.period) row.version) =
            some row ∧
          reportView s''.records row = reportView s'.records row ∧
          ∀ view, getReport s''.records c.deploymentId (reportRefOf c.period) = some view →
            view.version = row.version → view = reportView s'.records row := by
  have hok := (engineOk_reachable hstart hrun).1
  refine ⟨⟨fun ⟨r, hr⟩ => ?_, fun h => ?_⟩, fun path artifact s' heval => ?_⟩
  · obtain ⟨a, records⟩ := r
    obtain ⟨-, -, -, h, -⟩ := issued_of_eval (Prod.ext hr rfl)
    exact h
  · obtain ⟨r, hr⟩ := @exists_issue collate c _ _ hok.history.kept hok.identified h
    exact ⟨r, congrArg Prod.fst hr⟩
  · obtain ⟨row, hissued, hsequence, -, hreply, -⟩ := issued_of_eval heval
    cases hreply
    have hhistory := versionHistory_of_issue hok.history heval
    have hok' : EngineOk s' := ⟨hhistory, hsequence ▸ hissued.identified hok.identified⟩
    have hbinds := bindsNewest_of_issued hissued hok.identified hok.history.kept hhistory.kept
    have hversion : row.version = issuedVersion c s.records := (hhistory.kept _ _ hissued.report).2.2.1
    refine ⟨row, hbinds, ?_, fun later s'' hlater => ?_⟩
    · refine getReport_of_newest hhistory.kept hissued.report fun v' r hr => ?_
      by_cases hv : v' = issuedVersion c s.records
      · exact hv.le
      · rw [hissued.others _ (by simpa using hv) (by simp)] at hr
        exact (lt_issuedVersion hok.history.kept hr).le
    · obtain ⟨hrow, hview⟩ := reportView_of_run hok' hissued.report hbinds.rows hlater
      refine ⟨hversion ▸ hrow, hview, fun view hget hsame => ?_⟩
      obtain ⟨r, hr, rfl⟩ := getReport_eq_some (engineOk_of_run hok' hlater).history.kept hget
      rw [show r.version = issuedVersion c s.records from hsame.trans hversion, hrow] at hr
      cases hr
      exact hview

/-! ### The report of July -/

/-- Its report binds the time savings, once. -/
theorem issued_report_binds_july : ∃ trace s, Run (EngineStep sampleHookEnv) uncomputed trace s ∧
    ∃ s' : EngineState, ∃ row : ReportRow,
      s'.records.lookup (.report 1 (py "rep_2026-07") row.version) = some row ∧
        ∃! v, Binds s'.records row.id 1 (py "fig_time_2026-07") v := by
  obtain ⟨refs, records, n, heval, hhas, -, hissuable⟩ := exists_computed
  have hrun : Run (EngineStep sampleHookEnv) uncomputed _ _ :=
    .single (@EngineStep.compute _ _ _ _ _ _ _ _ _ _ _ _ id _ heval List.nil_prefix)
  have hbinds := issued_report_binds engineStart_uncomputed hrun (fun _ _ => true) julyIssue
  obtain ⟨⟨a, records'⟩, hissue⟩ := hbinds.1.2 hissuable
  obtain ⟨row', -, -, -, rfl, -⟩ := issued_of_eval (Prod.ext hissue rfl)
  obtain ⟨row, hnewest, -, hlater⟩ := hbinds.2 _ _
    { unissued with records := records', sequence := _ } (Prod.ext hissue rfl)
  exact ⟨_, _, hrun, _, row, (hlater _ _ (.refl _)).1, hnewest.once _ ⟨1, hhas⟩⟩

end TrueFigure.Server
