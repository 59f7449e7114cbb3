import TrueFigure.Server.VersionHistory

/-!
# The methods of a deployment in one transaction

Run alone, the methods write each of their figures as its next version: a figure's
next version is free, and the figures of one deployment do not share a reference.
-/
namespace TrueFigure.Server

open TrueFigure.Library TrueFigure.Python

/-! ### The next version is free -/

section NextVersion

variable {s : Records} {d : ℕ} {ref ref' : PyStr} {v : ℕ} {row : Figure}

theorem mem_figureVersions (hkept : AllKept s) (h : s.lookup (.figure d ref v) = some row) :
    v ∈ ((s.archive 0).figures.filter fun f =>
      f.deploymentId = d ∧ f.figureRef = ref).map fun f => f.version := by
  obtain ⟨hd, href, hv⟩ := hkept _ _ h
  have hentry := AList.mem_lookup_iff.1 h
  have hmem : row.toFigureRow ∈ (s.archive 0).figures :=
    List.mem_map.2 ⟨row, List.mem_filterMap.2 ⟨_, hentry, rfl⟩, rfl⟩
  refine List.mem_map.2 ⟨row.toFigureRow, List.mem_filter.2 ⟨hmem, ?_⟩, hv⟩
  simp [hd, href]

theorem lt_nextVersion (hkept : AllKept s) (h : s.lookup (.figure d ref v) = some row) :
    v < s.nextVersion d ref :=
  Nat.lt_succ_of_le (List.le_max_of_le (mem_figureVersions hkept h) (le_refl _))

theorem nextVersion_new (hkept : AllKept s) :
    s.lookup (.figure d ref (s.nextVersion d ref)) = none := by
  cases h : s.lookup (.figure d ref (s.nextVersion d ref)) with
  | none => rfl
  | some row => exact absurd (lt_nextVersion hkept h) (Nat.lt_irrefl _)

theorem nextVersion_insert (hnew : s.lookup (.figure d ref v) = none) (hrow : row.figureRef = ref)
    (hne : ref' ≠ ref) :
    Records.nextVersion (s.insert (.figure d ref v) row) d ref' = s.nextVersion d ref' := by
  have hkey : RecordKey.figure d ref v ∉ s.keys := AList.lookup_eq_none.1 hnew
  have hother : ref ≠ ref' := hne.symm
  simp only [Records.nextVersion, Records.archive, AList.entries_insert_of_notMem hkey,
    List.filterMap_cons, Records.figureOf, List.map_cons]
  rw [List.filter_cons_of_neg (by simp [hrow, hother])]

theorem evidence_insert_figure (row : Figure) :
    Records.evidence (s.insert (.figure d ref v) row) = s.evidence := by
  rw [Records.evidence, Records.evidence, AList.lookup_insert_ne (by simp)]

end NextVersion

/-! ### One method after the other -/

/-- These figures of a deployment have been written, each as its next version, and
nothing else. -/
structure Wrote (dep : ℕ) (refs : List PyStr) (s s' : Records) : Prop where
  distinct : refs.Nodup
  history : VersionHistory s'
  kept : Kept s s'
  figures : ∀ d ref v, (s'.lookup (.figure d ref v)).isSome ↔
    (s.lookup (.figure d ref v)).isSome ∨ d = dep ∧ ref ∈ refs ∧ v = s.nextVersion dep ref

/-- The drafts of the methods are of distinct figures. -/
def SeparateFigures (e : Evidence)
    (methods : List (Evidence → Except Failure (Option Draft))) : Prop :=
  methods.Pairwise fun m m' => ∀ d d', m e = .ok (some d) → m' e = .ok (some d') →
    d.figureRef ≠ d'.figureRef

/-- A committed run of the methods, one after the other: what each of them makes of
the rows it finds. -/
inductive MethodRun (ws dep : ℕ) : List (Evidence → Except Failure (Option Draft)) →
    Records → ℕ → List PyStr → Records → ℕ → Prop
  | nil (s : Records) (n : ℕ) : MethodRun ws dep [] s n [] s n
  | skip {method : Evidence → Except Failure (Option Draft)}
      {methods : List (Evidence → Except Failure (Option Draft))} {s s' : Records} {n n' : ℕ}
      {refs : List PyStr} (hmethod : method s.evidence = .ok none)
      (hrest : MethodRun ws dep methods s n refs s' n') :
      MethodRun ws dep (method :: methods) s n refs s' n'
  | write {method : Evidence → Except Failure (Option Draft)}
      {methods : List (Evidence → Except Failure (Option Draft))} {s s' : Records} {n n' : ℕ}
      {refs : List PyStr} {d : Draft} {row : Figure} (hmethod : method s.evidence = .ok (some d))
      (hvalues : figureValues s.evidence.books n ws dep (s.nextVersion dep d.figureRef) d = .ok row)
      (hrest : MethodRun ws dep methods
        (s.insert (.figure dep d.figureRef (s.nextVersion dep d.figureRef)) row) (n + 1) refs s' n') :
      MethodRun ws dep (method :: methods) s n (d.figureRef :: refs) s' n'

section Run

variable {ws dep : ℕ} {s s' : Records} {n n' : ℕ} {a : RecordReply} {d : Draft}
  {method : Evidence → Except Failure (Option Draft)} {written refs : List PyStr}
  {methods : List (Evidence → Except Failure (Option Draft))} {next : List PyStr → RecordTxn}

theorem wrote_nil (h : VersionHistory s) : Wrote dep [] s s := by
  constructor
  · exact List.nodup_nil
  · exact h
  · exact Std.Refl.refl s
  · simp

/-- A row first, then the figures that follow. -/
theorem Wrote.cons {ref : PyStr} {row : Figure} (hkept : AllKept s) (hrow : row.figureRef = ref)
    (hout : ref ∉ refs)
    (h : Wrote dep refs (s.insert (.figure dep ref (s.nextVersion dep ref)) row) s') :
    Wrote dep (ref :: refs) s s' := by
  have hnew := @nextVersion_new s dep ref hkept
  constructor
  · exact List.nodup_cons.2 ⟨hout, h.distinct⟩
  · exact h.history
  · exact IsTrans.trans _ _ _ (kept_insert row hnew) h.kept
  · intro d r v
    rw [h.figures, isSome_insert, RecordKey.figure.injEq, List.mem_cons]
    by_cases hr : r = ref
    · subst hr
      simp only [hout, false_and, and_false, or_false, true_and]
      tauto
    · rw [nextVersion_insert hnew hrow hr]
      simp only [hr, false_and, and_false, false_or]

theorem eval_of_error {e : Failure} (h : method s.evidence = .error e) :
    (runMethod ws dep method written next).eval s n = (.error e, n) := by
  simp only [runMethod, Txn.eval, h]

theorem eval_of_none (h : method s.evidence = .ok none) :
    (runMethod ws dep method written next).eval s n = (next written).eval s n := by
  simp only [runMethod, Txn.eval, h]

/-- The version is free, so the row goes in unless its values are refused. -/
theorem eval_of_draft (hkept : AllKept s) (h : method s.evidence = .ok (some d)) :
    (runMethod ws dep method written next).eval s n =
      match figureValues s.evidence.books n ws dep (s.nextVersion dep d.figureRef) d with
      | .ok row => (next (written ++ [d.figureRef])).eval
          (s.insert (.figure dep d.figureRef (s.nextVersion dep d.figureRef)) row) (n + 1)
      | .error e => (.error (.database e), n + 1) := by
  simp only [runMethod, writeFigure, Txn.eval, h, nextVersion_new hkept]
  cases figureValues s.evidence.books n ws dep (s.nextVersion dep d.figureRef) d with
  | error e => rfl
  | ok row => rfl

theorem history_of_figureValues {row : Figure} (h : VersionHistory s)
    (hvalues : figureValues s.evidence.books n ws dep (s.nextVersion dep d.figureRef) d = .ok row) :
    VersionHistory (s.insert (.figure dep d.figureRef (s.nextVersion dep d.figureRef)) row) :=
  h.insert_figure h.kept (Std.Refl.refl s) (figureValues_eq_ok hvalues) (nextVersion_new h.kept)

theorem methodRun_of_eval (h : VersionHistory s)
    (heval : (runMethods ws dep methods written).eval s n = (.ok (a, s'), n')) :
    ∃ refs, a = .written (written ++ refs) ∧ MethodRun ws dep methods s n refs s' n' := by
  induction methods generalizing s n written with
  | nil =>
    cases heval
    exact ⟨[], by rw [List.append_nil], .nil _ _⟩
  | cons method methods ih =>
    rw [runMethods] at heval
    cases hmethod : method s.evidence with
    | error e =>
      rw [eval_of_error hmethod] at heval
      cases heval
    | ok o =>
      cases o with
      | none =>
        rw [eval_of_none hmethod] at heval
        obtain ⟨refs, ha, hrest⟩ := ih h heval
        exact ⟨refs, ha, .skip hmethod hrest⟩
      | some d =>
        rw [eval_of_draft h.kept hmethod] at heval
        cases hvalues : figureValues s.evidence.books n ws dep (s.nextVersion dep d.figureRef) d with
        | error e =>
          rw [hvalues] at heval
          cases heval
        | ok row =>
          rw [hvalues] at heval
          obtain ⟨refs, ha, hrest⟩ := ih (history_of_figureValues h hvalues) heval
          refine ⟨d.figureRef :: refs, ?_, .write hmethod hvalues hrest⟩
          rw [ha, List.append_assoc, List.singleton_append]

theorem MethodRun.wrote (hrun : MethodRun ws dep methods s n refs s' n') (h : VersionHistory s)
    (hseparate : SeparateFigures s.evidence methods) : Wrote dep refs s s' ∧
      ∀ ref ∈ refs, ∃ m ∈ methods, ∃ d, m s.evidence = .ok (some d) ∧ d.figureRef = ref := by
  induction hrun with
  | nil s n => exact ⟨wrote_nil h, by simp⟩
  | skip hmethod hrest ih =>
    obtain ⟨hwrote, hdrafts⟩ := ih h (List.pairwise_cons.1 hseparate).2
    refine ⟨hwrote, fun ref href => ?_⟩
    obtain ⟨m, hm, hdraft⟩ := hdrafts ref href
    exact ⟨m, List.mem_cons_of_mem _ hm, hdraft⟩
  | @write method methods s s' n n' refs d row hmethod hvalues hrest ih =>
    obtain ⟨hfirst, hothers⟩ := List.pairwise_cons.1 hseparate
    have hevidence := @evidence_insert_figure s dep d.figureRef
      (s.nextVersion dep d.figureRef) row
    obtain ⟨hwrote, hdrafts⟩ := ih (history_of_figureValues h hvalues) (hevidence ▸ hothers)
    rw [hevidence] at hdrafts
    have hout : d.figureRef ∉ refs := by
      intro hmem
      obtain ⟨m, hm, d', hd', href⟩ := hdrafts _ hmem
      exact hfirst m hm d d' hmethod hd' href.symm
    refine ⟨hwrote.cons h.kept (figureValues_eq_ok hvalues).2.1 hout, fun ref href => ?_⟩
    rcases List.mem_cons.1 href with rfl | href
    · exact ⟨method, List.mem_cons_self, d, hmethod, rfl⟩
    · obtain ⟨m, hm, hdraft⟩ := hdrafts ref href
      exact ⟨m, List.mem_cons_of_mem _ hm, hdraft⟩

end Run

/-! ### The figures of the methods -/

section References

variable {F : Type} {plan : Planner} {rt : DecimalText} {fl : Floats F} {s : Db} {b : Books}
  {ws dep : ℕ} {period : PyStr} {d : Draft}

theorem costDraft_figureRef {pv : ℕ} {treatment : Option PyStr} {total : Decimal}
    {priced unpriced : List MeterType} :
    (costDraft period pv treatment total priced unpriced).figureRef = py "fig_cost_" ++ period := by
  unfold costDraft
  split <;> rfl

theorem computeCost_figureRef (h : computeCost plan rt s b ws dep period = .ok d) :
    d.figureRef = py "fig_cost_" ++ period := by
  obtain ⟨bounds, -, h⟩ := bind_eq_ok h
  split at h
  · cases h
    rfl
  · obtain ⟨⟨total, priced, unpriced⟩, -, h⟩ := bind_eq_ok h
    cases h
    exact costDraft_figureRef

theorem computeSeats_figureRef (h : computeSeats rt s b ws dep period = .ok d) :
    d.figureRef = py "fig_seats_" ++ period := by
  obtain ⟨bounds, -, h⟩ := bind_eq_ok h
  split at h
  · cases h
    rfl
  · obtain ⟨⟨price, provenance⟩, -, h⟩ := bind_eq_ok h
    obtain ⟨value, -, h⟩ := bind_eq_ok h
    cases h
    rfl

theorem timeDraft_figureRef {bounds : ℤ × ℤ} {assisted unassisted : List F}
    (h : timeDraft plan fl b ws dep period bounds assisted unassisted = .ok d) :
    d.figureRef = py "fig_time_" ++ period := by
  unfold timeDraft at h
  dsimp only at h
  split at h
  · cases h
    rfl
  · split at h
    · cases h
      rfl
    · obtain ⟨rate, -, h⟩ := bind_eq_ok h
      split at h
      · cases h
        rfl
      · obtain ⟨hourly, -, h⟩ := bind_eq_ok h
        cases h
        rfl

theorem computeTimeSavings_figureRef
    (h : computeTimeSavings plan fl s b ws dep period = .ok (some d)) :
    d.figureRef = py "fig_time_" ++ period := by
  obtain ⟨bounds, -, h⟩ := bind_eq_ok h
  dsimp only at h
  split at h
  · cases h
  · cases hdraft : timeDraft plan fl b ws dep period bounds
      (handlingHours fl (handlingRows plan s dep bounds) true)
      (handlingHours fl (handlingRows plan s dep bounds) false) with
    | error e =>
      rw [hdraft] at h
      cases h
    | ok d' =>
      rw [hdraft] at h
      cases h
      exact timeDraft_figureRef hdraft

theorem computeContainment_figureRef
    (h : computeContainment plan fl s b dep period = .ok (some d)) :
    d.figureRef = py "fig_containment_" ++ period := by
  obtain ⟨bounds, -, h⟩ := bind_eq_ok h
  dsimp only at h
  split at h
  · cases h
  · cases h
    rfl

theorem map_some_eq_ok {x : Except Failure Draft} (h : x.map some = .ok (some d)) : x = .ok d := by
  cases x with
  | error e => cases h
  | ok d' =>
    cases h
    rfl

/-- Methods whose drafts start with distinct words are of distinct figures. -/
theorem separateFigures_of_words {e : Evidence}
    {entries : List (PyStr × (Evidence → Except Failure (Option Draft)))}
    (hwords : (entries.map Prod.fst).Nodup)
    (h : ∀ x ∈ entries, ∀ d, x.2 e = .ok (some d) → d.figureRef = x.1 ++ period) :
    SeparateFigures e (entries.map Prod.snd) := by
  refine List.pairwise_map.2 ((List.pairwise_map.1 hwords).imp_of_mem ?_)
  intro x y hx hy hne d d' hd hd' heq
  rw [h x hx d hd, h y hy d' hd'] at heq
  exact hne (List.append_cancel_right heq)

theorem separateFigures_methodsOf (e : Evidence) (t : Option DeploymentType) :
    SeparateFigures e (methodsOf plan rt fl ws dep period t) := by
  have hcost : ∀ d, (computeCost plan rt e.db e.books ws dep period).map some = .ok (some d) →
      d.figureRef = py "fig_cost_" ++ period := fun d h => computeCost_figureRef (map_some_eq_ok h)
  have hseats : ∀ d, (computeSeats rt e.db e.books ws dep period).map some = .ok (some d) →
      d.figureRef = py "fig_seats_" ++ period := fun d h => computeSeats_figureRef (map_some_eq_ok h)
  have htime : ∀ d, computeTimeSavings plan fl e.db e.books ws dep period = .ok (some d) →
      d.figureRef = py "fig_time_" ++ period := fun d h => computeTimeSavings_figureRef h
  have hcontainment : ∀ d, computeContainment plan fl e.db e.books dep period = .ok (some d) →
      d.figureRef = py "fig_containment_" ++ period := fun d h => computeContainment_figureRef h
  unfold methodsOf
  split
  · refine @separateFigures_of_words period e [(py "fig_cost_", _), (py "fig_seats_", _),
      (py "fig_time_", _), (py "fig_containment_", _)] (by simp [py]) ?_
    simp only [List.forall_mem_cons]
    exact ⟨hcost, hseats, htime, hcontainment, by simp⟩
  · refine @separateFigures_of_words period e [(py "fig_cost_", _), (py "fig_seats_", _),
      (py "fig_time_", _)] (by simp [py]) ?_
    simp only [List.forall_mem_cons]
    exact ⟨hcost, hseats, htime, by simp⟩

end References

theorem wrote_of_computeDeployment {F : Type} {plan : Planner} {rt : DecimalText} {fl : Floats F}
    {ws dep : ℕ} {period : PyStr} {s s' : Records} {n n' : ℕ} {refs : List PyStr}
    (h : VersionHistory s)
    (heval : (computeDeployment plan rt fl ws dep period).eval s n =
      (.ok (.written refs, s'), n')) : Wrote dep refs s s' := by
  obtain ⟨refs', hrefs, hrun⟩ := methodRun_of_eval h heval
  cases hrefs
  exact (hrun.wrote h (separateFigures_methodsOf _ _)).1

end TrueFigure.Server
