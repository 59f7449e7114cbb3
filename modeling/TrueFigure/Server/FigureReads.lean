import TrueFigure.Library.Newest
import TrueFigure.Server.Hazards
import TrueFigure.Server.ReportBinding

/-!
# The figures of the read plane

`list_figures`, `get_figure` and `figure_lineage` of `api/routes/read_plane.py` over the rows
`compute_deployment` leaves. The three agree on the newest version of each figure, a period
selects from the list, and later answers are never older. A value that is no number cannot be
rendered: its figure has a lineage still, but neither an answer of its own nor a list.
-/
namespace TrueFigure.Server

open TrueFigure.Library TrueFigure.Python

/-! ### Requests -/

/-- `_dep` of the read plane. -/
def readDeployment (principal : Principal) (wireId : PyStr) (s : Records) :
    Except Failure DeploymentRow := do
  let ref ← textArgument wireId
  match deploymentOf s.evidence.db principal.workspaceId ref with
  | none =>
    .error (.tfError ⟨.read001, none, some (py "deployment " ++ wireId ++ py " not found")⟩)
  | some row =>
    if principal.mayTouch row.id then .ok row
    else .error (.tfError ⟨.auth002, none,
      some (py "key not scoped to deployment " ++ py (toString row.id))⟩)

/-- What `_figure_dict` returns. -/
structure FigureView (F : Type) where
  figureId : PyStr
  version : ℕ
  period : PyStr
  status : FigureStatus
  grade : Option GradeType
  valueClass : Option ValueClass
  claim : Option PyStr
  value : Option F
  parameterSetVersion : Option ℕ
  changeTreatment : Option PyStr
  refusalReason : Option PyStr
  marginExceedsEffect : Option Bool
  expectedVerdictDate : Option ℤ
  missingParameter : Option PyStr
  methodId : PyStr
  methodVersion : PyStr
  computedAt : PyStr

/-- What `figure_lineage` returns. -/
structure LineageView where
  figureId : PyStr
  version : ℕ
  methodId : PyStr
  methodVersion : PyStr
  parameterSetVersion : Option ℕ
  changeTreatment : Option PyStr
  lineage : Dict

/-- What `list_figures` returns; `TF-READ-002` stands for a period without figures. -/
structure FigureList (F : Type) where
  results : List (FigureView F)
  periodNotComputed : Bool

/-- How a session shows what it selects: a value as a float, and the `computed_at` of a row, which
is set once, at its insertion. -/
structure Display (F : Type) where
  float : FigureValue → F
  computedAt : ℕ → PyStr

def figureDict {F : Type} (display : Display F) (r : Figure) : FigureView F where
  figureId := r.figureRef
  version := r.version
  period := r.period
  status := r.figureStatus
  grade := r.gradeType
  valueClass := r.valueClass
  claim := r.claim
  value := r.value.map display.float
  parameterSetVersion := r.parameterSetVersion
  changeTreatment := r.changeTreatment
  refusalReason := r.refusalReason
  marginExceedsEffect := r.marginExceedsEffect
  expectedVerdictDate := r.expectedVerdictDate
  missingParameter := r.missingParameter
  methodId := r.methodId
  methodVersion := r.methodVersion
  computedAt := display.computedAt r.id

/-- `JSONResponse` renders the value of the figure: it knows no `NaN`. -/
def Figure.renders (r : Figure) : Bool := r.value ≠ some .nan

/-- What `JSONResponse` raises on a value it does not render. -/
def notCompliant : Failure :=
  .python (.valueError (py "Out of range float values are not JSON compliant"))

/-- `ok(request, …)` with what these rows hold. -/
def respondWith {α : Type} (rows : List Figure) (answer : α) : Except Failure α :=
  if rows.all Figure.renders then .ok answer else .error notCompliant

def lineageDict (r : Figure) : LineageView where
  figureId := r.figureRef
  version := r.version
  methodId := r.methodId
  methodVersion := r.methodVersion
  parameterSetVersion := r.parameterSetVersion
  changeTreatment := r.changeTreatment
  lineage := r.lineage

namespace Records

variable (s : Records) (deploymentId : ℕ)

/-- The rows of `figures` of a deployment, in table order. -/
def figuresOf : List Figure :=
  (s.entries.filterMap figureOf).filter fun f => f.deploymentId = deploymentId

/-- The query of `list_figures`. -/
def newestFigures (period : Option PyStr) : List Figure :=
  newest (fun f : Figure => f.figureRef) (fun f => f.version)
    ((s.figuresOf deploymentId).filter fun f => period.all fun p => f.period = p)

/-- The query of `get_figure` and `figure_lineage`. -/
def figureAt (ref : PyStr) : Option Figure :=
  newestAt (fun f : Figure => f.figureRef) (fun f => f.version) (s.figuresOf deploymentId) ref

end Records

section Reads

variable {F : Type} (collate : PyStr → PyStr → Bool) (display : Display F)
  (principal : Principal) (wireId : PyStr)

/-- `list_figures`; a `period` that is empty is none. -/
def listFigures (period : Option PyStr) (s : Records) : Except Failure (FigureList F) := do
  let dep ← readDeployment principal wireId s
  let wanted ← (period.filter fun p => p ≠ []).mapM textArgument
  let rows := (s.newestFigures dep.id wanted).mergeSort fun f g => collate f.figureRef g.figureRef
  respondWith rows ⟨rows.map (figureDict display), wanted.isSome && rows.isEmpty⟩

def figureNotFound (figureId : PyStr) : Failure :=
  .tfError ⟨.read001, none, some (py "figure " ++ figureId ++ py " not found")⟩

def getFigure (figureId : PyStr) (s : Records) : Except Failure (FigureView F) := do
  let dep ← readDeployment principal wireId s
  let ref ← textArgument figureId
  match s.figureAt dep.id ref with
  | none => .error (figureNotFound figureId)
  | some row => respondWith [row] (figureDict display row)

def figureLineage (figureId : PyStr) (s : Records) : Except Failure LineageView := do
  let dep ← readDeployment principal wireId s
  let ref ← textArgument figureId
  match s.figureAt dep.id ref with
  | none => .error (figureNotFound figureId)
  -- a `jsonb` value holds no `NaN`
  | some row => .ok (lineageDict row)

end Reads

/-! ### The rows of a deployment -/

section Rows

variable {s : Records} {d : ℕ} {f : Figure}

theorem mem_figuresOf (hkept : AllKept s) : f ∈ s.figuresOf d ↔
    f.deploymentId = d ∧ s.lookup (.figure d f.figureRef f.version) = some f := by
  constructor
  · intro hf
    obtain ⟨hf, hd⟩ := List.mem_filter.1 hf
    obtain ⟨⟨k, row⟩, hentry, hk⟩ := List.mem_filterMap.1 hf
    cases k with
    | figure d' ref v =>
      cases hk
      have hlookup := AList.mem_lookup_iff.2 hentry
      obtain ⟨rfl, rfl, rfl⟩ := hkept _ _ hlookup
      obtain rfl := of_decide_eq_true hd
      exact ⟨rfl, hlookup⟩
    | _ => cases hk
  · rintro ⟨hd, hlookup⟩
    refine List.mem_filter.2 ⟨?_, decide_eq_true hd⟩
    exact List.mem_filterMap.2 ⟨_, AList.mem_lookup_iff.1 hlookup, rfl⟩

theorem versioned_figuresOf (hkept : AllKept s) (d : ℕ) :
    Versioned (fun f : Figure => f.figureRef) (fun f => f.version) (s.figuresOf d) := by
  have hkeys : ((s.entries.filterMap Records.figureOf).map fun f : Figure =>
      RecordKey.figure f.deploymentId f.figureRef f.version).Nodup := by
    apply nodup_filterMap_keys
    rintro ⟨k, row⟩ hx f hf
    cases k with
    | figure d ref v =>
      cases hf
      obtain ⟨rfl, rfl, rfl⟩ := hkept _ _ (AList.mem_lookup_iff.2 hx)
      rfl
    | _ => cases hf
  apply List.Nodup.map_on _ ((hkeys.of_map _).filter _)
  intro f hf g hg heq
  have href : f.figureRef = g.figureRef := (Prod.mk.inj heq).1
  have hversion : f.version = g.version := (Prod.mk.inj heq).2
  have hlookup := ((mem_figuresOf hkept).1 hf).2
  rw [href, hversion, ((mem_figuresOf hkept).1 hg).2] at hlookup
  exact (Option.some.inj hlookup).symm

end Rows

/-! ### Figures and their periods -/

/-- What the references of the figures start with. -/
def figureWords : List PyStr :=
  [py "fig_cost_", py "fig_seats_", py "fig_time_", py "fig_containment_"]

/-- A figure is named after its kind and its period, which is one the table takes. -/
def NamedByPeriod (s : Records) : Prop :=
  ∀ d ref v (row : Figure), s.lookup (.figure d ref v) = some row →
    periodOk row.period = true ∧ ∃ word ∈ figureWords, ref = word ++ row.period

theorem textOk_period {period : PyStr} (h : periodOk period = true) : textOk period = true := by
  simp only [periodOk, Bool.and_eq_true, decide_eq_true_eq, List.all_eq_true] at h
  obtain ⟨⟨⟨-, hyear⟩, hdash⟩, hrest⟩ := h
  have hsplit : period = period.take 4 ++ (py "-" ++ period.drop 5) := by
    rw [← hdash, ← List.drop_drop (i := 1) (j := 4), List.take_append_drop,
      List.take_append_drop]
  have hnames : ([py "q1", py "q2", py "q3", py "q4", py "01", py "02", py "03", py "04", py "05",
      py "06", py "07", py "08", py "09", py "10", py "11", py "12"].all textOk) = true := by
    decide
  have hname := List.all_eq_true.1 hnames _ (List.contains_iff_mem.1 hrest)
  rw [hsplit, textOk_append, textOk_append, textOk_digits (List.all_eq_true.2 hyear), hname]
  decide

theorem textOk_figureRef {word period : PyStr} (hword : word ∈ figureWords)
    (hperiod : periodOk period = true) : textOk (word ++ period) = true := by
  have hwords : figureWords.all textOk = true := by decide +kernel
  rw [textOk_append, List.all_eq_true.1 hwords word hword, textOk_period hperiod, Bool.and_self]

theorem word_eq_of_starts {word word' : PyStr} (h : word ∈ figureWords) (h' : word' ∈ figureWords)
    (hstarts : word <+: word') : word = word' := by
  have hall : (figureWords.all fun w => figureWords.all fun w' =>
      !w.isPrefixOf w' || decide (w = w')) = true := by decide +kernel
  have hpair := List.all_eq_true.1 (List.all_eq_true.1 hall word h) word' h'
  rw [List.isPrefixOf_iff_prefix.2 hstarts] at hpair
  simpa using hpair

theorem period_of_word {word word' period period' : PyStr} (h : word ∈ figureWords)
    (h' : word' ∈ figureWords) (heq : word ++ period = word' ++ period') : period = period' := by
  have hsame : word = word' := by
    rcases List.append_eq_append_iff.1 heq with ⟨rest, hrest, -⟩ | ⟨rest, hrest, -⟩
    · exact word_eq_of_starts h h' ⟨rest, hrest.symm⟩
    · exact (word_eq_of_starts h' h ⟨rest, hrest.symm⟩).symm
  rw [hsame] at heq
  exact List.append_cancel_left heq

section Words

variable {F : Type} {plan : Planner} {rt : DecimalText} {fl : Floats F} {ws dep n n' : ℕ}
  {period : PyStr} {s s' : Records} {refs : List PyStr}

theorem methodsOf_word {e : Evidence} {t : Option DeploymentType} {d : Draft}
    {m : Evidence → Except Failure (Option Draft)} (hm : m ∈ methodsOf plan rt fl ws dep period t)
    (h : m e = .ok (some d)) : ∃ word ∈ figureWords, d.figureRef = word ++ period := by
  rcases List.mem_append.1 hm with hm | hm
  · simp only [List.mem_cons, List.not_mem_nil, or_false] at hm
    rcases hm with rfl | rfl | rfl
    · exact ⟨_, by simp [figureWords], computeCost_figureRef (map_some_eq_ok h)⟩
    · exact ⟨_, by simp [figureWords], computeSeats_figureRef (map_some_eq_ok h)⟩
    · exact ⟨_, by simp [figureWords], computeTimeSavings_figureRef h⟩
  · split at hm
    · obtain rfl := List.mem_singleton.1 hm
      exact ⟨_, by simp [figureWords], computeContainment_figureRef h⟩
    · cases hm

/-- The rows of a committed call are those before it, or are named after its period. -/
theorem figures_of_computeDeployment (h : VersionHistory s)
    (heval : (computeDeployment plan rt fl ws dep period).eval s n =
      (.ok (.written refs, s'), n')) {d v : ℕ} {ref : PyStr} {row : Figure}
    (hrow : s'.lookup (.figure d ref v) = some row) :
    s.lookup (.figure d ref v) = some row ∨
      d = dep ∧ row.period = period ∧ periodOk period = true ∧
        ∃ word ∈ figureWords, ref = word ++ period := by
  obtain ⟨refs', hrefs, hrun⟩ := methodRun_of_eval h heval
  cases hrefs
  obtain ⟨hwrote, hdrafts⟩ := hrun.wrote h (separateFigures_methodsOf _ _)
  rcases (figured_of_computeDeployment h heval).figures hrow with hold | ⟨hd, hperiod, hpok⟩
  · exact .inl hold
  · rcases (hwrote.figures d ref v).1 (by rw [hrow]; rfl) with hsome | ⟨-, hmem, -⟩
    · obtain ⟨old, hold⟩ := Option.isSome_iff_exists.1 hsome
      have hkept := hwrote.kept _ _ (by simp) hold
      rw [hrow] at hkept
      exact .inl (by rw [hold, ← hkept])
    · obtain ⟨m, hm, draft, hdraft, rfl⟩ := hdrafts ref hmem
      exact .inr ⟨hd, hperiod, hpok, methodsOf_word hm hdraft⟩

end Words

/-! ### Runs -/

section Runs

variable {env : HookEnv} {s s' : EngineState} {l : EngineLabel}
  {trace : List (EngineState × EngineLabel)}

theorem EngineStep.named (hs : EngineStep env s l s') (hok : EngineOk s)
    (hnamed : NamedByPeriod s.records) : NamedByPeriod s'.records := by
  intro d ref v row hrow
  cases hs with
  | compute heval =>
    rcases figures_of_computeDeployment hok.history heval hrow with hold | ⟨-, hperiod, hnew⟩
    · exact hnamed d ref v row hold
    · rw [hperiod]
      exact hnew
  | @issue collate c n records path artifact torn announced now heval =>
    obtain ⟨report, hissued, rfl, -⟩ := issued_of_eval heval
    obtain ⟨t, ht⟩ := announceReport_eq env (({ s with records, sequence := s.sequence + 1 } :
      EngineState).put c torn path artifact) c announced artifact now
    rw [ht] at hrow
    apply hnamed d ref v row
    rw [← hissued.others _ (by simp) (by simp)]
    simpa [EngineState.withHooks] using hrow
  | undone => exact hnamed d ref v row hrow
  | data =>
    apply hnamed d ref v row
    rwa [AList.lookup_insert_ne (by simp)] at hrow
  | monitors | ack | hooks => exact hnamed d ref v row hrow

theorem NamedByPeriod.run (hok : EngineOk s) (hnamed : NamedByPeriod s.records)
    (hrun : Run (EngineStep env) s trace s') : EngineOk s' ∧ NamedByPeriod s'.records :=
  (hrun.invariant (I := fun u => EngineOk u ∧ NamedByPeriod u.records) ⟨hok, hnamed⟩
    fun _ _ _ h hs => ⟨(hs.keeps h.1).1, hs.named h.1 h.2⟩).1

theorem named_of_run (hstart : EngineStart s) (hrun : Run (EngineStep env) s trace s') :
    EngineOk s' ∧ NamedByPeriod s'.records := by
  apply NamedByPeriod.run (engineOk_start hstart) _ hrun
  intro d ref v row hrow
  rw [hstart.rows _ (by simp)] at hrow
  cases hrow

end Runs

/-! ### The three requests agree -/

section Agreement

variable {s : Records} {d : ℕ} {f : Figure} {ref : PyStr}

theorem newestFigures_none (d : ℕ) : s.newestFigures d none =
    newest (fun f : Figure => f.figureRef) (fun f => f.version) (s.figuresOf d) := by
  unfold Records.newestFigures
  congr 1
  exact List.filter_eq_self.2 fun _ _ => rfl

theorem figureAt_eq_some (hkept : AllKept s) :
    s.figureAt d ref = some f ↔ f ∈ s.newestFigures d none ∧ f.figureRef = ref := by
  rw [newestFigures_none]
  exact newestAt_eq_some (versioned_figuresOf hkept d)

theorem nodup_newestFigures (hkept : AllKept s) (d : ℕ) :
    ((s.newestFigures d none).map fun f => f.figureRef).Nodup := by
  rw [newestFigures_none]
  exact nodup_newest (versioned_figuresOf hkept d)

theorem newestFigures_some (hkept : AllKept s) (hnamed : NamedByPeriod s) (d : ℕ)
    (period : PyStr) : s.newestFigures d (some period) =
      (s.newestFigures d none).filter fun f => f.period = period := by
  rw [newestFigures_none]
  apply newest_filter
  intro f hf g hg href
  obtain ⟨-, word, hword, heq⟩ := hnamed _ _ _ _ ((mem_figuresOf hkept).1 hf).2
  obtain ⟨-, word', hword', heq'⟩ := hnamed _ _ _ _ ((mem_figuresOf hkept).1 hg).2
  have hperiod : f.period = g.period :=
    period_of_word hword hword' (heq.symm.trans (href.trans heq'))
  simp only [Option.all_some, hperiod]

theorem textOk_newestFigures (hkept : AllKept s) (hnamed : NamedByPeriod s)
    (h : f ∈ s.newestFigures d none) : textOk f.figureRef = true := by
  have hin := (mem_newest.1 (newestFigures_none (s := s) d ▸ h)).1
  obtain ⟨hperiod, word, hword, href⟩ := hnamed _ _ _ _ ((mem_figuresOf hkept).1 hin).2
  rw [href]
  exact textOk_figureRef hword hperiod

end Agreement

section Answers

variable {F : Type} {collate : PyStr → PyStr → Bool} {display : Display F}
  {principal : Principal} {wireId : PyStr} {s : Records} {dep : DeploymentRow}

theorem respondWith_eq_ok {α : Type} {rows : List Figure} {answer a : α} :
    respondWith rows answer = .ok a ↔ (∀ r ∈ rows, r.renders = true) ∧ answer = a := by
  unfold respondWith
  split_ifs with h
  · rw [List.all_eq_true] at h
    rw [Except.ok.injEq]
    exact (and_iff_right h).symm
  · rw [List.all_eq_true] at h
    exact iff_of_false (by rintro ⟨⟩) fun hrenders => h hrenders.1

theorem respondWith_eq_notCompliant {α : Type} {rows : List Figure} {answer : α} :
    respondWith rows answer = .error notCompliant ↔ ∃ r ∈ rows, r.renders = false := by
  unfold respondWith
  split_ifs with h
  · rw [List.all_eq_true] at h
    refine iff_of_false (by rintro ⟨⟩) ?_
    rintro ⟨r, hr, hfalse⟩
    rw [h r hr] at hfalse
    cases hfalse
  · refine iff_of_true rfl ?_
    rw [List.all_eq_true] at h
    push Not at h
    simpa using h

theorem listFigures_none (hdep : readDeployment principal wireId s = .ok dep) :
    listFigures collate display principal wireId none s =
      respondWith ((s.newestFigures dep.id none).mergeSort fun f g =>
        collate f.figureRef g.figureRef)
      ⟨((s.newestFigures dep.id none).mergeSort fun f g =>
        collate f.figureRef g.figureRef).map (figureDict display), false⟩ := by
  unfold listFigures
  rw [hdep]
  rfl

theorem listFigures_some {period : PyStr} (hdep : readDeployment principal wireId s = .ok dep)
    (htext : textOk period = true) (hne : period ≠ []) :
    listFigures collate display principal wireId (some period) s =
      respondWith ((s.newestFigures dep.id (some period)).mergeSort fun f g =>
        collate f.figureRef g.figureRef)
      ⟨((s.newestFigures dep.id (some period)).mergeSort fun f g =>
        collate f.figureRef g.figureRef).map (figureDict display),
          ((s.newestFigures dep.id (some period)).mergeSort fun f g =>
            collate f.figureRef g.figureRef).isEmpty⟩ := by
  unfold listFigures
  rw [hdep]
  simp [Option.filter, hne, textArgument_ok htext, bind, Except.bind, Functor.map, Except.map]

theorem getFigure_found {figureId ref : PyStr} {row : Figure}
    (hdep : readDeployment principal wireId s = .ok dep) (href : textArgument figureId = .ok ref)
    (hrow : s.figureAt dep.id ref = some row) :
    getFigure display principal wireId figureId s = respondWith [row] (figureDict display row) := by
  unfold getFigure
  rw [hdep]
  simp only [href, bind, Except.bind, hrow]

theorem getFigure_eq_ok {figureId ref : PyStr} {v : FigureView F}
    (hdep : readDeployment principal wireId s = .ok dep) (href : textArgument figureId = .ok ref) :
    getFigure display principal wireId figureId s = .ok v ↔
      ∃ row, s.figureAt dep.id ref = some row ∧ row.renders = true ∧ figureDict display row = v := by
  cases hrow : s.figureAt dep.id ref with
  | none =>
    unfold getFigure
    rw [hdep]
    simp only [href, bind, Except.bind, hrow]
    simp
  | some row =>
    rw [getFigure_found hdep href hrow, respondWith_eq_ok]
    simp

theorem getFigure_eq_notCompliant {figureId ref : PyStr}
    (hdep : readDeployment principal wireId s = .ok dep) (href : textArgument figureId = .ok ref) :
    getFigure display principal wireId figureId s = .error notCompliant ↔
      ∃ row, s.figureAt dep.id ref = some row ∧ row.renders = false := by
  cases hrow : s.figureAt dep.id ref with
  | none =>
    unfold getFigure
    rw [hdep]
    simp only [href, bind, Except.bind, hrow]
    refine iff_of_false (by rintro ⟨⟩) ?_
    rintro ⟨row, ⟨⟩, -⟩
  | some row =>
    rw [getFigure_found hdep href hrow, respondWith_eq_notCompliant]
    simp

theorem getFigure_of_row {figureId ref : PyStr} {row : Figure}
    (hdep : readDeployment principal wireId s = .ok dep) (href : textArgument figureId = .ok ref)
    (hrow : s.figureAt dep.id ref = some row) :
    getFigure display principal wireId figureId s = .error notCompliant ∨
      ∃ v, getFigure display principal wireId figureId s = .ok v ∧ v.version = row.version := by
  cases hrenders : row.renders with
  | false => exact .inl ((getFigure_eq_notCompliant hdep href).2 ⟨row, hrow, hrenders⟩)
  | true => exact .inr ⟨_, (getFigure_eq_ok hdep href).2 ⟨row, hrow, hrenders, rfl⟩, rfl⟩

theorem figureLineage_eq_ok {figureId ref : PyStr} {l : LineageView}
    (hdep : readDeployment principal wireId s = .ok dep) (href : textArgument figureId = .ok ref) :
    figureLineage principal wireId figureId s = .ok l ↔
      ∃ row, s.figureAt dep.id ref = some row ∧ lineageDict row = l := by
  unfold figureLineage
  rw [hdep]
  simp only [href, bind, Except.bind]
  cases s.figureAt dep.id ref with
  | none => simp
  | some row => simp

end Answers

/-- In every reachable state the list of figures is answered where no figure's own answer fails on
a value that is no number. It holds each figure once, `get_figure` answers with exactly its
entries, `figure_lineage` explains the same version, and the list of a period is the part of the
list of that period, which is `TF-READ-002` where there is none. -/
theorem figures_agree {env : HookEnv} {start s : EngineState}
    {trace : List (EngineState × EngineLabel)} (hstart : EngineStart start)
    (hrun : Run (EngineStep env) start trace s) {F : Type} {collate : PyStr → PyStr → Bool}
    (hcollate : TotalOrder collate) {display : Display F} {principal : Principal}
    {wireId : PyStr} {dep : DeploymentRow}
    (hdep : readDeployment principal wireId s.records = .ok dep) :
    ((∃ all, listFigures collate display principal wireId none s.records = .ok all) ↔
      ∀ figureId, textOk figureId = true →
        getFigure display principal wireId figureId s.records ≠ .error notCompliant) ∧
    ∀ all, listFigures collate display principal wireId none s.records = .ok all →
      (all.results.map FigureView.figureId).Nodup ∧
      (∀ figureId v, textOk figureId = true →
        (getFigure display principal wireId figureId s.records = .ok v ↔
          v ∈ all.results ∧ v.figureId = figureId)) ∧
      (∀ figureId v, textOk figureId = true →
        getFigure display principal wireId figureId s.records = .ok v →
        ∃ l, figureLineage principal wireId figureId s.records = .ok l ∧ l.figureId = v.figureId ∧
          l.version = v.version ∧ l.methodId = v.methodId ∧ l.methodVersion = v.methodVersion ∧
          l.parameterSetVersion = v.parameterSetVersion ∧
          l.changeTreatment = v.changeTreatment) ∧
      ∀ period, textOk period = true → period ≠ [] →
        listFigures collate display principal wireId (some period) s.records =
          .ok ⟨all.results.filter fun v => v.period = period,
            (all.results.filter fun v => v.period = period).isEmpty⟩ := by
  obtain ⟨hok, hnamed⟩ := named_of_run hstart hrun
  have hkept := hok.history.kept
  have hmem : ∀ f, f ∈ ((s.records.newestFigures dep.id none).mergeSort fun f g =>
      collate f.figureRef g.figureRef) ↔ f ∈ s.records.newestFigures dep.id none :=
    fun f => List.mem_mergeSort
  simp only [listFigures_none hdep, respondWith_eq_ok, hmem]
  refine ⟨?_, ?_⟩
  · constructor
    · rintro ⟨-, hrenders, -⟩ figureId htext hfails
      obtain ⟨row, hrow, hfalse⟩ :=
        (getFigure_eq_notCompliant hdep (textArgument_ok htext)).1 hfails
      rw [hrenders row ((figureAt_eq_some hkept).1 hrow).1] at hfalse
      cases hfalse
    · intro hanswers
      refine ⟨_, fun row hrow => ?_, rfl⟩
      by_contra hfalse
      have htext := textOk_newestFigures hkept hnamed hrow
      exact hanswers row.figureRef htext
        ((getFigure_eq_notCompliant hdep (textArgument_ok htext)).2
          ⟨row, (figureAt_eq_some hkept).2 ⟨hrow, rfl⟩, by simpa using hfalse⟩)
  rintro all ⟨hrenders, rfl⟩
  refine ⟨?_, ?_, ?_, ?_⟩
  · rw [List.map_map]
    exact (((List.mergeSort_perm _ _).map _).nodup_iff).2 (nodup_newestFigures hkept dep.id)
  · intro figureId v htext
    rw [getFigure_eq_ok hdep (textArgument_ok htext)]
    constructor
    · rintro ⟨row, hrow, -, rfl⟩
      obtain ⟨hnewest, href⟩ := (figureAt_eq_some hkept).1 hrow
      exact ⟨List.mem_map_of_mem ((hmem row).2 hnewest), href⟩
    · rintro ⟨hv, href⟩
      obtain ⟨row, hrow, rfl⟩ := List.mem_map.1 hv
      have hnewest := (hmem row).1 hrow
      exact ⟨row, (figureAt_eq_some hkept).2 ⟨hnewest, href⟩, hrenders row hnewest, rfl⟩
  · intro figureId v htext hv
    have href := textArgument_ok htext
    obtain ⟨row, hrow, -, rfl⟩ := (getFigure_eq_ok hdep href).1 hv
    exact ⟨lineageDict row, (figureLineage_eq_ok hdep href).2 ⟨row, hrow, rfl⟩, rfl, rfl, rfl, rfl,
      rfl, rfl⟩
  · intro period htext hne
    have hsort := hcollate.mergeSort_filter (nodup_newestFigures hkept dep.id)
      fun f => decide (f.period = period)
    rw [listFigures_some hdep htext hne, newestFigures_some hkept hnamed, hsort, List.filter_map,
      respondWith_eq_ok, List.isEmpty_map]
    refine ⟨fun row hrow => hrenders row ((hmem row).1 (List.mem_filter.1 hrow).1), rfl⟩

/-! ### Later answers -/

theorem figuresOf_subset {s s' : Records} (hkept : AllKept s) (hkept' : AllKept s')
    (h : Kept s s') (d : ℕ) : s.figuresOf d ⊆ s'.figuresOf d := by
  intro f hf
  obtain ⟨hd, hlookup⟩ := (mem_figuresOf hkept).1 hf
  exact (mem_figuresOf hkept').2 ⟨hd, h _ _ (by simp) hlookup⟩

/-- Two readers of one deployment, one after the other: a figure that has a lineage keeps one, of no
older version, and of the same version it has the same lineage and the same answer. The answer is
of the version of the lineage, unless its value is no number. -/
theorem figures_advance {env : HookEnv} {start s s' : EngineState}
    {trace trace' : List (EngineState × EngineLabel)} (hstart : EngineStart start)
    (hrun : Run (EngineStep env) start trace s) (hrun' : Run (EngineStep env) s trace' s')
    {principal principal' : Principal} {wireId wireId' : PyStr} {dep dep' : DeploymentRow}
    (hdep : readDeployment principal wireId s.records = .ok dep)
    (hdep' : readDeployment principal' wireId' s'.records = .ok dep') (hsame : dep'.id = dep.id)
    {F : Type} {display : Display F} {figureId : PyStr} {l : LineageView}
    (hl : figureLineage principal wireId figureId s.records = .ok l) :
    ∃ l', figureLineage principal' wireId' figureId s'.records = .ok l' ∧
      l.version ≤ l'.version ∧
      (l'.version = l.version → l' = l ∧
        getFigure display principal' wireId' figureId s'.records =
          getFigure display principal wireId figureId s.records) ∧
      (getFigure display principal' wireId' figureId s'.records = .error notCompliant ∨
        ∃ v, getFigure display principal' wireId' figureId s'.records = .ok v ∧
          v.version = l'.version) := by
  have hok := (engineOk_reachable hstart hrun).1
  have hok' := engineOk_of_run hok hrun'
  obtain ⟨_, -, hrest⟩ := bind_eq_ok hl
  obtain ⟨ref, href, -⟩ := bind_eq_ok hrest
  obtain ⟨row, hrow, rfl⟩ := (figureLineage_eq_ok hdep href).1 hl
  obtain ⟨row', hrow', hle, heq⟩ := newestAt_extend (versioned_figuresOf hok'.history.kept dep.id)
    (figuresOf_subset hok.history.kept hok'.history.kept (persists_of_run hok hrun').rows dep.id)
    (versioned_figuresOf hok.history.kept dep.id) hrow
  have hfound : s'.records.figureAt dep'.id ref = some row' := hsame ▸ hrow'
  refine ⟨_, (figureLineage_eq_ok hdep' href).2 ⟨row', hfound, rfl⟩, hle, fun hversion => ?_, ?_⟩
  · obtain rfl := heq hversion
    refine ⟨rfl, ?_⟩
    rw [getFigure_found hdep' href hfound, getFigure_found hdep href hrow]
  · exact getFigure_of_row hdep' href hfound

/-- The figure of a reference that a committed call of `compute_deployment` names, at any later
moment: at least as new as it was written, and among those of the period. -/
theorem newest_of_computed {env : HookEnv} {start s s' t : EngineState}
    {trace later : List (EngineState × EngineLabel)} (hstart : EngineStart start)
    (hrun : Run (EngineStep env) start trace s) {G : Type} {plan : Planner} {rt : DecimalText}
    {fl : Floats G} {ws d : ℕ} {period : PyStr} {refs : List PyStr}
    (heval : (computeDeployment plan rt fl ws d period).eval s.records s.sequence =
      (.ok (.written refs, s'.records), s'.sequence))
    (hlater : Run (EngineStep env) s' later t) {ref : PyStr} (href : ref ∈ refs) :
    periodOk period = true ∧ textOk ref = true ∧ ∃ newest, t.records.figureAt d ref = some newest ∧
      s.records.nextVersion d ref ≤ newest.version ∧
        newest ∈ t.records.newestFigures d (some period) := by
  obtain ⟨hok, hnamed⟩ := named_of_run hstart hrun
  have hwrote := wrote_of_computeDeployment hok.history heval
  have hfigured := figured_of_computeDeployment hok.history heval
  have hnamed' : NamedByPeriod s'.records := by
    intro e r v row hrow
    rcases figures_of_computeDeployment hok.history heval hrow with hold | ⟨-, hsame, hnew⟩
    · exact hnamed e r v row hold
    · rw [hsame]
      exact hnew
  have hok' : EngineOk s' := ⟨hwrote.history, hfigured.identified hok.identified⟩
  obtain ⟨hokt, hnamedt⟩ := hnamed'.run hok' hlater
  obtain ⟨u, first, hfirst, hfirstPeriod⟩ := hfigured.named ref href
  obtain ⟨hperiod, word, hword, hrefWord⟩ := hnamed' _ _ _ _ hfirst
  rw [hfirstPeriod] at hperiod hrefWord
  refine ⟨hperiod, hrefWord ▸ textOk_figureRef hword hperiod, ?_⟩
  -- the row it wrote is still there
  obtain ⟨row, hrow⟩ := Option.isSome_iff_exists.1
    ((hwrote.figures d ref (s.records.nextVersion d ref)).2 (.inr ⟨rfl, href, rfl⟩))
  obtain ⟨hd, hname, hversion⟩ := hwrote.history.kept _ _ hrow
  have hmem : row ∈ t.records.figuresOf d := by
    refine (mem_figuresOf hokt.history.kept).2 ⟨hd, ?_⟩
    rw [hname, hversion]
    exact (persists_of_run hok' hlater).rows _ _ (by simp) hrow
  cases hfound : t.records.figureAt d ref with
  | none => exact absurd hname (newestAt_eq_none.1 hfound row hmem)
  | some newest =>
    obtain ⟨hnewest, hsame⟩ := (figureAt_eq_some hokt.history.kept).1 hfound
    obtain ⟨hin, hgreatest⟩ := mem_newest.1 (newestFigures_none (s := t.records) d ▸ hnewest)
    refine ⟨newest, rfl, hversion ▸ hgreatest row hmem (hname.trans hsame.symm), ?_⟩
    obtain ⟨-, word', hword', hsameWord⟩ :=
      hnamedt _ _ _ _ ((mem_figuresOf hokt.history.kept).1 hin).2
    rw [newestFigures_some hokt.history.kept hnamedt, List.mem_filter, decide_eq_true_eq]
    exact ⟨hnewest, period_of_word hword' hword (hsameWord.symm.trans (hsame.trans hrefWord))⟩

/-- The figures a committed call of `compute_deployment` names are explained from then on, at least
as new as it wrote them; `get_figure` and the list of the period serve them, unless a value there is
no number. -/
theorem computed_figures_served {env : HookEnv} {start s s' t : EngineState}
    {trace later : List (EngineState × EngineLabel)} (hstart : EngineStart start)
    (hrun : Run (EngineStep env) start trace s) {G : Type} {plan : Planner} {rt : DecimalText}
    {fl : Floats G} {ws d : ℕ} {period : PyStr} {refs : List PyStr}
    (heval : (computeDeployment plan rt fl ws d period).eval s.records s.sequence =
      (.ok (.written refs, s'.records), s'.sequence))
    (hlater : Run (EngineStep env) s' later t) {principal : Principal} {wireId : PyStr}
    {dep : DeploymentRow} (hdep : readDeployment principal wireId t.records = .ok dep)
    (hid : dep.id = d) {F : Type} {collate : PyStr → PyStr → Bool} {display : Display F} {ref : PyStr}
    (href : ref ∈ refs) :
    ∃ l, figureLineage principal wireId ref t.records = .ok l ∧
      s.records.nextVersion d ref ≤ l.version ∧
      (getFigure display principal wireId ref t.records = .error notCompliant ∨
        ∃ v, getFigure display principal wireId ref t.records = .ok v ∧ v.version = l.version) ∧
      (listFigures collate display principal wireId (some period) t.records = .error notCompliant ∨
        ∃ v list, getFigure display principal wireId ref t.records = .ok v ∧
          listFigures collate display principal wireId (some period) t.records = .ok list ∧
          v ∈ list.results ∧ list.periodNotComputed = false) := by
  obtain ⟨hperiod, href', newest, hfound, hversion, hlisted⟩ :=
    newest_of_computed hstart hrun heval hlater href
  have htext := textArgument_ok href'
  have hne : period ≠ [] := by
    rintro rfl
    cases hperiod
  rw [← hid] at hfound hlisted
  have hsorted : newest ∈ (t.records.newestFigures dep.id (some period)).mergeSort fun f g =>
      collate f.figureRef g.figureRef := List.mem_mergeSort.2 hlisted
  refine ⟨_, (figureLineage_eq_ok hdep htext).2 ⟨newest, hfound, rfl⟩, hversion,
    getFigure_of_row hdep htext hfound, ?_⟩
  rw [listFigures_some hdep (textOk_period hperiod) hne, respondWith_eq_notCompliant]
  by_cases hall : ∀ r ∈ t.records.newestFigures dep.id (some period), r.renders = true
  · refine .inr ⟨_, _, (getFigure_eq_ok hdep htext).2 ⟨newest, hfound, hall _ hlisted, rfl⟩,
      respondWith_eq_ok.2 ⟨fun r hr => hall r (List.mem_mergeSort.1 hr), rfl⟩,
      List.mem_map_of_mem hsorted, ?_⟩
    rw [List.isEmpty_eq_false_iff]
    exact List.ne_nil_of_mem hsorted
  · push Not at hall
    obtain ⟨r, hr, hfalse⟩ := hall
    exact .inl ⟨r, List.mem_mergeSort.2 hr, by simpa using hfalse⟩

/-! ### Reports -/

/-- What the document of a report says of a figure. -/
def ArtifactFigure.shown {F : Type} (float : FigureValue → F) (f : ArtifactFigure) :
    PyStr × ℕ × Option PyStr × FigureStatus × Option F :=
  (f.figureRef, f.version, f.claim, f.status, f.value.map float)

def FigureView.shown {F : Type} (v : FigureView F) :
    PyStr × ℕ × Option PyStr × FigureStatus × Option F :=
  (v.figureId, v.version, v.claim, v.status, v.value)

section Shown

variable {collate : PyStr → PyStr → Bool} {c : Issue} {s : Records}

theorem map_figuresOf (s : Records) (d : ℕ) (period : PyStr) :
    ((s.figuresOf d).filter fun f => (some period).all fun p => f.period = p).map
        Figure.toFigureRow =
      (s.archive 0).figures.filter fun f => f.deploymentId = d ∧ f.period = period := by
  unfold Records.figuresOf Records.archive
  dsimp only
  rw [List.filter_map, List.filter_filter]
  congr 1
  apply List.filter_congr
  intro f _
  simp [Bool.and_comm]

/-- The queries of `issue_report` and `list_figures` find the same rows in the same order. -/
theorem map_newestFigures (collate : PyStr → PyStr → Bool) (c : Issue) (s : Records) :
    ((s.newestFigures c.deploymentId (some c.period)).mergeSort fun f g =>
      collate f.figureRef g.figureRef).map Figure.toFigureRow = boundBy collate c s := by
  have hnewest : (s.newestFigures c.deploymentId (some c.period)).map Figure.toFigureRow =
      newest (fun f : FigureRow => f.figureRef) (fun f => f.version)
        ((s.archive 0).figures.filter fun f =>
          f.deploymentId = c.deploymentId ∧ f.period = c.period) := by
    unfold Records.newestFigures
    rw [map_newest (fun _ => rfl) (fun _ => rfl), map_figuresOf]
  rw [List.map_mergeSort (s := fun f g : FigureRow => collate f.figureRef g.figureRef)
    fun _ _ _ _ => rfl, hnewest]
  rfl

end Shown

/-- What `issue_report` puts into a report is what `list_figures` answers for its period at the
time, figure by figure, where no value of it is no number, and else the list has no answer.
`get_report` returns the figures of the document for this version ever after. -/
theorem report_shows_list {env : HookEnv} {start s s' t : EngineState}
    {trace later : List (EngineState × EngineLabel)} (hstart : EngineStart start)
    (hrun : Run (EngineStep env) start trace s) {collate : PyStr → PyStr → Bool} {c : Issue}
    {path : PyStr} {artifact : Artifact}
    (heval : (issueTransaction collate c).eval s.records s.sequence =
      (.ok (.issued path artifact, s'.records), s'.sequence))
    (hlater : Run (EngineStep env) s' later t) {F : Type} (display : Display F)
    {principal : Principal} {wireId : PyStr} {dep : DeploymentRow}
    (hdep : readDeployment principal wireId s.records = .ok dep) (hid : dep.id = c.deploymentId) :
    ((∃ l, listFigures collate display principal wireId (some c.period) s.records = .ok l) ↔
      ∀ f ∈ artifact.figures, f.value ≠ some .nan) ∧
    (∀ l, listFigures collate display principal wireId (some c.period) s.records = .ok l →
      artifact.figures.map (ArtifactFigure.shown display.float) =
        l.results.map FigureView.shown) ∧
    ∀ view, getReport t.records c.deploymentId (reportRefOf c.period) = some view →
      view.version = artifact.version →
        view.figures = artifact.figures.map fun f => (f.figureRef, f.version) := by
  have hok := (engineOk_reachable hstart hrun).1
  obtain ⟨row, hissued, hsequence, hissuable, hreply, -⟩ := issued_of_eval heval
  cases hreply
  have hne : c.period ≠ [] := by
    intro hnil
    have hperiod := hissuable.period
    rw [hnil] at hperiod
    cases hperiod
  have hhistory := versionHistory_of_issue hok.history heval
  have hok' : EngineOk s' := ⟨hhistory, hsequence ▸ hissued.identified hok.identified⟩
  have hbinds := bindsNewest_of_issued hissued hok.identified hok.history.kept hhistory.kept
  have hrows := map_newestFigures collate c s.records
  have hfigures : (artifactOf c (issuedVersion c s.records) (boundBy collate c s.records)).figures =
      ((s.records.newestFigures c.deploymentId (some c.period)).mergeSort fun f g =>
        collate f.figureRef g.figureRef).map fun f : Figure =>
          ⟨f.figureRef, f.version, f.claim, f.figureStatus, f.value⟩ := by
    unfold artifactOf
    dsimp only
    rw [← hrows, List.map_map]
    rfl
  simp only [listFigures_some hdep (textOk_period hissuable.period) hne, respondWith_eq_ok, hid]
  refine ⟨?_, ?_, ?_⟩
  · rw [hfigures, List.forall_mem_map]
    simp [Figure.renders]
  · rintro l ⟨-, rfl⟩
    rw [hfigures, List.map_map, List.map_map]
    rfl
  · intro view hview hversion
    obtain ⟨r, hr, rfl⟩ := getReport_eq_some (engineOk_of_run hok' hlater).history.kept hview
    obtain ⟨hrow, hsame⟩ := reportView_of_run hok' hissued.report hbinds.rows hlater
    have heq : r = row := by
      have hversion : r.version = issuedVersion c s.records := hversion
      rw [hversion, hrow] at hr
      exact (Option.some.inj hr).symm
    rw [heq, hsame]
    exact (Multiset.coe_eq_coe.2 hbinds.document.symm)

/-! ### The figures of July -/

def codeOrder : PyStr → PyStr → Bool
  | [], _ => true
  | _ :: _, [] => false
  | a :: x, b :: y => decide (a.val < b.val) || decide (a.val = b.val) && codeOrder x y

theorem codeOrder_cons {a b : CodePoint} {x y : PyStr} : codeOrder (a :: x) (b :: y) = true ↔
    a.val < b.val ∨ a.val = b.val ∧ codeOrder x y = true := by
  simp [codeOrder]

theorem codeOrder_trans (x y z : PyStr) (h : codeOrder x y = true) (h' : codeOrder y z = true) :
    codeOrder x z = true := by
  induction x generalizing y z with
  | nil => rfl
  | cons a x ih =>
    cases y with
    | nil => cases h
    | cons b y =>
      cases z with
      | nil => cases h'
      | cons c z =>
        rw [codeOrder_cons] at h h' ⊢
        rcases h with hlt | ⟨heq, hrest⟩
        · rcases h' with hlt' | ⟨heq', -⟩ <;> exact .inl (by omega)
        · rcases h' with hlt' | ⟨heq', hrest'⟩
          · exact .inl (by omega)
          · exact .inr ⟨heq.trans heq', ih y z hrest hrest'⟩

theorem codeOrder_total (x y : PyStr) : (codeOrder x y || codeOrder y x) = true := by
  induction x generalizing y with
  | nil => rfl
  | cons a x ih =>
    cases y with
    | nil => rfl
    | cons b y =>
      rw [Bool.or_eq_true, codeOrder_cons, codeOrder_cons]
      have hrest := ih y
      rw [Bool.or_eq_true] at hrest
      rcases Nat.lt_trichotomy a.val b.val with hlt | heq | hgt
      · exact .inl (.inl hlt)
      · exact hrest.imp (fun h => .inr ⟨heq, h⟩) (fun h => .inr ⟨heq.symm, h⟩)
      · exact .inr (.inl hgt)

theorem codeOrder_antisymm (x y : PyStr) (h : codeOrder x y = true) (h' : codeOrder y x = true) :
    x = y := by
  induction x generalizing y with
  | nil =>
    cases y with
    | nil => rfl
    | cons b y => cases h'
  | cons a x ih =>
    cases y with
    | nil => cases h
    | cons b y =>
      rw [codeOrder_cons] at h h'
      obtain ⟨heq, hrest⟩ := h.resolve_left (by omega)
      obtain ⟨-, hrest'⟩ := h'.resolve_left (by omega)
      rw [Fin.ext heq, ih y hrest hrest']

theorem totalOrder_codeOrder : TotalOrder codeOrder where
  trans := codeOrder_trans _ _ _
  total := codeOrder_total
  antisymm := codeOrder_antisymm _ _

/-- Deployment 1 is one of workspace 1, nothing is computed. -/
def readable : EngineState :=
  { unissued with
    records := (∅ : Records).insert .evidence
      ⟨(∅ : Db).insert (.deployment (py "dep_1")) ⟨1, 1, .active⟩, sampleBooks⟩ }

theorem engineStart_readable : EngineStart readable :=
  ⟨fun _ hk => AList.lookup_insert_ne hk, rfl⟩

/-- A value shows as itself. -/
def plainDisplay : Display FigureValue := ⟨id, fun _ => py "2026-08-01T00:00:00+00:00"⟩

/-- A key of workspace 1. -/
def figureReader : Principal := ⟨1, .production, .workspace, []⟩

/-- The reader finds its deployment and the cost figure, every value is a number, and the report can
be issued. -/
def readableAfter : Except Failure (RecordReply × Records) × ℕ → Bool
  | (.ok (.written refs, records), _) =>
    refs.contains (py "fig_cost_2026-07") &&
    (match readDeployment figureReader (py "dep_1") records with
      | .ok dep => decide (dep.id = 1)
      | .error _ => false) &&
    (match figureLineage figureReader (py "dep_1") (py "fig_cost_2026-07") records with
      | .ok l => decide (l.version = 1)
      | .error _ => false) &&
    decide (issuedVersion julyIssue records ≤ integerMax) &&
    ((Records.evidence records).books.deployments.any fun d => d.id = 1) &&
    (Records.figuresOf records 1).all Figure.renders
  | _ => false

theorem renders_newest {s : Records} {d : ℕ} {period : Option PyStr}
    (hall : ∀ f ∈ s.figuresOf d, f.renders = true) :
    ∀ f ∈ s.newestFigures d period, f.renders = true :=
  fun f hf => hall f (List.mem_filter.1 (mem_newest.1 hf).1).1

theorem exists_readable : ∃ refs records n, julyComputation.eval readable.records 0 =
      (.ok (.written refs, records), n) ∧
    (∃ dep, readDeployment figureReader (py "dep_1") records = .ok dep ∧ dep.id = 1) ∧
    (∃ l, figureLineage figureReader (py "dep_1") (py "fig_cost_2026-07") records = .ok l ∧
      l.version = 1) ∧ Issuable julyIssue records ∧ py "fig_cost_2026-07" ∈ refs ∧
    ∀ f ∈ Records.figuresOf records 1, f.renders = true := by
  have h : readableAfter (julyComputation.eval readable.records 0) = true := by decide +kernel
  unfold readableAfter at h
  split at h
  · rename_i refs records n heval
    simp only [Bool.and_eq_true, decide_eq_true_eq, List.any_eq_true] at h
    obtain ⟨⟨⟨⟨⟨hmem, hdep⟩, hfigure⟩, hversion⟩, hknown⟩, hrenders⟩ := h
    refine ⟨refs, records, n, heval, ?_, ?_, ⟨hversion, by decide, hknown⟩,
      List.contains_iff_mem.1 hmem, List.all_eq_true.1 hrenders⟩
    · split at hdep
      · rename_i dep hfound
        exact ⟨dep, hfound, of_decide_eq_true hdep⟩
      · cases hdep
    · split at hfigure
      · rename_i l hfound
        exact ⟨l, hfound, of_decide_eq_true hfigure⟩
      · cases hfigure
  · cases h

/-- The cost figure that is explained is listed. -/
theorem figures_agree_july : ∃ trace s, Run (EngineStep sampleHookEnv) readable trace s ∧
    ∃ all : FigureList FigureValue,
      listFigures codeOrder plainDisplay figureReader (py "dep_1") none s.records = .ok all ∧
        (all.results.map FigureView.figureId).Nodup ∧
          ∃ v ∈ all.results, v.figureId = py "fig_cost_2026-07" := by
  obtain ⟨refs, records, n, heval, ⟨dep, hdep, hid⟩, ⟨l, hl, -⟩, -, -, hrenders⟩ := exists_readable
  have hrun : Run (EngineStep sampleHookEnv) readable _ _ :=
    .single (@EngineStep.compute _ _ _ _ _ _ _ _ _ _ _ _ id _ heval List.nil_prefix)
  have href : textArgument (py "fig_cost_2026-07") = .ok (py "fig_cost_2026-07") :=
    textArgument_ok (by decide)
  obtain ⟨hanswered, hagree⟩ := @figures_agree _ _ _ _ engineStart_readable hrun FigureValue _
    totalOrder_codeOrder plainDisplay _ _ _ hdep
  obtain ⟨all, hall⟩ := hanswered.2 fun figureId htext hfails => by
    obtain ⟨row, hrow, hfalse⟩ :=
      (getFigure_eq_notCompliant hdep (textArgument_ok htext)).1 hfails
    have hlisted := newestAt_mem hrow
    rw [hid] at hlisted
    rw [hrenders row hlisted] at hfalse
    cases hfalse
  obtain ⟨hnodup, hentries, -⟩ := hagree all hall
  obtain ⟨row, hrow, -⟩ := (figureLineage_eq_ok hdep href).1 hl
  have hlisted := newestAt_mem hrow
  rw [hid] at hlisted
  obtain ⟨hmem, hname⟩ := (hentries _ _ (by decide)).1
    ((getFigure_eq_ok hdep href).2 ⟨row, hrow, hrenders row hlisted, rfl⟩)
  exact ⟨_, _, hrun, all, hall, hnodup, _, hmem, hname⟩

/-- A transaction taken back takes no figure back. -/
theorem figures_advance_july : ∃ trace s, Run (EngineStep sampleHookEnv) readable trace s ∧
    ∃ l : LineageView, figureLineage figureReader (py "dep_1") (py "fig_cost_2026-07")
      s.records = .ok l ∧ 1 ≤ l.version := by
  obtain ⟨refs, records, n, heval, ⟨dep, hdep, -⟩, ⟨l, hl, hversion⟩, -⟩ := exists_readable
  have hrun : Run (EngineStep sampleHookEnv) readable _ _ :=
    .single (@EngineStep.compute _ _ _ _ _ _ _ _ _ _ _ _ id _ heval List.nil_prefix)
  have hundone := fun s : EngineState => @EngineStep.undone sampleHookEnv s s.sequence le_rfl
  obtain ⟨l', hl', hle, -⟩ := @figures_advance _ _ _ _ _ _ engineStart_readable hrun
    (.single (hundone _)) _ _ _ _ _ _ hdep hdep rfl FigureValue plainDisplay _ _ hl
  exact ⟨_, _, hrun.append (.single (hundone _)), l', hl', hversion ▸ hle⟩

/-- The cost figure of the call is listed. -/
theorem computed_figures_served_july : ∃ records, ∃ l : FigureList FigureValue,
    listFigures codeOrder plainDisplay figureReader (py "dep_1") (some (py "2026-07")) records =
      .ok l ∧ l.periodNotComputed = false := by
  obtain ⟨refs, records, n, heval, ⟨dep, hdep, hid⟩, -, -, href, hrenders⟩ := exists_readable
  obtain ⟨-, -, -, -, hlist⟩ := @computed_figures_served sampleHookEnv _ _
    { readable with records, sequence := n } _ _ _ engineStart_readable (.refl _) _ _ _ _ _ _ _ _
    heval (.refl _) _ _ _ hdep hid _ codeOrder plainDisplay _ href
  rcases hlist with hfails | ⟨v, l, -, hl, -, hcomputed⟩
  · rw [listFigures_some hdep (by decide) (by decide), respondWith_eq_notCompliant] at hfails
    obtain ⟨r, hr, hfalse⟩ := hfails
    rw [renders_newest (hid.symm ▸ hrenders) r (List.mem_mergeSort.1 hr)] at hfalse
    cases hfalse
  · exact ⟨_, l, hl, hcomputed⟩

/-- The report for July shows the list for July. -/
theorem report_shows_list_july : ∃ records, ∃ artifact : Artifact, ∃ l : FigureList FigureValue,
    listFigures codeOrder plainDisplay figureReader (py "dep_1") (some (py "2026-07")) records =
      .ok l ∧ artifact.figures.map (ArtifactFigure.shown id) = l.results.map FigureView.shown := by
  obtain ⟨refs, records, n, heval, ⟨dep, hdep, hid⟩, -, hissuable, -, hrenders⟩ := exists_readable
  have hrun : Run (EngineStep sampleHookEnv) readable _ _ :=
    .single (@EngineStep.compute _ _ _ _ _ _ _ _ _ _ _ _ id _ heval List.nil_prefix)
  have hok := (engineOk_reachable engineStart_readable hrun).1
  obtain ⟨⟨a, records'⟩, hissue⟩ :=
    @exists_issue codeOrder julyIssue _ _ hok.history.kept hok.identified hissuable
  obtain ⟨row, -, -, -, rfl, -⟩ := issued_of_eval hissue
  obtain ⟨-, hshown, -⟩ := @report_shows_list sampleHookEnv _ _
    { unissued with records := records', sequence := _ } _ _ _ engineStart_readable hrun _ _ _ _
    hissue (.refl _) _ plainDisplay _ _ _ hdep hid
  have hlist := @listFigures_some _ codeOrder plainDisplay _ _ _ _ (py "2026-07") hdep (by decide)
    (by decide)
  have hl := hlist.trans (respondWith_eq_ok.2
    ⟨fun r hr => renders_newest (hid.symm ▸ hrenders) r (List.mem_mergeSort.1 hr), rfl⟩)
  exact ⟨_, _, _, hl, hshown _ hl⟩

end TrueFigure.Server
