import TrueFigure.Server.EngineRows

/-!
# What `figures` takes

Run alone, the methods commit exactly where each of them succeeds and `figures` takes
every row they hand to `_write_figure`. Each row is then stored as it was drafted.
-/
namespace TrueFigure.Server

open TrueFigure.Library TrueFigure.Python

/-! ### Drafts and rows -/

/-- A draft the table takes as the next version of its figure. -/
structure Accepted (s : Records) (deploymentId : ℕ) (d : Draft) : Prop where
  room : s.nextVersion deploymentId d.figureRef ≤ integerMax
  lineage : jsonbOk (.obj d.lineage) = true
  value : ∃ v, valueParam d.value = .ok v
  shape : d.shapeOk = true

/-- The `CHECK` constraints of `figures`. -/
structure Figure.ChecksOk (row : Figure) : Prop where
  version : 0 < row.version
  period : periodOk row.period = true
  computed : row.figureStatus = .computed →
    row.claim.isSome = true ∧ row.value.isSome = true ∧ row.gradeType.isSome = true

/-- The row says what the draft says. -/
structure Draft.StoredAs (d : Draft) (row : Figure) : Prop where
  status : row.figureStatus = d.status
  grade : row.gradeType = d.grade
  claim : row.claim = some d.claim
  value : valueParam d.value = .ok row.value
  missing : row.missingParameter = d.missingParameter

theorem isSome_of_valueParam {x : Option Decimal} {v : Option FigureValue}
    (h : valueParam x = .ok v) : v.isSome = x.isSome := by
  cases x with
  | none =>
    cases h
    rfl
  | some d =>
    have h : d.toColumn.map some = .ok v := h
    cases hd : d.toColumn with
    | error e =>
      rw [hd] at h
      cases h
    | ok a =>
      rw [hd] at h
      cases h
      rfl

section Values

variable {b : Books} {id ws dep version : ℕ} {d : Draft} {row : Figure}

theorem figureValues_isOk_iff (hperiod : periodOk d.period = true)
    (hdep : ∃ e ∈ b.deployments, e.id = dep ∧ e.workspaceId = ws) :
    (∃ row, figureValues b id ws dep version d = .ok row) ↔
      version ≤ integerMax ∧ jsonbOk (.obj d.lineage) = true ∧
        (∃ v, valueParam d.value = .ok v) ∧ d.shapeOk = true := by
  have hforeign : ¬ ∀ e ∈ b.deployments, e.id = dep → ¬ e.workspaceId = ws := by
    obtain ⟨e, he, hid, hws⟩ := hdep
    exact fun hnone => hnone e he hid hws
  by_cases hversion : integerMax < version
  · simp [figureValues, hversion]
  · have hroom : version ≤ integerMax := Nat.le_of_not_lt hversion
    cases hjson : jsonbOk (.obj d.lineage) with
    | false => simp [figureValues, hversion, hjson]
    | true =>
      cases hvalue : valueParam d.value with
      | error e => simp [figureValues, hversion, hjson, hvalue, bind, Except.bind]
      | ok v =>
        cases hshape : d.shapeOk with
        | false => simp [figureValues, hversion, hjson, hvalue, hshape, bind, Except.bind]
        | true =>
          simp [figureValues, hversion, hjson, hvalue, hshape, hperiod, hforeign, bind, Except.bind,
            hroom]

theorem storedAs_of_figureValues (h : figureValues b id ws dep version d = .ok row)
    (hversion : 0 < version) : d.StoredAs row ∧ row.ChecksOk := by
  unfold figureValues at h
  split_ifs at h with _ _ hcheck hforeign
  · obtain ⟨value, -, h⟩ := bind_eq_ok h
    cases h
  · obtain ⟨value, -, h⟩ := bind_eq_ok h
    cases h
  obtain ⟨value, hvalue, h⟩ := bind_eq_ok h
  cases h
  simp only [Bool.or_eq_true, Bool.not_eq_true', not_or, Bool.not_eq_false] at hcheck
  obtain ⟨hperiod, hshape⟩ := hcheck
  refine ⟨⟨rfl, rfl, rfl, hvalue, rfl⟩, hversion, hperiod, fun hcomputed => ?_⟩
  simp only [Draft.shapeOk, Bool.or_eq_true, decide_eq_true_eq, Bool.and_eq_true] at hshape
  obtain ⟨hsome, hgrade⟩ := hshape.resolve_left (not_not_intro hcomputed)
  exact ⟨rfl, (isSome_of_valueParam hvalue).trans hsome, hgrade⟩

end Values

/-! ### One method after the other -/

/-- The draft is stored as a version of its figure that was not there before, and
passes the checks. -/
def NewFigure (s s' : Records) (deploymentId : ℕ) (d : Draft) : Prop :=
  ∃ v row, s.lookup (.figure deploymentId d.figureRef v) = none ∧
    s'.lookup (.figure deploymentId d.figureRef v) = some row ∧ d.StoredAs row ∧ row.ChecksOk

/-- A method succeeds, and its draft, if it has one, is accepted. -/
def Feasible (s : Records) (deploymentId : ℕ) (outcome : Except Failure (Option Draft)) : Prop :=
  ∃ o, outcome = .ok o ∧ ∀ d ∈ o, Accepted s deploymentId d

/-- The drafts of the methods are of distinct figures, and of periods the table
takes. -/
structure Drafting (e : Evidence) (methods : List (Evidence → Except Failure (Option Draft))) :
    Prop where
  refs : SeparateFigures e methods
  periods : ∀ m ∈ methods, ∀ d, m e = .ok (some d) → periodOk d.period = true

section Run

variable {ws dep : ℕ} {s s' : Records} {n n' : ℕ} {d : Draft} {refs written : List PyStr}
  {method : Evidence → Except Failure (Option Draft)}
  {methods : List (Evidence → Except Failure (Option Draft))}

theorem accepted_iff (hperiod : periodOk d.period = true)
    (hdep : ∃ e ∈ s.evidence.books.deployments, e.id = dep ∧ e.workspaceId = ws) :
    Accepted s dep d ↔ ∃ row, figureValues s.evidence.books n ws dep
      (s.nextVersion dep d.figureRef) d = .ok row := by
  rw [figureValues_isOk_iff hperiod hdep]
  constructor
  · intro h
    exact ⟨h.room, h.lineage, h.value, h.shape⟩
  · intro h
    exact ⟨h.1, h.2.1, h.2.2.1, h.2.2.2⟩

/-- A row of another figure changes nothing for a draft. -/
theorem accepted_insert {ref : PyStr} {v : ℕ} {row : Figure}
    (hnew : s.lookup (.figure dep ref v) = none) (hrow : row.figureRef = ref)
    (hne : d.figureRef ≠ ref) :
    Accepted (s.insert (.figure dep ref v) row) dep d ↔ Accepted s dep d := by
  constructor
  · intro h
    exact ⟨nextVersion_insert hnew hrow hne ▸ h.room, h.lineage, h.value, h.shape⟩
  · intro h
    exact ⟨(nextVersion_insert hnew hrow hne).symm ▸ h.room, h.lineage, h.value, h.shape⟩

theorem NewFigure.of_insert {k : RecordKey} {row : Record k}
    (h : NewFigure (s.insert k row) s' dep d) : NewFigure s s' dep d := by
  obtain ⟨v, row', hnew, hlookup, hstored⟩ := h
  refine ⟨v, row', ?_, hlookup, hstored⟩
  by_cases hk : RecordKey.figure dep d.figureRef v = k
  · subst hk
    rw [AList.lookup_insert] at hnew
    cases hnew
  · rwa [AList.lookup_insert_ne hk] at hnew

theorem Drafting.tail (h : Drafting s.evidence (method :: methods)) :
    Drafting s.evidence methods :=
  ⟨(List.pairwise_cons.1 h.refs).2, fun m hm => h.periods m (List.mem_cons_of_mem _ hm)⟩

/-- The methods that follow find the same evidence and the same versions of their
figures. -/
theorem feasible_insert (hsep : Drafting s.evidence (method :: methods)) {v : ℕ} {row : Figure}
    (hdraft : method s.evidence = .ok (some d))
    (hnew : s.lookup (.figure dep d.figureRef v) = none) (hrow : row.figureRef = d.figureRef)
    {m : Evidence → Except Failure (Option Draft)} (hm : m ∈ methods) :
    Feasible (s.insert (.figure dep d.figureRef v) row) dep (m s.evidence) ↔
      Feasible s dep (m s.evidence) := by
  refine exists_congr fun o => and_congr_right fun ho => forall₂_congr fun d' hd' => ?_
  have hne : d'.figureRef ≠ d.figureRef := by
    refine ((List.pairwise_cons.1 hsep.refs).1 m hm d d' hdraft ?_).symm
    rw [ho, Option.mem_def.1 hd']
  exact accepted_insert hnew hrow hne

/-- The transaction commits exactly where every method is feasible. -/
theorem eval_runMethods_isOk_iff
    (hdep : ∃ e ∈ s.evidence.books.deployments, e.id = dep ∧ e.workspaceId = ws)
    (h : VersionHistory s) (hsep : Drafting s.evidence methods) :
    (∃ a s' n', (runMethods ws dep methods written).eval s n = (.ok (a, s'), n')) ↔
      ∀ m ∈ methods, Feasible s dep (m s.evidence) := by
  induction methods generalizing s n written with
  | nil => simp [runMethods, Txn.eval]
  | cons method methods ih =>
    rw [runMethods, List.forall_mem_cons]
    cases hmethod : method s.evidence with
    | error e => simp [eval_of_error hmethod, Feasible]
    | ok o =>
      cases o with
      | none =>
        rw [eval_of_none hmethod, ih hdep h hsep.tail]
        simp [Feasible]
      | some d =>
        have hperiod := hsep.periods method List.mem_cons_self d hmethod
        have haccepted := @accepted_iff ws dep s n d hperiod hdep
        rw [eval_of_draft h.kept hmethod]
        cases hvalues : figureValues s.evidence.books n ws dep (s.nextVersion dep d.figureRef) d with
        | error e =>
          have hnot : ¬ Accepted s dep d := by
            rw [haccepted, hvalues]
            simp
          simp [Feasible, hnot]
        | ok row =>
          have haccepted : Accepted s dep d := haccepted.2 ⟨row, hvalues⟩
          have hevidence := @evidence_insert_figure s dep d.figureRef
            (s.nextVersion dep d.figureRef) row
          have hrest := @ih _ (n + 1) (written ++ [d.figureRef]) (hevidence ▸ hdep)
            (history_of_figureValues h hvalues) (hevidence ▸ hsep.tail)
          rw [hevidence] at hrest
          rw [hrest]
          simp only [Feasible, Except.ok.injEq, exists_eq_left', Option.mem_def, Option.some.injEq,
            forall_eq', haccepted, true_and]
          exact forall₂_congr fun m hm => feasible_insert hsep hmethod (nextVersion_new h.kept)
            (figureValues_eq_ok hvalues).2.1 hm

theorem MethodRun.stored (hrun : MethodRun ws dep methods s n refs s' n') (h : VersionHistory s)
    (hsep : Drafting s.evidence methods) : Kept s s' ∧
      ∀ m ∈ methods, ∃ o, m s.evidence = .ok o ∧ ∀ d ∈ o, NewFigure s s' dep d := by
  induction hrun with
  | nil s n => exact ⟨Std.Refl.refl _, fun m hm => absurd hm List.not_mem_nil⟩
  | skip hmethod hrest ih =>
    obtain ⟨hkept, hstored⟩ := ih h hsep.tail
    exact ⟨hkept, List.forall_mem_cons.2 ⟨⟨none, hmethod, by simp⟩, hstored⟩⟩
  | @write method methods s s' n n' refs d row hmethod hvalues hrest ih =>
    have hnew := @nextVersion_new s dep d.figureRef h.kept
    have hevidence := @evidence_insert_figure s dep d.figureRef
      (s.nextVersion dep d.figureRef) row
    obtain ⟨hkept, hstored⟩ := ih (history_of_figureValues h hvalues) (hevidence ▸ hsep.tail)
    have hmine : NewFigure s s' dep d :=
      ⟨_, row, hnew, hkept _ _ (by simp) (AList.lookup_insert _),
        storedAs_of_figureValues hvalues (Nat.succ_pos _)⟩
    refine ⟨IsTrans.trans _ _ _ (kept_insert row hnew) hkept,
      List.forall_mem_cons.2 ⟨⟨some d, hmethod, ?_⟩, fun m hm => ?_⟩⟩
    · rintro _ ⟨⟩
      exact hmine
    · obtain ⟨o, ho, hdrafts⟩ := hstored m hm
      rw [hevidence] at ho
      exact ⟨o, ho, fun d' hd' => (hdrafts d' hd').of_insert⟩

end Run

end TrueFigure.Server
