import TrueFigure.Server.LicenseRuns
import TrueFigure.Server.SubMeters
import TrueFigure.Server.VersionHistory

/-!
# The versions of the parameters

`create_parameter_version` of `api/routes/config_plane.py` numbers the parameter sets of a
workspace in the order they are created; `resolve_parameter_version` and `_param_for` pick one
by its effective date. The numbers are the first ones and no date is used twice, whatever calls
run beside each other, so that what a period resolves to is settled by the dates alone.
-/
namespace TrueFigure.Server

open TrueFigure.Library TrueFigure.Python

/-- The keys of `uq_parameter_sets_workspace_version` and
`uq_parameter_sets_workspace_effective_from`. -/
inductive ParameterKey
  | version (workspaceId version : ℕ)
  | effective (workspaceId : ℕ) (day : ℤ)
  deriving DecidableEq

/-- A row of `parameter_sets` with the column only lists show. -/
structure ParameterRow extends ParameterSetRow where
  currency : String

/-- A row, or the version of the row an index entry is made for. -/
@[reducible] def ParameterCell : ParameterKey → Type
  | .version .. => ParameterRow
  | .effective .. => ℕ

abbrev ParameterDb := Store ParameterCell

/-- A request body. -/
structure ParameterCreate where
  effectiveFrom : String
  currency : String := "USD"
  payload : Dict

/-- A request, with the day the database makes of a text. -/
structure ParameterCall where
  workspaceId : ℕ
  roles : List String
  body : ParameterCreate
  date : String → Option ℤ

/-- The data of a 201 answer. -/
structure ParameterReply where
  version : ℕ
  effectiveFrom : String
  currency : String
  deriving DecidableEq

abbrev ParameterTxn := Txn ParameterCell Failure ParameterReply

/-! ### `create_parameter_version` -/

def parameterOf : Sigma ParameterCell → Option ParameterRow
  | ⟨.version _ _, row⟩ => some row
  | _ => none

/-- The rows of `parameter_sets`. -/
def parameterRows (s : ParameterDb) : List ParameterRow := s.entries.filterMap parameterOf

/-- The rows of a workspace. -/
def parametersIn (s : ParameterDb) (workspaceId : ℕ) : List ParameterRow :=
  (parameterRows s).filter fun row => row.workspaceId = workspaceId

/-- `COALESCE(MAX(version),0)+1`. -/
def nextParameterVersion (s : ParameterDb) (workspaceId : ℕ) : ℕ :=
  ((parametersIn s workspaceId).map fun row => row.version).foldr max 0 + 1

/-- The values of `INSERT INTO parameter_sets`, as its columns take them. -/
def parameterValues (c : ParameterCall) (version : ℕ) (day : ℤ) : Except Failure ParameterRow := do
  if integerMax < version then .error (.database .integerOverflow)
  else if !jsonbOk (.obj c.body.payload) then .error (.database .invalidJson)
  else
    let currency ← bindCurrency c.body.currency
    .ok
      { workspaceId := c.workspaceId
        version := version
        effectiveFrom := day
        payload := c.body.payload
        currency := currency }

/-- The insert: its row, then its entry for the effective date. -/
def insertParameters (c : ParameterCall) (row : ParameterRow) : ParameterTxn :=
  .write (.version row.workspaceId row.version) (fun before => liftDb (insertNew row before))
    fun _ =>
      .write (.effective row.workspaceId row.effectiveFrom)
        (fun before => liftDb (insertNew row.version before)) fun _ =>
          .pure ⟨row.version, c.body.effectiveFrom, c.body.currency⟩

def createParameterVersion (c : ParameterCall) : ParameterTxn :=
  if "finance_params" ∉ c.roles then
    .throw (.tfError ⟨.cfg002, none, some (py "finance_params role required (BR-016)")⟩)
  else
    match bindDate c.date c.body.effectiveFrom with
    | .error e => .throw e
    | .ok day =>
      .read fun s =>
        if (parametersIn s c.workspaceId).any fun row => row.effectiveFrom = day then
          .throw (.tfError ⟨.cfg001, some (py "effective_from"),
            some (py "effective window overlaps existing version")⟩)
        else
          .read fun s =>
            match parameterValues c (nextParameterVersion s c.workspaceId) day with
            | .error e => .throw e
            | .ok row => insertParameters c row

/-- One call after another, whatever each answers. -/
def createParameterVersions : List ParameterCall → Proc ParameterCell Failure ParameterReply Unit
  | [] => .done ()
  | c :: cs => .txn (createParameterVersion c) fun _ => createParameterVersions cs

/-- The books with the parameter sets of a table. -/
def Books.withParameters (b : Books) (s : ParameterDb) : Books :=
  { b with parameterSets := (parameterRows s).map ParameterRow.toParameterSetRow }

/-! ### The table -/

variable {s t : ParameterDb} {ws : ℕ} {row : ParameterRow}

theorem mem_parameterRows :
    row ∈ parameterRows s ↔ ∃ ws v, s.lookup (ParameterKey.version ws v) = some row := by
  unfold parameterRows
  rw [List.mem_filterMap]
  constructor
  · rintro ⟨⟨k, cell⟩, hmem, hrow⟩
    cases k with
    | version ws v =>
      cases hrow
      exact ⟨ws, v, AList.mem_lookup_iff.2 hmem⟩
    | effective ws day => cases hrow
  · rintro ⟨ws, v, hlookup⟩
    exact ⟨⟨.version ws v, row⟩, AList.mem_lookup_iff.1 hlookup, rfl⟩

/-- The versions of a workspace are the first ones, each row stands under its columns and has
the entry of its effective date. -/
structure ParametersOk (s : ParameterDb) : Prop where
  versions : ∀ ws, Contiguous fun v => (s.lookup (ParameterKey.version ws v)).isSome
  rows : ∀ ws v row, s.lookup (ParameterKey.version ws v) = some row →
    row.workspaceId = ws ∧ row.version = v ∧
      s.lookup (ParameterKey.effective ws row.effectiveFrom) = some v

/-- No row is changed or removed. -/
def Extends (s t : ParameterDb) : Prop :=
  ∀ k cell, s.lookup k = some cell → t.lookup k = some cell

instance reflExtends : Std.Refl Extends := ⟨fun _ _ _ h => h⟩

instance transExtends : IsTrans ParameterDb Extends :=
  ⟨fun _ _ _ h h' k cell hcell => h' k cell (h k cell hcell)⟩

theorem extends_insert {k : ParameterKey} (cell : ParameterCell k) (hnew : s.lookup k = none) :
    Extends s (s.insert k cell) := by
  intro k' cell' hlookup
  have hne : k' ≠ k := by
    rintro rfl
    cases hnew.symm.trans hlookup
  rw [AList.lookup_insert_ne hne, hlookup]

theorem mem_parametersIn (hs : ParametersOk s) :
    row ∈ parametersIn s ws ↔ s.lookup (ParameterKey.version ws row.version) = some row := by
  rw [parametersIn, List.mem_filter, mem_parameterRows, decide_eq_true_eq]
  constructor
  · rintro ⟨⟨ws', v, hlookup⟩, hws⟩
    obtain ⟨hws', hv, -⟩ := hs.rows ws' v row hlookup
    rw [hv, ← hws, hws', hlookup]
  · intro hlookup
    exact ⟨⟨ws, row.version, hlookup⟩, (hs.rows ws _ row hlookup).1⟩

theorem isSome_version (hs : ParametersOk s) {v : ℕ}
    (hv : v ∈ (parametersIn s ws).map fun row => row.version) :
    (s.lookup (ParameterKey.version ws v)).isSome := by
  obtain ⟨row, hrow, rfl⟩ := List.mem_map.1 hv
  rw [(mem_parametersIn hs).1 hrow]
  rfl

theorem ParametersOk.eq_of_effective (hs : ParametersOk s) {row' : ParameterRow}
    (hrow : row ∈ parametersIn s ws) (hrow' : row' ∈ parametersIn s ws)
    (heq : row.effectiveFrom = row'.effectiveFrom) : row = row' := by
  rw [mem_parametersIn hs] at hrow hrow'
  obtain ⟨-, -, hentry⟩ := hs.rows _ _ _ hrow
  obtain ⟨-, -, hentry'⟩ := hs.rows _ _ _ hrow'
  rw [heq] at hentry
  have hversion : row.version = row'.version := Option.some.inj (hentry.symm.trans hentry')
  rw [hversion] at hrow
  exact Option.some.inj (hrow.symm.trans hrow')

/-! ### A call among others -/

theorem parameterValues_eq_ok {c : ParameterCall} {version : ℕ} {day : ℤ}
    (h : parameterValues c version day = .ok row) :
    row.workspaceId = c.workspaceId ∧ row.version = version ∧ row.effectiveFrom = day := by
  unfold parameterValues at h
  split_ifs at h
  obtain ⟨currency, -, h⟩ := bind_eq_ok h
  cases h
  exact ⟨rfl, rfl, rfl⟩

/-- A row under the next version of rows that are all still there, with an effective date that
has no entry. -/
theorem ParametersOk.insert (hs : ParametersOk s) (ht : ParametersOk t) (hle : Extends t s)
    (hversion : row.version = nextParameterVersion t row.workspaceId)
    (hnew : s.lookup (ParameterKey.version row.workspaceId row.version) = none)
    (hday : s.lookup (ParameterKey.effective row.workspaceId row.effectiveFrom) = none) :
    ParametersOk ((s.insert (ParameterKey.version row.workspaceId row.version) row).insert
      (ParameterKey.effective row.workspaceId row.effectiveFrom) row.version) := by
  have hrows : ∀ ws v, ((s.insert (ParameterKey.version row.workspaceId row.version) row).insert
      (ParameterKey.effective row.workspaceId row.effectiveFrom) row.version).lookup
        (ParameterKey.version ws v) =
      if ws = row.workspaceId ∧ v = row.version then some row
      else s.lookup (ParameterKey.version ws v) := by
    intro ws v
    rw [AList.lookup_insert_ne (by simp)]
    split_ifs with hkey
    · rw [hkey.1, hkey.2, AList.lookup_insert]
    · exact AList.lookup_insert_ne (by simpa using hkey)
  refine ⟨fun ws => ?_, fun ws v row' hrow' => ?_⟩
  · by_cases hws : ws = row.workspaceId
    · subst hws
      have hnext := (hs.versions row.workspaceId).insert
        (fun v hv => by
          obtain ⟨r, hr⟩ := Option.isSome_iff_exists.1 (isSome_version ht hv)
          rw [hle _ r hr]
          rfl)
        (by
          change ¬ (s.lookup (ParameterKey.version row.workspaceId
            (nextParameterVersion t row.workspaceId))).isSome = true
          rw [← hversion, hnew]
          exact Bool.false_ne_true)
      refine hnext.congr fun v => ?_
      change _ ↔ v = nextParameterVersion t row.workspaceId ∨ _
      rw [hrows, ← hversion]
      by_cases hv : v = row.version
      · simp [hv]
      · simp [hv]
    · refine (hs.versions ws).congr fun v => ?_
      rw [hrows, if_neg fun h => hws h.1]
  · rw [hrows] at hrow'
    split_ifs at hrow' with hkey
    · obtain ⟨rfl, rfl⟩ := hkey
      cases hrow'
      exact ⟨rfl, rfl, AList.lookup_insert _⟩
    · obtain ⟨hws, hv, hentry⟩ := hs.rows ws v row' hrow'
      refine ⟨hws, hv, ?_⟩
      have hne : ParameterKey.effective ws row'.effectiveFrom ≠
          ParameterKey.effective row.workspaceId row.effectiveFrom := by
        intro heq
        obtain ⟨rfl, heq⟩ := ParameterKey.effective.inj heq
        rw [heq, hday] at hentry
        cases hentry
      rw [AList.lookup_insert_ne hne, AList.lookup_insert_ne (by simp), hentry]

/-- Whatever a call has read below the rows it is committed to, it adds the next version or
nothing. -/
theorem createParameterVersion_preserves (c : ParameterCall) :
    PreservesSeen ParametersOk Extends (createParameterVersion c) := by
  intro log a s hsees hlog hs
  unfold createParameterVersion at hsees
  rw [ite_not] at hsees
  split_ifs at hsees
  swap
  · exact hsees.not_throw.elim
  split at hsees
  · exact hsees.not_throw.elim
  obtain ⟨r, -, hfirst⟩ := hsees.of_read
  split_ifs at hfirst
  · exact hfirst.not_throw.elim
  obtain ⟨t, ⟨ht, hle⟩, hsecond⟩ := hfirst.of_read
  rw [view_nil] at hsecond
  split at hsecond
  · exact hsecond.not_throw.elim
  rename_i row hvalues
  obtain ⟨hws, hversion, -⟩ := parameterValues_eq_ok hvalues
  obtain ⟨before, after, rest, hu, rfl, hentry⟩ := hsecond.of_write
  obtain ⟨rfl, hafter⟩ := insertNew_eq_ok (liftDb_eq_ok hu)
  obtain ⟨before', after', rest', hu', rfl, hdone⟩ := hentry.of_write
  obtain ⟨rfl, hafter'⟩ := insertNew_eq_ok (liftDb_eq_ok hu')
  obtain ⟨rfl, -⟩ := hdone.of_pure
  obtain rfl := hafter.symm
  obtain rfl := hafter'.symm
  obtain ⟨hnew, hday, -⟩ := hlog
  have hday' := (AList.lookup_insert_ne (by simp)).symm.trans hday
  refine ⟨hs.insert ht hle (by rw [hversion, hws]) hnew hday', ?_⟩
  exact IsTrans.trans _ _ _ (extends_insert _ hnew) (extends_insert _ hday)

/-! ### Resolution -/

/-- The row of a workspace with the greatest effective date not after a day. -/
structure LatestAt (s : ParameterDb) (ws : ℕ) (start : ℤ) (row : ParameterRow) : Prop where
  mem : row ∈ parametersIn s ws
  begun : row.effectiveFrom ≤ start
  greatest : ∀ other ∈ parametersIn s ws, other.effectiveFrom ≤ start →
    other.effectiveFrom ≤ row.effectiveFrom

theorem LatestAt.unique (hs : ParametersOk s) {start : ℤ} {row' : ParameterRow}
    (h : LatestAt s ws start row) (h' : LatestAt s ws start row') : row = row' := by
  have hle := h'.greatest row h.mem h.begun
  have hge := h.greatest row' h'.mem h'.begun
  exact hs.eq_of_effective h.mem h'.mem (le_antisymm hle hge)

section Resolution

variable (b : Books)

theorem withParameters_filter (start : ℤ) :
    ((b.withParameters s).parameterSets.filter fun p =>
      p.workspaceId = ws ∧ p.effectiveFrom ≤ start) =
    ((parametersIn s ws).filter fun row => row.effectiveFrom ≤ start).map
      ParameterRow.toParameterSetRow := by
  rw [Books.withParameters, List.filter_map, parametersIn, List.filter_filter]
  congr 1
  apply List.filter_congr
  intro row _
  simp [Bool.and_comm]

theorem latestAt_of_parameterSetAt {start : ℤ} {p : ParameterSetRow}
    (h : (b.withParameters s).parameterSetAt ws start = some p) :
    ∃ row, LatestAt s ws start row ∧ row.toParameterSetRow = p := by
  unfold Books.parameterSetAt at h
  rw [withParameters_filter] at h
  obtain ⟨row, hrow, hp⟩ := List.mem_map.1 (List.argmax_mem (Option.mem_def.2 h))
  obtain ⟨hmem, hbegun⟩ := List.mem_filter.1 hrow
  refine ⟨row, ⟨hmem, of_decide_eq_true hbegun, fun other hother hle => ?_⟩, hp⟩
  have hcand : other.toParameterSetRow ∈ ((parametersIn s ws).filter fun row =>
      row.effectiveFrom ≤ start).map ParameterRow.toParameterSetRow :=
    List.mem_map_of_mem (List.mem_filter.2 ⟨hother, decide_eq_true hle⟩)
  have hmax := @List.le_of_mem_argmax _ _ parameterSetOrder _ _ _ _ hcand (Option.mem_def.2 h)
  subst hp
  rcases Prod.Lex.toLex_le_toLex.1 hmax with hlt | ⟨heq, -⟩
  · exact hlt.le
  · exact heq.le

theorem parameterSetAt_eq_none {start : ℤ} :
    (b.withParameters s).parameterSetAt ws start = none ↔
      ∀ row ∈ parametersIn s ws, start < row.effectiveFrom := by
  unfold Books.parameterSetAt
  rw [withParameters_filter, List.argmax_eq_none, List.map_eq_nil_iff, List.filter_eq_nil_iff]
  simp only [decide_eq_true_eq, not_le]

theorem parameterSetAt_of_latestAt (hs : ParametersOk s) {start : ℤ}
    (h : LatestAt s ws start row) :
    (b.withParameters s).parameterSetAt ws start = some row.toParameterSetRow := by
  cases hp : (b.withParameters s).parameterSetAt ws start with
  | none =>
    have hlater := (parameterSetAt_eq_none b).1 hp row h.mem
    exact absurd h.begun (not_le.2 hlater)
  | some p =>
    obtain ⟨row', hlatest, rfl⟩ := latestAt_of_parameterSetAt b hp
    rw [h.unique hs hlatest]

theorem exists_latestAt {start : ℤ} (h : ∃ row ∈ parametersIn s ws, row.effectiveFrom ≤ start) :
    ∃ row, LatestAt s ws start row := by
  cases hp : noEvidence.books.withParameters s |>.parameterSetAt ws start with
  | none =>
    obtain ⟨row, hrow, hle⟩ := h
    exact absurd hle (not_le.2 ((parameterSetAt_eq_none _).1 hp row hrow))
  | some p =>
    obtain ⟨row, hlatest, -⟩ := latestAt_of_parameterSetAt _ hp
    exact ⟨row, hlatest⟩

end Resolution

/-- What a period resolves to: the one latest row at its first day, or nothing. -/
inductive ResolvedAt (s : ParameterDb) (ws : ℕ) (start : ℤ) : Option ℕ × Dict → Prop
  | latest {row : ParameterRow} (h : LatestAt s ws start row)
      (unique : ∀ other, LatestAt s ws start other → other = row) :
      ResolvedAt s ws start (some row.version, row.payload)
  | nothing (h : ∀ row ∈ parametersIn s ws, start < row.effectiveFrom) :
      ResolvedAt s ws start (none, [])

theorem resolvedAt_resolve (hs : ParametersOk s) (b : Books) (ws : ℕ) (start : ℤ) :
    ResolvedAt s ws start ((b.withParameters s).resolveParameterVersion ws start) := by
  unfold Books.resolveParameterVersion
  split
  next p hp =>
    obtain ⟨row, hlatest, rfl⟩ := latestAt_of_parameterSetAt b hp
    exact .latest hlatest fun other hother => hother.unique hs hlatest
  next hp => exact .nothing ((parameterSetAt_eq_none b).1 hp)

/-- Rows that take effect later leave the resolution alone. -/
theorem resolve_of_later (hs : ParametersOk s) (ht : ParametersOk t) (hle : Extends s t) (b : Books)
    {start : ℤ} (hlater : ∀ row ∈ parametersIn t ws, row ∉ parametersIn s ws →
      start < row.effectiveFrom) :
    (b.withParameters t).resolveParameterVersion ws start =
      (b.withParameters s).resolveParameterVersion ws start := by
  have hkept : ∀ row ∈ parametersIn s ws, row ∈ parametersIn t ws := by
    intro row hrow
    rw [mem_parametersIn hs] at hrow
    exact (mem_parametersIn ht).2 (hle _ _ hrow)
  have hold : ∀ row ∈ parametersIn t ws, row.effectiveFrom ≤ start → row ∈ parametersIn s ws := by
    intro row hrow hbegun
    by_contra hnew
    exact absurd hbegun (not_le.2 (hlater row hrow hnew))
  have hsame : (b.withParameters t).parameterSetAt ws start =
      (b.withParameters s).parameterSetAt ws start := by
    cases hp : (b.withParameters s).parameterSetAt ws start with
    | none =>
      rw [parameterSetAt_eq_none] at hp ⊢
      intro row hrow
      by_contra hbegun
      rw [not_lt] at hbegun
      exact absurd hbegun (not_le.2 (hp row (hold row hrow hbegun)))
    | some p =>
      obtain ⟨row, hlatest, rfl⟩ := latestAt_of_parameterSetAt b hp
      apply parameterSetAt_of_latestAt b ht
      exact ⟨hkept row hlatest.mem, hlatest.begun, fun other hother hbegun =>
        hlatest.greatest other (hold other hother hbegun) hbegun⟩
  simp only [Books.resolveParameterVersion, hsame]

/-! ### Every interleaving -/

/-- What the parameter sets are at some moment, and how they stand to those of a later one. -/
structure ParametersStable (s t : ParameterDb) : Prop where
  versions : ∀ ws, ∃ n, ((parametersIn s ws).map fun row => row.version).Perm (List.range' 1 n)
  distinct : ∀ ws, ((parametersIn s ws).map fun row => row.effectiveFrom).Nodup
  kept : ∀ ws, ∀ row ∈ parametersIn s ws, row ∈ parametersIn t ws
  resolves : ∀ (b : Books) (ws : ℕ) (period : PyStr) (bounds : ℤ × ℤ),
    periodBounds period = .ok bounds →
    ResolvedAt s ws bounds.1 ((b.withParameters s).resolveParameterVersion ws bounds.1) ∧
      (b.withParameters s).paramFor ws bounds.1 =
        (b.withParameters s).resolveParameterVersion ws bounds.1
  later : ∀ (b : Books) (ws : ℕ) (period : PyStr) (bounds : ℤ × ℤ),
    periodBounds period = .ok bounds →
    (∀ row ∈ parametersIn t ws, row ∉ parametersIn s ws → bounds.1 < row.effectiveFrom) →
    (b.withParameters t).resolveParameterVersion ws bounds.1 =
      (b.withParameters s).resolveParameterVersion ws bounds.1
  monotone : ∀ (b : Books) (ws : ℕ) (period period' : PyStr) (bounds bounds' : ℤ × ℤ),
    periodBounds period = .ok bounds → periodBounds period' = .ok bounds' →
    bounds.1 ≤ bounds'.1 → ∀ p, (b.withParameters s).parameterSetAt ws bounds.1 = some p →
      ∃ p', (b.withParameters s).parameterSetAt ws bounds'.1 = some p' ∧
        p.effectiveFrom ≤ p'.effectiveFrom

theorem nodup_versionsIn (hs : ParametersOk s) (ws : ℕ) :
    ((parametersIn s ws).map fun row => row.version).Nodup := by
  have hkeys : ((parameterRows s).map fun row =>
      ParameterKey.version row.workspaceId row.version).Nodup := by
    apply nodup_filterMap_keys
    rintro ⟨k, cell⟩ hx row hrow
    cases k with
    | version ws v =>
      cases hrow
      obtain ⟨hws, hv, -⟩ := hs.rows ws v row (AList.mem_lookup_iff.2 hx)
      rw [hws, hv]
    | effective ws day => cases hrow
  have hfiltered : ((parametersIn s ws).map fun row =>
      ParameterKey.version row.workspaceId row.version).Nodup :=
    hkeys.sublist (List.filter_sublist.map _)
  have hsame : ((parametersIn s ws).map fun row =>
      ParameterKey.version row.workspaceId row.version) =
        ((parametersIn s ws).map fun row => row.version).map (ParameterKey.version ws) := by
    rw [List.map_map]
    apply List.map_congr_left
    intro row hrow
    rw [Function.comp_apply, of_decide_eq_true (List.mem_filter.1 hrow).2]
  rw [hsame] at hfiltered
  exact hfiltered.of_map

theorem versionsIn_perm (hs : ParametersOk s) (ws : ℕ) :
    ∃ n, ((parametersIn s ws).map fun row => row.version).Perm (List.range' 1 n) := by
  obtain ⟨n, hn⟩ := hs.versions ws
  refine ⟨n, (List.perm_ext_iff_of_nodup (nodup_versionsIn hs ws) List.nodup_range').2 fun v => ?_⟩
  rw [List.mem_range'_1]
  constructor
  · intro hv
    have hbounds := (hn v).1 (isSome_version hs hv)
    omega
  · intro hv
    obtain ⟨row, hrow⟩ := Option.isSome_iff_exists.1 ((hn v).2 (by omega))
    obtain ⟨-, hversion, -⟩ := hs.rows ws v row hrow
    refine List.mem_map.2 ⟨row, (mem_parametersIn hs).2 ?_, hversion⟩
    rw [hversion, hrow]

/-- A later day is never before what an earlier one resolves to. -/
theorem parameterSetAt_mono (hs : ParametersOk s) (b : Books) {start start' : ℤ}
    (hle : start ≤ start') {p : ParameterSetRow}
    (hp : (b.withParameters s).parameterSetAt ws start = some p) :
    ∃ p', (b.withParameters s).parameterSetAt ws start' = some p' ∧
      p.effectiveFrom ≤ p'.effectiveFrom := by
  obtain ⟨row, hlatest, rfl⟩ := latestAt_of_parameterSetAt b hp
  have hbegun := hlatest.begun.trans hle
  obtain ⟨row', hlatest'⟩ := exists_latestAt ⟨row, hlatest.mem, hbegun⟩
  exact ⟨_, parameterSetAt_of_latestAt b hs hlatest', hlatest'.greatest row hlatest.mem hbegun⟩

theorem parametersStable_of_extends (hs : ParametersOk s) (ht : ParametersOk t)
    (hle : Extends s t) : ParametersStable s t where
  versions := versionsIn_perm hs
  distinct ws :=
    (List.nodup_map_iff_inj_on (nodup_versionsIn hs ws).of_map).2 fun _ hrow _ hrow' =>
      hs.eq_of_effective hrow hrow'
  kept _ _ hrow := (mem_parametersIn ht).2 (hle _ _ ((mem_parametersIn hs).1 hrow))
  resolves b ws _ bounds _ := ⟨resolvedAt_resolve hs b ws bounds.1, rfl⟩
  later b _ _ _ _ hlater := resolve_of_later hs ht hle b hlater
  monotone b _ _ _ _ _ _ _ hstart _ hp := parameterSetAt_mono hs b hstart hp

theorem parametersOk_empty : ParametersOk ∅ := by
  refine ⟨fun ws => ⟨0, fun v => ?_⟩, fun ws v row hrow => ?_⟩
  · simp only [AList.lookup_empty, Option.isSome_none, Bool.false_eq_true, false_iff]
    omega
  · rw [AList.lookup_empty] at hrow
    cases hrow

theorem all_createParameterVersions (calls : List ParameterCall) :
    (createParameterVersions calls).All (PreservesSeen ParametersOk Extends) := by
  induction calls with
  | nil => trivial
  | cons c calls ih => exact ⟨createParameterVersion_preserves c, fun _ => ih⟩

/-- Whatever calls run beside each other and wherever they are aborted: the versions of a
workspace are the first ones under distinct effective dates, no row changes, and every period
resolves to the one latest row at its first day, which rows from a later day on leave alone. -/
theorem parameters_stable {ι : Type} [DecidableEq ι] {faults : Failure → Prop}
    {w w' w'' : World ι ParameterCell Failure ParameterReply Unit} (hempty : w.committed = ∅)
    (hcalls : ∀ i, ∃ calls, w.stations i = .resting (createParameterVersions calls))
    (hr : Reachable faults w w') (hlater : Reachable faults w' w'') :
    ParametersStable w'.committed w''.committed := by
  have hidle : w.Idle (PreservesSeen ParametersOk Extends) := by
    intro i
    obtain ⟨calls, hi⟩ := hcalls i
    exact ⟨_, hi, all_createParameterVersions calls⟩
  have hstart : ParametersOk w.committed := by
    rw [hempty]
    exact parametersOk_empty
  obtain ⟨hseen, -⟩ := (hidle.worldSeen hstart).reachable hr
  obtain ⟨hseen', hextends⟩ := hseen.reachable hlater
  exact parametersStable_of_extends hseen.committed hseen'.committed hextends

/-! ### Two callers -/

def pricesFrom (effectiveFrom : String) : ParameterCall where
  workspaceId := 1
  roles := ["finance_params"]
  body := { effectiveFrom, payload := [] }
  date := dayOf2026

/-- One caller creates a version for July and then one for January, another one for July. -/
def parameterCallers : World Bool ParameterCell Failure ParameterReply Unit where
  committed := ∅
  sequence := 1
  stations
    | true => .resting (createParameterVersions [pricesFrom "2026-07-01", pricesFrom "2026-01-01"])
    | false => .resting (createParameterVersions [pricesFrom "2026-07-01"])

/-- The second caller has looked for July when the first one commits it, and fails. -/
theorem parameters_stable_callers : ∃ w', Reachable (fun _ => False) parameterCallers w' ∧
    (parametersIn w'.committed 1).map (fun row => (row.version, row.effectiveFrom)) =
      [(2, 739617), (1, 739798)] ∧
    ParametersStable w'.committed w'.committed := by
  let schedule := List.replicate 3 false ++ List.replicate 12 true ++ [false]
  have hfollowed : (parameterCallers.follow schedule).any fun w' =>
      (parametersIn w'.committed 1).map (fun row => (row.version, row.effectiveFrom)) =
        [(2, 739617), (1, 739798)] := by decide +kernel
  obtain ⟨w', hw', hrows⟩ := (Option.any_eq_true _ _).1 hfollowed
  simp only [decide_eq_true_eq] at hrows
  have hr : Reachable (fun _ => False) parameterCallers w' := World.reachable_of_follow hw'
  refine ⟨w', hr, hrows, parameters_stable rfl (fun i => ?_) hr .refl⟩
  cases i with
  | true => exact ⟨_, rfl⟩
  | false => exact ⟨_, rfl⟩

end TrueFigure.Server
