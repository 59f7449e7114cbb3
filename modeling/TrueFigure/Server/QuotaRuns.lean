import TrueFigure.Library.Runs
import TrueFigure.Python.JsonRoundTrip
import TrueFigure.Server.ImportEnding
import TrueFigure.Server.Quota

/-!
# The plan quota over runs

`check_quota` looks once, before the first event of a batch, at the events that
occurred in the current month, and imports do not look at all. The quota is kept
by runs in which every call stays within one month, brings events of that month
only, and no more of them than the quota leaves.
-/
namespace TrueFigure.Server

open TrueFigure.Library TrueFigure.Python

/-- A call of one of the lanes. -/
inductive LaneCall
  | batch (req : LaneRequest)
  | importJob (clock : ℕ → ℕ) (importRef : PyStr)

/-- The server with the events it has accepted, each by its workspace and the month it
arrived in. -/
structure MeteredWorld extends LaneWorld where
  arrivals : List (ℕ × ℤ)

section Calls

variable (monthOf : ℤ → ℤ) (env : Env)

/-- The events stored, by the month of the clock they were checked at. -/
def arrivalsOf (workspaceId : ℕ) (settled : List (Submission × Settled)) : List (ℕ × ℤ) :=
  settled.filterMap fun x =>
    if x.2.persisted.isEvent then some (workspaceId, monthAt monthOf x.1.now) else none

def batchArrivals (w : LaneWorld) (req : LaneRequest) : List (ℕ × ℤ) :=
  match (passGates monthOf jsonLoads w req).1 with
  | .error _ => []
  | .ok events =>
    let subs := submissionsFrom req.clock 0 events
    arrivalsOf monthOf req.principal.workspaceId
      (subs.zip (settleAll env (req.intake w.toImportWorld) w.rows subs).1)

def uploadedLines (w : ImportWorld) (importRef : PyStr) : List (ℕ × PyStr) :=
  match (w.job? importRef).bind fun job => w.get uploadBucket job.uploadPath with
  | none => []
  | some data =>
    match utf8Decode data with
    | .error _ => []
    | .ok raw => numberedLines raw

def importArrivals (w : ImportWorld) (clock : ℕ → ℕ) (importRef : PyStr) : List (ℕ × ℤ) :=
  match w.job? importRef with
  | none => []
  | some job =>
    (lineOutcomes jsonLoads env (w.intake job) clock w.rows (uploadedLines w importRef)).1.filterMap
      fun o => if o.2.stores then some (job.workspaceId, monthAt monthOf (clock o.1)) else none

/-- The server after a call. -/
def MeteredWorld.take (w : MeteredWorld) : LaneCall → MeteredWorld
  | .batch req =>
    { toLaneWorld := (ingestRequest monthOf jsonLoads env req w.toLaneWorld).2
      arrivals := w.arrivals ++ batchArrivals monthOf env w.toLaneWorld req }
  | .importJob clock importRef =>
    { toImportWorld := (runImportJob jsonLoads env clock importRef w.toImportWorld).2
      windowHits := w.windowHits
      arrivals := w.arrivals ++ importArrivals monthOf env w.toImportWorld clock importRef }

/-- No month has more arrivals than the plan of its workspace allows. -/
def QuotaKept (w : MeteredWorld) : Prop :=
  ∀ id row month, w.workspace? id = some row → w.arrivals.count (id, month) ≤ planQuota row.planType

/-- The event, where it has an instant, occurred in this month. -/
def OccurredIn (month : ℤ) : Json → Prop
  | .obj event => ∀ millis, canonicalMillis env.rt
      ((payloadOf event).getD (py "timestamp") .null) = .ok millis → monthOf millis = month
  | _ => True

/-- The call brings events of the month it falls into, and no more than the quota
leaves; where nothing is left, `check_quota` keeps a batch out. -/
def FitsQuota (w : MeteredWorld) : LaneCall → Prop
  | .batch req => ∀ events row, batchEvents jsonLoads req.body = .ok events →
      w.workspace? req.principal.workspaceId = some row →
        let month := monthAt monthOf req.now
        let used := usedIn monthOf w.rows.1 req.principal.workspaceId month
        (∀ sub ∈ submissionsFrom req.clock 0 events,
            monthAt monthOf sub.now = month ∧ OccurredIn monthOf env month sub.event) ∧
          (used < planQuota row.planType → used + events.length ≤ planQuota row.planType)
  | .importJob clock importRef => ∀ job row, w.job? importRef = some job →
      w.workspace? job.workspaceId = some row →
        let lines := (uploadedLines w.toImportWorld importRef).filter fun l => !blank l.2
        ∃ month, (∀ l ∈ lines, monthAt monthOf (clock l.1) = month ∧
            ∀ event, jsonLoads l.2 = .ok event → OccurredIn monthOf env month event) ∧
          usedIn monthOf w.rows.1 job.workspaceId month + lines.length ≤ planQuota row.planType

/-- A call that fits. -/
def FittingStep (w : MeteredWorld) (call : LaneCall) (w' : MeteredWorld) : Prop :=
  w' = w.take monthOf env call ∧ FitsQuota monthOf env w call

end Calls

theorem arrivalsOf_cons (monthOf : ℤ → ℤ) (ws : ℕ) (sub : Submission) (x : Settled)
    (settled : List (Submission × Settled)) :
    arrivalsOf monthOf ws ((sub, x) :: settled) =
      (if x.persisted.isEvent then [(ws, monthAt monthOf sub.now)] else []) ++
        arrivalsOf monthOf ws settled := by
  unfold arrivalsOf
  rw [List.filterMap_cons]
  cases x.persisted.isEvent <;> rfl

/-! ### Chains of events -/

/-- One event after the other, each at the rows its predecessors left. -/
inductive Settles (env : Env) (intake : Intake) :
    Db × ℕ → List Submission → List Settled → Db × ℕ → Prop
  | nil (st : Db × ℕ) : Settles env intake st [] [] st
  | cons {st st' : Db × ℕ} {sub : Submission} {x : Settled} {subs : List Submission}
      {xs : List Settled} (h : settle env intake st.1 sub = .ok x)
      (hrest : Settles env intake (x.persisted.apply intake.principal.workspaceId st) subs xs st') :
      Settles env intake st (sub :: subs) (x :: xs) st'

variable {loads : Decoder} {monthOf : ℤ → ℤ} {env : Env} {intake : Intake} {clock : ℕ → ℕ} {st st' : Db × ℕ}
  {subs : List Submission} {xs : List Settled}

/-- A batch settles its events up to the first that raises. -/
theorem settleAll_settles (st : Db × ℕ) (subs : List Submission) :
    ∃ done, done <+: subs ∧
      Settles env intake st done (settleAll env intake st subs).1
        (persistAll intake.principal.workspaceId (settleAll env intake st subs).1 st) ∧
      subs.zip (settleAll env intake st subs).1 = done.zip (settleAll env intake st subs).1 := by
  induction subs generalizing st with
  | nil => exact ⟨[], List.prefix_rfl, .nil st, rfl⟩
  | cons sub subs ih =>
    rw [settleAll]
    cases hsettle : settle env intake st.1 sub with
    | error e => exact ⟨[], List.nil_prefix, .nil st, rfl⟩
    | ok x =>
      obtain ⟨done, hdone, hchain, hzip⟩ :=
        ih (x.persisted.apply intake.principal.workspaceId st)
      refine ⟨sub :: done, (List.prefix_cons_inj sub).2 hdone, .cons hsettle hchain, ?_⟩
      rw [List.zip_cons_cons, List.zip_cons_cons, hzip]

/-- An import settles the events of its lines up to the first that raises. -/
theorem lineOutcomes_settles (monthOf : ℤ → ℤ) (st : Db × ℕ) (lines : List (ℕ × PyStr)) :
    ∃ subs xs, Settles env intake st subs xs (persistLines intake.principal.workspaceId
        (lineOutcomes loads env intake clock st lines).1 st) ∧
      (∀ sub ∈ subs, ∃ l ∈ lines.filter fun l => !blank l.2,
        loads l.2 = .ok sub.event ∧ sub.now = clock l.1) ∧
      subs.length ≤ (lines.filter fun l => !blank l.2).length ∧
      ((lineOutcomes loads env intake clock st lines).1.filterMap fun o =>
        if o.2.stores then some (intake.principal.workspaceId, monthAt monthOf (clock o.1)) else none) =
        arrivalsOf monthOf intake.principal.workspaceId (subs.zip xs) := by
  induction lines generalizing st with
  | nil => exact ⟨[], [], .nil st, fun sub hsub => absurd hsub List.not_mem_nil, le_rfl, rfl⟩
  | cons numbered lines ih =>
    obtain ⟨lineNo, line⟩ := numbered
    rw [lineOutcomes, List.filter_cons]
    cases hblank : blank line with
    | true => exact ih st
    | false =>
      simp only [Bool.false_eq_true, if_false, Bool.not_false, if_true, List.length_cons]
      cases hloads : loads line with
      | error e =>
        cases e with
        | decode =>
          obtain ⟨subs, xs, hchain, hsubs, hlen, harrivals⟩ := ih st
          refine ⟨subs, xs, hchain, fun sub hsub => ?_, hlen.trans (Nat.le_succ _), harrivals⟩
          obtain ⟨l, hl, hevent⟩ := hsubs sub hsub
          exact ⟨l, List.mem_cons_of_mem _ hl, hevent⟩
        | digits =>
          exact ⟨[], [], .nil st, fun sub hsub => absurd hsub List.not_mem_nil, Nat.zero_le _, rfl⟩
        | recursion =>
          exact ⟨[], [], .nil st, fun sub hsub => absurd hsub List.not_mem_nil, Nat.zero_le _, rfl⟩
      | ok event =>
        cases hsettle : settle env intake st.1 ⟨event, clock lineNo⟩ with
        | error e =>
          simp only [hsettle]
          exact ⟨[], [], .nil st, fun sub hsub => absurd hsub List.not_mem_nil, Nat.zero_le _, rfl⟩
        | ok x =>
          simp only [hsettle]
          obtain ⟨subs, xs, hchain, hsubs, hlen, harrivals⟩ :=
            ih (x.persisted.apply intake.principal.workspaceId st)
          refine ⟨⟨event, clock lineNo⟩ :: subs, x :: xs, .cons hsettle hchain,
            List.forall_mem_cons.2 ⟨⟨_, List.mem_cons_self, hloads, rfl⟩, fun sub hsub => ?_⟩,
            Nat.succ_le_succ hlen, ?_⟩
          · obtain ⟨l, hl, hevent⟩ := hsubs sub hsub
            exact ⟨l, List.mem_cons_of_mem _ hl, hevent⟩
          · rw [List.filterMap_cons, harrivals, List.zip_cons_cons, arrivalsOf_cons]
            have hstores : (LineOutcome.settled x).stores = x.persisted.isEvent := rfl
            simp only [hstores]
            cases x.persisted.isEvent <;> rfl

/-! ### What an event adds -/

theorem usedIn_insert {k : RowKey} {row : Row k} {s : Db} {id : ℕ} {month : ℤ}
    (hk : ∀ row, stampedIn monthOf id month ⟨k, row⟩ = 0) :
    usedIn monthOf (s.insert k row) id month = usedIn monthOf s id month :=
  tally_insert_same _ (fun old _ => hk old) (hk row)

/-- A stored event counts for its workspace and the month it occurred in. -/
theorem settle_used {sub : Submission} {x : Settled} {month : ℤ}
    (h : settle env intake st.1 sub = .ok x) (hmonth : OccurredIn monthOf env month sub.event)
    (id : ℕ) (month' : ℤ) :
    usedIn monthOf (x.persisted.apply intake.principal.workspaceId st).1 id month' =
      usedIn monthOf st.1 id month' + if x.persisted.isEvent = true ∧
        id = intake.principal.workspaceId ∧ month' = month then 1 else 0 := by
  cases settle_exit h with
  | echoed => simp [Persisted.apply, Persisted.isEvent]
  | duplicate => simp [Persisted.apply, Persisted.isEvent]
  | @stored adm dep key row hkeyed hmode hnew hrow =>
    obtain ⟨hevent, -, hts⟩ := examine_ok hkeyed.toDeployed.examined
    obtain ⟨millis, hmillis, hrender⟩ := checkTimestamp_ok hts
    have hoccurred : adm.occurredAt = millis := by
      rw [Admitted.occurredAt, hrender, strptime_render (canonicalMillis_lt hmillis)]
      rfl
    have hstamp : monthOf adm.occurredAt = month := by
      rw [hevent] at hmonth
      rw [hoccurred]
      exact hmonth millis hmillis
    have hlookup := lookup_event_of_not_hasEvent hnew adm.occurredAt
    simp only [Persisted.apply, usedIn]
    rw [tally_insert_new _ _ hlookup, add_comm]
    simp only [stampedIn, hstamp, Persisted.isEvent, true_and]
    congr 1
    simp only [eq_comm]
  | refused => simp [Persisted.apply, Persisted.isEvent]
  | quarantined =>
    simp only [Persisted.apply, Persisted.isEvent, Bool.false_eq_true, false_and, if_false,
      add_zero]
    exact usedIn_insert fun _ => rfl

theorem Persisted.used_other (p : Persisted) {id ws : ℕ} (hid : id ≠ ws) (month : ℤ) :
    usedIn monthOf (p.apply ws st).1 id month = usedIn monthOf st.1 id month := by
  cases p with
  | nothing => rfl
  | event key t row => exact usedIn_insert fun _ => if_neg fun h => hid h.1.symm
  | quarantine row => exact usedIn_insert fun _ => rfl

namespace Settles

theorem cast {st'' : Db × ℕ} (h : Settles env intake st subs xs st') (hst : st'' = st') :
    Settles env intake st subs xs st'' := hst ▸ h

theorem ahead (h : Settles env intake st subs xs st') (hseq : SequenceAhead st) :
    SequenceAhead st' := by
  induction h with
  | nil => exact hseq
  | cons _ _ ih => exact ih (hseq.apply _ _)

theorem used_other (h : Settles env intake st subs xs st') {id : ℕ}
    (hid : id ≠ intake.principal.workspaceId) (month : ℤ) :
    usedIn monthOf st'.1 id month = usedIn monthOf st.1 id month := by
  induction h with
  | nil => rfl
  | cons _ _ ih => rw [ih, Persisted.used_other _ hid]

theorem count_other {settled : List (Submission × Settled)} {id ws : ℕ} (hid : id ≠ ws)
    (month : ℤ) : (arrivalsOf monthOf ws settled).count (id, month) = 0 := by
  refine List.count_eq_zero.2 fun hmem => ?_
  obtain ⟨x, -, hx⟩ := List.mem_filterMap.1 hmem
  split_ifs at hx
  exact hid (congrArg Prod.fst (Option.some.inj hx)).symm

/-- Events of one month, checked in that month, count where they arrive. -/
theorem used (h : Settles env intake st subs xs st') {month : ℤ}
    (hmonth : ∀ sub ∈ subs, monthAt monthOf sub.now = month ∧
      OccurredIn monthOf env month sub.event) (month' : ℤ) :
    usedIn monthOf st'.1 intake.principal.workspaceId month' =
        usedIn monthOf st.1 intake.principal.workspaceId month' +
          (arrivalsOf monthOf intake.principal.workspaceId (subs.zip xs)).count
            (intake.principal.workspaceId, month') ∧
      (arrivalsOf monthOf intake.principal.workspaceId (subs.zip xs)).count
          (intake.principal.workspaceId, month') ≤ subs.length ∧
        (month' ≠ month → (arrivalsOf monthOf intake.principal.workspaceId (subs.zip xs)).count
          (intake.principal.workspaceId, month') = 0) := by
  induction h with
  | nil => exact ⟨rfl, le_rfl, fun _ => rfl⟩
  | @cons st st' sub x subs xs h hrest ih =>
    obtain ⟨⟨harrives, hoccurs⟩, hmonths⟩ := List.forall_mem_cons.1 hmonth
    obtain ⟨hused, hle, hzero⟩ := ih hmonths
    rw [hused, settle_used h hoccurs, List.zip_cons_cons, arrivalsOf_cons, List.count_append,
      List.length_cons, harrives]
    cases hevent : x.persisted.isEvent with
    | false =>
      simp only [Bool.false_eq_true, false_and, if_false, add_zero, List.count_nil, zero_add]
      exact ⟨trivial, hle.trans (Nat.le_succ _), hzero⟩
    | true =>
      simp only [true_and, if_true, List.count_singleton, beq_iff_eq, Prod.mk.injEq]
      refine ⟨?_, ?_, fun hm => ?_⟩
      · by_cases hm : month' = month
        · rw [if_pos hm, if_pos hm.symm, add_assoc]
        · rw [if_neg hm, if_neg (Ne.symm hm), add_zero, zero_add]
      · split_ifs <;> omega
      · rw [if_neg (Ne.symm hm), hzero hm]

end Settles

/-! ### Calls -/

section Calls

variable {w : LaneWorld} {req : LaneRequest} {events : List Json}

theorem checkRate_world (w : LaneWorld) (id rpm now : ℕ) :
    (checkRate w id rpm now).2.toImportWorld = w.toImportWorld := by
  unfold checkRate
  extract_lets key count counted
  split_ifs <;> rfl

theorem passGates_world (monthOf : ℤ → ℤ) (loads : Decoder) (w : LaneWorld) (req : LaneRequest) :
    (passGates monthOf loads w req).2.toImportWorld = w.toImportWorld := by
  have hworld := checkRate_world w req.principal.workspaceId
    (((w.workspace? req.principal.workspaceId).map WorkspaceRow.rateLimitRpm).getD 600) req.now
  unfold passGates
  split
  · rfl
  · dsimp only
    split
    · rename_i hrate
      rwa [hrate] at hworld
    · rename_i hrate
      rw [hrate] at hworld
      split <;> exact hworld

/-- A batch passes with room left for its month. -/
theorem passGates_ok (h : (passGates monthOf loads w req).1 = .ok events) :
    batchEvents loads req.body = .ok events ∧ ∀ row,
      w.workspace? req.principal.workspaceId = some row →
        usedIn monthOf w.rows.1 req.principal.workspaceId (monthAt monthOf req.now) <
          planQuota row.planType := by
  have hworld := checkRate_world w req.principal.workspaceId
    (((w.workspace? req.principal.workspaceId).map WorkspaceRow.rateLimitRpm).getD 600) req.now
  unfold passGates at h
  split at h
  · cases h
  · rename_i hevents
    dsimp only at h
    split at h
    · cases h
    · rename_i hrate
      rw [hrate] at hworld
      split at h
      · cases h
      · rename_i hquota
        obtain rfl := Except.ok.inj h
        refine ⟨hevents, fun row hrow => ?_⟩
        rename_i w' _ _
        change w'.toImportWorld = w.toImportWorld at hworld
        have hrow' : w'.workspace? req.principal.workspaceId = some row := by
          rw [hworld]
          exact hrow
        unfold checkQuota at hquota
        rw [hrow', hworld] at hquota
        dsimp only at hquota
        split_ifs at hquota with hfull
        exact Nat.lt_of_not_le hfull

theorem ingestRequest_rows (hseq : SequenceAhead w.rows) :
    (ingestRequest monthOf loads env req w).2.rows =
      match (passGates monthOf loads w req).1 with
      | .error _ => w.rows
      | .ok events => persistAll req.principal.workspaceId
          (settleAll env (req.intake w.toImportWorld) w.rows
            (submissionsFrom req.clock 0 events)).1 w.rows := by
  have hworld := passGates_world monthOf loads w req
  unfold ingestRequest
  split
  · rename_i hgates
    rw [hgates] at hworld
    rw [hgates]
    exact congrArg ImportWorld.rows hworld
  · rename_i hgates
    rw [hgates]
    simp only [run_ingestLoop hseq]
    rfl

theorem ingestRequest_outcome (hseq : SequenceAhead w.rows)
    (hgates : (passGates monthOf loads w req).1 = .ok events) :
    (ingestRequest monthOf loads env req w).1 =
      let r := settleAll env (req.intake w.toImportWorld) w.rows
        (submissionsFrom req.clock 0 events)
      requestOutcome (resultsFrom 0 r.1) r.2 := by
  unfold ingestRequest
  split
  · rename_i hgates'
    rw [hgates'] at hgates
    cases hgates
  · rename_i hgates'
    rw [hgates'] at hgates
    obtain rfl := Except.ok.inj hgates
    simp only [run_ingestLoop hseq]
    rfl

theorem ingestRequest_workspaces :
    (ingestRequest monthOf loads env req w).2.workspaces = w.workspaces := by
  have hworld := passGates_world monthOf loads w req
  unfold ingestRequest
  split
  all_goals
    rename_i hgates
    rw [hgates] at hworld
    have hworkspaces := congrArg ImportWorld.workspaces hworld
    exact hworkspaces

theorem finishImport_rows (w : ImportWorld) (job : ImportJobRow) (p : ImportProgress) :
    (finishImport w job p).2.rows = w.rows ∧ (finishImport w job p).2.workspaces = w.workspaces := by
  unfold finishImport
  extract_lets final
  split
  · exact ⟨rfl, rfl⟩
  · split <;> exact ⟨rfl, rfl⟩

theorem runImportJob_rows {w : ImportWorld} {importRef : PyStr} (hseq : SequenceAhead w.rows) :
    (runImportJob loads env clock importRef w).2.rows =
        (match w.job? importRef with
          | none => w.rows
          | some job => persistLines job.workspaceId (lineOutcomes loads env (w.intake job) clock w.rows
              (uploadedLines w importRef)).1 w.rows) ∧
      (runImportJob loads env clock importRef w).2.workspaces = w.workspaces := by
  unfold runImportJob uploadedLines
  cases hjob : w.job? importRef with
  | none => exact ⟨rfl, rfl⟩
  | some job =>
    simp only [Option.bind_some]
    cases hupload : w.get uploadBucket job.uploadPath with
    | none =>
      exact ⟨rfl, rfl⟩
    | some data =>
      cases hraw : utf8Decode data with
      | error e =>
        simp only [hraw]
        exact ⟨rfl, rfl⟩
      | ok raw =>
        simp only [hraw, importLines_eq hseq]
        cases (lineOutcomes loads env (w.intake job) clock w.rows (numberedLines raw)).2 with
        | some e => exact ⟨rfl, rfl⟩
        | none => exact finishImport_rows _ _ _

end Calls

/-! ### Runs -/

theorem MeteredWorld.workspace?_take {w : MeteredWorld} (hseq : SequenceAhead w.rows)
    (call : LaneCall) (id : ℕ) : (w.take monthOf env call).workspace? id = w.workspace? id := by
  have hworkspaces : (w.take monthOf env call).workspaces = w.workspaces := by
    cases call with
    | batch req => exact ingestRequest_workspaces
    | importJob clock importRef => exact (runImportJob_rows hseq).2
  rw [ImportWorld.workspace?, hworkspaces]
  rfl

/-- What has arrived in a month is what occurred in it, and within the plan. -/
structure Metered (monthOf : ℤ → ℤ) (w : MeteredWorld) : Prop where
  ahead : SequenceAhead w.rows
  counted : ∀ id row month, w.workspace? id = some row →
    w.arrivals.count (id, month) = usedIn monthOf w.rows.1 id month
  kept : ∀ id row month, w.workspace? id = some row →
    usedIn monthOf w.rows.1 id month ≤ planQuota row.planType

variable {w w' : MeteredWorld} {call : LaneCall}

/-- A chain of events that fits leaves the quota kept. -/
theorem Metered.of_chain (h : Metered monthOf w)
    (hworkspaces : w'.workspaces = w.workspaces)
    (hchain : Settles env intake w.rows subs xs w'.rows)
    (harrivals : w'.arrivals = w.arrivals ++
      arrivalsOf monthOf intake.principal.workspaceId (subs.zip xs))
    (hfits : ∀ row, w.workspace? intake.principal.workspaceId = some row → ∃ month,
      (∀ sub ∈ subs, monthAt monthOf sub.now = month ∧ OccurredIn monthOf env month sub.event) ∧
        usedIn monthOf w.rows.1 intake.principal.workspaceId month + subs.length ≤
          planQuota row.planType) :
    Metered monthOf w' := by
  have hworkspace : ∀ id, w'.workspace? id = w.workspace? id := fun id => by
    rw [ImportWorld.workspace?, hworkspaces]
    rfl
  refine ⟨hchain.ahead h.ahead, fun id row month hrow => ?_, fun id row month hrow => ?_⟩
  · rw [hworkspace] at hrow
    rw [harrivals, List.count_append, h.counted id row month hrow]
    by_cases hid : id = intake.principal.workspaceId
    · subst hid
      obtain ⟨m, hmonth, -⟩ := hfits row hrow
      exact (hchain.used hmonth month).1.symm
    · rw [Settles.count_other hid, hchain.used_other hid, add_zero]
  · rw [hworkspace] at hrow
    by_cases hid : id = intake.principal.workspaceId
    · subst hid
      obtain ⟨m, hmonth, hroom⟩ := hfits row hrow
      obtain ⟨hused, hle, hzero⟩ := hchain.used hmonth month
      rw [hused]
      by_cases hm : month = m
      · subst hm
        omega
      · rw [hzero hm, add_zero]
        exact h.kept _ row month hrow
    · rw [hchain.used_other hid]
      exact h.kept id row month hrow

theorem Metered.unmoved (h : Metered monthOf w) (hrows : w'.rows = w.rows)
    (hworkspaces : w'.workspaces = w.workspaces) (harrivals : w'.arrivals = w.arrivals) :
    Metered monthOf w' := by
  have hworkspace : ∀ id, w'.workspace? id = w.workspace? id := fun id => by
    rw [ImportWorld.workspace?, hworkspaces]
    rfl
  constructor
  · rw [hrows]
    exact h.ahead
  · intro id row month hrow
    rw [hworkspace] at hrow
    rw [hrows, harrivals]
    exact h.counted id row month hrow
  · intro id row month hrow
    rw [hworkspace] at hrow
    rw [hrows]
    exact h.kept id row month hrow

theorem length_submissionsFrom (clock : ℕ → ℕ) (start : ℕ) (events : List Json) :
    (submissionsFrom clock start events).length = events.length := by
  induction events generalizing start with
  | nil => rfl
  | cons event events ih => rw [submissionsFrom, List.length_cons, ih, List.length_cons]

/-- A call that fits keeps the count and the plan. -/
theorem Metered.step (h : Metered monthOf w) (hs : FittingStep monthOf env w call w') :
    Metered monthOf w' := by
  obtain ⟨rfl, hfits⟩ := hs
  cases call with
  | batch req =>
    have hrows := @ingestRequest_rows jsonLoads monthOf env w.toLaneWorld req h.ahead
    have hworkspaces : (w.take monthOf env (.batch req)).workspaces = w.workspaces :=
      ingestRequest_workspaces
    cases hgates : (passGates monthOf jsonLoads w.toLaneWorld req).1 with
    | error e =>
      rw [hgates] at hrows
      refine h.unmoved hrows hworkspaces ?_
      simp only [MeteredWorld.take, batchArrivals, hgates, List.append_nil]
    | ok events =>
      rw [hgates] at hrows
      obtain ⟨hevents, hroom⟩ := passGates_ok hgates
      obtain ⟨done, hdone, hchain, hzip⟩ := @settleAll_settles env
        (req.intake w.toImportWorld) w.rows (submissionsFrom req.clock 0 events)
      refine h.of_chain hworkspaces (hchain.cast hrows) ?_ fun row hrow => ?_
      · simp only [MeteredWorld.take, batchArrivals, hgates, hzip]
        rfl
      · obtain ⟨hmonths, hfill⟩ := hfits events row hevents hrow
        have hlength := hdone.length_le
        rw [length_submissionsFrom] at hlength
        exact ⟨_, fun sub hsub => hmonths sub (hdone.subset hsub),
          (Nat.add_le_add_left hlength _).trans (hfill (hroom row hrow))⟩
  | importJob clock importRef =>
    obtain ⟨hrows, hworkspaces⟩ := @runImportJob_rows jsonLoads env clock
      w.toImportWorld importRef h.ahead
    cases hjob : w.job? importRef with
    | none =>
      rw [hjob] at hrows
      refine h.unmoved hrows hworkspaces ?_
      simp only [MeteredWorld.take, importArrivals, hjob, List.append_nil]
    | some job =>
      rw [hjob] at hrows
      obtain ⟨subs, xs, hchain, hsubs, hlength, harrivals⟩ := @lineOutcomes_settles
        jsonLoads env (w.intake job) clock monthOf w.rows
        (uploadedLines w.toImportWorld importRef)
      refine h.of_chain hworkspaces (hchain.cast hrows) ?_ fun row hrow => ?_
      · simp only [MeteredWorld.take, importArrivals, hjob]
        exact congrArg _ harrivals
      · obtain ⟨month, hmonths, hroom⟩ := hfits job row hjob hrow
        refine ⟨month, fun sub hsub => ?_, (Nat.add_le_add_left hlength _).trans hroom⟩
        obtain ⟨l, hl, hloads, hclock⟩ := hsubs sub hsub
        obtain ⟨hmonth, hoccurs⟩ := hmonths l hl
        rw [hclock]
        exact ⟨hmonth, hoccurs _ hloads⟩

/-- Before the first event. -/
structure Fresh (monthOf : ℤ → ℤ) (w : MeteredWorld) : Prop where
  ahead : SequenceAhead w.rows
  unstored : ∀ id month, usedIn monthOf w.rows.1 id month = 0
  arrivals : w.arrivals = []

theorem Fresh.metered (h : Fresh monthOf w) : Metered monthOf w := by
  refine ⟨h.ahead, fun id row month _ => ?_, fun id row month _ => ?_⟩
  · rw [h.arrivals, h.unstored, List.count_nil]
  · rw [h.unstored]
    exact Nat.zero_le _

theorem Metered.quotaKept (h : Metered monthOf w) : QuotaKept w := by
  intro id row month hrow
  rw [h.counted id row month hrow]
  exact h.kept id row month hrow

theorem Metered.full (h : Metered monthOf w) (hs : FittingStep monthOf env w call w') {id : ℕ}
    {row : WorkspaceRow} {month : ℤ} (hrow : w.workspace? id = some row)
    (hfull : planQuota row.planType ≤ w.arrivals.count (id, month)) :
    w'.arrivals.count (id, month) = w.arrivals.count (id, month) := by
  have hw' := h.step hs
  obtain ⟨rfl, -⟩ := hs
  have hrow' : (w.take monthOf env call).workspace? id = some row := by
    rw [MeteredWorld.workspace?_take h.ahead]
    exact hrow
  refine le_antisymm ((hw'.quotaKept id row month hrow').trans hfull) ?_
  cases call <;> exact List.Sublist.count_le _ (List.sublist_append_left _ _)

/-- Every state of the run keeps the quota, and no call of it accepts an event in a
month that is full. -/
def QuotaHolds (monthOf : ℤ → ℤ) (env : Env) (trace : List (MeteredWorld × LaneCall))
    (w' : MeteredWorld) : Prop :=
  (QuotaKept w' ∧ ∀ x ∈ trace, QuotaKept x.1) ∧ ∀ x ∈ trace, ∀ id row month,
    x.1.workspace? id = some row → planQuota row.planType ≤ x.1.arrivals.count (id, month) →
      (x.1.take monthOf env x.2).arrivals.count (id, month) = x.1.arrivals.count (id, month)

def utcMonth (millis : ℤ) : ℤ :=
  let date := ofOrdinal ((millis / 86400000).toNat + 1)
  12 * date.1 + date.2.1

/-- Nothing stored, and one upload of these lines waiting. -/
def freshImport (lines : List PyStr) : MeteredWorld where
  toImportWorld := oneImport .active (joinLines lines)
  windowHits := []
  arrivals := []

theorem fresh_freshImport (lines : List PyStr) : Fresh utcMonth (freshImport lines) where
  ahead := sequenceAhead_oneImport _ _
  unstored _ _ := rfl
  arrivals := rfl

theorem uploadedLines_oneImport {s : PyStr} (h : utf8Encodable s = true) :
    uploadedLines (oneImport .active s) (py "imp_1") = numberedLines s := by
  have hdecode := utf8Decode_uploadOf h
  unfold uploadedLines
  rw [show ((oneImport .active s).job? (py "imp_1")).bind (fun job =>
    (oneImport .active s).get uploadBucket job.uploadPath) = some (uploadOf s) from rfl]
  simp only [hdecode]

/-- A request body of these events. -/
def batchBody (events : List Json) : ByteArray :=
  uploadOf (jsonDumps asciiRuntime (.obj [(py "events", .arr events)]))

theorem batchEvents_batchBody {events : List Json} (hevents : ∀ e ∈ events, Writable asciiRuntime e)
    (hsize : 0 < (batchBody events).size ∧ (batchBody events).size ≤ maxBodyBytes)
    (hlength : events.length ≤ maxBatch) : batchEvents jsonLoads (batchBody events) = .ok events := by
  have hbody : Writable asciiRuntime (.obj [(py "events", .arr events)]) :=
    .obj (List.nodup_singleton _) (List.forall_mem_singleton.2 rfl)
      (List.forall_mem_singleton.2 (.arr hevents))
  have htext : utf8Decode (batchBody events) =
      .ok (jsonDumps asciiRuntime (.obj [(py "events", .arr events)])) :=
    utf8Decode_uploadOf (hbody.utf8Encodable asciiRuntime_sound)
  unfold batchEvents
  rw [if_neg (by omega), if_neg (by omega), htext]
  have hfield : Dict.getD (Json.obj [(py "events", .arr events)]).dictOrEmpty (py "events") .null =
      .arr events := by
    simp [Json.dictOrEmpty, Dict.getD, Dict.get?]
  simp only [Except.mapError, bind, Except.bind, jsonLoads_jsonDumps hbody, hfield]
  exact if_neg (Nat.not_lt.2 hlength)

/-- The event, where its timestamp can be read, is of the month of the request. -/
def inSampleMonth : Json → Bool
  | .obj event =>
    match canonicalMillis sampleEnv.rt ((payloadOf event).getD (py "timestamp") .null) with
    | .ok millis => utcMonth millis = utcMonth ((sampleNow / 1000 : ℕ) : ℤ)
    | .error _ => true
  | _ => true

/-- So is the event of a line. -/
def lineInSampleMonth (line : PyStr) : Bool :=
  match jsonLoads line with
  | .ok event => inSampleMonth event
  | .error _ => true

/-- Digests are 32 hex digits. -/
def checksum (raw : PyStr) : PyStr := hexPad 32 (raw.foldl (fun sum c => sum * 257 + c.val) 0)

/-- The sample outside with digests that tell the events below apart. -/
def checksumEnv : Env :=
  { sampleEnv with
    digest := checksum
    digest_encodable := fun _ => utf8Encodable_hexPad _ _ }

theorem occurredIn_sampleMonth {e : Json} (h : inSampleMonth e = true) :
    OccurredIn utcMonth checksumEnv (utcMonth ((sampleNow / 1000 : ℕ) : ℤ)) e := by
  cases e with
  | obj event =>
    intro millis hmillis
    have hread : canonicalMillis sampleEnv.rt ((payloadOf event).getD (py "timestamp") .null) =
        .ok millis := hmillis
    rw [inSampleMonth, hread] at h
    exact of_decide_eq_true h
  | _ => trivial

/-- A reading at the second `n` of a minute. -/
def readingAt (n : ℕ) : Json :=
  .obj [(py "schema_version", .str (py "1.0")), (py "deployment_id", .str (py "d")),
    (py "event_type", .str (py "cost_meter")), (py "origin", .str (py "vendor_product")),
    (py "payload", .obj [(py "meter", .str (py "tokens_in")), (py "quantity", .num (.int 3)),
      (py "timestamp", .str (py "2026-01-02T03:55:" ++ pad 2 n ++ py "Z"))])]

/-- The lines of the first `n` readings. -/
def readingLines (n : ℕ) : List PyStr :=
  (List.range n).map fun i => jsonDumps asciiRuntime (readingAt i)

/-- The upload of `freshImport`, run. -/
def readingsCall : LaneCall := .importJob (fun _ => sampleNow) (py "imp_1")

/-- A request with the reading at the second 20. -/
def readingPost : LaneRequest where
  principal := ⟨1, .production, .workspace, []⟩
  sourceRef := []
  now := sampleNow
  clock _ := sampleNow
  body := batchBody [readingAt 20]
  sourceRef_ok := textOk_nil

/-- A reading of the tokens can be written where its number and its time can. -/
theorem writable_tokens {n : ℤ} {timestamp : PyStr} (hnumber : ReadsBack asciiRuntime (.int n))
    (htimestamp : unpaired timestamp = true) : Writable asciiRuntime (.obj
      [(py "schema_version", .str (py "1.0")), (py "deployment_id", .str (py "d")),
        (py "event_type", .str (py "cost_meter")), (py "origin", .str (py "vendor_product")),
        (py "payload", .obj [(py "meter", .str (py "tokens_in")), (py "quantity", .num (.int n)),
          (py "timestamp", .str timestamp)])]) := by
  have hkeys : [py "schema_version", py "deployment_id", py "event_type", py "origin",
      py "payload"].Nodup := by decide
  have hpayloadKeys : [py "meter", py "quantity", py "timestamp"].Nodup := by decide
  refine .obj hkeys ?_ ?_
  · simp only [List.forall_mem_cons]
    decide
  · simp only [List.forall_mem_cons]
    refine ⟨.str (by decide), .str (by decide), .str (by decide), .str (by decide),
      .obj hpayloadKeys ?_ ?_, fun f hf => absurd hf List.not_mem_nil⟩
    · simp only [List.forall_mem_cons]
      decide
    · simp only [List.forall_mem_cons]
      exact ⟨.str (by decide), .num hnumber, .str htimestamp,
        fun f hf => absurd hf List.not_mem_nil⟩

theorem writable_readingAt : Writable asciiRuntime (readingAt 20) :=
  writable_tokens (by unfold ReadsBack; decide) (by decide +kernel)

theorem batchEvents_readingPost : batchEvents jsonLoads readingPost.body = .ok [readingAt 20] := by
  have hsize : (batchBody [readingAt 20]).size = 204 := by decide +kernel
  simp only [readingPost]
  exact batchEvents_batchBody (List.forall_mem_singleton.2 writable_readingAt)
    (by rw [hsize]; decide) (by simp [maxBatch])

theorem fitsQuota_readingPost (w : MeteredWorld) :
    FitsQuota utcMonth checksumEnv w (.batch readingPost) := by
  intro events row hevents _
  obtain rfl : [readingAt 20] = events :=
    Except.ok.inj (batchEvents_readingPost.symm.trans hevents)
  refine ⟨fun sub hsub => ?_, fun hroom => hroom⟩
  obtain rfl := List.mem_singleton.1 hsub
  exact ⟨rfl, occurredIn_sampleMonth (by decide +kernel)⟩

theorem uploadedLines_readings {n : ℕ} (h : utf8Encodable (joinLines (readingLines n)) = true) :
    uploadedLines (freshImport (readingLines n)).toImportWorld (py "imp_1") =
      numberedLines (joinLines (readingLines n)) := uploadedLines_oneImport h

theorem arrivals_readings {n : ℕ} (h : utf8Encodable (joinLines (readingLines n)) = true) :
    ((freshImport (readingLines n)).take utcMonth checksumEnv readingsCall).arrivals =
      (lineOutcomes jsonLoads checksumEnv ((freshImport (readingLines n)).intake queuedJob)
        (fun _ => sampleNow) (freshImport (readingLines n)).rows
          (numberedLines (joinLines (readingLines n)))).1.filterMap
        fun o => if o.2.stores then some (1, utcMonth ((sampleNow / 1000 : ℕ) : ℤ)) else none := by
  rw [← uploadedLines_readings h]
  rfl

theorem fitsQuota_readings : FitsQuota utcMonth checksumEnv (freshImport (readingLines 20))
    readingsCall := by
  intro job row hjob hrow
  obtain rfl : queuedJob = job := Option.some.inj hjob
  obtain rfl : (⟨1, .free, 600, 400⟩ : WorkspaceRow) = row := Option.some.inj hrow
  have hmonth : (numberedLines (joinLines (readingLines 20))).all
      (fun l => lineInSampleMonth l.2) = true := by decide +kernel
  rw [uploadedLines_readings (by decide +kernel)]
  refine ⟨utcMonth ((sampleNow / 1000 : ℕ) : ℤ), fun l hl => ⟨rfl, fun event hloads => ?_⟩, ?_⟩
  · have hline := List.all_eq_true.1 hmonth l (List.mem_of_mem_filter hl)
    rw [lineInSampleMonth, hloads] at hline
    exact occurredIn_sampleMonth hline
  · decide +kernel

end TrueFigure.Server
