import TrueFigure.Server.Arrivals
import TrueFigure.Server.PipelineEvaluation

/-!
# The order of gauge readings

A worker overwrites `gauge_last` with whatever reading it folds. The column
holds the latest reading of its bucket as long as no reading is folded after a
later one; a reading that arrives late, or commits late, breaks it.
-/
namespace TrueFigure.Server

open TrueFigure.Library TrueFigure.Python

variable {conn : Connection} {dayOf : ℤ → ℤ} {P : Multiset LeftEvent} {s s' : Db}

/-- The row holds the reading of the latest of its events. -/
def LatestReading (g : Multiset LeftEvent) (row : MeterUsageRow) : Prop :=
  ∀ e rest, g = e ::ₘ rest → (∀ d ∈ rest, d.occurredAt < e.occurredAt) →
    row.gaugeLast = e.quantity

/-- Every gauge bucket holds its latest reading. -/
def GaugeOk (dayOf : ℤ → ℤ) (facts : Multiset LeftEvent) (s : Db) : Prop :=
  Grouped (meterGroup dayOf)
    (fun c => FoldOf fun g row => c.2.1.isGauge = true → LatestReading g row) facts (meterTable s)

/-- The log folds no gauge reading into a bucket that already holds a later one. -/
def InOrder (dayOf : ℤ → ℤ) (log : List (Change Row)) (s : Db) : Prop :=
  ∀ ws key t before (row : EventRow), (⟨.event ws key t, before, row⟩ : Change Row) ∈ log →
    row.pipelineStatus ≠ .accepted → ∀ c, meterGroup dayOf ⟨t, row⟩ = some c →
      c.2.1.isGauge = true → ∀ e ∈ leftEvents s, meterGroup dayOf e = some c → e.occurredAt ≤ t

theorem upsertGauge_eq_ok {e : LeftEvent} {before : Option MeterUsageRow} {after : MeterUsageRow}
    (hu : upsertGauge (e.row.payload.getD (py "quantity") (.num (.int 0))) before = .ok after) :
    after.gaugeLast = e.quantity := by
  simp only [upsertGauge, bind, Except.bind] at hu
  split at hu
  · cases hu
  rename_i reading hreading
  split at hu
  · cases hu
  rename_i checked hchecked
  have hquantity : e.quantity = checked := by
    rw [quantity_eq hreading, mapM_checkQuantity hchecked]
  cases before with
  | none =>
    cases hu
    exact hquantity.symm
  | some row =>
    cases hu
    exact hquantity.symm

/-- The reading folded last is the latest when none of its bucket is later. -/
theorem latestReading_upsert {meter : MeterType} (hmeter : meter.isGauge = true)
    {g : Multiset LeftEvent} {e : LeftEvent} {before : Option MeterUsageRow}
    {after : MeterUsageRow} (hlater : ∀ d ∈ g, d.occurredAt ≤ e.occurredAt)
    (hu : upsertMeter meter (e.row.payload.getD (py "quantity") (.num (.int 0))) before =
      .ok after) : LatestReading (e ::ₘ g) after := by
  rw [upsertMeter, if_pos hmeter] at hu
  intro d rest hsplit hlatest
  rcases Multiset.cons_eq_cons.1 hsplit with ⟨rfl, -⟩ | ⟨-, more, rfl, rfl⟩
  · exact upsertGauge_eq_ok hu
  · have hde := hlater d (Multiset.mem_cons_self d more)
    have hed := hlatest e (Multiset.mem_cons_self e more)
    omega

variable {ev : ClaimedEvent} {u : Option ℕ} {x : Option ExclusionReason} {w : Option ℕ}

theorem Effect.gaugeOk (h : Effect conn ev u x w s s')
    (hlater : ∀ c, meterGroup conn.dayOf (ev.settled u x w) = some c → c.2.1.isGauge = true →
      ∀ e ∈ P, meterGroup conn.dayOf e = some c → e.occurredAt ≤ ev.occurredAt)
    (hok : GaugeOk conn.dayOf P s) : GaugeOk conn.dayOf (ev.settled u x w ::ₘ P) s' := by
  intro c
  by_cases hc : meterGroup conn.dayOf (ev.settled u x w) = some c
  · obtain ⟨row, hrow, hu, -⟩ := h.meter c hc
    rw [hrow, Multiset.filter_cons_of_pos (p := fun e => meterGroup conn.dayOf e = some c) P hc]
    intro hgauge
    refine latestReading_upsert (e := ev.settled u x w) hgauge ?_ hu
    intro d hd
    obtain ⟨hd, hdc⟩ := Multiset.mem_filter.1 hd
    exact hlater c hc hgauge d hd hdc
  · rw [h.meterTable_eq hc, Multiset.filter_cons_of_neg (p := fun e => meterGroup conn.dayOf e = some c) P hc]
    exact hok c

/-- The guard, read off the event a transaction settles. -/
theorem InOrder.of_event {log : List (Change Row)} (h : InOrder conn.dayOf log s)
    (hevent : EventLog conn ev u x w log) (hlog : Consistent log s)
    (c : ℕ × MeterType × PyStr × ℤ) (hc : meterGroup conn.dayOf (ev.settled u x w) = some c)
    (hgauge : c.2.1.isGauge = true) (e : LeftEvent) (he : e ∈ leftEvents s)
    (hec : meterGroup conn.dayOf e = some c) : e.occurredAt ≤ ev.occurredAt := by
  obtain ⟨-, -, -, hmem⟩ := hevent.left hlog
  exact h _ _ _ _ _ hmem (settledStatus_ne_accepted x w) c hc hgauge e he hec

theorem processNext_preserves_gauges :
    PreservesUnder (InOrder conn.dayOf) (fun s => GaugeOk conn.dayOf (leftEvents s) s)
      (processNext conn) := by
  intro log a s h hlog horder hok
  rcases runs_processNext h with rfl | ⟨ev, u, x, w, hevent⟩
  · exact hok
  · have heffect := hevent.effect hlog
    show GaugeOk conn.dayOf (leftEvents (view log s)) (view log s)
    rw [heffect.left]
    exact heffect.gaugeOk (fun c hc hgauge e he => horder.of_event hevent hlog c hc hgauge e he) hok

theorem arrives_same {body : Transaction} (h : Arrives body) {log : List (Change Row)} {a : Reply}
    (hruns : Runs body log (.ok a)) (hlog : Consistent log s) :
    leftEvents (view log s) = leftEvents s ∧ meterTable (view log s) = meterTable s := by
  have hall := h log _ hruns
  clear hruns
  induction log generalizing s with
  | nil => exact ⟨rfl, rfl⟩
  | cons c log ih =>
    obtain ⟨hbefore, hlog⟩ := hlog
    obtain ⟨hleft, hmeter⟩ := ih hlog fun d hd => hall d (List.mem_cons_of_mem _ hd)
    rw [view_cons, hleft, hmeter]
    have hc := hall c List.mem_cons_self
    obtain ⟨k, before, after⟩ := c
    cases k with
    | event ws key t =>
      obtain ⟨rfl, haccepted⟩ := hc
      refine ⟨leftEvents_insert_accepted haccepted fun old hold => ?_,
        meterTable_insert _ (by simp)⟩
      cases hbefore.symm.trans hold
    | ingestionStats d src day => exact hc.elim
    | userActivity d user day => exact hc.elim
    | meterUsage d m ref day => exact hc.elim
    | _ => exact ⟨leftEvents_insert _ (by simp), meterTable_insert _ (by simp)⟩

theorem arrives_preserves_gauges {body : Transaction} (h : Arrives body) :
    Preserves (fun s => GaugeOk dayOf (leftEvents s) s) body := by
  intro log a s hruns hlog hok
  obtain ⟨hleft, hmeter⟩ := arrives_same h hruns hlog
  show GaugeOk dayOf (leftEvents (view log s)) (view log s)
  rw [hleft, GaugeOk, hmeter]
  exact hok

/-! ### Processing by time -/

/-- No event waits that is earlier than one that has left `accepted`. -/
def ProcessedByTime (s : Db) : Prop :=
  ∀ e ∈ leftEvents s, ∀ y ∈ s.entries, ∀ t ∈ acceptedRank y.1 y.2, e.occurredAt ≤ t

instance : Decidable (ProcessedByTime s) :=
  inferInstanceAs (Decidable (∀ e ∈ leftEvents s, ∀ y ∈ s.entries, ∀ t ∈ acceptedRank y.1 y.2,
    e.occurredAt ≤ t))

/-- Then the event a worker settles is none of those that should have come before. -/
theorem ProcessedByTime.le {log : List (Change Row)} {a : Reply} (h : ProcessedByTime s)
    (hruns : Runs (processNext conn) log (.ok a)) (hlog : Consistent log s) {ws : ℕ} {key : PyStr}
    {t : ℤ} {before : Option EventRow} {row : EventRow}
    (hmem : (⟨.event ws key t, before, row⟩ : Change Row) ∈ log) {e : LeftEvent}
    (he : e ∈ leftEvents s) : e.occurredAt ≤ t := by
  rcases runs_processNext hruns with rfl | ⟨ev, u, x, w, hevent⟩
  · cases hmem
  · obtain ⟨rfl, rfl, rfl⟩ := RowKey.event.inj (hevent.eventKey (List.mem_map_of_mem hmem))
    have heffect := hevent.effect hlog
    exact h e he ⟨ev.rowKey, ev.row⟩ (AList.mem_lookup_iff.1 heffect.stored) _
      (if_pos heffect.accepted)

theorem ProcessedByTime.inOrder {log : List (Change Row)} {a : Reply} (h : ProcessedByTime s)
    (hruns : Runs (processNext conn) log (.ok a)) (hlog : Consistent log s) :
    InOrder dayOf log s :=
  fun _ _ _ _ _ hmem _ _ _ _ _ he _ => h.le hruns hlog hmem he

theorem inOrder_of_arrives {body : Transaction} (h : Arrives body) {log : List (Change Row)}
    {r : Except Failure Reply} (hruns : Runs body log r) : InOrder dayOf log s := by
  intro ws key t before row hmem hstatus
  obtain ⟨-, haccepted⟩ := h log r hruns _ hmem
  exact absurd haccepted hstatus

/-! ### Every run -/

/-- Every gauge bucket holds the quantity of its event with the greatest
`occurred_at`, wherever there is one. -/
def GaugesLatest (dayOf : ℤ → ℤ) (s : Db) : Prop :=
  ∀ c ws key t (row : EventRow), c.2.1.isGauge = true → s.lookup (.event ws key t) = some row →
    meterGroup dayOf ⟨t, row⟩ = some c →
    (∀ ws' key' t' (row' : EventRow), s.lookup (.event ws' key' t') = some row' →
      meterGroup dayOf ⟨t', row'⟩ = some c →
      RowKey.event ws' key' t' ≠ .event ws key t → t' < t) →
    ∃ usage, meterTable s c = some usage ∧
      usage.gaugeLast = (LeftEvent.mk t row).quantity

theorem gaugesLatest_of_drained (hok : GaugeOk dayOf (leftEvents s) s) (hdrained : Drained s) :
    GaugesLatest dayOf s := by
  intro c ws key t row hgauge hrow hgroup hgreatest
  have hsplit : leftEvents s = ⟨t, row⟩ ::ₘ leftEvents (s.erase (.event ws key t)) := by
    have hleft : leftOf ⟨.event ws key t, row⟩ = {⟨t, row⟩} := if_neg (hdrained ws key t row hrow)
    rw [leftEvents, tally_erase leftOf hrow, hleft, Multiset.singleton_add, leftEvents]
  have hbucket := hok c
  rw [hsplit, Multiset.filter_cons_of_pos (p := fun e => meterGroup dayOf e = some c) _ hgroup]
    at hbucket
  cases hrowc : meterTable s c with
  | none =>
    rw [hrowc] at hbucket
    exact absurd hbucket (Multiset.cons_ne_zero)
  | some usage =>
    rw [hrowc] at hbucket
    refine ⟨usage, rfl, hbucket hgauge _ _ rfl fun d hd => ?_⟩
    obtain ⟨hd, hdc⟩ := Multiset.mem_filter.1 hd
    obtain ⟨ws', key', hlookup, -⟩ := mem_leftEvents.1 hd
    have hmem : RowKey.event ws' key' d.occurredAt ∈ s.erase (.event ws key t) :=
      AList.lookup_isSome.1 (by rw [hlookup]; rfl)
    have hne := (AList.mem_erase.1 hmem).1
    rw [AList.lookup_erase_ne hne] at hlookup
    exact hgreatest ws' key' d.occurredAt d.row hlookup hdc hne

theorem gaugeOk_of_unprocessed (h : Unprocessed s) : GaugeOk dayOf (leftEvents s) s := by
  intro c
  rw [leftEvents_eq_zero h, h.meter]
  rfl

/-- Any number of workers with any limits among any arrivals: where no reading
is committed into a bucket that already holds a later one, the gauges hold the
latest readings once nothing waits. -/
theorem gaugesLatest_of_inOrder {ι : Type} [DecidableEq ι] {dayOf : ℤ → ℤ}
    {w w' : World ι Row Failure Reply Outcome} (hstart : Unprocessed w.committed)
    (hparties : ∀ i, ∃ p : Process, w.stations i = .resting p ∧
      ((∃ conn limit, conn.dayOf = dayOf ∧ p = runPipeline conn limit) ∨ p.All Arrives))
    (hrun : Relation.ReflTransGen (GuardedStep (fun _ => True) (InOrder dayOf)) w w')
    (hdrained : Drained w'.committed) : GaugesLatest dayOf w'.committed := by
  refine gaugesLatest_of_drained ?_ hdrained
  refine guarded_invariant (I := fun s => GaugeOk dayOf (leftEvents s) s)
    (gaugeOk_of_unprocessed hstart) (fun i => ?_) hrun
  obtain ⟨p, hp, ⟨conn, limit, rfl, rfl⟩ | harrives⟩ := hparties i
  · exact ⟨_, hp, runPipelineFrom_all processNext_preserves_gauges limit _⟩
  · exact ⟨p, hp, Proc.All.mono (fun _ h => (arrives_preserves_gauges h).under) harrives⟩

/-! ### A late reading -/

/-- A reading of `seats_active`, as ingestion stores it. -/
def seatsReading (seats : ℕ) (timestamp : PyStr) : EventRow where
  deploymentId := 1
  eventType := .costMeter
  originType := .customerSystem
  pipelineStatus := .accepted
  schemaVersion := py "1.0"
  sourceRef := none
  payload := [(py "meter", .str (py "seats_active")), (py "quantity", .num (.int seats)),
    (py "timestamp", .str timestamp)]
  resolvedUserId := none
  workItemId := none
  exclusionReason := none

def utcConnection : Connection := ⟨fun t => t / 86400000, List.head?, fun _ => true⟩

/-- The parties of `lateReading`: a tick of the worker, a request and a second tick. -/
inductive Ticks
  | first | request | second
  deriving DecidableEq

/-- The request, once its event is checked. -/
def insertReading (key : PyStr) (t : ℤ) (row : EventRow) : Process :=
  .txn (.write (.event 1 key t) (fun before => liftDb (insertNew row before)) fun _ => .pure .done)
    fun
      | .ok _ => .done (.results [])
      | .error e => .done (.raised e)

/-- Twelve seats were read at 05; a request brings nine seats, read at 03. -/
def lateReading : World Ticks Row Failure Reply Outcome where
  committed := (∅ : Db).insert (.event 1 (py "k5") 5)
    (seatsReading 12 (py "1970-01-01T00:00:00.005Z"))
  sequence := 0
  stations
    | .first => .resting (runPipeline utcConnection 1)
    | .request => .resting
      (insertReading (py "k3") 3 (seatsReading 9 (py "1970-01-01T00:00:00.003Z")))
    | .second => .resting (runPipeline utcConnection 1)

/-- The rows a process leaves that runs alone. -/
def rowsLeft (p : Process) (rows : Db × ℕ) : Db × ℕ := (p.run rows.1 rows.2).2

theorem runPipeline_one (conn : Connection) : ∃ next,
    runPipeline conn 1 = .txn (processNext conn) next ∧ ∀ r, ∃ o, next r = .done o := by
  refine ⟨_, rfl, fun r => ?_⟩
  rcases r with e | reply
  · exact ⟨_, rfl⟩
  · cases reply <;> exact ⟨_, rfl⟩

/-- The request and then both ticks, by steps that meet a guard on events processed by time. -/
theorem run_byTime {C : List (Change Row) → Db → Prop} {w : World Ticks Row Failure Reply Outcome}
    {key : PyStr} {t : ℤ} {row : EventRow} (hrest : w.Resting)
    (hfirst : w.stations .first = .resting (runPipeline utcConnection 1))
    (hrequest : w.stations .request = .resting (insertReading key t row))
    (hsecond : w.stations .second = .resting (runPipeline utcConnection 1))
    (harrival : ∀ log r s, Runs (ε := Failure) (.write (.event 1 key t)
      (fun before => liftDb (insertNew row before)) fun _ => .pure Reply.done) log r → C log s)
    (hticks : ∀ log a s, ProcessedByTime s → Runs (processNext utcConnection) log (.ok a) →
      Consistent log s → C log s)
    (hsorted : ProcessedByTime (rowsLeft (insertReading key t row) (w.committed, w.sequence)).1)
    (hsorted' : ProcessedByTime (rowsLeft (runPipeline utcConnection 1)
      (rowsLeft (insertReading key t row) (w.committed, w.sequence))).1) :
    ∃ w', Relation.ReflTransGen (GuardedStep (fun _ => True) C) w w' ∧
      w'.committed = (rowsLeft (runPipeline utcConnection 1) (rowsLeft (runPipeline utcConnection 1)
        (rowsLeft (insertReading key t row) (w.committed, w.sequence)))).1 := by
  obtain ⟨next, htick, hdone⟩ := runPipeline_one utcConnection
  rw [htick] at hfirst hsecond
  obtain ⟨w₁, hrun₁, hrest₁, hrows₁, hnext₁, hothers₁⟩ := txn_resting (fun _ => True)
    hrest hrequest (fun r => by cases r <;> exact ⟨_, rfl⟩) fun log a h _ => harrival log _ _ h
  have harrived : rowsLeft (insertReading key t row) (w.committed, w.sequence) =
      (w₁.committed, w₁.sequence) := Prod.ext hrows₁.symm hnext₁.symm
  rw [harrived] at hsorted hsorted' ⊢
  obtain ⟨w₂, hrun₂, hrest₂, hrows₂, hnext₂, hothers₂⟩ := txn_resting (fun _ => True)
    hrest₁ ((hothers₁ .first (by decide)).trans hfirst) hdone fun log a h hlog =>
      hticks log a _ hsorted h hlog
  have hticked : rowsLeft (runPipeline utcConnection 1) (w₁.committed, w₁.sequence) =
      (w₂.committed, w₂.sequence) := by
    rw [htick]
    exact Prod.ext hrows₂.symm hnext₂.symm
  rw [hticked] at hsorted' ⊢
  obtain ⟨w₃, hrun₃, -, hrows₃, -⟩ := txn_resting (fun _ => True) hrest₂
    (((hothers₂ .second (by decide)).trans (hothers₁ .second (by decide))).trans hsecond) hdone
    fun log a h hlog => hticks log a _ hsorted' h hlog
  refine ⟨w₃, (hrun₁.trans hrun₂).trans hrun₃, ?_⟩
  rw [htick]
  exact hrows₃

def seatsBucket : ℕ × MeterType × PyStr × ℤ := (1, .seatsActive, [], 0)

theorem drained_iff : Drained s ↔ ∀ x ∈ s.entries, acceptedRank x.1 x.2 = none := by
  constructor
  · rintro h ⟨k, row⟩ hx
    cases k with
    | event ws key t => exact if_neg (h ws key t row (AList.mem_lookup_iff.2 hx))
    | _ => rfl
  · intro h ws key t row hrow hstatus
    have hnone := h ⟨.event ws key t, row⟩ (AList.mem_lookup_iff.1 hrow)
    rw [acceptedRank, if_pos hstatus] at hnone
    cases hnone

theorem unprocessed_lateReading : Unprocessed lateReading.committed := unprocessed_single rfl

theorem arrives_insertReading {key : PyStr} {t : ℤ} {seats : ℕ} {timestamp : PyStr} :
    Arrives (.write (.event 1 key t)
      (fun before => liftDb (insertNew (seatsReading seats timestamp) before))
        fun _ => .pure .done) := by
  refine arrives_write (fun before after hu => ?_) fun _ => arrives_pure _
  cases before with
  | none =>
    cases hu
    exact ⟨rfl, rfl⟩
  | some old => cases hu

theorem parties_lateReading (i : Ticks) : ∃ p : Process, lateReading.stations i = .resting p ∧
    ((∃ conn limit, conn.dayOf = utcConnection.dayOf ∧ p = runPipeline conn limit) ∨
      p.All Arrives) := by
  cases i with
  | first => exact ⟨_, rfl, .inl ⟨_, 1, rfl, rfl⟩⟩
  | second => exact ⟨_, rfl, .inl ⟨_, 1, rfl, rfl⟩⟩
  | request =>
    refine ⟨_, rfl, .inr ⟨arrives_insertReading, fun r => ?_⟩⟩
    cases r <;> trivial

theorem resting_lateReading : lateReading.Resting := fun i =>
  have ⟨p, hp, _⟩ := parties_lateReading i
  ⟨p, hp⟩

/-- The rows after the request and both ticks. -/
def timelyRows : Db × ℕ :=
  rowsLeft (runPipeline utcConnection 1) (rowsLeft (runPipeline utcConnection 1)
    (rowsLeft (insertReading (py "k3") 3 (seatsReading 9 (py "1970-01-01T00:00:00.003Z")))
      (lateReading.committed, lateReading.sequence)))

set_option maxRecDepth 4000 in
/-- Where the request comes first, the ticks fold nine seats and then twelve. -/
theorem gaugesLatest_of_inOrder_lateReading : ∃ w',
    Relation.ReflTransGen (GuardedStep (fun _ => True) (InOrder utcConnection.dayOf))
      lateReading w' ∧
    Drained w'.committed ∧ (leftEvents w'.committed).map LeftEvent.occurredAt = {3, 5} ∧
    GaugesLatest utcConnection.dayOf w'.committed ∧
    (meterTable w'.committed seatsBucket).map (fun r => r.gaugeLast.map Numeric.micros) =
      some (some 12000000) := by
  obtain ⟨w', hrun, hrows⟩ := run_byTime resting_lateReading rfl rfl rfl
    (fun log r s h => inOrder_of_arrives arrives_insertReading h)
    (fun log a s hsorted h hlog => hsorted.inOrder h hlog) (by decide +kernel) (by decide +kernel)
  change w'.committed = timelyRows.1 at hrows
  have hdrained : Drained w'.committed := by
    rw [hrows, drained_iff]
    decide +kernel
  refine ⟨w', hrun, hdrained, ?_, ?_, ?_⟩
  · rw [hrows]
    decide +kernel
  · exact gaugesLatest_of_inOrder unprocessed_lateReading parties_lateReading hrun hdrained
  · rw [hrows]
    decide +kernel

/-- The rows after the first tick, the request and the second tick. -/
def lateRows : Db × ℕ :=
  let first := ((runPipeline utcConnection 1).run lateReading.committed lateReading.sequence).2
  let request := ((insertReading (py "k3") 3
    (seatsReading 9 (py "1970-01-01T00:00:00.003Z"))).run first.1 first.2).2
  ((runPipeline utcConnection 1).run request.1 request.2).2

/-- The first tick, the request and the second tick, without any failure. -/
theorem run_inTurn {w : World Ticks Row Failure Reply Outcome} {tick request : Process}
    (hrest : w.Resting) (hfirst : w.stations .first = .resting tick)
    (hrequest : w.stations .request = .resting request)
    (hsecond : w.stations .second = .resting tick) :
    ∃ w', Reachable (fun _ => False) w w' ∧ w'.committed =
      (rowsLeft tick (rowsLeft request (rowsLeft tick (w.committed, w.sequence)))).1 := by
  obtain ⟨w₁, hreach₁, hrest₁, hrows₁, hnext₁, hothers₁⟩ := run_resting (i := .first) hrest hfirst
  obtain ⟨w₂, hreach₂, hrest₂, hrows₂, hnext₂, hothers₂⟩ :=
    run_resting (i := .request) hrest₁ ((hothers₁ .request (by decide)).trans hrequest)
  obtain ⟨w₃, hreach₃, -, hrows₃, -⟩ := run_resting (i := .second) hrest₂
    (((hothers₂ .second (by decide)).trans (hothers₁ .second (by decide))).trans hsecond)
  refine ⟨w₃, (hreach₁.trans hreach₂).trans hreach₃, ?_⟩
  rw [hrows₃, hrows₂, hnext₂, hrows₁, hnext₁]
  rfl

theorem reachable_lateRows : ∃ w', Reachable (fun _ => False) lateReading w' ∧
    w'.committed = lateRows.1 := run_inTurn resting_lateReading rfl rfl rfl

/-- The row at the second 5, or an earlier one. -/
def notAfterFive : RowKey → Bool
  | .event ws key t => RowKey.event ws key t = .event 1 (py "k5") 5 ∨ t < 5
  | _ => true

/-- The instants of the events in `lateRows`. -/
theorem le_of_lateRows {ws : ℕ} {key : PyStr} {t : ℤ} {row : EventRow}
    (h : lateRows.1.lookup (.event ws key t) = some row) :
    RowKey.event ws key t = .event 1 (py "k5") 5 ∨ t < 5 := by
  have hall : lateRows.1.keys.all notAfterFive = true := by decide +kernel
  have hkey : RowKey.event ws key t ∈ lateRows.1.keys :=
    AList.lookup_isSome.1 (by rw [h]; rfl)
  exact of_decide_eq_true (List.all_eq_true.1 hall _ hkey)

set_option maxRecDepth 4000 in
/-- The reading of 03, folded last, overwrites that of 05. -/
theorem lateReading_overwrites : ¬ ∀ w', Reachable (fun _ => False) lateReading w' →
    Drained w'.committed → GaugesLatest utcConnection.dayOf w'.committed := by
  intro h
  obtain ⟨w', hreach, hrows⟩ := reachable_lateRows
  have hlatest := h w' hreach
  rw [hrows] at hlatest
  obtain ⟨row, hrow, hgroup, hquantity⟩ : ∃ row, lateRows.1.lookup (.event 1 (py "k5") 5) = some row ∧
      meterGroup utcConnection.dayOf ⟨5, row⟩ = some seatsBucket ∧
      ((LeftEvent.mk 5 row).quantity.map Numeric.micros) = some 12000000 :=
    ⟨_, rfl, rfl, rfl⟩
  obtain ⟨usage, husage, hlast⟩ := hlatest (drained_iff.2 (by decide +kernel)) seatsBucket 1
    (py "k5") 5 row rfl hrow hgroup fun ws key t row' hrow' _ hne =>
      (le_of_lateRows hrow').resolve_left hne
  rw [← hlast] at hquantity
  have hnine : (meterTable lateRows.1 seatsBucket).map (fun r => r.gaugeLast.map Numeric.micros) =
      some (some 9000000) := by decide +kernel
  rw [husage, Option.map_some, hquantity] at hnine
  cases hnine

end TrueFigure.Server
