import TrueFigure.Library.Sequential
import TrueFigure.Server.PipelineEffect

/-!
# The pipeline keeps the aggregates

One transaction of a worker turns one accepted event into a left one and folds
it into the rows of its groups; an arrival inserts accepted events and writes no
aggregate. Both keep the tables folds, hence so does every interleaving of
workers, arrivals and aborts.
-/
namespace TrueFigure.Server

open TrueFigure.Library TrueFigure.Python

variable {conn : Connection} {P : Multiset LeftEvent} {s : Db}

/-! ### Frames -/

theorem statsTable_insert {k : RowKey} (r : Row k)
    (hk : ∀ c : ℕ × PyStr × ℤ, k ≠ .ingestionStats c.1 c.2.1 c.2.2) :
    statsTable (s.insert k r) = statsTable s := by
  funext c
  exact AList.lookup_insert_ne (hk c).symm

theorem activityTable_insert {k : RowKey} (r : Row k)
    (hk : ∀ c : ℕ × ℕ × ℤ, k ≠ .userActivity c.1 c.2.1 c.2.2) :
    activityTable (s.insert k r) = activityTable s := by
  funext c
  exact AList.lookup_insert_ne (hk c).symm

theorem meterTable_insert {k : RowKey} (r : Row k)
    (hk : ∀ c : ℕ × MeterType × PyStr × ℤ, k ≠ .meterUsage c.1 c.2.1 c.2.2.1 c.2.2.2) :
    meterTable (s.insert k r) = meterTable s := by
  funext c
  exact AList.lookup_insert_ne (hk c).symm

theorem AggregatesOk.insert {dayOf : ℤ → ℤ} (hok : AggregatesOk dayOf s) {k : RowKey} (r : Row k)
    (hleft : leftEvents (s.insert k r) = leftEvents s)
    (hstats : ∀ d src day, k ≠ .ingestionStats d src day)
    (hactivity : ∀ d user day, k ≠ .userActivity d user day)
    (hmeter : ∀ d m ref day, k ≠ .meterUsage d m ref day) : AggregatesOk dayOf (s.insert k r) := by
  refine ⟨?_, ?_, ?_⟩
  · rw [hleft, StatsOk, statsTable_insert _ fun c => hstats _ _ _]
    exact hok.stats
  · rw [hleft, ActivityOk, activityTable_insert _ fun c => hactivity _ _ _]
    exact hok.activity
  · rw [hleft, MeterOk, meterTable_insert _ fun c => hmeter _ _ _ _]
    exact hok.meter

/-! ### One transaction -/

variable {ev : ClaimedEvent} {u : Option ℕ} {x : Option ExclusionReason} {w : Option ℕ} {s' : Db}

theorem Effect.statsTable_eq (h : Effect conn ev u x w s s') {c : ℕ × PyStr × ℤ}
    (hc : c ≠ (ev.row.deploymentId, ev.sourceRef, conn.dayOf ev.occurredAt)) :
    statsTable s' c = statsTable s c := by
  refine h.others _ (by simp) (fun hkey => hc ?_) (by simp) (by simp) (by simp)
  simp only [RowKey.ingestionStats.injEq] at hkey
  exact Prod.ext hkey.1 (Prod.ext hkey.2.1 hkey.2.2)

theorem Effect.activityTable_eq (h : Effect conn ev u x w s s') {c : ℕ × ℕ × ℤ}
    (hc : activityGroup conn.dayOf (ev.settled u x w) ≠ some c) :
    activityTable s' c = activityTable s c := by
  refine h.others _ (by simp) (by simp) (fun d hd hkey => hc ?_) (by simp) (by simp)
  simp only [RowKey.userActivity.injEq] at hkey
  rw [hd, show c = d from Prod.ext hkey.1 (Prod.ext hkey.2.1 hkey.2.2)]

theorem Effect.meterTable_eq (h : Effect conn ev u x w s s') {c : ℕ × MeterType × PyStr × ℤ}
    (hc : meterGroup conn.dayOf (ev.settled u x w) ≠ some c) :
    meterTable s' c = meterTable s c := by
  refine h.others _ (by simp) (by simp) (by simp) (fun d hd hkey => hc ?_) (by simp)
  simp only [RowKey.meterUsage.injEq] at hkey
  rw [hd, show c = d from
    Prod.ext hkey.1 (Prod.ext hkey.2.1 (Prod.ext hkey.2.2.1 hkey.2.2.2))]

theorem Effect.statsOk (h : Effect conn ev u x w s s') (hok : StatsOk conn.dayOf P s) :
    StatsOk conn.dayOf (ev.settled u x w ::ₘ P) s' := by
  obtain ⟨row, hrow, hu⟩ := h.stats
  refine hok.cons rfl (fun g hg => ?_) fun c hc => h.statsTable_eq hc
  have hafter : statsTable s' (ev.row.deploymentId, ev.sourceRef, conn.dayOf ev.occurredAt) =
      some row := hrow
  have hupsert := statsOf_eq (e := ev.settled u x w) rfl rfl rfl ▸ hu
  exact hafter ▸ statsOf_upsert hg hupsert

/-- A table stays a fold when the row of the event's group, if it has one, is
the upsert of what it was. -/
theorem grouped_of_effect {γ ρ : Type} [DecidableEq γ] {group : LeftEvent → Option γ}
    {fold : γ → Multiset LeftEvent → Option ρ → Prop} {table table' : γ → Option ρ} {e : LeftEvent}
    (h : Grouped group fold P table)
    (hother : ∀ c, group e ≠ some c → table' c = table c)
    (hown : ∀ c g, group e = some c → fold c g (table c) → fold c (e ::ₘ g) (table' c)) :
    Grouped group fold (e ::ₘ P) table' := by
  cases hgroup : group e with
  | none =>
    refine (h.skip hgroup).congr fun c => hother c ?_
    rw [hgroup]
    exact (Option.some_ne_none c).symm
  | some c =>
    refine h.cons hgroup (fun g => hown c g hgroup) fun d hd => hother d ?_
    rw [hgroup]
    exact fun heq => hd (Option.some.inj heq).symm

theorem Effect.activityOk (h : Effect conn ev u x w s s') (hok : ActivityOk conn.dayOf P s) :
    ActivityOk conn.dayOf (ev.settled u x w ::ₘ P) s' := by
  refine grouped_of_effect hok (fun c => h.activityTable_eq) fun c g hc hg => ?_
  obtain ⟨row, hrow, hu⟩ := h.activity c hc
  rw [hrow]
  exact activityOf_upsert _ hg hu

theorem Effect.meterOk (h : Effect conn ev u x w s s') (hok : MeterOk conn.dayOf P s) :
    MeterOk conn.dayOf (ev.settled u x w ::ₘ P) s' := by
  refine grouped_of_effect hok (fun c => h.meterTable_eq) fun c g hc hg => ?_
  obtain ⟨row, hrow, hu, -⟩ := h.meter c hc
  rw [hrow]
  exact meterOf_upsert (e := ev.settled u x w) hg hu

theorem Effect.aggregatesOk (h : Effect conn ev u x w s s') (hok : AggregatesOk conn.dayOf s) :
    AggregatesOk conn.dayOf s' := by
  refine ⟨?_, ?_, ?_⟩
  · rw [h.left]
    exact h.statsOk hok.stats
  · rw [h.left]
    exact h.activityOk hok.activity
  · rw [h.left]
    exact h.meterOk hok.meter

/-- Whatever a worker's transaction reads, committing it keeps the aggregates. -/
theorem processNext_preserves : Preserves (AggregatesOk conn.dayOf) (processNext conn) := by
  intro log a s h hlog hok
  rcases runs_processNext h with rfl | ⟨ev, u, x, w, hevent⟩
  · exact hok
  · exact (hevent.effect hlog).aggregatesOk hok

/-- The change leaves the aggregates alone and touches events only to insert an
accepted one. -/
def Change.Arrives (c : Change Row) : Prop :=
  match c with
  | ⟨.event _ _ _, before, after⟩ =>
    before = none ∧ (after : EventRow).pipelineStatus = .accepted
  | ⟨.ingestionStats _ _ _, _, _⟩ => False
  | ⟨.userActivity _ _ _, _, _⟩ => False
  | ⟨.meterUsage _ _ _ _, _, _⟩ => False
  | _ => True

/-- A transaction by which events arrive, or any that stays clear of events and
aggregates. -/
def Arrives (body : Transaction) : Prop :=
  ∀ log r, Runs body log r → ∀ c ∈ log, Change.Arrives c

theorem arrives_preserves {dayOf : ℤ → ℤ} {body : Transaction} (h : Arrives body) :
    Preserves (AggregatesOk dayOf) body := by
  intro log a s hruns hlog hok
  have hall := h log _ hruns
  clear hruns
  induction log generalizing s with
  | nil => exact hok
  | cons c log ih =>
    obtain ⟨hbefore, hlog⟩ := hlog
    refine ih _ hlog ?_ fun d hd => hall d (List.mem_cons_of_mem _ hd)
    have hc := hall c List.mem_cons_self
    obtain ⟨k, before, after⟩ := c
    cases k with
    | event ws key t =>
      obtain ⟨rfl, haccepted⟩ := hc
      refine hok.insert _ (leftEvents_insert_accepted haccepted fun old hold => ?_)
        (by simp) (by simp) (by simp)
      cases hbefore.symm.trans hold
    | ingestionStats d src day => exact hc.elim
    | userActivity d user day => exact hc.elim
    | meterUsage d m ref day => exact hc.elim
    | _ =>
      exact hok.insert _ (leftEvents_insert _ (by simp)) (by simp) (by simp) (by simp)

theorem runPipelineFrom_all {good : Transaction → Prop} (h : good (processNext conn)) (n : ℕ)
    (counts : Counts) : (runPipelineFrom conn n counts).All good := by
  induction n generalizing counts with
  | zero => trivial
  | succ n ih =>
    refine ⟨h, fun r => ?_⟩
    match r with
    | .error e => trivial
    | .ok (.processed outcome) => exact ih _
    | .ok .done => trivial
    | .ok .noEvent => trivial
    | .ok (.result r) => trivial

/-- A database whose events all wait for their first pipeline run. -/
structure Unprocessed (s : Db) : Prop where
  events : ∀ ws key t (row : EventRow), s.lookup (.event ws key t) = some row →
    row.pipelineStatus = .accepted
  stats : ∀ c, statsTable s c = none
  activity : ∀ c, activityTable s c = none
  meter : ∀ c, meterTable s c = none

theorem leftEvents_eq_zero {s : Db} (h : Unprocessed s) : leftEvents s = 0 := by
  refine List.sum_eq_zero fun m hm => ?_
  obtain ⟨⟨k, row⟩, hrow, rfl⟩ := List.mem_map.1 hm
  cases k with
  | event ws key t => exact if_pos (h.events ws key t row (AList.mem_lookup_iff.2 hrow))
  | _ => rfl

theorem aggregatesOk_of_unprocessed {dayOf : ℤ → ℤ} {s : Db} (h : Unprocessed s) :
    AggregatesOk dayOf s := by
  have hzero := leftEvents_eq_zero h
  refine ⟨fun c => ?_, fun c => ?_, fun c => ?_⟩
  · rw [hzero, h.stats]
    rfl
  · rw [hzero, h.activity]
    rfl
  · rw [hzero, h.meter]
    rfl

theorem unprocessed_single {ws : ℕ} {key : PyStr} {t : ℤ} {row : EventRow}
    (hrow : row.pipelineStatus = .accepted) :
    Unprocessed ((∅ : Db).insert (.event ws key t) row) := by
  have hlookup : ∀ k, k ≠ .event ws key t →
      ((∅ : Db).insert (.event ws key t) row).lookup k = none := by
    intro k hk
    exact AList.lookup_insert_ne hk
  refine ⟨fun ws' key' t' row' hrow' => ?_, fun c => hlookup _ (by simp),
    fun c => hlookup _ (by simp), fun c => hlookup _ (by simp)⟩
  by_cases hk : RowKey.event ws' key' t' = .event ws key t
  · obtain ⟨rfl, rfl, rfl⟩ := RowKey.event.inj hk
    cases (AList.lookup_insert (∅ : Db)).symm.trans hrow'
    exact hrow
  · rw [hlookup _ hk] at hrow'
    cases hrow'

/-- Any number of workers with any limits, among any arrivals, with any
transaction aborted anywhere: the aggregates are always the folds of the events
that have left `accepted`. -/
theorem aggregates_reachable {ι : Type} [DecidableEq ι] {dayOf : ℤ → ℤ}
    {w w' : World ι Row Failure Reply Outcome} (hstart : Unprocessed w.committed)
    (hparties : ∀ i, ∃ p : Process, w.stations i = .resting p ∧
      ((∃ conn limit, conn.dayOf = dayOf ∧ p = runPipeline conn limit) ∨ p.All Arrives))
    (hreach : Reachable (fun _ => True) w w') : AggregatesOk dayOf w'.committed := by
  refine committed_invariant (aggregatesOk_of_unprocessed hstart) (fun i => ?_) hreach
  obtain ⟨p, hp, ⟨conn, limit, rfl, rfl⟩ | harrives⟩ := hparties i
  · exact ⟨_, hp, runPipelineFrom_all processNext_preserves limit _⟩
  · exact ⟨p, hp, Proc.All.mono (fun _ => arrives_preserves) harrives⟩

def waitingEvent : EventRow where
  deploymentId := 1
  eventType := .activity
  originType := .customerSystem
  pipelineStatus := .accepted
  schemaVersion := py "1.0"
  sourceRef := none
  payload := [(py "user_ref", .str (py "u1")), (py "work_item_id", .str (py "w1"))]
  resolvedUserId := none
  workItemId := none
  exclusionReason := none

def twoWorkers : World Bool Row Failure Reply Outcome where
  committed := (∅ : Db).insert (.event 1 (py "k") 5) waitingEvent
  sequence := 7
  stations := fun _ => .resting (runPipeline ⟨fun t => t / 86400000, List.head?, fun _ => true⟩ 3)

theorem unprocessed_twoWorkers : Unprocessed twoWorkers.committed := unprocessed_single rfl

set_option maxRecDepth 4000 in
theorem aggregates_reachable_twoWorkers : ∃ w', Reachable (fun _ => True) twoWorkers w' ∧
    AggregatesOk (fun t => t / 86400000) w'.committed ∧
    statsTable w'.committed (1, [], 0) = some ⟨1, 1, 0, 1, 1, 5⟩ := by
  have hrun : Reachable (fun _ => True) twoWorkers _ :=
    run_reachable (i := true) _ rfl fun k j _ => by simp [twoWorkers, Station.locks]
  refine ⟨_, hrun, ?_, by rfl⟩
  exact aggregates_reachable unprocessed_twoWorkers
    (fun i => ⟨_, rfl, .inl ⟨_, 3, rfl, rfl⟩⟩) hrun

end TrueFigure.Server
