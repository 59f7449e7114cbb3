import TrueFigure.Server.DailyAggregates

/-!
# What one transaction of the pipeline does

A committed transaction of a worker has taken no event, or it has turned one
accepted event into a settled one, has joined at most its work item and has
folded it into the rows of its groups. Every invariant of the worker is read off
this effect; none unfolds the transaction again.
-/
namespace TrueFigure.Server

open TrueFigure.Library TrueFigure.Python

variable {conn : Connection} {s : Db}

/-! ### The left events of a store -/

theorem leftOf_ne_event {k : RowKey} (hk : ∀ ws key t, k ≠ .event ws key t) (r : Row k) :
    leftOf ⟨k, r⟩ = 0 := by
  cases k with
  | event ws key t => exact absurd rfl (hk ws key t)
  | _ => rfl

theorem leftEvents_insert {k : RowKey} (r : Row k) (hk : ∀ ws key t, k ≠ .event ws key t) :
    leftEvents (s.insert k r) = leftEvents s :=
  tally_insert_same leftOf (fun _ _ => leftOf_ne_event hk _) (leftOf_ne_event hk r)

/-- Writing an accepted row where there was none, or an accepted one, leaves the
left events alone. -/
theorem leftEvents_insert_accepted {ws : ℕ} {key : PyStr} {t : ℤ} {row : EventRow}
    (hrow : row.pipelineStatus = .accepted)
    (hold : ∀ old : EventRow, s.lookup (.event ws key t) = some old →
      old.pipelineStatus = .accepted) :
    leftEvents (s.insert (.event ws key t) row) = leftEvents s := by
  refine tally_insert_same leftOf (fun old h => ?_) (if_pos hrow)
  exact if_pos (hold old h)

theorem leftEvents_settle {ws : ℕ} {key : PyStr} {t : ℤ} {row after : EventRow}
    (hlookup : s.lookup (.event ws key t) = some row) (hrow : row.pipelineStatus = .accepted)
    (hafter : after.pipelineStatus ≠ .accepted) :
    leftEvents (s.insert (.event ws key t) after) = ⟨t, after⟩ ::ₘ leftEvents s := by
  have h := tally_insert leftOf (k := .event ws key t) after hlookup
  have hold : leftOf ⟨.event ws key t, row⟩ = 0 := if_pos hrow
  have hnew : leftOf ⟨.event ws key t, after⟩ = {⟨t, after⟩} := if_neg hafter
  rw [hold, hnew, zero_add, Multiset.singleton_add] at h
  exact h

theorem mem_leftEvents {e : LeftEvent} :
    e ∈ leftEvents s ↔ ∃ ws key, s.lookup (.event ws key e.occurredAt) = some e.row ∧
      e.row.pipelineStatus ≠ .accepted := by
  rw [leftEvents, mem_tally]
  constructor
  · rintro ⟨k, r, hk, he⟩
    cases k with
    | event ws key t =>
      by_cases hr : (r : EventRow).pipelineStatus = .accepted
      · rw [leftOf, if_pos hr] at he
        cases he
      · rw [leftOf, if_neg hr, Multiset.mem_singleton] at he
        subst he
        exact ⟨ws, key, hk, hr⟩
    | _ => cases he
  · rintro ⟨ws, key, hk, hr⟩
    refine ⟨_, _, hk, ?_⟩
    rw [leftOf, if_neg hr]
    exact Multiset.mem_singleton_self e

/-! ### The settled event -/

namespace ClaimedEvent

variable (ev : ClaimedEvent)

abbrev rowKey : RowKey := .event ev.workspaceId ev.eventKey ev.occurredAt

/-- The row of `ingestion_stats_daily` the event counts in. -/
abbrev statsKey (conn : Connection) : RowKey :=
  .ingestionStats ev.row.deploymentId ev.sourceRef (conn.dayOf ev.occurredAt)

/-- The event as `_process_event` leaves it. -/
def settled (resolvedUserId : Option ℕ) (exclusionReason : Option ExclusionReason)
    (workItemId : Option ℕ) : LeftEvent where
  occurredAt := ev.occurredAt
  row :=
    { ev.row with
      pipelineStatus := settledStatus exclusionReason workItemId
      resolvedUserId := resolvedUserId
      workItemId := workItemId
      exclusionReason := exclusionReason }

end ClaimedEvent

theorem settledStatus_ne_accepted (x : Option ExclusionReason) (w : Option ℕ) :
    settledStatus x w ≠ .accepted := by
  unfold settledStatus
  split_ifs <;> simp

variable {ev : ClaimedEvent} {log : List (Change Row)} {a : Reply}
  {u : Option ℕ} {x : Option ExclusionReason} {w : Option ℕ}

/-! ### Its statements, one group at a time -/

theorem runs_classifyUser {userId : ℕ} {next : Option ℕ → Option ExclusionReason → Transaction}
    (h : Runs (classifyUser conn ev userId next) log (.ok a)) :
    ∃ u x, Runs (next u x) log (.ok a) := by
  obtain ⟨t, h⟩ := h.of_read
  cases hu : userById t userId with
  | none =>
    simp only [hu] at h
    exact h.not_throw.elim
  | some user =>
    simp only [hu] at h
    split_ifs at h
    · exact ⟨_, _, h⟩
    · exact ⟨_, _, h⟩
    · exact ⟨_, _, h⟩

theorem runs_matchUser {value : PyStr} {found : Option ℕ}
    {next : Option ℕ → Option ExclusionReason → Transaction}
    (h : Runs (matchUser conn ev value found next) log (.ok a)) :
    ∃ u x, Runs (next u x) log (.ok a) := by
  cases found with
  | some userId => exact runs_classifyUser h
  | none =>
    obtain ⟨t, h⟩ := Runs.of_read h
    split at h
    · exact runs_classifyUser h
    · exact ⟨_, _, h⟩

theorem runs_resolveIdentity {next : Option ℕ → Option ExclusionReason → Transaction}
    (h : Runs (resolveIdentity conn ev next) log (.ok a)) :
    ∃ u x, Runs (next u x) log (.ok a) := by
  unfold resolveIdentity at h
  extract_lets field value at h
  clear_value value
  split_ifs at h
  · split at h
    · obtain ⟨t, h⟩ := h.of_read
      split at h
      · obtain ⟨t', h⟩ := h.of_read
        exact runs_matchUser h
      · obtain ⟨t', h⟩ := h.of_read
        exact runs_matchUser h
    · exact h.not_throw.elim
  · exact ⟨_, _, h⟩

/-- An event without a person reference resolves to nobody. -/
theorem runs_resolveIdentity_bearing {next : Option ℕ → Option ExclusionReason → Transaction}
    (h : Runs (resolveIdentity conn ev next) log (.ok a)) :
    ∃ u x, (ev.idBearing = false → u = none) ∧ Runs (next u x) log (.ok a) := by
  cases hbearing : ev.idBearing with
  | true =>
    obtain ⟨u, x, hnext⟩ := runs_resolveIdentity h
    exact ⟨u, x, fun hfalse => absurd hfalse (by decide), hnext⟩
  | false =>
    obtain ⟨huser, hassignee⟩ := Bool.or_eq_false_iff.1 hbearing
    have hvalue : (ev.get (if ev.row.eventType = .activity then IdField.userRef
        else .assigneeRef).wire).truthy = false := by
      split_ifs
      · exact huser
      · exact hassignee
    unfold resolveIdentity at h
    extract_lets field value at h
    rw [if_neg (by rw [hvalue]; exact Bool.false_ne_true)] at h
    exact ⟨none, none, fun _ => rfl, h⟩

def ClaimedEvent.lifecycleField (ev : ClaimedEvent) (field : PyStr) : Json :=
  if ev.row.eventType = .lifecycle then ev.get field else .null

/-- The writes of `_join_work_item`, with the id it returns. -/
inductive ItemLog (conn : Connection) (ev : ClaimedEvent) : Option ℕ → List (Change Row) → Prop
  | skip (h : ¬ (ev.row.eventType.itemBearing ∧ (ev.get (py "work_item_id")).truthy)) :
      ItemLog conn ev none []
  | join {ref : PyStr} {before : Option WorkItemRow} {row : WorkItemRow}
      (href : ev.get (py "work_item_id") = .str ref)
      (hfits : before = none → conn.indexable (.workItem ev.workspaceId ref) = true)
      (hjoin : ev.row.eventType.itemBearing ∧ (ev.get (py "work_item_id")).truthy)
      (hu : ∃ id, upsertWorkItem id (ev.lifecycleField (py "size_band"))
        (ev.lifecycleField (py "category")) before = .ok row) :
      ItemLog conn ev (some row.id) [⟨.workItem ev.workspaceId ref, before, row⟩]

theorem runs_joinWorkItem {next : Option ℕ → Transaction}
    (h : Runs (joinWorkItem conn ev next) log (.ok a)) :
    ∃ w item more, log = item ++ more ∧ ItemLog conn ev w item ∧ Runs (next w) more (.ok a) := by
  unfold joinWorkItem at h
  extract_lets ref at h
  by_cases hjoin : ev.row.eventType.itemBearing ∧ ref.truthy
  · rw [if_pos hjoin] at h
    cases href : ref with
    | str value =>
      rw [href] at h
      obtain ⟨n, h⟩ := h.of_fresh
      obtain ⟨before, after, more, hu, hlog, h⟩ := h.of_write
      obtain ⟨hu, hfits⟩ := Connection.indexed_eq_ok.1 hu
      exact ⟨_, _, more, hlog, .join href hfits hjoin ⟨n, liftDb_eq_ok hu⟩, h⟩
    | _ =>
      rw [href] at h
      exact h.not_throw.elim
  · rw [if_neg hjoin] at h
    exact ⟨none, [], log, rfl, .skip hjoin, h⟩

/-- The write into `user_activity_daily`. -/
inductive ActivityLog (dayOf : ℤ → ℤ) (e : LeftEvent) : List (Change Row) → Prop
  | skip (h : activityGroup dayOf e = none) : ActivityLog dayOf e []
  | fold {c : ℕ × ℕ × ℤ} {before : Option UserActivityRow} {row : UserActivityRow}
      (h : activityGroup dayOf e = some c) (hu : upsertActivity before = .ok row) :
      ActivityLog dayOf e [⟨.userActivity c.1 c.2.1 c.2.2, before, row⟩]

theorem runs_updateUserActivity {next : Transaction}
    (h : Runs (updateUserActivity ev (conn.dayOf ev.occurredAt) u x next) log (.ok a)) :
    ∃ activity more, log = activity ++ more ∧
      ActivityLog conn.dayOf (ev.settled u x w) activity ∧ Runs next more (.ok a) := by
  unfold updateUserActivity at h
  cases u with
  | none => exact ⟨[], log, rfl, .skip rfl, h⟩
  | some userId =>
    cases x with
    | some reason => exact ⟨[], log, rfl, .skip rfl, h⟩
    | none =>
      by_cases hactivity : ev.row.eventType = .activity
      · have hgroup : activityGroup conn.dayOf (ev.settled (some userId) none w) =
            some (ev.row.deploymentId, userId, conn.dayOf ev.occurredAt) := if_pos hactivity
        simp only [if_pos hactivity] at h
        obtain ⟨before, after, more, hu, hlog, h⟩ := h.of_write
        exact ⟨_, more, hlog, .fold hgroup (liftDb_eq_ok hu), h⟩
      · simp only [if_neg hactivity] at h
        exact ⟨[], log, rfl, .skip (if_neg hactivity), h⟩

/-- The write into `meter_usage_daily`. -/
inductive MeterLog (conn : Connection) (e : LeftEvent) : List (Change Row) → Prop
  | skip (h : e.row.eventType ≠ .costMeter) : MeterLog conn e []
  | fold {c : ℕ × MeterType × PyStr × ℤ} {before : Option MeterUsageRow} {row : MeterUsageRow}
      (h : meterGroup conn.dayOf e = some c)
      (hu : upsertMeter c.2.1 (e.row.payload.getD (py "quantity") (.num (.int 0))) before = .ok row)
      (hfits : before = none → conn.indexable (.meterUsage c.1 c.2.1 c.2.2.1 c.2.2.2) = true) :
      MeterLog conn e [⟨.meterUsage c.1 c.2.1 c.2.2.1 c.2.2.2, before, row⟩]

theorem runs_updateMeterUsage {next : Transaction}
    (h : Runs (updateMeterUsage conn ev (conn.dayOf ev.occurredAt) next) log (.ok a)) :
    ∃ meter more, log = meter ++ more ∧ MeterLog conn (ev.settled u x w) meter ∧
      Runs next more (.ok a) := by
  unfold updateMeterUsage at h
  by_cases hcost : ev.row.eventType = .costMeter
  · rw [if_pos hcost] at h
    split at h
    · exact h.not_throw.elim
    rename_i meter hmeter
    split at h
    · exact h.not_throw.elim
    rename_i meterRef href
    obtain ⟨before, after, more, hu, hlog, h⟩ := h.of_write
    obtain ⟨hu, hfits⟩ := Connection.indexed_eq_ok.1 hu
    have hgroup : meterGroup conn.dayOf (ev.settled u x w) =
        some (ev.row.deploymentId, meter, meterRef, conn.dayOf ev.occurredAt) := by
      simp only [meterGroup, ClaimedEvent.settled, hcost, if_true, hmeter, href]
    exact ⟨_, more, hlog, .fold hgroup (liftDb_eq_ok hu) hfits, h⟩
  · rw [if_neg hcost] at h
    exact ⟨[], log, rfl, .skip hcost, h⟩

/-! ### The whole transaction -/

/-- The log of a worker's transaction that processes an event. -/
inductive EventLog (conn : Connection) (ev : ClaimedEvent) (u : Option ℕ)
    (x : Option ExclusionReason) (w : Option ℕ) : List (Change Row) → Prop
  | mk {item activity meter : List (Change Row)} {before : Option EventRow} {after : EventRow}
      {statsBefore : Option IngestionStatsRow} {stats : IngestionStatsRow}
      (accepted : ev.row.pipelineStatus = .accepted) (joins : ItemLog conn ev w item)
      (settles : settleEvent u x w before = .ok after)
      (counts : upsertStats (statsOf ev (u.isSome && x.isNone) w) statsBefore = .ok stats)
      (active : ActivityLog conn.dayOf (ev.settled u x w) activity)
      (metered : MeterLog conn (ev.settled u x w) meter) :
      EventLog conn ev u x w (⟨ev.rowKey, some ev.row, ev.row⟩ :: (item ++
        ⟨ev.rowKey, before, after⟩ :: ⟨ev.statsKey conn, statsBefore, stats⟩ ::
          (activity ++ meter)))

/-- The statements of `_process_event` once the identity is resolved. -/
def settleAndFold (conn : Connection) (ev : ClaimedEvent) (resolvedUserId : Option ℕ)
    (exclusionReason : Option ExclusionReason) : Transaction :=
  joinWorkItem conn ev fun workItemId =>
    .write ev.rowKey
      (fun before => liftDb (settleEvent resolvedUserId exclusionReason workItemId before))
      fun _ => updateAggregates conn ev resolvedUserId exclusionReason workItemId
        (.pure (.processed (settledStatus exclusionReason workItemId).outcome))

theorem processEvent_eq : processEvent conn ev = resolveIdentity conn ev (settleAndFold conn ev) :=
  rfl

theorem runs_settleAndFold (haccepted : ev.row.pipelineStatus = .accepted)
    (h : Runs (settleAndFold conn ev u x) log (.ok a)) :
    ∃ w, EventLog conn ev u x w (⟨ev.rowKey, some ev.row, ev.row⟩ :: log) ∧
      a = .processed (settledStatus x w).outcome := by
  obtain ⟨w, item, more₁, rfl, hitem, hjoined⟩ := runs_joinWorkItem h
  obtain ⟨before, after, more₂, hsettle, rfl, hsettled⟩ := hjoined.of_write
  obtain ⟨statsBefore, stats, more₃, hstats, rfl, hcounted⟩ := hsettled.of_write
  obtain ⟨activity, more₄, rfl, hactivity, hactive⟩ := runs_updateUserActivity (w := w) hcounted
  obtain ⟨meter, more₅, rfl, hmeter, hmetered⟩ :=
    runs_updateMeterUsage (u := u) (x := x) (w := w) hactive
  obtain ⟨rfl, ha⟩ := hmetered.of_pure
  rw [List.append_nil]
  exact ⟨w, .mk haccepted hitem (liftDb_eq_ok hsettle) (liftDb_eq_ok hstats) hactivity hmeter,
    Except.ok.inj ha⟩

/-- Whatever a worker's transaction reads, if it ends it has found no event or
has written the log of one. -/
theorem runs_processNext_bearing (h : Runs (processNext conn) log (.ok a)) :
    log = [] ∨ ∃ ev u x w, (ev.idBearing = false → u = none) ∧ EventLog conn ev u x w log := by
  rcases h.of_claim with hnone | ⟨k, row, rank, more, hrank, rfl, hclaimed⟩
  · exact .inl hnone.of_pure.1
  cases k with
  | event ws key t =>
    have hrow : (row : EventRow).pipelineStatus = .accepted := by
      by_contra hne
      simp [acceptedRank, hne] at hrank
    obtain ⟨u, x, hbearing, hresolved⟩ := runs_resolveIdentity_bearing hclaimed
    obtain ⟨w, hevent, -⟩ :=
      @runs_settleAndFold conn ⟨ws, key, t, row⟩ more a u x hrow hresolved
    exact .inr ⟨⟨ws, key, t, row⟩, u, x, w, hbearing, hevent⟩
  | _ => simp [acceptedRank] at hrank

theorem runs_processNext (h : Runs (processNext conn) log (.ok a)) :
    log = [] ∨ ∃ ev u x w, EventLog conn ev u x w log := by
  rcases runs_processNext_bearing h with hnil | ⟨ev, u, x, w, -, hevent⟩
  · exact .inl hnil
  · exact .inr ⟨ev, u, x, w, hevent⟩

/-- What a worker's transaction that processes an event leaves. -/
structure Effect (conn : Connection) (ev : ClaimedEvent) (u : Option ℕ)
    (x : Option ExclusionReason) (w : Option ℕ) (s s' : Db) : Prop where
  accepted : ev.row.pipelineStatus = .accepted
  stored : s.lookup ev.rowKey = some ev.row
  left : leftEvents s' = ev.settled u x w ::ₘ leftEvents s
  settled : s'.lookup ev.rowKey = some (ev.settled u x w).row
  stats : ∃ row, s'.lookup (ev.statsKey conn) = some row ∧
    upsertStats (statsOf ev (u.isSome && x.isNone) w) (s.lookup (ev.statsKey conn)) = .ok row
  activity : ∀ c, activityGroup conn.dayOf (ev.settled u x w) = some c →
    ∃ row, activityTable s' c = some row ∧ upsertActivity (activityTable s c) = .ok row
  metered : ev.row.eventType = .costMeter →
    ∃ c, meterGroup conn.dayOf (ev.settled u x w) = some c
  meter : ∀ c, meterGroup conn.dayOf (ev.settled u x w) = some c →
    ∃ row, meterTable s' c = some row ∧
      upsertMeter c.2.1 (ev.row.payload.getD (py "quantity") (.num (.int 0))) (meterTable s c) =
        .ok row ∧
      (meterTable s c = none → conn.indexable (.meterUsage c.1 c.2.1 c.2.2.1 c.2.2.2) = true)
  joined : ev.row.eventType.itemBearing = true → (ev.get (py "work_item_id")).truthy = true →
    ∃ ref, ev.get (py "work_item_id") = .str ref ∧
      s'.lookup (.workItem ev.workspaceId ref) ≠ none
  newItem : ∀ ws ref, s.lookup (.workItem ws ref) = none → s'.lookup (.workItem ws ref) ≠ none →
    conn.indexable (.workItem ws ref) = true
  others : ∀ k, k ≠ ev.rowKey → k ≠ ev.statsKey conn →
    (∀ c, activityGroup conn.dayOf (ev.settled u x w) = some c →
      k ≠ .userActivity c.1 c.2.1 c.2.2) →
    (∀ c, meterGroup conn.dayOf (ev.settled u x w) = some c →
      k ≠ .meterUsage c.1 c.2.1 c.2.2.1 c.2.2.2) →
    (∀ ref, ev.get (py "work_item_id") = .str ref → k ≠ .workItem ev.workspaceId ref) →
      s'.lookup k = s.lookup k

theorem ItemLog.keys {item : List (Change Row)} (h : ItemLog conn ev w item) {k : RowKey}
    (hk : k ∈ locked item) :
    ∃ ref, ev.get (py "work_item_id") = .str ref ∧ k = .workItem ev.workspaceId ref := by
  cases h with
  | skip => cases hk
  | @join ref before row href =>
    rw [locked_cons, locked_nil, List.mem_singleton] at hk
    exact ⟨ref, href, hk⟩

theorem ActivityLog.keys {dayOf : ℤ → ℤ} {e : LeftEvent} {activity : List (Change Row)}
    (h : ActivityLog dayOf e activity) {k : RowKey} (hk : k ∈ locked activity) :
    ∃ c, activityGroup dayOf e = some c ∧ k = .userActivity c.1 c.2.1 c.2.2 := by
  cases h with
  | skip => cases hk
  | @fold c before row hgroup =>
    rw [locked_cons, locked_nil, List.mem_singleton] at hk
    exact ⟨c, hgroup, hk⟩

theorem MeterLog.keys {e : LeftEvent} {meter : List (Change Row)} (h : MeterLog conn e meter)
    {k : RowKey} (hk : k ∈ locked meter) :
    ∃ c, meterGroup conn.dayOf e = some c ∧ k = .meterUsage c.1 c.2.1 c.2.2.1 c.2.2.2 := by
  cases h with
  | skip => cases hk
  | @fold c before row hgroup =>
    rw [locked_cons, locked_nil, List.mem_singleton] at hk
    exact ⟨c, hgroup, hk⟩

theorem EventLog.eventKey (h : EventLog conn ev u x w log) {ws : ℕ} {key : PyStr} {t : ℤ}
    (hk : RowKey.event ws key t ∈ locked log) : RowKey.event ws key t = ev.rowKey := by
  obtain ⟨-, joins, -, -, active, metered⟩ := h
  simp only [locked_cons, locked_append, List.mem_cons, List.mem_append] at hk
  rcases hk with hkey | hk | hkey | hkey | hk | hk
  · exact hkey
  · obtain ⟨ref, -, hkey⟩ := joins.keys hk
    cases hkey
  · exact hkey
  · cases hkey
  · obtain ⟨c, -, hkey⟩ := active.keys hk
    cases hkey
  · obtain ⟨c, -, hkey⟩ := metered.keys hk
    cases hkey

/-- The event is settled where it was claimed, and no other event is written. -/
theorem EventLog.left (h : EventLog conn ev u x w log) (hlog : Consistent log s) :
    s.lookup ev.rowKey = some ev.row ∧
      leftEvents (view log s) = ev.settled u x w ::ₘ leftEvents s ∧
      (view log s).lookup ev.rowKey = some (ev.settled u x w).row ∧
      ⟨ev.rowKey, some ev.row, (ev.settled u x w).row⟩ ∈ log := by
  obtain ⟨accepted, joins, settles, -, active, metered⟩ := h
  rename_i item activity meter before after statsBefore stats
  obtain ⟨hstored, hlog⟩ := hlog
  have hitem : ∀ k ∈ locked item, ∀ ws key t, k ≠ .event ws key t := by
    rintro k hk ws key t rfl
    obtain ⟨ref, -, hkey⟩ := joins.keys hk
    cases hkey
  have hrest : ∀ k ∈ locked (⟨ev.statsKey conn, statsBefore, stats⟩ :: (activity ++ meter)),
      ∀ ws key t, k ≠ .event ws key t := by
    rintro k hk ws key t rfl
    rw [locked_cons, locked_append, List.mem_cons, List.mem_append] at hk
    rcases hk with hkey | hk | hk
    · cases hkey
    · obtain ⟨c, -, hkey⟩ := active.keys hk
      cases hkey
    · obtain ⟨c, -, hkey⟩ := metered.keys hk
      cases hkey
  have hclaim : leftEvents (s.insert ev.rowKey ev.row) = leftEvents s := by
    refine leftEvents_insert_accepted accepted fun old hold => ?_
    cases hstored.symm.trans hold
    exact accepted
  have hjoined : leftEvents (view item (s.insert ev.rowKey ev.row)) = leftEvents s := by
    rw [← hclaim]
    exact tally_view leftOf (fun c hc r => leftOf_ne_event (hitem _ (List.mem_map_of_mem hc)) r) _
  obtain ⟨hbefore, hafter⟩ := hlog.lookup_change
    (fun hk => hitem _ hk _ _ _ rfl) fun hk => hrest _ hk _ _ _ rfl
  obtain rfl : some ev.row = before := (AList.lookup_insert s).symm.trans hbefore
  cases settles
  refine ⟨hstored, ?_, hafter, by simp [ClaimedEvent.settled]⟩
  have hkept : (view item (s.insert ev.rowKey ev.row)).lookup ev.rowKey = some ev.row := by
    rw [lookup_view_of_not_locked fun hk => hitem _ hk _ _ _ rfl, AList.lookup_insert]
  have hsettled : leftEvents ((view item (s.insert ev.rowKey ev.row)).insert ev.rowKey
      (ev.settled u x w).row) = ev.settled u x w ::ₘ leftEvents s := by
    rw [← hjoined]
    exact leftEvents_settle hkept accepted (settledStatus_ne_accepted x w)
  rw [view_cons, view_append, view_cons, ← hsettled]
  exact tally_view leftOf (fun c hc r => leftOf_ne_event (hrest _ (List.mem_map_of_mem hc)) r) _

theorem EventLog.effect (h : EventLog conn ev u x w log) (hlog : Consistent log s) :
    Effect conn ev u x w s (view log s) := by
  obtain ⟨hstored, hleft, hsettled, -⟩ := h.left hlog
  obtain ⟨accepted, joins, -, counts, active, metered⟩ := h
  rename_i item activity meter before after statsBefore stats
  have hitem : ∀ k, (∀ ref, k ≠ .workItem ev.workspaceId ref) → k ∉ locked item := by
    intro k hne hk
    obtain ⟨ref, -, hkey⟩ := joins.keys hk
    exact hne ref hkey
  have hactivity : ∀ k, (∀ d user day, k ≠ .userActivity d user day) → k ∉ locked activity := by
    intro k hne hk
    obtain ⟨c, -, hkey⟩ := active.keys hk
    exact hne _ _ _ hkey
  have hmeter : ∀ k, (∀ d m ref day, k ≠ .meterUsage d m ref day) → k ∉ locked meter := by
    intro k hne hk
    obtain ⟨c, -, hkey⟩ := metered.keys hk
    exact hne _ _ _ _ hkey
  have hitemChange : ∀ {ref : PyStr} {itemBefore : Option WorkItemRow} {row : WorkItemRow},
      item = [⟨.workItem ev.workspaceId ref, itemBefore, row⟩] →
      s.lookup (.workItem ev.workspaceId ref) = itemBefore ∧
        (view (⟨ev.rowKey, some ev.row, ev.row⟩ :: (item ++ ⟨ev.rowKey, before, after⟩ ::
          ⟨ev.statsKey conn, statsBefore, stats⟩ :: (activity ++ meter))) s).lookup
            (.workItem ev.workspaceId ref) = some row := by
    rintro ref itemBefore row rfl
    have hwhole : Consistent ([⟨ev.rowKey, some ev.row, ev.row⟩] ++
        ⟨.workItem ev.workspaceId ref, itemBefore, row⟩ :: ⟨ev.rowKey, before, after⟩ ::
          ⟨ev.statsKey conn, statsBefore, stats⟩ :: (activity ++ meter)) s := by simpa using hlog
    exact hwhole.lookup_change (by simp)
      (by simpa using ⟨hactivity (.workItem ev.workspaceId ref) (by simp),
        hmeter (.workItem ev.workspaceId ref) (by simp)⟩)
  refine ⟨accepted, hstored, hleft, hsettled, ?_, ?_, ?_, ?_, ?_, ?_, ?_⟩
  · have hwhole : Consistent ((⟨ev.rowKey, some ev.row, ev.row⟩ :: (item ++
        [⟨ev.rowKey, before, after⟩])) ++ ⟨ev.statsKey conn, statsBefore, stats⟩ ::
          (activity ++ meter)) s := by simpa using hlog
    obtain ⟨hbefore, hafter⟩ := hwhole.lookup_change
      (by simpa using hitem (ev.statsKey conn) (by simp))
      (by simpa using ⟨hactivity (ev.statsKey conn) (by simp), hmeter (ev.statsKey conn) (by simp)⟩)
    refine ⟨stats, by simpa using hafter, ?_⟩
    rw [show s.lookup (ev.statsKey conn) = statsBefore from hbefore]
    exact counts
  · intro c hc
    cases active with
    | skip hnone => cases hnone.symm.trans hc
    | @fold d userBefore row hgroup hu =>
      cases hgroup.symm.trans hc
      have hwhole : Consistent ((⟨ev.rowKey, some ev.row, ev.row⟩ :: (item ++
          ⟨ev.rowKey, before, after⟩ :: [⟨ev.statsKey conn, statsBefore, stats⟩])) ++
            ⟨.userActivity c.1 c.2.1 c.2.2, userBefore, row⟩ :: meter) s := by simpa using hlog
      obtain ⟨hbefore, hafter⟩ := hwhole.lookup_change
        (by simpa using hitem (.userActivity c.1 c.2.1 c.2.2) (by simp))
        (hmeter (.userActivity c.1 c.2.1 c.2.2) (by simp))
      refine ⟨row, by simpa [activityTable] using hafter, ?_⟩
      rw [show activityTable s c = userBefore from hbefore]
      exact hu
  · intro hcost
    cases metered with
    | skip hne => exact absurd hcost hne
    | @fold c meterBefore row hgroup => exact ⟨c, hgroup⟩
  · intro c hc
    cases metered with
    | skip hne => simp [meterGroup, hne] at hc
    | @fold d meterBefore row hgroup hu hfits =>
      cases hgroup.symm.trans hc
      have hwhole : Consistent ((⟨ev.rowKey, some ev.row, ev.row⟩ :: (item ++
          ⟨ev.rowKey, before, after⟩ :: ⟨ev.statsKey conn, statsBefore, stats⟩ :: activity)) ++
            [⟨.meterUsage c.1 c.2.1 c.2.2.1 c.2.2.2, meterBefore, row⟩]) s := by simpa using hlog
      obtain ⟨hbefore, hafter⟩ := hwhole.lookup_change
        (by simpa using ⟨hitem (.meterUsage c.1 c.2.1 c.2.2.1 c.2.2.2) (by simp),
          hactivity (.meterUsage c.1 c.2.1 c.2.2.1 c.2.2.2) (by simp)⟩) List.not_mem_nil
      refine ⟨row, by simpa [meterTable] using hafter, ?_⟩
      rw [show meterTable s c = meterBefore from hbefore]
      exact ⟨hu, hfits⟩
  · intro hbearing htruthy
    cases joins with
    | skip hskip => exact absurd ⟨hbearing, htruthy⟩ hskip
    | @join ref itemBefore row href =>
      refine ⟨ref, href, ?_⟩
      rw [show _ = some row from (hitemChange rfl).2]
      exact Option.some_ne_none row
  · intro ws ref hnone hsome
    cases joins with
    | skip =>
      refine absurd ((lookup_view_of_not_locked ?_ s).trans hnone) hsome
      simpa using ⟨hactivity (.workItem ws ref) (by simp), hmeter (.workItem ws ref) (by simp)⟩
    | @join ref' itemBefore row href hfits =>
      by_cases hkey : RowKey.workItem ws ref = .workItem ev.workspaceId ref'
      · obtain ⟨rfl, rfl⟩ := RowKey.workItem.inj hkey
        exact hfits ((hitemChange rfl).1.symm.trans hnone)
      · refine absurd ((lookup_view_of_not_locked ?_ s).trans hnone) hsome
        simpa using ⟨by simpa using hkey, hactivity (.workItem ws ref) (by simp),
          hmeter (.workItem ws ref) (by simp)⟩
  · intro k hrow hstats hactive hmetered hjoined
    have hitem' : k ∉ locked item := by
      intro hk
      obtain ⟨ref, href, hkey⟩ := joins.keys hk
      exact hjoined ref href hkey
    have hactivity' : k ∉ locked activity := by
      intro hk
      obtain ⟨c, hc, hkey⟩ := active.keys hk
      exact hactive c hc hkey
    have hmeter' : k ∉ locked meter := by
      intro hk
      obtain ⟨c, hc, hkey⟩ := metered.keys hk
      exact hmetered c hc hkey
    refine lookup_view_of_not_locked ?_ s
    simp only [locked_cons, locked_append, List.mem_cons, List.mem_append, not_or]
    exact ⟨hrow, hitem', hrow, hstats, hactivity', hmeter'⟩

end TrueFigure.Server
