import TrueFigure.Server.GaugeOrder
import TrueFigure.Server.Monitors
import TrueFigure.Server.PipelineRoom

/-!
# Health rates

`live_health` of `api/routes/read_plane.py` divides the counters of
`ingestion_stats_daily`. Resolved events are identity-bearing ones, but the events that have
joined a work item are of any family: the join rate is one of the activities only where
nothing else joins.
-/
namespace TrueFigure.Server

open TrueFigure.Library TrueFigure.Python

/-! ### `live_health` -/

/-- The data of an answer of `live_health`. -/
structure LiveHealth (F : Type) where
  acceptedCount : ℕ
  identityResolutionRate : Option F
  workItemJoinRate : Option F
  lastEventAt : Option ℤ
  driftWarnings : List (AlertCode × PyStr)

section LiveHealth

variable {F : Type} (fl : Floats F) (s : Db) (alerts : List AlertRow) (deploymentId : ℕ)

/-- `n / total if total else None`. -/
def rateOf (n total : ℕ) : Option F := if total = 0 then none else some (fl.ratio n total)

def resolutionRate : Option F :=
  rateOf fl (statSum s deploymentId IngestionStatsRow.resolvedCount)
    (statSum s deploymentId IngestionStatsRow.identityBearingCount)

def joinRate : Option F :=
  rateOf fl (statSum s deploymentId IngestionStatsRow.joinedCount)
    (statSum s deploymentId IngestionStatsRow.activityCount)

/-- `live_health` of a deployment that was found. -/
def liveHealth : LiveHealth F where
  acceptedCount := statSum s deploymentId IngestionStatsRow.acceptedCount
  identityResolutionRate := (resolutionRate fl s deploymentId).map fun r => fl.round r 4
  workItemJoinRate := (joinRate fl s deploymentId).map fun r => fl.round r 4
  lastEventAt := lastEventAt s deploymentId
  driftWarnings :=
    (alerts.filter fun a => a.deploymentId = deploymentId ∧ a.alertStatus = .opened).map fun a =>
      (a.alertCode, a.detail)

end LiveHealth

/-! ### Fractions -/

/-- Rates are divided and rounded as numbers. -/
structure Floats.ExactRates (fl : Floats ℚ) : Prop where
  ratio : ∀ m n, fl.ratio m n = m / n
  round : ∀ x n, fl.round x n = roundHalfEven (x * 10 ^ n) / 10 ^ n

def processedEvents (s : Db) (deploymentId : ℕ) : Multiset LeftEvent :=
  (leftEvents s).filter fun e => e.row.deploymentId = deploymentId

/-- The fraction of these events that satisfy `q` among those that satisfy `p`. -/
def fraction (events : Multiset LeftEvent) (p q : LeftEvent → Bool) : Option ℚ :=
  if events.countP (fun e => p e) = 0 then none
  else some ((events.countP (fun e => p e && q e) : ℚ) / events.countP fun e => p e)

def IsRate (rate : Option ℚ) : Prop := ∀ r ∈ rate, 0 ≤ r ∧ r ≤ 1

/-- The served rates are rates: of the identity-bearing events those that resolved to a
person who is not excluded, of the activities those that joined a work item; and ten
activities of which none joined are a drop of the join rate. -/
structure HealthRates (fl : Floats ℚ) (s : Db) (alerts : List AlertRow) (deploymentId : ℕ) :
    Prop where
  resolution : resolutionRate fl s deploymentId =
    fraction (processedEvents s deploymentId) LeftEvent.idBearing LeftEvent.countedResolved
  join : joinRate fl s deploymentId =
    fraction (processedEvents s deploymentId) LeftEvent.isActivity LeftEvent.joined
  resolution_isRate : IsRate (liveHealth fl s alerts deploymentId).identityResolutionRate
  join_isRate : IsRate (liveHealth fl s alerts deploymentId).workItemJoinRate
  drop : ∀ workspaceId, ∀ r ∈ monitorRows s workspaceId, r.id = deploymentId →
    10 ≤ (processedEvents s deploymentId).countP (fun e => e.isActivity) →
    (processedEvents s deploymentId).countP (fun e => e.isActivity && e.joined) = 0 →
      r.joinRateDrop = true

/-- There is no activity yet, or nothing but activities has joined a work item. -/
def JoinsOnlyActivities (s : Db) (deploymentId : ℕ) : Prop :=
  (∀ e ∈ processedEvents s deploymentId, e.isActivity = false) ∨
    ∀ e ∈ processedEvents s deploymentId, e.joined = true → e.isActivity = true

/-! ### The counters -/

section Counters

variable {conn : Connection} {dayOf : ℤ → ℤ} {s : Db} {deploymentId : ℕ}

/-- Every event that counts as resolved was sent with a person reference. -/
def BearingOk (s : Db) : Prop :=
  ∀ e ∈ leftEvents s, e.countedResolved = true → e.idBearing = true

theorem processNext_preserves_bearing : Preserves BearingOk (processNext conn) := by
  intro log a s h hlog hok
  rcases runs_processNext_bearing h with rfl | ⟨ev, u, x, w, hbearing, hevent⟩
  · exact hok
  · intro e he hresolved
    rw [(hevent.effect hlog).left] at he
    rcases Multiset.mem_cons.1 he with rfl | he
    · by_contra hnot
      rw [hbearing (Bool.not_eq_true _ ▸ hnot)] at hresolved
      cases hresolved
    · exact hok e he hresolved

theorem arrives_preserves_bearing {body : Transaction} (h : Arrives body) :
    Preserves BearingOk body := by
  intro log a s hruns hlog hok
  show BearingOk (view log s)
  rw [BearingOk, (arrives_same h hruns hlog).1]
  exact hok

/-- What the aggregates say, with the invariant of the identity counters. -/
def CountsOk (dayOf : ℤ → ℤ) (s : Db) : Prop := AggregatesOk dayOf s ∧ BearingOk s

theorem counts_reachable {ι : Type} [DecidableEq ι] {w w' : World ι Row Failure Reply Outcome}
    (hstart : Unprocessed w.committed)
    (hparties : ∀ i, ∃ p : Process, w.stations i = .resting p ∧
      ((∃ conn limit, conn.dayOf = dayOf ∧ p = runPipeline conn limit) ∨ p.All Arrives))
    (hreach : Reachable (fun _ => True) w w') : CountsOk dayOf w'.committed := by
  have hzero : BearingOk w.committed := by
    intro e he
    rw [leftEvents_eq_zero hstart] at he
    cases he
  refine ⟨aggregates_reachable hstart hparties hreach, ?_⟩
  refine committed_invariant hzero (fun i => ?_) hreach
  obtain ⟨p, hp, ⟨conn, limit, rfl, rfl⟩ | harrives⟩ := hparties i
  · exact ⟨_, hp, runPipelineFrom_all processNext_preserves_bearing limit _⟩
  · exact ⟨p, hp, Proc.All.mono (fun _ => arrives_preserves_bearing) harrives⟩

theorem statSum_eq_tally (count : IngestionStatsRow → ℕ) :
    statSum s deploymentId count =
      tally (fun x => ((statRowOf deploymentId x).map count).sum) s := by
  let φ : Multiset IngestionStatsRow →+ ℕ :=
    Multiset.sumAddMonoidHom.comp (Multiset.mapAddMonoidHom count)
  exact map_tally φ (statRowOf deploymentId) s

/-- The source and the day of an event. -/
def feedOf (dayOf : ℤ → ℤ) (e : LeftEvent) : PyStr × ℤ := (e.sourceRef, dayOf e.occurredAt)

theorem filter_statsGroup (deploymentId : ℕ) (feed : PyStr × ℤ) :
    (leftEvents s).filter (fun e => statsGroup dayOf e = some (deploymentId, feed)) =
      (processedEvents s deploymentId).filter fun e => some (feedOf dayOf e) = some feed := by
  rw [processedEvents, Multiset.filter_filter]
  refine Multiset.filter_congr fun e _ => ?_
  simp only [statsGroup, feedOf, Option.some.injEq, Prod.mk.injEq]
  tauto

/-- A counter of a deployment counts its processed events. -/
theorem statSum_eq (hok : StatsOk dayOf (leftEvents s) s) {count : IngestionStatsRow → ℕ}
    {p : LeftEvent → Bool} (hcount : ∀ g row, StatsOf g row → count row = g.countP fun e => p e) :
    statSum s deploymentId count = (processedEvents s deploymentId).countP fun e => p e := by
  let C := ((processedEvents s deploymentId).map (feedOf dayOf)).toFinset
  let key : PyStr × ℤ → RowKey := fun feed => .ingestionStats deploymentId feed.1 feed.2
  have hinj : Function.Injective key := by
    intro feed feed' hkey
    obtain ⟨-, hsource, hday⟩ := RowKey.ingestionStats.inj hkey
    exact Prod.ext hsource hday
  have hfold : ∀ feed, FoldOf StatsOf ((processedEvents s deploymentId).filter fun e =>
      some (feedOf dayOf e) = some feed) (s.lookup (key feed)) := by
    intro feed
    rw [← filter_statsGroup]
    exact hok (deploymentId, feed)
  have hcover : ∀ k r, s.lookup k = some r → (∃ feed ∈ C, key feed = k) ∨
      ((statRowOf deploymentId ⟨k, r⟩).map count).sum = 0 := by
    intro k r hrow
    cases k with
    | ingestionStats d source day =>
      by_cases hd : d = deploymentId
      · subst hd
        have hrowOf := hfold (source, day)
        rw [show s.lookup (key (source, day)) = some r from hrow] at hrowOf
        obtain ⟨e, he⟩ := Multiset.exists_mem_of_ne_zero (StatsOf.nonempty hrowOf)
        obtain ⟨hmem, hfeed⟩ := Multiset.mem_filter.1 he
        refine .inl ⟨(source, day), Multiset.mem_toFinset.2 ?_, rfl⟩
        exact Multiset.mem_map.2 ⟨e, hmem, Option.some.inj hfeed⟩
      · refine .inr ?_
        rw [statRowOf, if_neg hd]
        rfl
    | _ => exact .inr rfl
  rw [statSum_eq_tally, tally_eq_sum_groups _ hinj hcover,
    ← sum_countP_groups (fun e he => ⟨feedOf dayOf e, Multiset.mem_toFinset.2
      (Multiset.mem_map_of_mem _ he), rfl⟩) p]
  refine Finset.sum_congr rfl fun feed _ => ?_
  have hrow := hfold feed
  cases hlookup : s.lookup (key feed) with
  | none =>
    rw [hlookup] at hrow
    have hempty : ((processedEvents s deploymentId).filter fun e =>
        some (feedOf dayOf e) = some feed) = 0 := hrow
    rw [hempty]
    rfl
  | some row =>
    rw [hlookup] at hrow
    have hrowOf : statRowOf deploymentId ⟨key feed, row⟩ = {row} := if_pos rfl
    rw [Option.elim_some, hrowOf, Multiset.map_singleton, Multiset.sum_singleton]
    exact hcount _ _ hrow

end Counters

/-! ### The rates -/

section Rates

variable {fl : Floats ℚ} {dayOf : ℤ → ℤ} {s : Db} {alerts : List AlertRow} {deploymentId : ℕ}
  {events : Multiset LeftEvent} {p q : LeftEvent → Bool}

theorem roundHalfEven_le {x : ℚ} {n : ℤ} (h : x ≤ n) : roundHalfEven x ≤ n := by
  have hfloor : ⌊x⌋ ≤ n := by exact_mod_cast (Int.floor_le x).trans h
  have hceil : 1 / 2 ≤ Int.fract x → ⌊x⌋ + 1 ≤ n := by
    intro hhalf
    have hlt : (⌊x⌋ : ℚ) < n := by
      have hsplit := Int.floor_add_fract x
      linarith
    exact_mod_cast hlt
  unfold roundHalfEven
  split_ifs with hlow hhigh heven
  · exact hfloor
  · exact hceil hhigh.le
  · exact hfloor
  · exact hceil (not_lt.1 hlow)

theorem isRate_round (hexact : fl.ExactRates) {rate : Option ℚ} (h : IsRate rate) :
    IsRate (rate.map fun r => fl.round r 4) := by
  intro r hr
  obtain ⟨x, hx, rfl⟩ := Option.mem_map.1 hr
  obtain ⟨hzero, hone⟩ := h x hx
  rw [hexact.round]
  have hlow : 0 ≤ roundHalfEven (x * 10 ^ 4) := roundHalfEven_nonneg (by positivity)
  have hhigh : roundHalfEven (x * 10 ^ 4) ≤ 10000 := roundHalfEven_le (by push_cast; linarith)
  constructor
  · exact div_nonneg (by exact_mod_cast hlow) (by positivity)
  · rw [div_le_one (by positivity)]
    exact_mod_cast hhigh

theorem countP_eq_add (events : Multiset LeftEvent) (p q : LeftEvent → Bool) :
    events.countP (fun e => q e) =
      events.countP (fun e => p e && q e) + events.countP fun e => !p e && q e := by
  induction events using Multiset.induction with
  | empty => rfl
  | cons e events ih =>
    rw [countP_cons_toNat q, countP_cons_toNat fun e => p e && q e,
      countP_cons_toNat fun e => !p e && q e, ih]
    cases p e <;> cases q e <;> simp <;> omega

theorem countP_and_le : (events.countP fun e => p e && q e) ≤ events.countP fun e => p e := by
  rw [countP_eq_add events q p]
  simp only [Bool.and_comm (p _)]
  exact Nat.le_add_right _ _

theorem isRate_fraction : IsRate (fraction events p q) := by
  intro r hr
  unfold fraction at hr
  split_ifs at hr
  · cases hr
  · cases hr
    constructor
    · positivity
    · exact div_le_one_of_le₀ (by exact_mod_cast countP_and_le) (by positivity)

theorem rateOf_eq (hexact : fl.ExactRates) (n total : ℕ) :
    rateOf fl n total = if total = 0 then none else some ((n : ℚ) / total) := by
  rw [rateOf, hexact.ratio]

section

variable (hexact : fl.ExactRates) (hok : CountsOk dayOf s) (deploymentId)

include hexact hok

theorem resolutionRate_eq : resolutionRate fl s deploymentId =
    fraction (processedEvents s deploymentId) LeftEvent.idBearing LeftEvent.countedResolved := by
  have hbearing : (processedEvents s deploymentId).countP (fun e => e.countedResolved) =
      (processedEvents s deploymentId).countP fun e => e.idBearing && e.countedResolved := by
    refine Multiset.countP_congr rfl fun e he => ?_
    have himp := hok.2 e (Multiset.mem_of_mem_filter he)
    cases hresolved : e.countedResolved with
    | false => simp
    | true => simp [himp hresolved]
  rw [resolutionRate, rateOf_eq hexact, statSum_eq hok.1.stats fun g row h => h.resolved,
    statSum_eq hok.1.stats fun g row h => h.identityBearing, hbearing, fraction]

/-- The join rate divides the joined events of every family by the activities. -/
theorem joinRate_eq : joinRate fl s deploymentId =
    if (processedEvents s deploymentId).countP (fun e => e.isActivity) = 0 then none
    else some (((processedEvents s deploymentId).countP (fun e => e.joined) : ℚ) /
      (processedEvents s deploymentId).countP fun e => e.isActivity) := by
  rw [joinRate, rateOf_eq hexact, statSum_eq hok.1.stats fun g row h => h.joined,
    statSum_eq hok.1.stats fun g row h => h.activity]

/-- The join rate is one of the activities exactly where nothing else has joined. -/
theorem joinRate_eq_iff : joinRate fl s deploymentId =
    fraction (processedEvents s deploymentId) LeftEvent.isActivity LeftEvent.joined ↔
      JoinsOnlyActivities s deploymentId := by
  rw [joinRate_eq deploymentId hexact hok, fraction, JoinsOnlyActivities]
  by_cases hzero : (processedEvents s deploymentId).countP (fun e => e.isActivity) = 0
  · rw [if_pos hzero, if_pos hzero]
    refine iff_of_true rfl (.inl fun e he => ?_)
    simpa using Multiset.countP_eq_zero.1 hzero e he
  · rw [if_neg hzero, if_neg hzero, Option.some.injEq, div_left_inj' (by exact_mod_cast hzero),
      Nat.cast_inj, countP_eq_add _ LeftEvent.isActivity LeftEvent.joined, Nat.add_eq_left,
      Multiset.countP_eq_zero]
    have hsome : ¬ ∀ e ∈ processedEvents s deploymentId, e.isActivity = false := by
      intro hall
      refine hzero (Multiset.countP_eq_zero.2 fun e he => ?_)
      rw [hall e he]
      exact Bool.false_ne_true
    rw [or_iff_right hsome]
    refine forall₂_congr fun e _ => ?_
    cases e.isActivity <;> cases e.joined <;> simp

end

theorem joinRateDrop_iff (hok : CountsOk dayOf s) {workspaceId : ℕ} {r : MonitorRow}
    (hr : r ∈ monitorRows s workspaceId) :
    r.joinRateDrop = true ↔
      10 ≤ (processedEvents s r.id).countP (fun e => e.isActivity) ∧
        (processedEvents s r.id).countP (fun e => e.joined) = 0 := by
  obtain ⟨⟨k, row⟩, -, hrow⟩ := List.mem_filterMap.1 hr
  cases k with
  | deployment ref =>
    by_cases hws : (row : DeploymentRow).workspaceId = workspaceId
    · rw [monitorRowOf, if_pos hws] at hrow
      cases hrow
      rw [MonitorRow.joinRateDrop, Bool.and_eq_true, decide_eq_true_eq, decide_eq_true_eq,
        statSum_eq hok.1.stats fun g row h => h.joined,
        statSum_eq hok.1.stats fun g row h => h.activity]
    · rw [monitorRowOf, if_neg hws] at hrow
      cases hrow
  | _ => cases hrow

/-- Where the counters are those of the events, the served rates are rates exactly where
nothing but activities has joined a work item, or there is no activity yet. -/
theorem healthRates_of_counts (hexact : fl.ExactRates) (hok : CountsOk dayOf s)
    (alerts : List AlertRow) (deploymentId : ℕ) :
    HealthRates fl s alerts deploymentId ↔ JoinsOnlyActivities s deploymentId := by
  constructor
  · intro h
    exact (joinRate_eq_iff deploymentId hexact hok).1 h.join
  · intro h
    have hresolution := resolutionRate_eq deploymentId hexact hok
    have hjoin := (joinRate_eq_iff deploymentId hexact hok).2 h
    refine ⟨hresolution, hjoin, isRate_round hexact ?_, isRate_round hexact ?_, ?_⟩
    · rw [hresolution]
      exact isRate_fraction
    · rw [hjoin]
      exact isRate_fraction
    · rintro workspaceId r hr rfl hten hnone
      refine (joinRateDrop_iff hok hr).2 ⟨hten, ?_⟩
      rw [countP_eq_add _ LeftEvent.isActivity LeftEvent.joined, hnone, zero_add]
      refine Multiset.countP_eq_zero.2 fun e he => ?_
      rcases h with hall | hall
      · have hzero : (processedEvents s r.id).countP (fun e => e.isActivity) = 0 := by
          refine Multiset.countP_eq_zero.2 fun e he => ?_
          rw [hall e he]
          exact Bool.false_ne_true
        rw [hzero] at hten
        omega
      · have himp := hall e he
        cases hactivity : e.isActivity <;> cases hjoined : e.joined <;> simp_all

end Rates

/-- Whatever workers and arrivals do: the rates of a deployment are rates exactly where
nothing but activities has joined a work item, or there is no activity yet. -/
theorem healthRates_iff {ι : Type} [DecidableEq ι] {dayOf : ℤ → ℤ} {fl : Floats ℚ}
    {w w' : World ι Row Failure Reply Outcome} (hexact : fl.ExactRates)
    (hstart : Unprocessed w.committed)
    (hparties : ∀ i, ∃ p : Process, w.stations i = .resting p ∧
      ((∃ conn limit, conn.dayOf = dayOf ∧ p = runPipeline conn limit) ∨ p.All Arrives))
    (hreach : Reachable (fun _ => True) w w') (alerts : List AlertRow) (deploymentId : ℕ) :
    HealthRates fl w'.committed alerts deploymentId ↔
      JoinsOnlyActivities w'.committed deploymentId :=
  healthRates_of_counts hexact (counts_reachable hstart hparties hreach) alerts deploymentId

/-! ### Two completions and an activity -/

theorem exactFloats_rates : exactFloats.ExactRates := ⟨fun _ _ => rfl, fun _ _ => rfl⟩

set_option maxRecDepth 4000 in
/-- The activity of `twoWorkers` joins. -/
theorem healthRates_iff_twoWorkers : ∃ w', Reachable (fun _ => True) twoWorkers w' ∧
    joinRate exactFloats w'.committed 1 = some 1 ∧ HealthRates exactFloats w'.committed [] 1 := by
  have hrun : Reachable (fun _ => True) twoWorkers _ :=
    run_reachable (i := true) _ rfl fun k j _ => by simp [twoWorkers, Station.locks]
  refine ⟨_, hrun, by decide +kernel, ?_⟩
  refine (healthRates_iff exactFloats_rates unprocessed_twoWorkers
    (fun i => ⟨_, rfl, .inl ⟨_, 3, rfl, rfl⟩⟩) hrun [] 1).2 (.inr ?_)
  decide +kernel

/-- A lifecycle event of a work item. -/
def completedEvent (item : String) : EventRow where
  deploymentId := 1
  eventType := .lifecycle
  originType := .customerSystem
  pipelineStatus := .accepted
  schemaVersion := py "1.0"
  sourceRef := none
  payload := [(py "event", .str (py "completed")), (py "work_item_id", .str (py item))]
  resolvedUserId := none
  workItemId := none
  exclusionReason := none

/-- Two work items are completed; one activity names none. -/
def completedItems : World Unit Row Failure Reply Outcome where
  committed := (((∅ : Db).insert (.event 1 (py "k1") 5) (completedEvent "w1")).insert
    (.event 1 (py "k2") 6) (completedEvent "w2")).insert (.event 1 (py "k3") 7)
      { waitingEvent with payload := [(py "user_ref", .str (py "u1"))] }
  sequence := 7
  stations := fun _ => .resting (runPipeline ⟨fun t => t / 86400000, List.head?, fun _ => true⟩ 3)

/-- Two joined events against one activity that has not joined: a rate of 2. -/
theorem joinRate_two : ∃ w', Reachable (fun _ => True) completedItems w' ∧
    (liveHealth exactFloats w'.committed [] 1).workItemJoinRate = some 2 ∧
    ¬ HealthRates exactFloats w'.committed [] 1 := by
  have hrun : Reachable (fun _ => True) completedItems _ :=
    run_reachable (i := ()) _ rfl fun k j _ => by simp [completedItems, Station.locks]
  have hrate : (liveHealth exactFloats (completedItems.finished ()
      ((runPipeline ⟨fun t => t / 86400000, List.head?, fun _ => true⟩ 3).run
        completedItems.committed completedItems.sequence)).committed [] 1).workItemJoinRate =
          some 2 := by
    decide +kernel
  refine ⟨_, hrun, hrate, fun h => ?_⟩
  have hone := (h.join_isRate 2 hrate).2
  norm_num at hone

end TrueFigure.Server
