import TrueFigure.Library.Runs
import TrueFigure.Server.Engine
import TrueFigure.Server.RefusalLifted

/-!
# Monitors

`run_monitors` and `_raise_alert` of `domain/engine.py` and `ack_alert` of
`api/routes/read_plane.py`. A call of `run_monitors` is one transaction, but `emit` enqueues
the deliveries of each alert in a transaction of its own: a call that fails takes its alerts
back and leaves the deliveries of those it had announced.
-/
namespace TrueFigure.Server

open TrueFigure.Library TrueFigure.Python

/-! ### Rows -/

inductive AlertCode
  | joinRateDrop | resolutionRateDrop | eventSilence | counterMonotonicSuspect
  | clockSkewSuspect | licenseUndeclared
  deriving DecidableEq, Repr

def AlertCode.wire : AlertCode → PyStr
  | .joinRateDrop => py "join_rate_drop"
  | .resolutionRateDrop => py "resolution_rate_drop"
  | .eventSilence => py "event_silence"
  | .counterMonotonicSuspect => py "counter_monotonic_suspect"
  | .clockSkewSuspect => py "clock_skew_suspect"
  | .licenseUndeclared => py "license_undeclared"

/-- `alert_status`; an alert is `open` until it is acked. -/
inductive AlertStatus
  | opened | acked | resolved
  deriving DecidableEq, Repr

/-- A row of `alerts`; instants are microseconds since 1970. -/
structure AlertRow where
  workspaceId : ℕ
  deploymentId : ℕ
  ackedBy : Option ℕ
  alertCode : AlertCode
  alertStatus : AlertStatus
  alertRef : PyStr
  detail : PyStr
  firstSeen : ℕ
  lastSeen : ℕ
  ackedAt : Option ℕ
  deriving DecidableEq

/-! ### The query -/

section Query

variable (s : Db) (deploymentId : ℕ)

def statRowOf : Sigma Row → Multiset IngestionStatsRow
  | ⟨.ingestionStats d _ _, row⟩ => if d = deploymentId then {(row : IngestionStatsRow)} else 0
  | _ => 0

/-- The rows of `ingestion_stats_daily` of a deployment. -/
def statRows : Multiset IngestionStatsRow := tally (statRowOf deploymentId) s

/-- `COALESCE(SUM(…), 0)` of a counter of these rows. -/
def statSum (count : IngestionStatsRow → ℕ) : ℕ := ((statRows s deploymentId).map count).sum

/-- `MAX(last_event_at)`. -/
def lastEventAt : Option ℤ :=
  ((statRows s deploymentId).map fun row => (row.lastEventAt : WithBot ℤ)).sup

end Query

/-- A row of the query of `run_monitors`. -/
structure MonitorRow where
  id : ℕ
  deploymentRef : PyStr
  lastEvent : Option ℤ
  activity : ℕ
  joined : ℕ

def monitorRowOf (s : Db) (workspaceId : ℕ) : Sigma Row → Option MonitorRow
  | ⟨.deployment ref, row⟩ =>
    if (row : DeploymentRow).workspaceId = workspaceId then some
      { id := (row : DeploymentRow).id
        deploymentRef := ref
        lastEvent := lastEventAt s (row : DeploymentRow).id
        activity := statSum s (row : DeploymentRow).id IngestionStatsRow.activityCount
        joined := statSum s (row : DeploymentRow).id IngestionStatsRow.joinedCount }
    else none
  | _ => none

/-- The query of `run_monitors`; it asks for no order. -/
def monitorRows (s : Db) (workspaceId : ℕ) : List MonitorRow :=
  s.entries.filterMap (monitorRowOf s workspaceId)

/-- `deployments.id`, the primary key. -/
def deploymentIdOf : Sigma Row → Option ℕ
  | ⟨.deployment _, row⟩ => some (row : DeploymentRow).id
  | _ => none

def deploymentIds (s : Db) : List ℕ := s.entries.filterMap deploymentIdOf

/-! ### Conditions -/

/-- A condition `run_monitors` has found. -/
structure Finding where
  deploymentId : ℕ
  code : AlertCode
  detail : PyStr
  deriving DecidableEq

namespace MonitorRow

variable (r : MonitorRow)

/-- `last is not None and (datetime.now(UTC) - last).days >= 2`; events are dated in
milliseconds since the first day of year 1. -/
def silent (clock : ℕ) : Bool :=
  r.lastEvent.any fun last => 2 ≤ ((clock : ℤ) - (last - 62135596800000) * 1000) / 86400000000

/-- `activity >= 10 and joined == 0`. -/
def joinRateDrop : Bool := 10 ≤ r.activity && r.joined = 0

def findings (clock : ℕ) : List Finding :=
  (if r.silent clock then
    [⟨r.id, .eventSilence, py "no events for " ++ r.deploymentRef ++ py " in >= 2 days"⟩]
  else []) ++
  if r.joinRateDrop then
    [⟨r.id, .joinRateDrop, r.deploymentRef ++
      py (" join rate is zero over " ++ toString r.activity ++ " activity events")⟩]
  else []

end MonitorRow

/-- What `run_monitors` finds in a workspace, in the order of its loop. -/
def findings (s : Db) (workspaceId clock : ℕ) : List Finding :=
  (monitorRows s workspaceId).flatMap fun r => r.findings clock

/-! ### `run_monitors` -/

/-- What a call draws: its clocks, and for each alert its reference and the instant of its
`emit`. -/
structure MonitorDraws where
  /-- `datetime.now(UTC)`. -/
  clock : ℕ
  /-- `now()` of the transaction. -/
  now : ℕ
  alertRef : ℕ → PyStr
  sentAt : ℕ → ℕ

/-- The payload of `alert.raised`. -/
def alertPayload (alertRef : PyStr) (code : AlertCode) : Dict :=
  [(py "alert_id", .str alertRef), (py "code", .str code.wire)]

section RunMonitors

variable (env : HookEnv) (workspaceId : ℕ) (draws : MonitorDraws)

/-- The row the `n`-th alert of a call inserts. -/
def alertOf (n : ℕ) (f : Finding) : AlertRow where
  workspaceId := workspaceId
  deploymentId := f.deploymentId
  ackedBy := none
  alertCode := f.code
  alertStatus := .opened
  alertRef := draws.alertRef n
  detail := f.detail
  firstSeen := draws.now
  lastSeen := draws.now
  ackedAt := none

def raiseAlert (n : ℕ) (f : Finding) (alerts : List AlertRow) (t : HookTables) :
    Except Failure (List AlertRow × HookTables) :=
  if alerts.any fun a => a.alertRef = draws.alertRef n then .error (.database .uniqueViolation)
  else
    .ok (alerts ++ [alertOf workspaceId draws n f],
      (emit env workspaceId .alertRaised (alertPayload (draws.alertRef n) f.code) (draws.sentAt n)
        t).2)

/-- The loop of `run_monitors` from the `n`-th alert on. It fails once it has raised the
alerts before `crash`, if that says so; the deliveries enqueued by then stay. -/
def raiseAlerts (crash : Option ℕ) : List Finding → ℕ → List AlertRow → HookTables →
    Except Failure (List AlertRow) × HookTables
  | [], n, alerts, t =>
    if crash = some n then (.error (.database .interrupted), t) else (.ok alerts, t)
  | f :: fs, n, alerts, t =>
    if crash = some n then (.error (.database .interrupted), t)
    else
      match raiseAlert env workspaceId draws n f alerts t with
      | .error e => (.error e, t)
      | .ok (alerts, t) => raiseAlerts crash fs (n + 1) alerts t

end RunMonitors

/-- The tables the monitors read and write. -/
structure MonitorState where
  db : Db
  alerts : List AlertRow
  hooks : HookTables
  /-- `pk_deployments`. -/
  ids : (deploymentIds db).Nodup

/-- `run_monitors`: the references of the alerts it raises. -/
def runMonitors (env : HookEnv) (workspaceId : ℕ) (draws : MonitorDraws) (crash : Option ℕ)
    (s : MonitorState) : Except Failure (List PyStr) × MonitorState :=
  match raiseAlerts env workspaceId draws crash (findings s.db workspaceId draws.clock) 0 s.alerts
    s.hooks with
  | (.ok alerts, t) =>
    (.ok ((alerts.drop s.alerts.length).map AlertRow.alertRef),
      { s with alerts := alerts, hooks := t })
  | (.error e, t) => (.error e, { s with hooks := t })

/-- The row `ack_alert` updates. -/
def AlertRow.ackable (ref : PyStr) (workspaceId : ℕ) (a : AlertRow) : Bool :=
  a.alertRef = ref ∧ a.workspaceId = workspaceId ∧ a.alertStatus = .opened

def ackAlert (ref : PyStr) (workspaceId ownerUserId now : ℕ) (alerts : List AlertRow) :
    Except Failure (List AlertRow) :=
  if alerts.any (AlertRow.ackable ref workspaceId) then
    .ok (alerts.map fun a =>
      if a.ackable ref workspaceId then
        { a with alertStatus := .acked, ackedBy := some ownerUserId, ackedAt := some now }
      else a)
  else .error (.tfError ⟨.read001, none, some (py "open alert " ++ ref ++ py " not found")⟩)

/-! ### What a call finds -/

section Findings

variable {s : Db} {workspaceId clock : ℕ}

/-- What the condition is about. -/
def Finding.key (f : Finding) : ℕ × AlertCode := (f.deploymentId, f.code)

def AlertRow.key (a : AlertRow) : ℕ × AlertCode := (a.deploymentId, a.alertCode)

theorem nodup_monitorRows (h : (deploymentIds s).Nodup) :
    ((monitorRows s workspaceId).map MonitorRow.id).Nodup := by
  refine h.sublist ?_
  have hsub : ∀ entries : List (Sigma Row),
      ((entries.filterMap (monitorRowOf s workspaceId)).map MonitorRow.id).Sublist
        (entries.filterMap deploymentIdOf) := by
    intro entries
    induction entries with
    | nil => exact List.Sublist.refl _
    | cons x entries ih =>
      obtain ⟨k, row⟩ := x
      cases k with
      | deployment ref =>
        by_cases hws : (row : DeploymentRow).workspaceId = workspaceId
        · simpa [monitorRowOf, deploymentIdOf, hws] using ih
        · simpa [monitorRowOf, deploymentIdOf, hws] using ih.cons _
      | _ => exact ih
  exact hsub s.entries

theorem keys_findings (r : MonitorRow) :
    ((r.findings clock).map Finding.key).Nodup ∧
      ∀ k ∈ (r.findings clock).map Finding.key, k.1 = r.id := by
  unfold MonitorRow.findings
  split_ifs <;> simp [Finding.key]

theorem nodup_findings (h : (deploymentIds s).Nodup) :
    ((findings s workspaceId clock).map Finding.key).Nodup := by
  rw [findings, List.map_flatMap, List.nodup_flatMap]
  refine ⟨fun r _ => (keys_findings r).1, ?_⟩
  refine (List.pairwise_map.1 (nodup_monitorRows h)).imp fun hne k hk hk' => hne ?_
  rw [← (keys_findings _).2 k hk, (keys_findings _).2 k hk']

end Findings

/-! ### What a call leaves -/

section Raised

variable {env : HookEnv} {workspaceId : ℕ} {draws : MonitorDraws} {crash : Option ℕ}
  {fs : List Finding} {n : ℕ} {alerts alerts' : List AlertRow} {t : HookTables}

/-- The alerts a loop raises and announces before it ends or fails. -/
def announced (workspaceId : ℕ) (draws : MonitorDraws) (crash : Option ℕ) :
    List Finding → ℕ → List AlertRow → List AlertRow
  | [], _, _ => []
  | f :: fs, n, alerts =>
    if crash = some n ∨ ∃ a ∈ alerts, a.alertRef = draws.alertRef n then []
    else
      alertOf workspaceId draws n f ::
        announced workspaceId draws crash fs (n + 1) (alerts ++ [alertOf workspaceId draws n f])

def AlertRow.event (a : AlertRow) : WebhookEventType × Dict :=
  (.alertRaised, alertPayload a.alertRef a.alertCode)

theorem raiseAlert_eq (h : ¬ ∃ a ∈ alerts, a.alertRef = draws.alertRef n) (f : Finding) :
    raiseAlert env workspaceId draws n f alerts t =
      .ok (alerts ++ [alertOf workspaceId draws n f],
        (emit env workspaceId .alertRaised (alertPayload (draws.alertRef n) f.code)
          (draws.sentAt n) t).2) :=
  if_neg (by simpa using h)

/-- The deliveries of a call are those of the alerts it has announced, whether it fails or
not. -/
theorem raiseAlerts_hooks :
    (raiseAlerts env workspaceId draws crash fs n alerts t).2 =
      emitEvents env workspaceId (fun i => draws.sentAt (n + i))
        ((announced workspaceId draws crash fs n alerts).map AlertRow.event) t := by
  induction fs generalizing n alerts t with
  | nil =>
    unfold raiseAlerts
    split <;> rfl
  | cons f fs ih =>
    unfold raiseAlerts announced
    by_cases hcrash : crash = some n
    · rw [if_pos hcrash, if_pos (.inl hcrash)]
      rfl
    · rw [if_neg hcrash]
      by_cases htaken : ∃ a ∈ alerts, a.alertRef = draws.alertRef n
      · rw [if_pos (.inr htaken), raiseAlert, if_pos (by simpa using htaken)]
        rfl
      · rw [if_neg (not_or.2 ⟨hcrash, htaken⟩), raiseAlert_eq htaken]
        dsimp only
        rw [ih, List.map_cons, emitEvents]
        simp only [Nat.add_assoc, Nat.add_comm 1]
        rfl

theorem raiseAlerts_ok (h : (raiseAlerts env workspaceId draws crash fs n alerts t).1 = .ok alerts') :
    alerts' = alerts ++ announced workspaceId draws crash fs n alerts ∧
      (announced workspaceId draws crash fs n alerts).map AlertRow.key = fs.map Finding.key := by
  induction fs generalizing n alerts t with
  | nil =>
    unfold raiseAlerts at h
    split at h <;> cases h
    exact ⟨(List.append_nil _).symm, rfl⟩
  | cons f fs ih =>
    unfold raiseAlerts at h
    unfold announced
    split at h
    · cases h
    rename_i hcrash
    by_cases htaken : ∃ a ∈ alerts, a.alertRef = draws.alertRef n
    · rw [raiseAlert, if_pos (by simpa using htaken)] at h
      cases h
    · rw [raiseAlert_eq htaken] at h
      rw [if_neg (not_or.2 ⟨hcrash, htaken⟩)]
      obtain ⟨halerts, hkeys⟩ := ih h
      refine ⟨?_, ?_⟩
      · rw [halerts, List.append_assoc]
        rfl
      · rw [List.map_cons, List.map_cons, hkeys]
        rfl

theorem announced_fresh {a b : AlertRow} (ha : a ∈ announced workspaceId draws crash fs n alerts)
    (hb : b ∈ alerts) : a.alertRef ≠ b.alertRef := by
  induction fs generalizing n alerts with
  | nil => cases ha
  | cons f fs ih =>
    unfold announced at ha
    split at ha
    · cases ha
    rename_i h
    rcases List.mem_cons.1 ha with rfl | ha
    · exact fun heq => h (.inr ⟨b, hb, heq.symm⟩)
    · exact ih ha (List.mem_append_left _ hb)

theorem announced_opened {a : AlertRow} (ha : a ∈ announced workspaceId draws crash fs n alerts) :
    a.alertStatus = .opened ∧ a.workspaceId = workspaceId := by
  induction fs generalizing n alerts with
  | nil => cases ha
  | cons f fs ih =>
    unfold announced at ha
    split at ha
    · cases ha
    rcases List.mem_cons.1 ha with rfl | ha
    · exact ⟨rfl, rfl⟩
    · exact ih ha

end Raised

/-! ### One call -/

namespace MonitorState

/-- The alerts a call raises and announces. -/
def announced (workspaceId : ℕ) (draws : MonitorDraws) (crash : Option ℕ) (s : MonitorState) :
    List AlertRow :=
  TrueFigure.Server.announced workspaceId draws crash (findings s.db workspaceId draws.clock) 0
    s.alerts

end MonitorState

section RunMonitors

variable {env : HookEnv} {workspaceId : ℕ} {draws : MonitorDraws} {crash : Option ℕ}
  {s : MonitorState}

/-- The state a call leaves: its alerts only where it commits, its deliveries always. -/
theorem runMonitors_cases :
    (runMonitors env workspaceId draws crash s).2.db = s.db ∧
      (runMonitors env workspaceId draws crash s).2.hooks =
        emitEvents env workspaceId draws.sentAt
          ((s.announced workspaceId draws crash).map AlertRow.event) s.hooks ∧
      ((∃ e, (runMonitors env workspaceId draws crash s).1 = .error e ∧
          (runMonitors env workspaceId draws crash s).2.alerts = s.alerts) ∨
        (runMonitors env workspaceId draws crash s).1 =
            .ok ((s.announced workspaceId draws crash).map AlertRow.alertRef) ∧
          (runMonitors env workspaceId draws crash s).2.alerts =
            s.alerts ++ s.announced workspaceId draws crash ∧
          (s.announced workspaceId draws crash).map AlertRow.key =
            (findings s.db workspaceId draws.clock).map Finding.key) := by
  have hhooks := @raiseAlerts_hooks env workspaceId draws crash
    (findings s.db workspaceId draws.clock) 0 s.alerts s.hooks
  have hok : ∀ alerts', (raiseAlerts env workspaceId draws crash
      (findings s.db workspaceId draws.clock) 0 s.alerts s.hooks).1 = .ok alerts' → _ :=
    fun alerts' h => raiseAlerts_ok h
  simp only [Nat.zero_add] at hhooks
  unfold runMonitors
  generalize raiseAlerts env workspaceId draws crash (findings s.db workspaceId draws.clock) 0
    s.alerts s.hooks = r at hhooks hok
  obtain ⟨result, t⟩ := r
  cases result with
  | error e => exact ⟨rfl, hhooks, .inl ⟨e, rfl, rfl⟩⟩
  | ok alerts =>
    obtain ⟨halerts, hkeys⟩ := hok alerts rfl
    refine ⟨rfl, hhooks, .inr ⟨?_, halerts, hkeys⟩⟩
    dsimp only
    rw [halerts, List.drop_left]
    rfl

end RunMonitors

end TrueFigure.Server
