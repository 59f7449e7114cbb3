import TrueFigure.Server.DeliveryRuns
import TrueFigure.Server.EngineRows
import TrueFigure.Server.Monitors

/-!
# Calls of the engine

`compute_deployment`, `issue_report` and `run_monitors` of `domain/engine.py` from their
first statement to their last delivery, with the points at which they may fail. Each keeps
its rows in one transaction; webhooks are emitted, and artifacts put into storage, outside
of it.
-/
namespace TrueFigure.Server

open TrueFigure.Library TrueFigure.Python

/-- The tables and the bucket the calls work on. -/
structure EngineState where
  records : Records
  sequence : ℕ
  monitors : MonitorState
  /-- The bucket `report-artifacts`. -/
  objects : PyStr → Option Artifact

namespace EngineState

variable (s : EngineState)

def hooks : HookTables := s.monitors.hooks

def withHooks (t : HookTables) : EngineState :=
  { s with monitors := { s.monitors with hooks := t } }

end EngineState

/-! ### Deliveries -/

def deploymentRefRow (id : ℕ) : Sigma Row → Option PyStr
  | ⟨.deployment ref, row⟩ => if (row : DeploymentRow).id = id then some ref else none
  | _ => none

/-- `SELECT deployment_ref FROM deployments WHERE id=%s`. -/
def deploymentRefOf (db : Db) (id : ℕ) : Option PyStr :=
  (db.entries.filterMap (deploymentRefRow id)).head?

/-- The payload of `figure.updated` and of `refusal.lifted`. -/
def figurePayload (figureRef : PyStr) (deploymentRef : Option PyStr) (period : PyStr) : Dict :=
  [(py "figure_id", .str figureRef),
    (py "deployment_id", (deploymentRef.map Json.str).getD .null), (py "period", .str period)]

/-- The payload of `report.issued`. -/
def reportPayload (reportRef : PyStr) (version : ℕ) (period : PyStr)
    (deploymentRef : Option PyStr) : Dict :=
  [(py "report_id", .str reportRef), (py "version", .num (.int version)),
    (py "period", .str period), (py "deployment_id", (deploymentRef.map Json.str).getD .null)]

/-! ### The end of `issue_report` -/

namespace EngineState

variable (env : HookEnv) (s : EngineState) (c : Issue)

/-- `storage.put`: a put that fails leaves what was there, or a torn file. -/
def put (torn : Bool) (path : PyStr) (artifact : Artifact) : EngineState :=
  if c.stored then { s with objects := Function.update s.objects path (some artifact) }
  else if torn then { s with objects := Function.update s.objects path none }
  else s

/-- `_issue_report_webhook`, where the call comes to it. -/
def announceReport (announced : Bool) (artifact : Artifact) (now : ℕ) : EngineState :=
  if c.stored && announced then
    s.withHooks (emit env c.workspaceId .reportIssued (reportPayload artifact.reportRef
      artifact.version artifact.period (deploymentRefOf s.monitors.db c.deploymentId)) now
        s.hooks).2
  else s

end EngineState

/-! ### Steps -/

inductive EngineLabel
  | issued (c : Issue)
  | monitors (workspaceId : ℕ) (draws : MonitorDraws) (crash : Option ℕ)
  | other

/-- One call, up to the point at which it ends or fails, or whatever happens to the other
tables. -/
inductive EngineStep (env : HookEnv) : EngineState → EngineLabel → EngineState → Prop
  /-- A call of `compute_deployment` whose transaction commits; it may fail before any of its
  webhooks. -/
  | compute {s : EngineState} {F : Type} {plan : Planner} {rt : DecimalText} {fl : Floats F}
      {ws dep n : ℕ} {period : PyStr} {records : Records} {refs : List PyStr} {clock : ℕ → ℕ}
      {sent : List (WebhookEventType × Dict)}
      (heval : (computeDeployment plan rt fl ws dep period).eval s.records s.sequence =
        (.ok (.written refs, records), n))
      (hsent : sent <+: figureEvents records dep (deploymentRefOf s.monitors.db dep) period refs) :
      EngineStep env s .other
        ({ s with records, sequence := n }.withHooks (emitEvents env ws clock sent s.hooks))
  /-- A call of `issue_report` whose transaction commits. -/
  | issue {s : EngineState} {collate : PyStr → PyStr → Bool} {c : Issue} {n : ℕ}
      {records : Records} {path : PyStr} {artifact : Artifact} (torn announced : Bool) (now : ℕ)
      (heval : (issueTransaction collate c).eval s.records s.sequence =
        (.ok (.issued path artifact, records), n)) :
      EngineStep env s (.issued c) (({ s with records, sequence := n }.put c torn path
        artifact).announceReport env c announced artifact now)
  /-- A transaction that is taken back, by an error or by a crash at any of its statements. -/
  | undone (s : EngineState) {n : ℕ} (h : s.sequence ≤ n) :
      EngineStep env s .other { s with sequence := n }
  | monitors (s : EngineState) (workspaceId : ℕ) (draws : MonitorDraws) (crash : Option ℕ) :
      EngineStep env s (.monitors workspaceId draws crash)
        { s with monitors := (runMonitors env workspaceId draws crash s.monitors).2 }
  | ack {s : EngineState} {ref : PyStr} {workspaceId ownerUserId now : ℕ} {alerts : List AlertRow}
      (h : ackAlert ref workspaceId ownerUserId now s.monitors.alerts = .ok alerts) :
      EngineStep env s .other { s with monitors := { s.monitors with alerts := alerts } }
  /-- A call on the webhooks or of the worker; only the engine emits. -/
  | hooks {s : EngineState} {l : QueueLabel} {t : HookTables} (h : QueueStep env s.hooks l t)
      (hquiet : t.deliveries.map DeliveryRow.content ⊆ s.hooks.deliveries.map DeliveryRow.content) :
      EngineStep env s .other (s.withHooks t)
  /-- A change of the other tables; no deployment is removed or renamed. -/
  | data (s : EngineState) (db : Db) (books : Books) (ids : (deploymentIds db).Nodup)
      (hrefs : ∀ id ref, deploymentRefOf s.monitors.db id = some ref →
        deploymentRefOf db id = some ref) :
      EngineStep env s .other
        { s with
          records := s.records.insert .evidence ⟨db, books⟩
          monitors := ⟨db, s.monitors.alerts, s.monitors.hooks, ids⟩ }

/-! ### What every step keeps -/

/-- The version histories and the identities. -/
structure EngineOk (s : EngineState) : Prop where
  history : VersionHistory s.records
  identified : Identified s.records s.sequence

/-- What stays: the rows of the engine, the alerts and the names of the deployments. -/
structure Persists (s s' : EngineState) : Prop where
  rows : Kept s.records s'.records
  alerts : ∀ a ∈ s.monitors.alerts, ∃ a' ∈ s'.monitors.alerts,
    a'.alertRef = a.alertRef ∧ a'.alertCode = a.alertCode
  deployments : ∀ id ref, deploymentRefOf s.monitors.db id = some ref →
    deploymentRefOf s'.monitors.db id = some ref

section Steps

variable {env : HookEnv} {s s' s'' : EngineState} {l : EngineLabel}

theorem Persists.refl (s : EngineState) : Persists s s where
  rows := Std.Refl.refl _
  alerts a ha := ⟨a, ha, rfl, rfl⟩
  deployments _ _ h := h

theorem Persists.trans (h : Persists s s') (h' : Persists s' s'') : Persists s s'' where
  rows := IsTrans.trans _ _ _ h.rows h'.rows
  alerts a ha := by
    obtain ⟨a', ha', href, hcode⟩ := h.alerts a ha
    obtain ⟨a'', ha'', href', hcode'⟩ := h'.alerts a' ha'
    exact ⟨a'', ha'', href'.trans href, hcode'.trans hcode⟩
  deployments id ref hid := h'.deployments id ref (h.deployments id ref hid)

theorem ackAlert_alerts {ref : PyStr} {workspaceId ownerUserId now : ℕ}
    {alerts alerts' : List AlertRow} (h : ackAlert ref workspaceId ownerUserId now alerts = .ok alerts')
    {a : AlertRow} (ha : a ∈ alerts) :
    ∃ a' ∈ alerts', a'.alertRef = a.alertRef ∧ a'.alertCode = a.alertCode := by
  unfold ackAlert at h
  split at h <;> cases h
  refine ⟨_, List.mem_map_of_mem ha, ?_⟩
  split <;> exact ⟨rfl, rfl⟩

theorem runMonitors_alerts {workspaceId : ℕ} {draws : MonitorDraws} {crash : Option ℕ}
    {m : MonitorState} : m.alerts ⊆ (runMonitors env workspaceId draws crash m).2.alerts := by
  obtain ⟨-, -, ⟨-, -, halerts⟩ | ⟨-, halerts, -⟩⟩ := @runMonitors_cases env workspaceId draws crash m
  · rw [halerts]
    exact List.Subset.refl _
  · rw [halerts]
    exact List.subset_append_left _ _

@[simp] theorem put_records (s : EngineState) (c : Issue) (torn : Bool) (path : PyStr)
    (artifact : Artifact) : (s.put c torn path artifact).records = s.records := by
  unfold EngineState.put
  split_ifs <;> rfl

@[simp] theorem put_sequence (s : EngineState) (c : Issue) (torn : Bool) (path : PyStr)
    (artifact : Artifact) : (s.put c torn path artifact).sequence = s.sequence := by
  unfold EngineState.put
  split_ifs <;> rfl

@[simp] theorem put_monitors (s : EngineState) (c : Issue) (torn : Bool) (path : PyStr)
    (artifact : Artifact) : (s.put c torn path artifact).monitors = s.monitors := by
  unfold EngineState.put
  split_ifs <;> rfl

@[simp] theorem put_hooks (s : EngineState) (c : Issue) (torn : Bool) (path : PyStr)
    (artifact : Artifact) : (s.put c torn path artifact).hooks = s.hooks := by
  rw [EngineState.hooks, put_monitors]
  rfl

/-- An announcement touches nothing but the queue. -/
theorem announceReport_eq (env : HookEnv) (s : EngineState) (c : Issue) (announced : Bool)
    (artifact : Artifact) (now : ℕ) :
    ∃ t, s.announceReport env c announced artifact now = s.withHooks t := by
  unfold EngineState.announceReport
  split_ifs
  · exact ⟨_, rfl⟩
  · exact ⟨s.hooks, rfl⟩

theorem EngineStep.keeps (h : EngineStep env s l s') (hok : EngineOk s) :
    EngineOk s' ∧ Persists s s' := by
  cases h with
  | compute heval hsent =>
    have hwrote := wrote_of_computeDeployment hok.history heval
    have hfigured := figured_of_computeDeployment hok.history heval
    exact ⟨⟨hwrote.history, hfigured.identified hok.identified⟩, hwrote.kept,
      fun a ha => ⟨a, ha, rfl, rfl⟩, fun _ _ h => h⟩
  | @issue collate c n records path artifact torn announced now heval =>
    obtain ⟨row, hissued, rfl, -⟩ := issued_of_eval heval
    obtain ⟨t, ht⟩ := announceReport_eq env
      (({ s with records, sequence := s.sequence + 1 } : EngineState).put c torn path artifact) c
      announced artifact now
    rw [ht]
    refine ⟨⟨?_, ?_⟩, ?_, fun a ha => ⟨a, ?_, rfl, rfl⟩, fun id ref hid => ?_⟩
    · simpa [EngineState.withHooks] using versionHistory_of_issue hok.history heval
    · simpa [EngineState.withHooks] using hissued.identified hok.identified
    · simpa [EngineState.withHooks] using hissued.kept hok.identified
    · simpa [EngineState.withHooks] using ha
    · simpa [EngineState.withHooks] using hid
  | undone hle =>
    exact ⟨⟨hok.history, hok.identified.mono hle⟩, Std.Refl.refl _, fun a ha => ⟨a, ha, rfl, rfl⟩,
      fun _ _ h => h⟩
  | monitors workspaceId draws crash =>
    refine ⟨⟨hok.history, hok.identified⟩, Std.Refl.refl _,
      fun a ha => ⟨a, runMonitors_alerts ha, rfl, rfl⟩, fun id ref hid => ?_⟩
    dsimp only
    rw [(@runMonitors_cases env workspaceId draws crash s.monitors).1]
    exact hid
  | ack hack =>
    exact ⟨⟨hok.history, hok.identified⟩, Std.Refl.refl _, fun a ha => ackAlert_alerts hack ha,
      fun _ _ h => h⟩
  | hooks => exact ⟨⟨hok.history, hok.identified⟩, Std.Refl.refl _, fun a ha => ⟨a, ha, rfl, rfl⟩,
      fun _ _ h => h⟩
  | data db books ids hrefs =>
    have hlookup : ∀ k, k ≠ .evidence →
        (s.records.insert .evidence ⟨db, books⟩).lookup k = s.records.lookup k :=
      fun k hk => AList.lookup_insert_ne hk
    refine ⟨⟨hok.history.insert_other trivial (by simp) (by simp),
      hok.identified.insert_none rfl (by simp [rowRefs])⟩, fun k row hk hrow => ?_,
      fun a ha => ⟨a, ha, rfl, rfl⟩, hrefs⟩
    dsimp only
    rw [hlookup k hk, hrow]

/-- No figure or report, and nothing enqueued. -/
structure EngineStart (s : EngineState) : Prop where
  rows : NoFigures s.records
  deliveries : s.hooks.deliveries = []

theorem engineOk_start (h : EngineStart s) : EngineOk s := by
  refine ⟨versionHistory_of_noFigures h.rows, ?_, ?_, ?_⟩
  · intro k row i hrow hi
    by_cases hk : k = .evidence
    · subst hk
      cases hi
    · rw [h.rows k hk] at hrow
      cases hrow
  · intro k k' row row' i hrow _ hi _
    by_cases hk : k = .evidence
    · subst hk
      cases hi
    · rw [h.rows k hk] at hrow
      cases hrow
  · intro k row i hrow hi
    by_cases hk : k = .evidence
    · subst hk
      cases hi
    · rw [h.rows k hk] at hrow
      cases hrow

variable {trace : List (EngineState × EngineLabel)}

theorem engineOk_reachable (hstart : EngineStart s) (hrun : Run (EngineStep env) s trace s') :
    EngineOk s' ∧ ∀ x ∈ trace, EngineOk x.1 :=
  hrun.invariant (engineOk_start hstart) fun _ _ _ hok hs => (hs.keeps hok).1

theorem persists_of_run (hok : EngineOk s) (hrun : Run (EngineStep env) s trace s') :
    Persists s s' := by
  induction hrun with
  | refl => exact .refl _
  | head hs _ ih =>
    obtain ⟨hnext, hpersists⟩ := hs.keeps hok
    exact hpersists.trans (ih hnext)

end Steps

end TrueFigure.Server
