import TrueFigure.Server.AlertRuns
import TrueFigure.Server.EngineCalls

/-!
# What deliveries refer to

A delivery carries the references of the rows it is about. Figures and reports are
announced once their transaction has committed, alerts from within theirs: a call of
`run_monitors` that fails takes the alerts back, and the deliveries it has enqueued by then
name alerts that never come to exist.
-/
namespace TrueFigure.Server

open TrueFigure.Library TrueFigure.Python

/-! ### References -/

namespace EngineState

variable (s : EngineState)

/-- The reference of a deployment, where it was found. -/
def Named (id : ℕ) (ref : Option PyStr) : Prop :=
  ∀ r, ref = some r → deploymentRefOf s.monitors.db id = some r

/-- A committed row of the kind the event is about has these references. -/
def Refers : WebhookEventType → Dict → Prop
  | .alertRaised, payload => ∃ a ∈ s.monitors.alerts, payload = alertPayload a.alertRef a.alertCode
  | .reportIssued, payload => ∃ d ref v, ∃ row : ReportRow, ∃ deploymentRef,
      s.records.lookup (.report d ref v) = some row ∧ s.Named d deploymentRef ∧
        payload = reportPayload ref v row.period deploymentRef
  | .figureUpdated, payload | .refusalLifted, payload =>
    ∃ d ref v, ∃ row : Figure, ∃ deploymentRef,
      s.records.lookup (.figure d ref v) = some row ∧ s.Named d deploymentRef ∧
        payload = figurePayload ref deploymentRef row.period

/-- Every delivery refers to a committed row. -/
def NoDangling : Prop := ∀ d ∈ s.hooks.deliveries, s.Refers d.webhookEventType d.payload

end EngineState

/-- The step is no call of `run_monitors` that fails after it has raised an alert in a
workspace with a verified subscriber to alerts. -/
def Quiet (env : HookEnv) (s : EngineState) (l : EngineLabel) : Prop :=
  ∀ workspaceId draws crash, l = .monitors workspaceId draws crash →
    (∃ e, (runMonitors env workspaceId draws crash s.monitors).1 = .error e) →
      crash = some 0 ∨ findings s.monitors.db workspaceId draws.clock = [] ∨
        (∃ a ∈ s.monitors.alerts, a.alertRef = draws.alertRef 0) ∨
        s.hooks.subscribers workspaceId .alertRaised = []

section References

variable {env : HookEnv} {s s' : EngineState} {l : EngineLabel}

theorem Persists.refers (h : Persists s s') {e : WebhookEventType} {payload : Dict}
    (hrefers : s.Refers e payload) : s'.Refers e payload := by
  have hnamed : ∀ {id ref}, s.Named id ref → s'.Named id ref :=
    fun hnamed r hr => h.deployments _ r (hnamed r hr)
  cases e with
  | alertRaised =>
    obtain ⟨a, ha, rfl⟩ := hrefers
    obtain ⟨a', ha', href, hcode⟩ := h.alerts a ha
    exact ⟨a', ha', by rw [href, hcode]⟩
  | reportIssued =>
    obtain ⟨d, ref, v, row, deploymentRef, hrow, hdep, rfl⟩ := hrefers
    exact ⟨d, ref, v, row, deploymentRef, h.rows _ _ (by simp) hrow, hnamed hdep, rfl⟩
  | figureUpdated =>
    obtain ⟨d, ref, v, row, deploymentRef, hrow, hdep, rfl⟩ := hrefers
    exact ⟨d, ref, v, row, deploymentRef, h.rows _ _ (by simp) hrow, hnamed hdep, rfl⟩
  | refusalLifted =>
    obtain ⟨d, ref, v, row, deploymentRef, hrow, hdep, rfl⟩ := hrefers
    exact ⟨d, ref, v, row, deploymentRef, h.rows _ _ (by simp) hrow, hnamed hdep, rfl⟩

theorem mem_figureEvents {records : Records} {dep : ℕ} {ref : Option PyStr} {period : PyStr}
    {refs : List PyStr} {e : WebhookEventType × Dict}
    (he : e ∈ figureEvents records dep ref period refs) :
    (e.1 = .figureUpdated ∨ e.1 = .refusalLifted) ∧
      ∃ fr ∈ refs, e.2 = figurePayload fr ref period := by
  induction refs with
  | nil => cases he
  | cons fr refs ih =>
    rw [figureEvents, List.cons_append, List.mem_cons, List.mem_append] at he
    rcases he with rfl | he | he
    · exact ⟨.inl rfl, fr, List.mem_cons_self, rfl⟩
    · split at he
      · obtain rfl := List.mem_singleton.1 he
        exact ⟨.inr rfl, fr, List.mem_cons_self, rfl⟩
      · cases he
    · obtain ⟨htype, fr', hfr', hpayload⟩ := ih he
      exact ⟨htype, fr', List.mem_cons_of_mem _ hfr', hpayload⟩

/-- Events that reach a subscriber and refer to committed rows leave no delivery without one. -/
theorem noDangling_emitEvents {ws : ℕ} {clock : ℕ → ℕ} {events : List (WebhookEventType × Dict)}
    {t : HookTables}
    (hold : ∀ d ∈ t.deliveries, s.Refers d.webhookEventType d.payload)
    (hevents : ∀ e ∈ events, t.subscribers ws e.1 ≠ [] → s.Refers e.1 e.2) :
    ∀ d ∈ (emitEvents env ws clock events t).deliveries,
      s.Refers d.webhookEventType d.payload := by
  intro d hd
  have hcontent := List.mem_map_of_mem (f := DeliveryRow.content) hd
  rw [content_emitEvents, List.mem_append] at hcontent
  rcases hcontent with hcontent | hcontent
  · obtain ⟨d', hd', heq⟩ := List.mem_map.1 hcontent
    simp only [DeliveryRow.content, Prod.mk.injEq] at heq
    obtain ⟨-, htype, hpayload⟩ := heq
    rw [← htype, ← hpayload]
    exact hold d' hd'
  · obtain ⟨e, he, hhook⟩ := List.mem_flatMap.1 hcontent
    obtain ⟨hook, hsubscriber, heq⟩ := List.mem_map.1 hhook
    simp only [DeliveryRow.content, Prod.mk.injEq] at heq
    obtain ⟨-, htype, hpayload⟩ := heq
    rw [← htype, ← hpayload]
    exact hevents e he (List.ne_nil_of_mem hsubscriber)

/-- The next call of a run that raises nothing before it ends. -/
theorem announced_eq_nil_iff {workspaceId : ℕ} {draws : MonitorDraws} {crash : Option ℕ}
    {m : MonitorState} : m.announced workspaceId draws crash = [] ↔
      crash = some 0 ∨ findings m.db workspaceId draws.clock = [] ∨
        ∃ a ∈ m.alerts, a.alertRef = draws.alertRef 0 := by
  unfold MonitorState.announced
  cases findings m.db workspaceId draws.clock with
  | nil => simp [announced]
  | cons f fs =>
    unfold announced
    split_ifs with h
    · simpa using h
    · simpa using h

theorem quiet_iff : Quiet env s l ↔ ∀ workspaceId draws crash,
    l = .monitors workspaceId draws crash →
      (∃ e, (runMonitors env workspaceId draws crash s.monitors).1 = .error e) →
        s.monitors.announced workspaceId draws crash = [] ∨
          s.hooks.subscribers workspaceId .alertRaised = [] := by
  refine forall₃_congr fun workspaceId draws crash => imp_congr_right fun _ =>
    imp_congr_right fun _ => ?_
  rw [announced_eq_nil_iff, or_assoc, or_assoc]

theorem refers_alert {a : AlertRow} (ha : a ∈ s.monitors.alerts) : s.Refers a.event.1 a.event.2 :=
  ⟨a, ha, rfl⟩

/-- A call of `run_monitors` that ends, or fails quietly. -/
theorem noDangling_monitors {workspaceId : ℕ} {draws : MonitorDraws} {crash : Option ℕ}
    (hok : EngineOk s) (h : s.NoDangling) (hquiet : Quiet env s (.monitors workspaceId draws crash)) :
    ({ s with monitors := (runMonitors env workspaceId draws crash s.monitors).2 } :
      EngineState).NoDangling := by
  have hpersists := ((@EngineStep.monitors env s workspaceId draws crash).keeps hok).2
  obtain ⟨-, hhooks, hends⟩ := @runMonitors_cases env workspaceId draws crash s.monitors
  have hdeliveries : ({ s with monitors := (runMonitors env workspaceId draws crash
      s.monitors).2 } : EngineState).hooks = _ := hhooks
  unfold EngineState.NoDangling
  rw [hdeliveries]
  refine noDangling_emitEvents (fun d hd => hpersists.refers (h d hd)) fun e he hsubscribed => ?_
  obtain ⟨a, ha, rfl⟩ := List.mem_map.1 he
  rcases hends with ⟨e, herror, -⟩ | ⟨-, halerts, -⟩
  · rcases quiet_iff.1 hquiet _ _ _ rfl ⟨e, herror⟩ with hnone | hnone
    · rw [hnone] at ha
      cases ha
    · exact absurd hnone hsubscribed
  · refine refers_alert ?_
    dsimp only
    rw [halerts]
    exact List.mem_append_right _ ha

/-- The first alert of a call that fails later: its delivery stays, and the alert does not. -/
theorem dangling_monitors {workspaceId : ℕ} {draws : MonitorDraws} {crash : Option ℕ} {e : Failure}
    (herror : (runMonitors env workspaceId draws crash s.monitors).1 = .error e)
    (hraised : s.monitors.announced workspaceId draws crash ≠ [])
    (hsubscribed : s.hooks.subscribers workspaceId .alertRaised ≠ []) :
    ¬ ({ s with monitors := (runMonitors env workspaceId draws crash s.monitors).2 } :
      EngineState).NoDangling := by
  obtain ⟨a, ha⟩ := List.exists_mem_of_ne_nil _ hraised
  obtain ⟨hook, hhook⟩ := List.exists_mem_of_ne_nil _ hsubscribed
  obtain ⟨-, hhooks, ⟨-, -, halerts⟩ | ⟨hok, -⟩⟩ :=
    @runMonitors_cases env workspaceId draws crash s.monitors
  · have hcontent : (hook, a.event.1, a.event.2) ∈
        (runMonitors env workspaceId draws crash s.monitors).2.hooks.deliveries.map
          DeliveryRow.content := by
      rw [hhooks, content_emitEvents]
      refine List.mem_append_right _ (List.mem_flatMap.2 ⟨a.event, List.mem_map_of_mem ha, ?_⟩)
      exact List.mem_map_of_mem hhook
    obtain ⟨d, hd, heq⟩ := List.mem_map.1 hcontent
    simp only [DeliveryRow.content, Prod.mk.injEq] at heq
    obtain ⟨-, htype, hpayload⟩ := heq
    intro h
    have hrefers := h d hd
    rw [htype, hpayload] at hrefers
    obtain ⟨b, hb, hsame⟩ := hrefers
    dsimp only at hb
    rw [halerts] at hb
    refine announced_fresh ha hb ?_
    simp only [AlertRow.event, alertPayload, List.cons.injEq, Prod.mk.injEq, Json.str.injEq] at hsame
    exact hsame.1.2
  · cases herror.symm.trans hok

theorem announceReport_unannounced (c : Issue) (artifact : Artifact) (now : ℕ) :
    s.announceReport env c false artifact now = s := by
  simp [EngineState.announceReport]

theorem announceReport_hooks (c : Issue) (announced : Bool) (artifact : Artifact) (now : ℕ) :
    (s.announceReport env c announced artifact now).hooks =
      emitEvents env c.workspaceId (fun _ => now)
        (if c.stored && announced then [(.reportIssued, reportPayload artifact.reportRef
          artifact.version artifact.period (deploymentRefOf s.monitors.db c.deploymentId))]
        else []) s.hooks := by
  unfold EngineState.announceReport
  split_ifs <;> rfl

/-- An announcement of a report refers to it, where its row is committed. -/
theorem noDangling_announceReport {c : Issue} {announced : Bool} {artifact : Artifact} {now : ℕ}
    {row : ReportRow} (h : s.NoDangling)
    (hrow : s.records.lookup (.report c.deploymentId artifact.reportRef artifact.version) = some row)
    (hperiod : row.period = artifact.period) :
    (s.announceReport env c announced artifact now).NoDangling := by
  obtain ⟨t, ht⟩ := announceReport_eq env s c announced artifact now
  have hrefers : ∀ e d, s.Refers e d → (s.announceReport env c announced artifact now).Refers e d := by
    intro e d hd
    rw [ht]
    cases e <;> exact hd
  unfold EngineState.NoDangling
  rw [announceReport_hooks]
  refine noDangling_emitEvents (fun d hd => hrefers _ _ (h d hd)) fun e he _ => hrefers _ _ ?_
  split at he
  · obtain rfl := List.mem_singleton.1 he
    exact ⟨c.deploymentId, artifact.reportRef, artifact.version, row, _, hrow, fun r hr => hr,
      by rw [hperiod]⟩
  · cases he

/-- What a step leaves refers to committed rows, unless it is a call of `run_monitors` that
fails loudly. -/
theorem EngineStep.noDangling (hs : EngineStep env s l s') (hok : EngineOk s) (h : s.NoDangling)
    (hquiet : Quiet env s l) : s'.NoDangling := by
  have hpersists := (hs.keeps hok).2
  have hold : ∀ d ∈ s.hooks.deliveries, s'.Refers d.webhookEventType d.payload :=
    fun d hd => hpersists.refers (h d hd)
  cases hs with
  | @compute F plan rt fl ws dep n period records refs clock sent heval hsent =>
    have hfigured := figured_of_computeDeployment hok.history heval
    refine noDangling_emitEvents hold fun e he _ => ?_
    obtain ⟨htype, fr, hfr, hpayload⟩ := mem_figureEvents (hsent.subset he)
    obtain ⟨v, row, hrow, rfl⟩ := hfigured.named fr hfr
    rw [hpayload]
    rcases htype with htype | htype
    · rw [htype]
      exact ⟨dep, fr, v, row, _, hrow, fun r hr => hr, rfl⟩
    · rw [htype]
      exact ⟨dep, fr, v, row, _, hrow, fun r hr => hr, rfl⟩
  | @issue collate c n records path artifact torn announced now heval =>
    obtain ⟨row, hissued, -, -, hreply, -⟩ := issued_of_eval heval
    cases hreply
    have hput := ((@EngineStep.issue env s collate c n records _ _ torn false now heval).keeps hok).2
    rw [announceReport_unannounced] at hput
    refine noDangling_announceReport (fun d hd => hput.refers (h d ?_)) ?_ hissued.period
    · rwa [put_hooks] at hd
    · rw [put_records]
      exact hissued.report
  | undone => exact hold
  | monitors workspaceId draws crash => exact noDangling_monitors hok h hquiet
  | ack => exact hold
  | hooks _ hcontents =>
    intro d hd
    obtain ⟨d', hd', heq⟩ := List.mem_map.1 (hcontents (List.mem_map_of_mem hd))
    simp only [DeliveryRow.content, Prod.mk.injEq] at heq
    obtain ⟨-, htype, hpayload⟩ := heq
    rw [← htype, ← hpayload]
    exact hold d' hd'
  | data => exact hold

end References

/-- In every state of a run every delivery refers to a committed row, exactly where no call of
`run_monitors` fails loudly. -/
theorem noDangling_iff_quiet {env : HookEnv} {s s' : EngineState}
    {trace : List (EngineState × EngineLabel)} (hstart : EngineStart s)
    (hrun : Run (EngineStep env) s trace s') :
    (s'.NoDangling ∧ ∀ x ∈ trace, x.1.NoDangling) ↔ ∀ x ∈ trace, Quiet env x.1 x.2 := by
  constructor
  · rintro ⟨hend, htrace⟩ x hx
    rw [quiet_iff]
    intro workspaceId draws crash hlabel herror
    obtain ⟨e, herror⟩ := herror
    obtain ⟨u, hs, hu⟩ := hrun.holds_after hend htrace hx
    by_contra hloud
    obtain ⟨hraised, hsubscribed⟩ := not_or.1 hloud
    rw [hlabel] at hs
    cases hs with
    | monitors => exact dangling_monitors herror hraised hsubscribed hu
  · intro hquiet
    have hok : EngineOk s := engineOk_start hstart
    have hnone : s.NoDangling := by
      intro d hd
      rw [hstart.deliveries] at hd
      cases hd
    obtain ⟨hend, htrace⟩ := (hrun.restrict hquiet).invariant
      (I := fun s => EngineOk s ∧ s.NoDangling) ⟨hok, hnone⟩
      fun s l t h hs => ⟨(hs.1.keeps h.1).1, hs.1.noDangling h.1 h.2 hs.2⟩
    exact ⟨hend.2, fun x hx => (htrace x hx).2⟩

/-! ### A call that fails after its first alert -/

/-- Nothing computed; ten activities of the deployment have joined nothing. -/
def unjoinedEngine : EngineState := ⟨∅, 0, unjoined, fun _ => none⟩

theorem engineStart_unjoined : EngineStart unjoinedEngine :=
  ⟨fun _ _ => AList.lookup_empty _, rfl⟩

/-- The state a call leaves that may fail before it comes to this alert. -/
def EngineState.afterMonitors (s : EngineState) (crash : Option ℕ) : EngineState :=
  { s with monitors := (runMonitors sampleHookEnv 1 (drawsOf "al_1") crash s.monitors).2 }

theorem run_afterMonitors (s : EngineState) (crash : Option ℕ) : Run (EngineStep sampleHookEnv) s
    [(s, .monitors 1 (drawsOf "al_1") crash)] (s.afterMonitors crash) :=
  .single (.monitors _ _ _ _)

/-- Failed before its first alert, then a call that commits. -/
def monitoredAtLast : EngineState := (unjoinedEngine.afterMonitors (some 0)).afterMonitors none

theorem run_monitoredAtLast : Run (EngineStep sampleHookEnv) unjoinedEngine
    [(unjoinedEngine, .monitors 1 (drawsOf "al_1") (some 0)),
      (unjoinedEngine.afterMonitors (some 0), .monitors 1 (drawsOf "al_1") none)]
    monitoredAtLast :=
  .head (.monitors _ _ _ _) (run_afterMonitors _ _)

theorem monitors_afterMonitors : (unjoinedEngine.afterMonitors (some 0)).monitors = unjoined := by
  rfl

/-- A call fails before its first alert and the next one commits: the delivery names the alert of
the second. -/
theorem noDangling_iff_quiet_unjoined :
    (∃ e, (runMonitors sampleHookEnv 1 (drawsOf "al_1") (some 0) unjoinedEngine.monitors).1 =
      .error e) ∧
    monitoredAtLast.NoDangling ∧ monitoredAtLast.hooks.deliveries.length = 1 := by
  refine ⟨⟨.database .interrupted, by rfl⟩,
    ((noDangling_iff_quiet engineStart_unjoined run_monitoredAtLast).2 ?_).1, by rfl⟩
  intro x hx workspaceId draws crash hlabel herror
  rcases List.mem_pair.1 hx with rfl | rfl <;> cases hlabel
  · exact .inl rfl
  · -- the call that commits does not fail
    obtain ⟨e, herror⟩ := herror
    rw [monitors_afterMonitors, runMonitors_unjoined] at herror
    cases herror

/-- A call that fails after its first alert: the delivery names an alert that was taken back. -/
theorem failed_monitors_dangling :
    Run (EngineStep sampleHookEnv) unjoinedEngine
      [(unjoinedEngine, .monitors 1 (drawsOf "al_1") (some 1))]
      (unjoinedEngine.afterMonitors (some 1)) ∧
    EngineStart unjoinedEngine ∧ (unjoinedEngine.afterMonitors (some 1)).monitors.alerts = [] ∧
    ¬ (unjoinedEngine.afterMonitors (some 1)).NoDangling := by
  refine ⟨run_afterMonitors _ _, engineStart_unjoined, by rfl, ?_⟩
  refine dangling_monitors (e := .database .interrupted) (by rfl) ?_ ?_
  · exact List.ne_nil_of_length_pos (by decide)
  · exact List.ne_nil_of_length_pos (by decide)

end TrueFigure.Server
