import TrueFigure.Server.Monitors

/-!
# Runs of the monitors

Calls of `run_monitors`, acknowledgements and everything else that goes on, in any order.
`_raise_alert` inserts an alert without looking for one that is open: a condition that
persists is raised again by every call, and `last_seen` never moves.
-/
namespace TrueFigure.Server

open TrueFigure.Library TrueFigure.Python

inductive MonitorLabel
  | monitors (workspaceId : ℕ) (draws : MonitorDraws) (after : MonitorState)
  | failed (workspaceId : ℕ) (draws : MonitorDraws) (crash : Option ℕ) (after : MonitorState)
  | other

/-- One step: a call, an acknowledgement, or whatever happens to the other tables. -/
inductive MonitorStep (env : HookEnv) : MonitorState → MonitorLabel → MonitorState → Prop
  | monitors {s s' : MonitorState} {workspaceId : ℕ} {draws : MonitorDraws} {refs : List PyStr}
      (h : runMonitors env workspaceId draws none s = (.ok refs, s')) :
      MonitorStep env s (.monitors workspaceId draws s') s'
  | failed {s s' : MonitorState} {workspaceId : ℕ} {draws : MonitorDraws} {crash : Option ℕ}
      {e : Failure} (h : runMonitors env workspaceId draws crash s = (.error e, s')) :
      MonitorStep env s (.failed workspaceId draws crash s') s'
  | ack {s : MonitorState} {ref : PyStr} {workspaceId ownerUserId now : ℕ}
      {alerts : List AlertRow} (h : ackAlert ref workspaceId ownerUserId now s.alerts = .ok alerts) :
      MonitorStep env s .other { s with alerts := alerts }
  | other (s : MonitorState) (db : Db) (ids : (deploymentIds db).Nodup) (t : HookTables) :
      MonitorStep env s .other ⟨db, s.alerts, t, ids⟩

/-! ### Idempotence -/

def openAlerts (alerts : List AlertRow) (key : ℕ × AlertCode) : List AlertRow :=
  alerts.filter fun a => a.key = key ∧ a.alertStatus = .opened

def AtMostOneOpen (alerts : List AlertRow) : Prop := ∀ key, (openAlerts alerts key).length ≤ 1

/-- `run_monitors` finds the condition. -/
def Detects (s : MonitorState) (workspaceId : ℕ) (draws : MonitorDraws) (key : ℕ × AlertCode) :
    Prop := key ∈ (findings s.db workspaceId draws.clock).map Finding.key

/-- What a call enqueues. -/
def sent (s s' : MonitorState) : List (ℕ × WebhookEventType × Dict) :=
  (s'.hooks.deliveries.map DeliveryRow.content).drop s.hooks.deliveries.length

/-- A call of `run_monitors` raises what is not yet open, and nothing else. -/
structure Idempotent (workspaceId : ℕ) (draws : MonitorDraws) (s s' : MonitorState) : Prop where
  persisting : ∀ key, Detects s workspaceId draws key → openAlerts s.alerts key ≠ [] →
    (s'.alerts.filter fun a => a.key = key).length = (s.alerts.filter fun a => a.key = key).length ∧
      (∀ x ∈ sent s s', ∀ a ∈ s'.alerts, a.key = key → x.2 ≠ a.event) ∧
      ∀ a ∈ openAlerts s.alerts key, ∃ a' ∈ s'.alerts,
        a'.alertRef = a.alertRef ∧ a'.lastSeen = draws.now
  opening : ∀ key, Detects s workspaceId draws key → openAlerts s.alerts key = [] →
    ∃ a, openAlerts s'.alerts key = [a] ∧ (∀ b ∈ s.alerts, b.alertRef ≠ a.alertRef) ∧
      ∀ hook ∈ s.hooks.subscribers workspaceId .alertRaised, (hook, a.event) ∈ sent s s'

/-- A call that fails raises nothing, and emits nothing for a condition whose alert is open. -/
structure Harmless (workspaceId : ℕ) (draws : MonitorDraws) (crash : Option ℕ)
    (s s' : MonitorState) : Prop where
  alerts : s'.alerts = s.alerts
  silent : ∀ a ∈ s.announced workspaceId draws crash, openAlerts s.alerts a.key ≠ [] →
    ∀ x ∈ sent s s', x.2 ≠ a.event

/-- A run keeps one open alert for each condition, every call in it is idempotent, and every
call that fails is harmless. -/
structure MonitorsIdempotent (trace : List (MonitorState × MonitorLabel)) (s' : MonitorState) :
    Prop where
  ends : AtMostOneOpen s'.alerts
  states : ∀ x ∈ trace, AtMostOneOpen x.1.alerts
  calls : ∀ x ∈ trace, ∀ workspaceId draws after, x.2 = .monitors workspaceId draws after →
    Idempotent workspaceId draws x.1 after
  failures : ∀ x ∈ trace, ∀ workspaceId draws crash after,
    x.2 = .failed workspaceId draws crash after → Harmless workspaceId draws crash x.1 after

/-- The step is no call that finds a condition whose alert is open, and none that fails once
it has announced such a condition to a subscriber. -/
structure NoneOpen (s : MonitorState) (l : MonitorLabel) : Prop where
  called : ∀ workspaceId draws after, l = .monitors workspaceId draws after →
    ∀ key, Detects s workspaceId draws key → openAlerts s.alerts key = []
  failed : ∀ workspaceId draws crash after, l = .failed workspaceId draws crash after →
    s.hooks.subscribers workspaceId .alertRaised = [] ∨
      ∀ a ∈ s.announced workspaceId draws crash, openAlerts s.alerts a.key = []

section Steps

variable {env : HookEnv} {workspaceId : ℕ} {draws : MonitorDraws} {s s' : MonitorState}
  {l : MonitorLabel} {refs : List PyStr} {alerts alerts' : List AlertRow} {key : ℕ × AlertCode}

theorem openAlerts_append (alerts alerts' : List AlertRow) (key : ℕ × AlertCode) :
    openAlerts (alerts ++ alerts') key = openAlerts alerts key ++ openAlerts alerts' key :=
  List.filter_append ..

/-- Alerts of different conditions: one of a condition that has one. -/
theorem filter_key_eq (hnodup : (alerts.map AlertRow.key).Nodup)
    (hmem : key ∈ alerts.map AlertRow.key) : ∃ a, alerts.filter (fun a => a.key = key) = [a] := by
  obtain ⟨a, ha, rfl⟩ := List.mem_map.1 hmem
  refine ⟨a, ?_⟩
  obtain ⟨before, after, rfl⟩ := List.append_of_mem ha
  rw [List.map_append, List.map_cons, List.nodup_middle, List.nodup_cons] at hnodup
  have hother : ∀ b ∈ before ++ after, b.key ≠ a.key := by
    intro b hb heq
    refine hnodup.1 ?_
    rw [← List.map_append, ← heq]
    exact List.mem_map_of_mem hb
  rw [List.filter_append, List.filter_cons_of_pos (by simp),
    List.filter_eq_nil_iff.2 fun b hb => by simpa using hother b (List.mem_append_left _ hb),
    List.filter_eq_nil_iff.2 fun b hb => by simpa using hother b (List.mem_append_right _ hb)]
  rfl

theorem openAlerts_announced {crash : Option ℕ} (key : ℕ × AlertCode) :
    openAlerts (s.announced workspaceId draws crash) key =
      (s.announced workspaceId draws crash).filter fun a => a.key = key := by
  refine List.filter_congr fun a ha => ?_
  rw [decide_eq_decide, and_iff_left (announced_opened ha).1]

/-- What a call adds. -/
structure Called (workspaceId : ℕ) (draws : MonitorDraws) (s s' : MonitorState)
    (raised : List AlertRow) : Prop where
  alerts : s'.alerts = s.alerts ++ raised
  keys : raised.map AlertRow.key = (findings s.db workspaceId draws.clock).map Finding.key
  opened : ∀ key, openAlerts raised key = raised.filter fun a => a.key = key
  fresh : ∀ a ∈ raised, ∀ b ∈ s.alerts, b.alertRef ≠ a.alertRef
  sent : sent s s' = raised.flatMap fun a =>
    (s.hooks.subscribers workspaceId .alertRaised).map fun hook => (hook, a.event)

/-- A call enqueues an event for each alert it announces and each subscriber. -/
theorem sent_runMonitors (crash : Option ℕ) :
    sent s (runMonitors env workspaceId draws crash s).2 =
      (s.announced workspaceId draws crash).flatMap fun a =>
        (s.hooks.subscribers workspaceId .alertRaised).map fun hook => (hook, a.event) := by
  have hlength : s.hooks.deliveries.length = (s.hooks.deliveries.map DeliveryRow.content).length :=
    (List.length_map _).symm
  obtain ⟨-, hhooks, -⟩ := @runMonitors_cases env workspaceId draws crash s
  rw [sent, hhooks, content_emitEvents, hlength, List.drop_left, List.flatMap_map]
  rfl

theorem monitors_called (h : runMonitors env workspaceId draws none s = (.ok refs, s')) :
    ∃ raised, Called workspaceId draws s s' raised := by
  obtain ⟨-, -, ⟨e, herror, -⟩ | ⟨-, halerts, hkeys⟩⟩ :=
    @runMonitors_cases env workspaceId draws none s
  · rw [h] at herror
    cases herror
  have hsent := @sent_runMonitors env workspaceId draws s none
  rw [h] at halerts hsent
  exact ⟨_, halerts, hkeys, openAlerts_announced, fun a ha b hb => (announced_fresh ha hb).symm,
    hsent⟩

namespace Called

variable {raised : List AlertRow}

theorem nodup (h : Called workspaceId draws s s' raised) : (raised.map AlertRow.key).Nodup := by
  rw [h.keys]
  exact nodup_findings s.ids

theorem detects_iff (h : Called workspaceId draws s s' raised) :
    Detects s workspaceId draws key ↔ key ∈ raised.map AlertRow.key := by
  rw [h.keys]
  rfl

theorem raised_key (h : Called workspaceId draws s s' raised)
    (hkey : Detects s workspaceId draws key) :
    ∃ a, raised.filter (fun a => a.key = key) = [a] ∧ a ∈ raised := by
  obtain ⟨a, ha⟩ := filter_key_eq h.nodup (h.detects_iff.1 hkey)
  refine ⟨a, ha, List.mem_of_mem_filter (p := fun a => a.key = key) ?_⟩
  rw [ha]
  exact List.mem_singleton_self a

theorem atMostOneOpen (h : Called workspaceId draws s s' raised) (hone : AtMostOneOpen s.alerts)
    (hnone : ∀ key, Detects s workspaceId draws key → openAlerts s.alerts key = []) :
    AtMostOneOpen s'.alerts := by
  intro key
  rw [h.alerts, openAlerts_append, h.opened]
  by_cases hkey : Detects s workspaceId draws key
  · obtain ⟨a, ha, -⟩ := h.raised_key hkey
    rw [hnone key hkey, ha]
    exact le_rfl
  · have hnil : raised.filter (fun a => a.key = key) = [] := by
      refine List.filter_eq_nil_iff.2 fun a ha heq => hkey (h.detects_iff.2 ?_)
      rw [← of_decide_eq_true heq]
      exact List.mem_map_of_mem ha
    rw [hnil, List.append_nil]
    exact hone key

theorem idempotent (h : Called workspaceId draws s s' raised)
    (hnone : ∀ key, Detects s workspaceId draws key → openAlerts s.alerts key = []) :
    Idempotent workspaceId draws s s' := by
  constructor
  · intro key hkey hopen
    exact absurd (hnone key hkey) hopen
  · intro key hkey hnil
    obtain ⟨a, ha, hmem⟩ := h.raised_key hkey
    refine ⟨a, ?_, h.fresh a hmem, fun hook hhook => ?_⟩
    · rw [h.alerts, openAlerts_append, hnil, h.opened, ha]
      rfl
    · rw [h.sent]
      exact List.mem_flatMap.2 ⟨a, hmem, List.mem_map_of_mem hhook⟩

/-- Where the alert is open already, the call raises it again all the same. -/
theorem not_idempotent (h : Called workspaceId draws s s' raised)
    (hkey : Detects s workspaceId draws key) (hopen : openAlerts s.alerts key ≠ []) :
    ¬ Idempotent workspaceId draws s s' := by
  intro hidempotent
  obtain ⟨a, ha, -⟩ := h.raised_key hkey
  have hlength := (hidempotent.persisting key hkey hopen).1
  rw [h.alerts, List.filter_append, ha, List.length_append, List.length_singleton] at hlength
  omega

end Called

theorem alerts_of_failed {crash : Option ℕ} {e : Failure}
    (h : runMonitors env workspaceId draws crash s = (.error e, s')) : s'.alerts = s.alerts := by
  obtain ⟨-, -, ⟨-, -, halerts⟩ | ⟨hok, -⟩⟩ := @runMonitors_cases env workspaceId draws crash s
  · rwa [h] at halerts
  · rw [h] at hok
    cases hok

/-- A call that fails is harmless unless it has announced a condition whose alert is open. -/
theorem harmless_iff {crash : Option ℕ} {e : Failure}
    (h : runMonitors env workspaceId draws crash s = (.error e, s')) :
    Harmless workspaceId draws crash s s' ↔ s.hooks.subscribers workspaceId .alertRaised = [] ∨
      ∀ a ∈ s.announced workspaceId draws crash, openAlerts s.alerts a.key = [] := by
  have hsent := @sent_runMonitors env workspaceId draws s crash
  rw [h] at hsent
  constructor
  · intro hharmless
    refine or_iff_not_imp_left.2 fun hsubscribed a ha => by_contra fun hopen => ?_
    obtain ⟨hook, hhook⟩ := List.exists_mem_of_ne_nil _ hsubscribed
    refine hharmless.silent a ha hopen (hook, a.event) ?_ rfl
    rw [hsent]
    exact List.mem_flatMap.2 ⟨a, ha, List.mem_map_of_mem hhook⟩
  · intro hnone
    refine ⟨alerts_of_failed h, fun a ha hopen x hx => ?_⟩
    rcases hnone with hnone | hnone
    · rw [hsent, hnone, List.mem_flatMap] at hx
      obtain ⟨b, -, hb⟩ := hx
      cases hb
    · exact absurd (hnone a ha) hopen

theorem atMostOneOpen_ack {ref : PyStr} {ownerUserId now : ℕ} (hone : AtMostOneOpen alerts)
    (h : ackAlert ref workspaceId ownerUserId now alerts = .ok alerts') : AtMostOneOpen alerts' := by
  unfold ackAlert at h
  split at h <;> cases h
  intro key
  refine le_trans ?_ (hone key)
  unfold openAlerts
  rw [List.filter_map, List.length_map]
  refine (List.monotone_filter_right alerts fun a ha => ?_).length_le
  simp only [Function.comp_apply, decide_eq_true_eq] at ha ⊢
  split at ha
  · cases ha.2
  · exact ha

theorem MonitorStep.atMostOneOpen (h : MonitorStep env s l s') (hone : AtMostOneOpen s.alerts)
    (hnone : NoneOpen s l) : AtMostOneOpen s'.alerts := by
  cases h with
  | monitors h =>
    obtain ⟨raised, hcalled⟩ := monitors_called h
    exact hcalled.atMostOneOpen hone (hnone.called _ _ _ rfl)
  | failed h =>
    rw [alerts_of_failed h]
    exact hone
  | ack h => exact atMostOneOpen_ack hone h
  | other => exact hone

end Steps

/-- The monitors are idempotent over a run exactly where no call finds a condition whose
alert is open, and none fails once it has announced one to a subscriber. -/
theorem monitorsIdempotent_iff {env : HookEnv} {s s' : MonitorState}
    {trace : List (MonitorState × MonitorLabel)} (hstart : s.alerts = [])
    (hrun : Run (MonitorStep env) s trace s') :
    MonitorsIdempotent trace s' ↔ ∀ x ∈ trace, NoneOpen x.1 x.2 := by
  constructor
  · intro h x hx
    obtain ⟨u, hstep⟩ := hrun.step_of_mem hx
    constructor
    · intro workspaceId draws after hlabel key hkey
      have hidempotent := h.calls x hx workspaceId draws after hlabel
      rw [hlabel] at hstep
      cases hstep with
      | monitors hcall =>
        obtain ⟨raised, hcalled⟩ := monitors_called hcall
        by_contra hopen
        exact hcalled.not_idempotent hkey hopen hidempotent
    · intro workspaceId draws crash after hlabel
      have hharmless := h.failures x hx workspaceId draws crash after hlabel
      rw [hlabel] at hstep
      cases hstep with
      | failed hcall => exact (harmless_iff hcall).1 hharmless
  · intro h
    have hzero : AtMostOneOpen s.alerts := by
      intro key
      rw [hstart]
      exact Nat.zero_le 1
    obtain ⟨hend, hall⟩ := (hrun.restrict h).invariant (I := fun s => AtMostOneOpen s.alerts) hzero
      fun s l t hone hstep => hstep.1.atMostOneOpen hone hstep.2
    refine ⟨hend, hall, fun x hx workspaceId draws after hlabel => ?_,
      fun x hx workspaceId draws crash after hlabel => ?_⟩
    · obtain ⟨u, hstep⟩ := hrun.step_of_mem hx
      have hnone := (h x hx).called workspaceId draws after hlabel
      rw [hlabel] at hstep
      cases hstep with
      | monitors hcall =>
        obtain ⟨raised, hcalled⟩ := monitors_called hcall
        exact hcalled.idempotent hnone
    · obtain ⟨u, hstep⟩ := hrun.step_of_mem hx
      have hnone := (h x hx).failed workspaceId draws crash after hlabel
      rw [hlabel] at hstep
      cases hstep with
      | failed hcall => exact (harmless_iff hcall).2 hnone

/-! ### Ten activities that join nothing -/

/-- Ten activities of a deployment, and no work item. -/
def unjoinedDb : Db :=
  ((∅ : Db).insert (.deployment (py "d")) ⟨1, 1, .active⟩).insert (.ingestionStats 1 [] 739797)
    ⟨10, 0, 0, 10, 0, 63918460800000⟩

/-- One subscriber to the alerts of the workspace. -/
def alertHooks : HookTables :=
  { oneHook sampleHookEnv .verified [] with
    webhooks := [⟨1, 1, .verified, [.alertRaised], "wh_1", "https://hook.example/x", ""⟩] }

def unjoined : MonitorState := ⟨unjoinedDb, [], alertHooks, by decide⟩

/-- A call on 1 July 2026 that draws this reference. -/
def drawsOf (ref : String) : MonitorDraws where
  clock := 1782864000000000
  now := 1782864000000000
  alertRef := fun _ => py ref
  sentAt := fun _ => 1782864000000001

def monitoredOnce : MonitorState :=
  (runMonitors sampleHookEnv 1 (drawsOf "al_1") none unjoined).2

def monitoredTwice : MonitorState :=
  (runMonitors sampleHookEnv 1 (drawsOf "al_2") none monitoredOnce).2

theorem runMonitors_unjoined : runMonitors sampleHookEnv 1 (drawsOf "al_1") none unjoined =
    (.ok [py "al_1"], monitoredOnce) := by
  have h : (runMonitors sampleHookEnv 1 (drawsOf "al_1") none unjoined).1 = .ok [py "al_1"] := by
    rfl
  exact Prod.ext h rfl

theorem runMonitors_monitoredOnce :
    runMonitors sampleHookEnv 1 (drawsOf "al_2") none monitoredOnce =
      (.ok [py "al_2"], monitoredTwice) := by
  have h : (runMonitors sampleHookEnv 1 (drawsOf "al_2") none monitoredOnce).1 =
      .ok [py "al_2"] := by rfl
  exact Prod.ext h rfl

/-- The alert of the first call, acknowledged. -/
def monitoredAcked : MonitorState :=
  { monitoredOnce with
    alerts := monitoredOnce.alerts.map fun a =>
      { a with alertStatus := .acked, ackedBy := some 7, ackedAt := some 1782864000000002 } }

theorem ackAlert_monitoredOnce : ackAlert (py "al_1") 1 7 1782864000000002 monitoredOnce.alerts =
    .ok monitoredAcked.alerts := by rfl

def monitoredAgain : MonitorState :=
  (runMonitors sampleHookEnv 1 (drawsOf "al_2") none monitoredAcked).2

theorem runMonitors_monitoredAcked :
    runMonitors sampleHookEnv 1 (drawsOf "al_2") none monitoredAcked =
      (.ok [py "al_2"], monitoredAgain) := by
  have h : (runMonitors sampleHookEnv 1 (drawsOf "al_2") none monitoredAcked).1 =
      .ok [py "al_2"] := by rfl
  exact Prod.ext h rfl

theorem openAlerts_monitoredAcked (key : ℕ × AlertCode) :
    openAlerts monitoredAcked.alerts key = [] := by
  have hacked : ∀ a ∈ monitoredAcked.alerts, a.alertStatus ≠ .opened := by decide +kernel
  exact List.filter_eq_nil_iff.2 fun a ha h => hacked a ha (of_decide_eq_true h).2

/-- The first call opens an alert, which is acknowledged; a call fails at once, and the next
opens a second alert. -/
theorem monitorsIdempotent_iff_unjoined : ∃ trace s',
    Run (MonitorStep sampleHookEnv) unjoined trace s' ∧ trace.length = 4 ∧
      MonitorsIdempotent trace s' ∧ s'.alerts.length = 2 ∧
      (openAlerts s'.alerts (1, .joinRateDrop)).length = 1 := by
  have hfails : runMonitors sampleHookEnv 1 (drawsOf "al_2") (some 0) monitoredAcked =
      (.error (.database .interrupted), monitoredAcked) := by rfl
  have hrun : Run (MonitorStep sampleHookEnv) unjoined _ monitoredAgain :=
    .head (.monitors runMonitors_unjoined) <| .head (.ack ackAlert_monitoredOnce) <|
      .head (.failed hfails) <| .single (.monitors runMonitors_monitoredAcked)
  refine ⟨_, _, hrun, rfl, (monitorsIdempotent_iff rfl hrun).2 ?_, by rfl, by rfl⟩
  simp only [List.forall_mem_cons]
  refine ⟨⟨?_, ?_⟩, ⟨?_, ?_⟩, ⟨?_, ?_⟩, ⟨?_, ?_⟩, by simp⟩
  · rintro workspaceId draws after - key -
    rfl
  · rintro workspaceId draws crash after ⟨⟩
  · rintro workspaceId draws after ⟨⟩
  · rintro workspaceId draws crash after ⟨⟩
  · rintro workspaceId draws after ⟨⟩
  · rintro workspaceId draws crash after -
    exact .inr fun a _ => openAlerts_monitoredAcked a.key
  · rintro workspaceId draws after - key -
    exact openAlerts_monitoredAcked key
  · rintro workspaceId draws crash after ⟨⟩

/-- The second raises the same alert again: two are open, and two deliveries enqueued. -/
theorem monitors_raise_twice : ∃ trace s',
    Run (MonitorStep sampleHookEnv) unjoined trace s' ∧
      (openAlerts s'.alerts (1, .joinRateDrop)).length = 2 ∧ s'.hooks.deliveries.length = 2 ∧
      ¬ MonitorsIdempotent trace s' := by
  have hrun : Run (MonitorStep sampleHookEnv) unjoined _ monitoredTwice :=
    .head (.monitors runMonitors_unjoined) (.single (.monitors runMonitors_monitoredOnce))
  have htwo : (openAlerts monitoredTwice.alerts (1, .joinRateDrop)).length = 2 := by rfl
  refine ⟨_, monitoredTwice, hrun, htwo, by rfl, fun h => ?_⟩
  have hone := h.ends (1, .joinRateDrop)
  rw [htwo] at hone
  omega

end TrueFigure.Server
