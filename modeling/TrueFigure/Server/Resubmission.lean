import TrueFigure.Server.Deployments
import TrueFigure.Server.LaneAgreement
import TrueFigure.Server.Redelivery

/-!
# Requests that may be repeated

What a request to `/v1/events:batch` leaves, at any rows and however it ends: no event gets
a second row and none loses its row, and an event that is answered and not rejected is
stored under its own key. So a client may repeat a request whose answer it has not seen.
-/
namespace TrueFigure.Server

open TrueFigure.Library TrueFigure.Python

/-- The rows and the sequence are such that no event has two rows. -/
structure EventsOk (st : Db × ℕ) : Prop where
  ahead : SequenceAhead st
  once : ∀ ws key at' at'', (st.1.lookup (.event ws key at')).isSome →
    (st.1.lookup (.event ws key at'')).isSome → at' = at''

/-- No event of `s` is missing in `t`. -/
def KeysKept (s t : Db) : Prop := ∀ ws key, hasEvent s ws key = true → hasEvent t ws key = true

/-- The event is rejected, or is stored under its own key, which it is told. -/
def OnRecord (env : Env) (ws : ℕ) (s : Db) (event : Json) (v : Verdict) : Prop :=
  v.status = .rejected ∨ ∃ fields key, event = .obj fields ∧
    (KeyArgs.ofEnvelope fields).key env.rt env.digest = .ok key ∧ v.eventKey = some key ∧
      hasEvent s ws key = true

/-- What else the server does: other requests, jobs and workers. -/
def Background : Type :=
  {f : LaneWorld → LaneWorld // ∀ w, EventsOk w.rows →
    EventsOk (f w).rows ∧ KeysKept w.rows.1 (f w).rows.1}

/-- What a request is answered. -/
def Outcome.answer : Outcome → Answer (List EventResult)
  | .results rs => ⟨200, some rs, []⟩
  | .raised e => e.answer
  | _ => (Failure.python .assertionError).answer

/-- `POST /v1/events:batch`: the answer, and the world after it. -/
def postEvents (monthOf : ℤ → ℤ) (env : Env) (req : LaneRequest) (w : LaneWorld) :
    Answer (List EventResult) × LaneWorld :=
  let r := ingestRequest monthOf jsonLoads env req w
  (r.1.answer, r.2)

variable {env : Env} {intake : Intake} {st : Db × ℕ} {s t u : Db} {ws : ℕ}

theorem KeysKept.refl (s : Db) : KeysKept s s := fun _ _ h => h

theorem KeysKept.trans (h : KeysKept s t) (h' : KeysKept t u) : KeysKept s u :=
  fun ws key hkey => h' ws key (h ws key hkey)

theorem OnRecord.mono {event : Json} {v : Verdict} (h : OnRecord env ws s event v)
    (hkept : KeysKept s t) : OnRecord env ws t event v := by
  rcases h with hrejected | ⟨fields, key, hevent, hkey, hv, hstored⟩
  · exact .inl hrejected
  · exact .inr ⟨fields, key, hevent, hkey, hv, hkept ws key hstored⟩

theorem EventsOk.existsUnique (h : EventsOk st) {key : PyStr}
    (hstored : hasEvent st.1 ws key = true) :
    ∃! at', (st.1.lookup (.event ws key at')).isSome := by
  obtain ⟨at', hat⟩ := hasEvent_iff.1 hstored
  exact ⟨at', hat, fun at'' hat' => h.once ws key at'' at' hat' hat⟩

/-! ### One event -/

theorem eventsOk_insert (h : EventsOk st) {key : PyStr} (hnew : hasEvent st.1 ws key = false)
    (at' : ℤ) (row : EventRow) : EventsOk (st.1.insert (.event ws key at') row, st.2) where
  ahead := h.ahead.apply ws (.event key at' row)
  once ws' key' a b ha hb := by
    by_cases hsame : ws' = ws ∧ key' = key
    · obtain ⟨rfl, rfl⟩ := hsame
      -- nothing is stored under a new key but this row
      have honly : ∀ c, ((st.1.insert (.event ws' key' at') row).lookup
          (.event ws' key' c)).isSome → c = at' := by
        intro c hc
        by_contra hne
        rw [AList.lookup_insert_ne (by simp [hne]), lookup_event_of_not_hasEvent hnew] at hc
        cases hc
      exact (honly a ha).trans (honly b hb).symm
    · have hother : ∀ c, RowKey.event ws' key' c ≠ .event ws key at' := by
        rintro c heq
        cases heq
        exact hsame ⟨rfl, rfl⟩
      rw [AList.lookup_insert_ne (hother a)] at ha
      rw [AList.lookup_insert_ne (hother b)] at hb
      exact h.once ws' key' a b ha hb

theorem eventsOk_quarantine (h : EventsOk st) (row : RejectedEventRow) :
    EventsOk (st.1.insert (.rejectedEvent st.2) row, st.2 + 1) where
  ahead := h.ahead.apply 0 (.quarantine row)
  once ws key a b ha hb := by
    rw [AList.lookup_insert_ne (by simp)] at ha hb
    exact h.once ws key a b ha hb

theorem keysKept_insert (at' : ℤ) (key : PyStr) (row : EventRow) :
    KeysKept s (s.insert (.event ws key at') row) := by
  intro ws' key' hkey
  obtain ⟨c, hc⟩ := hasEvent_iff.1 hkey
  apply hasEvent_iff.2
  by_cases heq : RowKey.event ws' key' c = .event ws key at'
  · cases heq
    exact ⟨at', by rw [AList.lookup_insert]; rfl⟩
  · exact ⟨c, by rwa [AList.lookup_insert_ne heq]⟩

theorem keysKept_quarantine (id : ℕ) (row : RejectedEventRow) :
    KeysKept s (s.insert (.rejectedEvent id) row) := by
  intro ws key hkey
  obtain ⟨c, hc⟩ := hasEvent_iff.1 hkey
  exact hasEvent_iff.2 ⟨c, by rwa [AList.lookup_insert_ne (by simp)]⟩

theorem Keyed.event {sub : Submission} {adm : Admitted} {dep : DeploymentRow} {key : PyStr}
    (h : Keyed env intake s sub adm dep key) : sub.event = .obj adm.event ∧
      (KeyArgs.ofEnvelope adm.event).key env.rt env.digest = .ok key := by
  refine ⟨?_, h.keyed⟩
  have hexamined := h.examined
  unfold examine at hexamined
  split at hexamined
  · rename_i event hevent
    obtain ⟨_, -, hrest⟩ := bind_eq_ok hexamined
    obtain ⟨_, -, hrest⟩ := bind_eq_ok hrest
    obtain ⟨ts, -, hrest⟩ := bind_eq_ok hrest
    cases hrest
    exact hevent
  · cases hexamined

theorem settle_repeatable (h : EventsOk st) {sub : Submission} {x : Settled}
    (hx : settle env intake st.1 sub = .ok x) :
    EventsOk (x.persisted.apply intake.principal.workspaceId st) ∧
      KeysKept st.1 (x.persisted.apply intake.principal.workspaceId st).1 ∧
      (intake.principal.isTest = false → OnRecord env intake.principal.workspaceId
        (x.persisted.apply intake.principal.workspaceId st).1 sub.event x.verdict) := by
  cases settle_exit hx with
  | echoed hkeyed hmode =>
    refine ⟨h, .refl _, fun hproduction => ?_⟩
    cases hmode.symm.trans hproduction
  | duplicate hkeyed hmode hstored =>
    obtain ⟨hevent, hkey⟩ := hkeyed.event
    exact ⟨h, .refl _, fun _ => .inr ⟨_, _, hevent, hkey, rfl, hstored⟩⟩
  | stored hkeyed hmode hnew hrow =>
    obtain ⟨hevent, hkey⟩ := hkeyed.event
    refine ⟨eventsOk_insert h hnew _ _, keysKept_insert _ _ _, fun _ => ?_⟩
    exact .inr ⟨_, _, hevent, hkey, rfl, by rw [Persisted.apply, hasEvent_insert]; exact .inr rfl⟩
  | refused hrejected hmode hkey => exact ⟨h, .refl _, fun _ => .inl rfl⟩
  | quarantined hrejected hmode hkey hrow =>
    exact ⟨eventsOk_quarantine h _, keysKept_quarantine _ _, fun _ => .inl rfl⟩

/-! ### One request -/

/-- However far the events come, what they leave is sound. -/
theorem settleAll_repeatable (h : EventsOk st) (subs : List Submission) :
    EventsOk (persistAll intake.principal.workspaceId (settleAll env intake st subs).1 st) ∧
      KeysKept st.1
        (persistAll intake.principal.workspaceId (settleAll env intake st subs).1 st).1 := by
  induction subs generalizing st with
  | nil => exact ⟨h, .refl _⟩
  | cons sub subs ih =>
    unfold settleAll
    cases hx : settle env intake st.1 sub with
    | error e => exact ⟨h, .refl _⟩
    | ok x =>
      obtain ⟨hok, hkept, -⟩ := settle_repeatable h hx
      obtain ⟨hok', hkept'⟩ := ih hok
      exact ⟨hok', hkept.trans hkept'⟩

theorem onRecord_settleAll (h : EventsOk st) (hproduction : intake.principal.isTest = false)
    {subs : List Submission} (hnone : (settleAll env intake st subs).2 = none) :
    List.Forall₂ (fun (sub : Submission) x => OnRecord env intake.principal.workspaceId
      (persistAll intake.principal.workspaceId (settleAll env intake st subs).1 st).1 sub.event
        x.verdict) subs (settleAll env intake st subs).1 := by
  induction subs generalizing st with
  | nil => exact .nil
  | cons sub subs ih =>
    unfold settleAll at hnone ⊢
    cases hx : settle env intake st.1 sub with
    | error e =>
      rw [hx] at hnone
      cases hnone
    | ok x =>
      rw [hx] at hnone
      obtain ⟨hok, -, hrecord⟩ := settle_repeatable h hx
      obtain ⟨-, hkept⟩ := @settleAll_repeatable env intake _ hok subs
      exact .cons ((hrecord hproduction).mono hkept) (ih hok hnone)

theorem events_submissionsFrom (clock : ℕ → ℕ) (start : ℕ) (events : List Json) :
    (submissionsFrom clock start events).map Submission.event = events := by
  induction events generalizing start with
  | nil => rfl
  | cons event events ih => rw [submissionsFrom, List.map_cons, ih]

/-- What holds of submissions and what they come to holds of the events and their results. -/
theorem forall₂_events {R : Json → Verdict → Prop} {clock : ℕ → ℕ} {events : List Json}
    {xs : List Settled}
    (h : List.Forall₂ (fun sub x => R sub.event x.verdict) (submissionsFrom clock 0 events) xs) :
    List.Forall₂ (fun event (r : EventResult) => R event r.toVerdict) events (resultsFrom 0 xs) := by
  have hresults := forall₂_resultsFrom (fun (sub : Submission) v => R sub.event v) h 0
  have hevents : List.Forall₂ (fun event (r : EventResult) => R event r.toVerdict)
      ((submissionsFrom clock 0 events).map Submission.event) (resultsFrom 0 xs) :=
    List.forall₂_map_left_iff.2 hresults
  rwa [events_submissionsFrom] at hevents

section Requests

variable {monthOf : ℤ → ℤ} {req : LaneRequest} {w : LaneWorld}

/-- However a request ends, no event gets a second row and none loses its row. -/
theorem ingestRequest_repeatable (h : EventsOk w.rows) :
    EventsOk (ingestRequest monthOf jsonLoads env req w).2.rows ∧
      KeysKept w.rows.1 (ingestRequest monthOf jsonLoads env req w).2.rows.1 := by
  rw [ingestRequest_rows h.ahead]
  cases (passGates monthOf jsonLoads w req).1 with
  | error e => exact ⟨h, .refl _⟩
  | ok events =>
    exact @settleAll_repeatable env (req.intake w.toImportWorld) _ h
      (submissionsFrom req.clock 0 events)

theorem ingestRequest_onRecord (h : EventsOk w.rows) (hproduction : req.principal.isTest = false)
    {rs : List EventResult} (hresults : (ingestRequest monthOf jsonLoads env req w).1 = .results rs) :
    ∃ events, batchEvents jsonLoads req.body = .ok events ∧
      List.Forall₂ (fun event (r : EventResult) => OnRecord env req.principal.workspaceId
        (ingestRequest monthOf jsonLoads env req w).2.rows.1 event r.toVerdict) events rs := by
  cases hgates : (passGates monthOf jsonLoads w req).1 with
  | error e =>
    unfold ingestRequest at hresults
    split at hresults
    · cases hresults
    · rename_i hgates'
      rw [hgates'] at hgates
      cases hgates
  | ok events =>
    refine ⟨events, (passGates_ok hgates).1, ?_⟩
    rw [ingestRequest_rows h.ahead, hgates]
    rw [ingestRequest_outcome h.ahead hgates] at hresults
    obtain ⟨hnone, hrenders⟩ := requestOutcome_results hresults
    dsimp only at hresults
    rw [hnone, requestOutcome, hrenders] at hresults
    cases hresults
    have hrecord := @onRecord_settleAll env (req.intake w.toImportWorld) _ h hproduction _ hnone
    exact @forall₂_events (OnRecord env req.principal.workspaceId _) _ _ _ hrecord

/-- Other requests, of any workspace, are part of what else the server does. -/
def Background.post (monthOf : ℤ → ℤ) (env : Env) (req : LaneRequest) : Background :=
  ⟨fun w => (ingestRequest monthOf jsonLoads env req w).2, fun _ h => ingestRequest_repeatable h⟩

end Requests

end TrueFigure.Server
