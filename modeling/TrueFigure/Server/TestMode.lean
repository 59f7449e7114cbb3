import TrueFigure.Sdk.Requests
import TrueFigure.Server.RequestIsolation

/-!
# Test mode

A client asks for test mode by a header, the server decides by the key. A
test-mode key leaves the tables alone on every path; under a production key a
request leaves them alone only when a gate refuses it, or each of its events is
stored already, up to one that raises.
-/
namespace TrueFigure.Server

open TrueFigure.Library TrueFigure.Python TrueFigure.Sdk

/-- A request to `/v1/events:batch`: its headers and its body, when its gates are passed and when
its events are checked. -/
structure BatchRequest where
  headers : Headers
  now : ℕ
  clock : ℕ → ℕ
  body : ByteArray
  headers_ok : ∀ h ∈ headers, textOk h.2 = true

/-- `request.headers.get(name, "")`. -/
def BatchRequest.header (req : BatchRequest) (name : PyStr) : PyStr :=
  (req.headers.lookup name).getD []

theorem BatchRequest.header_ok (req : BatchRequest) (name : PyStr) :
    textOk (req.header name) = true := by
  unfold header
  cases h : req.headers.lookup name with
  | none => rfl
  | some value =>
    obtain ⟨before, after, hsplit, -⟩ := List.lookup_eq_some_iff.1 h
    exact req.headers_ok (name, value) (by simp [hsplit])

/-- What `ingest_events` reads off a request. -/
def BatchRequest.lane (req : BatchRequest) (principal : Principal) : LaneRequest where
  principal := principal
  sourceRef := req.header sourceHeader
  now := req.now
  clock := req.clock
  body := req.body
  sourceRef_ok := req.header_ok _

/-- A request submitted in test mode: through a test-mode key, or through the
header with any key. -/
structure TestSubmission extends BatchRequest where
  principal : Principal
  test : principal.isTest = true ∨ headers.lookup modeHeader = some (py "test")

/-- What `echo` and `flush(mode="test")` send, whatever the key. -/
def TestSubmission.ofClient (c : ClientSettings) (principal : Principal) (now : ℕ) (clock : ℕ → ℕ)
    (body : ByteArray) (hok : ∀ h ∈ echoHeaders c, textOk h.2 = true) : TestSubmission where
  headers := echoHeaders c
  now := now
  clock := clock
  body := body
  headers_ok := hok
  principal := principal
  test := .inr (flushHeaders_mode c _)

namespace TestSubmission

def request (sub : TestSubmission) : LaneRequest := sub.toBatchRequest.lane sub.principal

/-- The server when it has answered the request. -/
def after (monthOf : ℤ → ℤ) (loads : Decoder) (env : Env) (sub : TestSubmission) (w : LaneWorld) :
    LaneWorld :=
  (ingestRequest monthOf loads env sub.request w).2

/-- The request leaves every table and every uploaded file as it was. -/
structure Unchanged (monthOf : ℤ → ℤ) (loads : Decoder) (env : Env) (sub : TestSubmission)
    (w : LaneWorld) : Prop where
  rows : ∀ k, (sub.after monthOf loads env w).rows.1.lookup k = w.rows.1.lookup k
  workspaces : (sub.after monthOf loads env w).workspaces = w.workspaces
  jobs : (sub.after monthOf loads env w).jobs = w.jobs
  objects : (sub.after monthOf loads env w).objects = w.objects

end TestSubmission

variable {env : Env} {intake : Intake} {s : Db} {sub : Submission} {x : Settled} {st : Db × ℕ}

/-- The event passes every check and its key is in the table. -/
def StoredAlready (env : Env) (intake : Intake) (s : Db) (sub : Submission) : Prop :=
  ∃ adm dep key, Keyed env intake s sub adm dep key ∧
    hasEvent s intake.principal.workspaceId key = true

/-- Each event is stored already, up to the first that raises. -/
def OnlyDuplicates (env : Env) (intake : Intake) (s : Db) : List Submission → Prop
  | [] => True
  | sub :: subs => Raises env intake s sub ∨
      (StoredAlready env intake s sub ∧ OnlyDuplicates env intake s subs)

/-- Under a test-mode key no event leaves anything. -/
theorem settle_test (htest : intake.principal.isTest = true)
    (h : settle env intake s sub = .ok x) : x.persisted = .nothing := by
  cases settle_exit h with
  | echoed => rfl
  | duplicate => rfl
  | stored _ hmode => exact absurd (htest.symm.trans hmode) (by decide)
  | refused => rfl
  | quarantined _ hmode => exact absurd (htest.symm.trans hmode) (by decide)

/-- Under a production key only duplicates leave nothing. -/
theorem settle_nothing_iff (htest : intake.principal.isTest = false)
    (h : settle env intake s sub = .ok x) :
    x.persisted = .nothing ↔ StoredAlready env intake s sub := by
  constructor
  · intro hnothing
    cases settle_exit h with
    | echoed _ hmode => exact absurd (htest.symm.trans hmode) (by decide)
    | duplicate hkeyed _ hstored => exact ⟨_, _, _, hkeyed, hstored⟩
    | stored => cases hnothing
    | refused _ hmode => exact absurd (htest.symm.trans hmode) (by decide)
    | quarantined => cases hnothing
  · rintro ⟨adm, dep, key, hkeyed, hdup⟩
    rw [hkeyed.settle_eq] at h
    simp only [store, htest, hdup, Bool.false_eq_true, if_false, if_true] at h
    cases h
    rfl

theorem Persisted.apply_lookup_isSome {p : Persisted} {ws : ℕ} {k : RowKey}
    (h : (st.1.lookup k).isSome) : ((p.apply ws st).1.lookup k).isSome := by
  have hinsert : ∀ (j : RowKey) (r : Row j), ((st.1.insert j r).lookup k).isSome := by
    intro j r
    by_cases hk : k = j
    · subst hk
      simp
    · rwa [AList.lookup_insert_ne hk]
  cases p with
  | nothing => exact h
  | event key t row => exact hinsert _ _
  | quarantine row => exact hinsert _ _

theorem persistAll_lookup_isSome {ws : ℕ} {xs : List Settled} {k : RowKey}
    (h : (st.1.lookup k).isSome) : ((persistAll ws xs st).1.lookup k).isSome := by
  induction xs generalizing st with
  | nil => exact h
  | cons x xs ih => exact ih (Persisted.apply_lookup_isSome h)

/-- What an event leaves stands under a key that was free. -/
theorem settle_new (hseq : SequenceAhead st) (h : settle env intake st.1 sub = .ok x)
    (hx : x.persisted ≠ .nothing) :
    ∃ k, st.1.lookup k = none ∧
      ((x.persisted.apply intake.principal.workspaceId st).1.lookup k).isSome := by
  cases settle_exit h with
  | echoed => exact absurd rfl hx
  | duplicate => exact absurd rfl hx
  | @stored adm dep key row hkeyed hmode hnew =>
    exact ⟨.event intake.principal.workspaceId key adm.occurredAt,
      lookup_event_of_not_hasEvent hnew _, by simp [Persisted.apply]⟩
  | refused => exact absurd rfl hx
  | quarantined => exact ⟨.rejectedEvent st.2, hseq _ le_rfl, by simp [Persisted.apply]⟩

theorem settleAll_test (htest : intake.principal.isTest = true) (subs : List Submission) :
    persistAll intake.principal.workspaceId (settleAll env intake st subs).1 st = st := by
  induction subs generalizing st with
  | nil => rfl
  | cons sub subs ih =>
    unfold settleAll
    cases hsettle : settle env intake st.1 sub with
    | error e => rfl
    | ok x =>
      have hnothing := settle_test htest hsettle
      have hrest := @ih (x.persisted.apply intake.principal.workspaceId st)
      simp only [persistAll, List.foldl_cons, hnothing, Persisted.apply] at hrest ⊢
      exact hrest

/-- Under a production key the tables stay as they are exactly for duplicates,
up to an event that raises. -/
theorem settleAll_unchanged_iff (hseq : SequenceAhead st)
    (htest : intake.principal.isTest = false) (subs : List Submission) :
    (∀ k, (persistAll intake.principal.workspaceId (settleAll env intake st subs).1 st).1.lookup
      k = st.1.lookup k) ↔ OnlyDuplicates env intake st.1 subs := by
  induction subs with
  | nil => simp [settleAll, persistAll, OnlyDuplicates]
  | cons sub subs ih =>
    unfold settleAll OnlyDuplicates
    cases hsettle : settle env intake st.1 sub with
    | error e =>
      have hraises : Raises env intake st.1 sub := settle_error_iff.1 ⟨e, hsettle⟩
      simp [persistAll, hraises]
    | ok x =>
      have hquiet : ¬ Raises env intake st.1 sub := by
        intro h
        obtain ⟨e, he⟩ := settle_error_iff.2 h
        cases he.symm.trans hsettle
      have hnothing := settle_nothing_iff htest hsettle
      by_cases hstored : StoredAlready env intake st.1 sub
      · simp only [hquiet, hstored, true_and, false_or]
        rw [← ih]
        have hpersisted := hnothing.2 hstored
        simp only [persistAll, List.foldl_cons, hpersisted, Persisted.apply]
      · simp only [hquiet, hstored, false_and, or_false, iff_false]
        intro hsame
        obtain ⟨k, hnone, hsome⟩ := settle_new hseq hsettle fun h => hstored (hnothing.1 h)
        have hlater := @persistAll_lookup_isSome _ intake.principal.workspaceId (settleAll env intake
            (x.persisted.apply intake.principal.workspaceId st) subs).1 k hsome
        have hk := hsame k
        simp only [persistAll, List.foldl_cons] at hk hlater
        rw [hk, hnone] at hlater
        cases hlater

theorem ingestRequest_world (monthOf : ℤ → ℤ) (loads : Decoder) (env : Env) (req : LaneRequest)
    (w : LaneWorld) : (ingestRequest monthOf loads env req w).2.workspaces = w.workspaces ∧
      (ingestRequest monthOf loads env req w).2.jobs = w.jobs ∧
      (ingestRequest monthOf loads env req w).2.objects = w.objects := by
  have hworld := passGates_world monthOf loads w req
  unfold ingestRequest
  rcases hgates : passGates monthOf loads w req with ⟨r, w'⟩
  rw [hgates] at hworld
  have hworkspaces : w'.workspaces = w.workspaces := congrArg ImportWorld.workspaces hworld
  have hjobs : w'.jobs = w.jobs := congrArg ImportWorld.jobs hworld
  have hobjects : w'.objects = w.objects := congrArg ImportWorld.objects hworld
  cases r with
  | error e => exact ⟨hworkspaces, hjobs, hobjects⟩
  | ok events => exact ⟨hworkspaces, hjobs, hobjects⟩

def echoSent (mode : KeyMode) (events : List Json) : TestSubmission :=
  .ofClient ⟨py "tf_live_0", none⟩ ⟨1, mode, .workspace, []⟩ sampleNow (fun _ => sampleNow)
    (batchBody events) (by decide)

theorem request_echoSent (events : List Json) : (echoSent .production events).request = postOf events := by
  have hsource : (echoSent .production events).header sourceHeader = [] := by
    have hlookup : ((echoHeaders ⟨py "tf_live_0", none⟩).lookup sourceHeader).getD [] = [] := by
      decide +kernel
    exact hlookup
  unfold TestSubmission.request BatchRequest.lane
  simp only [hsource]
  rfl

end TrueFigure.Server
