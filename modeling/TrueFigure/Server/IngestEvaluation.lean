import TrueFigure.Library.Sequential
import TrueFigure.Server.Ingest

/-!
# What an event comes to

The verdict on an event and what it leaves in the tables, as a function of the
rows it is checked against. A request that runs alone answers with the verdicts
of its events, each at the rows its predecessors left, and leaves what they
leave.
-/
namespace TrueFigure.Server

open TrueFigure.Library TrueFigure.Python

/-- What an event leaves in the tables. -/
inductive Persisted
  | nothing
  | event (eventKey : PyStr) (occurredAt : ℤ) (row : EventRow)
  | quarantine (row : RejectedEventRow)

structure Settled where
  verdict : Verdict
  persisted : Persisted

/-- The rows and the identity sequence once this is left in them. -/
def Persisted.apply (workspaceId : ℕ) : Persisted → Db × ℕ → Db × ℕ
  | .nothing, st => st
  | .event key t row, (s, n) => (s.insert (.event workspaceId key t) row, n)
  | .quarantine row, (s, n) => (s.insert (.rejectedEvent n) row, n + 1)

/-- The identity sequence is past every row it has numbered. -/
def SequenceAhead (st : Db × ℕ) : Prop :=
  ∀ id, st.2 ≤ id → st.1.lookup (.rejectedEvent id) = none

theorem SequenceAhead.apply {st : Db × ℕ} (h : SequenceAhead st) (ws : ℕ) (p : Persisted) :
    SequenceAhead (p.apply ws st) := by
  intro id hid
  cases p with
  | nothing => exact h id hid
  | event key t row =>
    rw [Persisted.apply, AList.lookup_insert_ne (by simp)]
    exact h id hid
  | quarantine row =>
    simp only [Persisted.apply] at hid ⊢
    rw [AList.lookup_insert_ne (by simp; omega)]
    exact h id (by omega)

/-- The rows of the configuration agree: all but events and quarantined events. -/
def SameConfig (s t : Db) : Prop :=
  ∀ k, (∀ id, k ≠ .rejectedEvent id) → (∀ ws key at', k ≠ .event ws key at') →
    s.lookup k = t.lookup k

/-- The rows agree except for quarantined events. -/
def SameData (s t : Db) : Prop := ∀ k, (∀ id, k ≠ .rejectedEvent id) → s.lookup k = t.lookup k

theorem SameData.refl (s : Db) : SameData s s := fun _ _ => rfl

theorem SameData.symm {s t : Db} (h : SameData s t) : SameData t s := fun k hk => (h k hk).symm

theorem SameData.trans {s t u : Db} (h : SameData s t) (h' : SameData t u) : SameData s u :=
  fun k hk => (h k hk).trans (h' k hk)

theorem SameData.config {s t : Db} (h : SameData s t) : SameConfig s t := fun k hk _ => h k hk

/-- No event touches the configuration. -/
theorem SameConfig.apply {s : Db} {st : Db × ℕ} (h : SameConfig s st.1) (ws : ℕ)
    (p : Persisted) : SameConfig s (p.apply ws st).1 := by
  intro k hk hevent
  cases p with
  | nothing => exact h k hk hevent
  | event key t row =>
    rw [Persisted.apply, AList.lookup_insert_ne (hevent _ _ _)]
    exact h k hk hevent
  | quarantine row =>
    rw [Persisted.apply, AList.lookup_insert_ne (hk _)]
    exact h k hk hevent

theorem SameData.apply {st st' : Db × ℕ} (h : SameData st.1 st'.1) (ws : ℕ) (p : Persisted) :
    SameData (p.apply ws st).1 (p.apply ws st').1 := by
  intro k hk
  cases p with
  | nothing => exact h k hk
  | event key t row => exact lookup_insert_congr (h k hk) _ _
  | quarantine row =>
    simp only [Persisted.apply]
    rw [AList.lookup_insert_ne (hk _), AList.lookup_insert_ne (hk _)]
    exact h k hk

section Settle

variable (env : Env) (intake : Intake)

/-- The first fault the declared formats find in the id fields. -/
def namespaceFault (s : Db) (deploymentId : ℕ) (fields : List (IdField × PyStr)) :
    Option Failure :=
  fields.findSome? fun f => formatFault env f.1 f.2
    (applicableNamespace s intake.principal.workspaceId deploymentId f.1 intake.sourceRef)

/-- The end of `transact`, once the key is known. -/
def store (s : Db) (adm : Admitted) (dep : DeploymentRow) (key : PyStr) : Except Failure Settled :=
  if intake.principal.isTest then .ok ⟨echoedVerdict key adm, .nothing⟩
  else if hasEvent s intake.principal.workspaceId key then .ok ⟨duplicateVerdict key, .nothing⟩
  else (liftDb (eventValues intake adm dep)).map fun row =>
    ⟨acceptedVerdict key, .event key adm.occurredAt row⟩

/-- What the transaction of an admitted event comes to. -/
def transact (s : Db) (adm : Admitted) : Except Failure Settled := do
  let wireId := adm.text (py "deployment_id")
  let ref ← textArgument wireId
  let dep ← admitDeployment intake.principal wireId
    (deploymentOf s intake.principal.workspaceId ref)
  match namespaceFault env intake s dep.id (idFields adm.payload) with
  | some e => .error e
  | none =>
    match adm.key env with
    | .error e => .error (.python e)
    | .ok key => store intake s adm dep key

/-- What a rejected event comes to. -/
def refuse (event : Json) (err : TFError) : Except Failure Settled :=
  match safeKey env event with
  | .error e => .error (.python e)
  | .ok key =>
    if intake.principal.isTest then .ok ⟨rejectedVerdict intake event err key, .nothing⟩
    else (quarantineRow env intake event err key).map fun row =>
      ⟨rejectedVerdict intake event err key, .quarantine row⟩

/-- What a submission comes to at these rows. -/
def settle (s : Db) (sub : Submission) : Except Failure Settled :=
  match examine env intake sub with
  | .error (.reject err) => refuse env intake sub.event err
  | .error e => .error e
  | .ok adm =>
    match transact env intake s adm with
    | .error (.reject err) => refuse env intake sub.event err
    | r => r

/-- The events of a batch up to the first that raises, and what it raises. -/
def settleAll : Db × ℕ → List Submission → List Settled × Option Failure
  | _, [] => ([], none)
  | st, sub :: subs =>
    match settle env intake st.1 sub with
    | .error e => ([], some e)
    | .ok x =>
      let rest := settleAll (x.persisted.apply intake.principal.workspaceId st) subs
      (x :: rest.1, rest.2)

end Settle

/-- The rows and the sequence after these events. -/
def persistAll (workspaceId : ℕ) (xs : List Settled) (st : Db × ℕ) : Db × ℕ :=
  xs.foldl (fun st x => x.persisted.apply workspaceId st) st

/-- The results of these events from an index on. -/
def resultsFrom (start : ℕ) : List Settled → List EventResult
  | [] => []
  | x :: xs => { x.verdict with index := start } :: resultsFrom (start + 1) xs

theorem hasEvent_iff {s : Db} {ws : ℕ} {key : PyStr} :
    hasEvent s ws key = true ↔ ∃ t, (s.lookup (.event ws key t)).isSome := by
  simp only [hasEvent, List.any_eq_true]
  constructor
  · rintro ⟨⟨k, row⟩, hmem, hk⟩
    cases k with
    | event ws' key' t =>
      obtain ⟨rfl, rfl⟩ : ws' = ws ∧ key' = key := by simpa using hk
      exact ⟨t, by rw [AList.mem_lookup_iff.2 hmem]; rfl⟩
    | _ => cases hk
  · rintro ⟨t, ht⟩
    obtain ⟨row, hrow⟩ := Option.isSome_iff_exists.1 ht
    exact ⟨⟨_, row⟩, AList.mem_lookup_iff.1 hrow, by simp⟩

theorem hasEvent_insert {s : Db} {ws : ℕ} {k key : PyStr} {t : ℤ} {row : EventRow} :
    hasEvent (s.insert (.event ws k t) row) ws key = true ↔ hasEvent s ws key = true ∨ k = key := by
  simp only [hasEvent_iff]
  constructor
  · rintro ⟨u, hu⟩
    by_cases hk : k = key
    · exact .inr hk
    · rw [AList.lookup_insert_ne (by simp [Ne.symm hk])] at hu
      exact .inl ⟨u, hu⟩
  · rintro (⟨u, hu⟩ | rfl)
    · refine ⟨u, ?_⟩
      by_cases hk : RowKey.event ws key u = .event ws k t
      · rw [hk, AList.lookup_insert]
        rfl
      · rwa [AList.lookup_insert_ne hk]
    · exact ⟨t, by rw [AList.lookup_insert]; rfl⟩

theorem lookup_event_of_not_hasEvent {s : Db} {ws : ℕ} {key : PyStr}
    (h : hasEvent s ws key = false) (t : ℤ) : s.lookup (.event ws key t) = none := by
  by_contra hne
  have : hasEvent s ws key = true := hasEvent_iff.2 ⟨t, Option.isSome_iff_ne_none.2 hne⟩
  rw [h] at this
  cases this

section Congruence

variable {env : Env} {intake : Intake} {s t : Db}

theorem SameConfig.deploymentOf (h : SameConfig s t) (ws : ℕ) (ref : PyStr) :
    deploymentOf s ws ref = deploymentOf t ws ref := by
  unfold Server.deploymentOf
  rw [h _ (by simp) (by simp)]

theorem SameConfig.applicableNamespace (h : SameConfig s t) (ws dep : ℕ) (field : IdField)
    (sourceRef : PyStr) :
    applicableNamespace s ws dep field sourceRef = applicableNamespace t ws dep field sourceRef := by
  have hrow : ∀ d src, activeNamespace s ws d field src = activeNamespace t ws d field src :=
    fun d src => h _ (by simp) (by simp)
  simp only [Server.applicableNamespace, hrow]

theorem SameConfig.namespaceFault (h : SameConfig s t) (dep : ℕ) (fields : List (IdField × PyStr)) :
    namespaceFault env intake s dep fields = namespaceFault env intake t dep fields := by
  simp only [Server.namespaceFault, h.applicableNamespace]

theorem SameData.hasEvent (h : SameData s t) (ws : ℕ) (key : PyStr) :
    hasEvent s ws key = hasEvent t ws key := by
  rw [Bool.eq_iff_iff, hasEvent_iff, hasEvent_iff]
  have hrow : ∀ t', s.lookup (.event ws key t') = t.lookup (.event ws key t') :=
    fun t' => h _ (by simp)
  simp only [hrow]

/-- Quarantined events have no part in what an event comes to. -/
theorem SameData.settle (h : SameData s t) (sub : Submission) :
    settle env intake s sub = settle env intake t sub := by
  have htransact : ∀ adm, transact env intake s adm = transact env intake t adm := by
    intro adm
    simp only [transact, store, h.config.deploymentOf, h.config.namespaceFault, h.hasEvent]
  simp only [Server.settle, htransact]

end Congruence

section Evaluation

variable {env : Env} {intake : Intake} {s : Db} {n : ℕ}

theorem eval_checkNamespaces (deploymentId : ℕ) (next : Transaction)
    (fields : List (IdField × PyStr)) :
    (checkNamespaces env intake deploymentId next fields).eval s n =
      match namespaceFault env intake s deploymentId fields with
      | some e => (.error e, n)
      | none => next.eval s n := by
  induction fields with
  | nil => rfl
  | cons f fields ih =>
    obtain ⟨field, value⟩ := f
    simp only [checkNamespaces, Txn.eval, namespaceFault, List.findSome?_cons]
    cases formatFault env field value (applicableNamespace s intake.principal.workspaceId
      deploymentId field intake.sourceRef) with
    | some e => rfl
    | none => exact ih

/-- The answer of a transaction that settles an event. -/
def answer (intake : Intake) (index : ℕ) (s : Db) (n : ℕ) :
    Except Failure Settled → Except Failure (Reply × Db) × ℕ
  | .error e => (.error e, n)
  | .ok x =>
    let st := x.persisted.apply intake.principal.workspaceId (s, n)
    (.ok (.result { x.verdict with index := index }, st.1), st.2)

theorem eval_storeOrEcho (index : ℕ) (adm : Admitted) (dep : DeploymentRow) (key : PyStr) :
    (storeOrEcho intake index adm dep key).eval s n =
      answer intake index s n (store intake s adm dep key) := by
  unfold storeOrEcho store
  extract_lets reply
  split_ifs with htest hdup
  · rfl
  · simp only [Txn.eval, if_pos hdup]
    rfl
  · have hnone := lookup_event_of_not_hasEvent (eq_false_of_ne_true hdup) adm.occurredAt
    simp only [Txn.eval, if_neg hdup, hnone]
    cases hrow : eventValues intake adm dep with
    | error e => simp [insertEvent, hrow, liftDb, Except.map, answer, bind, Except.bind]
    | ok row =>
      simp [insertEvent, hrow, liftDb, Except.map, answer, bind, Except.bind, insertNew, reply,
        Persisted.apply]

theorem eval_storeOne (index : ℕ) (adm : Admitted) :
    (storeOne env intake index adm).eval s n =
      answer intake index s n (transact env intake s adm) := by
  simp only [storeOne, resolveDep, transact, bind, Except.bind]
  cases textArgument (adm.text (py "deployment_id")) with
  | error e => rfl
  | ok ref =>
    simp only [Txn.eval]
    cases admitDeployment intake.principal (adm.text (py "deployment_id"))
        (deploymentOf s intake.principal.workspaceId ref) with
    | error e => rfl
    | ok dep =>
      simp only [eval_checkNamespaces]
      cases namespaceFault env intake s dep.id (idFields adm.payload) with
      | some e => rfl
      | none =>
        cases adm.key env with
        | error e => rfl
        | ok key => exact eval_storeOrEcho index adm dep key

/-- A process that continues with what an event came to. -/
def proceed (intake : Intake) (index : ℕ) (next : Except Failure EventResult → Process)
    (st : Db × ℕ) : Except Failure Settled → Outcome × Db × ℕ
  | .error e => (next (.error e)).run st.1 st.2
  | .ok x =>
    let st' := x.persisted.apply intake.principal.workspaceId st
    (next (.ok { x.verdict with index := index })).run st'.1 st'.2

theorem run_rejectOne (hseq : SequenceAhead (s, n)) (index : ℕ) (event : Json) (err : TFError)
    (next : Except Failure EventResult → Process) :
    (rejectOne env intake index event err next).run s n =
      proceed intake index next (s, n) (refuse env intake event err) := by
  unfold rejectOne refuse
  cases safeKey env event with
  | error e => rfl
  | ok key =>
    dsimp only
    split_ifs with htest
    · rfl
    · simp only [Proc.run, quarantine]
      cases quarantineRow env intake event err key with
      | error e => rfl
      | ok row =>
        have hnone : s.lookup (.rejectedEvent n) = none := hseq n le_rfl
        simp only [Txn.eval, hnone, insertNew, liftDb]
        rfl

/-- An event alone comes to what `settle` says. -/
theorem run_processOne (hseq : SequenceAhead (s, n)) (index : ℕ) (sub : Submission)
    (next : Except Failure EventResult → Process) :
    (processOne env intake index sub next).run s n =
      proceed intake index next (s, n) (settle env intake s sub) := by
  unfold processOne settle
  cases hexamine : examine env intake sub with
  | error e =>
    cases e with
    | reject err => exact run_rejectOne hseq index _ err next
    | _ => rfl
  | ok adm =>
    simp only [Proc.run, eval_storeOne]
    cases htransact : transact env intake s adm with
    | ok x => rfl
    | error e =>
      cases e with
      | reject err => exact run_rejectOne hseq index _ err next
      | _ => rfl

theorem run_respond (results : List EventResult) :
    (respond results).run s n =
      (match renderError results with
        | some e => .raised (.python e)
        | none => .results results, s, n) := by
  unfold respond
  cases renderError results <;> rfl

/-- How a request ends, from what its events come to. -/
def requestOutcome (results : List EventResult) : Option Failure → Outcome
  | some e => .raised e
  | none =>
    match renderError results with
    | some e => .raised (.python e)
    | none => .results results

theorem run_ingestLoop {st : Db × ℕ} (hseq : SequenceAhead st) (subs : List Submission)
    (results : List EventResult) :
    (ingestLoop env intake subs results).run st.1 st.2 =
      let r := settleAll env intake st subs
      (requestOutcome (results ++ resultsFrom results.length r.1) r.2,
        persistAll intake.principal.workspaceId r.1 st) := by
  induction subs generalizing st results with
  | nil =>
    simp only [ingestLoop, run_respond, settleAll, resultsFrom, List.append_nil]
    rfl
  | cons sub subs ih =>
    simp only [ingestLoop, run_processOne hseq, settleAll]
    cases settle env intake st.1 sub with
    | error e => rfl
    | ok x =>
      have hnext := ih (hseq.apply intake.principal.workspaceId x.persisted)
        (results ++ [{ x.verdict with index := results.length }])
      simp only [proceed, hnext, resultsFrom, List.append_assoc, List.length_append,
        List.length_singleton, List.singleton_append]
      rfl

/-- A request alone answers with the verdicts of its events and leaves what they
leave. -/
theorem run_ingestEvents {st : Db × ℕ} (hseq : SequenceAhead st) {events : List Submission}
    (hlen : events.length ≤ maxBatch) :
    (ingestEvents env intake events).run st.1 st.2 =
      let r := settleAll env intake st events
      (requestOutcome (resultsFrom 0 r.1) r.2, persistAll intake.principal.workspaceId r.1 st) := by
  rw [ingestEvents, if_neg (by omega), run_ingestLoop hseq]
  rfl

end Evaluation

end TrueFigure.Server
