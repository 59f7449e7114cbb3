import Mathlib.Data.List.Sort
import TrueFigure.Library.Raising
import TrueFigure.Server.Reresolution
import TrueFigure.Server.RosterOwnership
import TrueFigure.Server.StoredEvents

/-!
# The status of an event

`event_status` of `api/routes/ingest.py`, among requests, imports, roster calls and
workers. What it answers for a key only moves forward, and a final answer stays.
-/
namespace TrueFigure.Server

open TrueFigure.Library TrueFigure.Python

def PipelineStatus.wire : PipelineStatus → PyStr
  | .accepted => py "accepted"
  | .resolved => py "resolved"
  | .joined => py "joined"
  | .excluded => py "excluded"

def ExclusionReason.wire : ExclusionReason → PyStr
  | .sharedAccount => py "shared_account"
  | .serviceAccount => py "service_account"
  | .botAccount => py "bot_account"
  | .unresolvedIdentity => py "unresolved_identity"

/-- The `status` of an answer. -/
inductive AnswerStatus
  | rejected
  | stored (status : PipelineStatus)
  deriving DecidableEq, Repr

def AnswerStatus.wire : AnswerStatus → PyStr
  | .rejected => py "rejected"
  | .stored status => status.wire

/-- The data of an answer. -/
structure StatusAnswer where
  eventKey : PyStr
  status : AnswerStatus
  reason : Option PyStr
  resolvedPerson : Option PyStr
  joinedWorkItem : Option PyStr
  deriving DecidableEq

/-- `event_key` is a `CHAR(32)` column: trailing blanks do not count. -/
def bpchar (s : PyStr) : PyStr := (s.reverse.dropWhile fun c => c.val = 32).reverse

/-- The events of a key with their instants, in table order. -/
def eventsOf (s : Db) (workspaceId : ℕ) (key : PyStr) : List (ℤ × EventRow) :=
  s.entries.filterMap fun
    | ⟨.event ws k t, row⟩ =>
      if ws = workspaceId ∧ bpchar k = bpchar key then some (t, row) else none
    | _ => none

/-- `ORDER BY e.occurred_at DESC LIMIT 1`. -/
def newestEvent (s : Db) (workspaceId : ℕ) (key : PyStr) : Option EventRow :=
  (((eventsOf s workspaceId key).insertionSort fun x y => y.1 ≤ x.1).head?).map Prod.snd

def rejectionsOf (s : Db) (workspaceId : ℕ) (key : PyStr) : List RejectedEventRow :=
  s.entries.filterMap fun
    | ⟨.rejectedEvent _, row⟩ =>
      if (row : RejectedEventRow).workspaceId = workspaceId ∧
          (row : RejectedEventRow).eventKey.map bpchar = some (bpchar key) then some row
      else none
    | _ => none

/-- `LEFT JOIN users u ON u.id = e.resolved_user_id`. -/
def userRefOf (s : Db) (userId : ℕ) : Option PyStr :=
  s.entries.findSome? fun
    | ⟨.user _ ref, row⟩ => if (row : UserRow).id = userId then some ref else none
    | _ => none

/-- `LEFT JOIN work_items w ON w.id = e.work_item_id`. -/
def workItemRefOf (s : Db) (workItemId : ℕ) : Option PyStr :=
  s.entries.findSome? fun
    | ⟨.workItem _ ref, row⟩ => if (row : WorkItemRow).id = workItemId then some ref else none
    | _ => none

/-- `ORDER BY received_at DESC LIMIT 1`; the column itself is not among the rows. -/
structure ReceivedOrder where
  last : List RejectedEventRow → Option RejectedEventRow
  last_isSome : ∀ rows, (last rows).isSome = !rows.isEmpty

/-- What the first query of `event_status` makes of a row. -/
def storedAnswer (s : Db) (eventKey : PyStr) (row : EventRow) : StatusAnswer where
  eventKey := eventKey
  status := .stored row.pipelineStatus
  reason := row.exclusionReason.map ExclusionReason.wire
  resolvedPerson := row.resolvedUserId.bind (userRefOf s)
  joinedWorkItem := row.workItemId.bind (workItemRefOf s)

/-- `event_status`; its two queries see the rows of two moments. -/
def eventStatus (received : ReceivedOrder) (principal : Principal) (eventKey : PyStr)
    (s s' : Db) : Except Failure StatusAnswer := do
  let key ← textArgument eventKey
  match newestEvent s principal.workspaceId key with
  | some row => .ok (storedAnswer s eventKey row)
  | none =>
    match received.last (rejectionsOf s' principal.workspaceId key) with
    | some rej => .ok ⟨eventKey, .rejected, some rej.errorCode, none, none⟩
    | none => .error (.tfError ⟨.read001, none,
        some (py "event " ++ eventKey ++ py " not found")⟩)

/-! ### What the schema guarantees -/

/-- `pk_users`, `pk_work_items`, `fk_events_resolved_user` and `fk_events_work_item`. -/
structure StatusKeys (s : Db) : Prop where
  users : ∀ ws ref ws' ref' (u u' : UserRow), s.lookup (.user ws ref) = some u →
    s.lookup (.user ws' ref') = some u' → u.id = u'.id → ref = ref'
  items : ∀ ws ref ws' ref' (r r' : WorkItemRow), s.lookup (.workItem ws ref) = some r →
    s.lookup (.workItem ws' ref') = some r' → r.id = r'.id → ref = ref'
  people : ∀ ws key t (row : EventRow) id, s.lookup (.event ws key t) = some row →
    row.resolvedUserId = some id →
      ∃ ref, ∃ u : UserRow, s.lookup (.user ws ref) = some u ∧ u.id = id
  work : ∀ ws key t (row : EventRow) id, s.lookup (.event ws key t) = some row →
    row.workItemId = some id →
      ∃ ref, ∃ r : WorkItemRow, s.lookup (.workItem ws ref) = some r ∧ r.id = id

/-- The key stands for one event: a second row of it would have another instant. -/
def OneEvent (s : Db) (workspaceId : ℕ) (key : PyStr) : Prop :=
  ∀ k t k' t' (row row' : EventRow), s.lookup (.event workspaceId k t) = some row →
    s.lookup (.event workspaceId k' t') = some row' → bpchar k = bpchar key →
      bpchar k' = bpchar key → k = k' ∧ t = t'

/-! ### The order the rows move in -/

/-- What a row keeps: a settled event all of it, a user and a work item the id, a
rejected event all of it. -/
def statusOrder : RowOrder Row where
  le
    | .event _ _ _, row, row' => (row : EventRow).pipelineStatus ≠ .accepted → row' = row
    | .user _ _, row, row' => (row' : UserRow).id = (row : UserRow).id
    | .workItem _ _, row, row' => (row' : WorkItemRow).id = (row : WorkItemRow).id
    | .rejectedEvent _, row, row' => row' = row
    | _, _, _ => True
  refl := by
    intro k row
    cases k <;> simp
  trans := by
    intro k row row' row'' h h'
    cases k with
    | event ws key t =>
      intro hsettled
      have hsame := h hsettled
      rw [← hsame]
      exact h' (hsame ▸ hsettled)
    | user ws ref => exact h'.trans h
    | workItem ws ref => exact h'.trans h
    | rejectedEvent id => exact h'.trans h
    | _ => trivial

variable {s s' s'' : Db} {ws : ℕ} {key k : PyStr} {t : ℤ}

theorem mem_eventsOf {row : EventRow} :
    (t, row) ∈ eventsOf s ws key ↔
      ∃ k, s.lookup (.event ws k t) = some row ∧ bpchar k = bpchar key := by
  unfold eventsOf
  rw [List.mem_filterMap]
  constructor
  · rintro ⟨⟨k, r⟩, hmem, hrow⟩
    cases k with
    | event ws' k t' =>
      dsimp only at hrow
      split_ifs at hrow with hmatch
      cases hrow
      obtain ⟨rfl, hkey⟩ := hmatch
      exact ⟨k, AList.mem_lookup_iff.2 hmem, hkey⟩
    | _ => cases hrow
  · rintro ⟨k, hrow, hkey⟩
    exact ⟨⟨.event ws k t, row⟩, AList.mem_lookup_iff.1 hrow, by simp [hkey]⟩

theorem newestEvent_eq_some (hone : OneEvent s ws key) {row : EventRow} :
    newestEvent s ws key = some row ↔
      ∃ k t, s.lookup (.event ws k t) = some row ∧ bpchar k = bpchar key := by
  unfold newestEvent
  constructor
  · intro h
    obtain ⟨⟨t, r⟩, hhead, rfl⟩ := Option.map_eq_some_iff.1 h
    have hmem := (List.mem_insertionSort _).1 (List.mem_of_mem_head? hhead)
    obtain ⟨k, hrow, hkey⟩ := mem_eventsOf.1 hmem
    exact ⟨k, t, hrow, hkey⟩
  · rintro ⟨k, t, hrow, hkey⟩
    have hmem := mem_eventsOf.2 ⟨k, hrow, hkey⟩
    rw [← List.mem_insertionSort fun x y : ℤ × EventRow => y.1 ≤ x.1] at hmem
    cases hhead : ((eventsOf s ws key).insertionSort fun x y => y.1 ≤ x.1).head? with
    | none =>
      rw [List.head?_eq_none_iff] at hhead
      rw [hhead] at hmem
      cases hmem
    | some x =>
      obtain ⟨t', row'⟩ := x
      have hmem' := (List.mem_insertionSort _).1 (List.mem_of_mem_head? hhead)
      obtain ⟨k', hrow', hkey'⟩ := mem_eventsOf.1 hmem'
      obtain ⟨rfl, rfl⟩ := hone k t k' t' row row' hrow hrow' hkey hkey'
      rw [hrow] at hrow'
      rw [Option.map_some, Option.some.inj hrow']

theorem userRefOf_eq {id : ℕ} {ref : PyStr} {ws : ℕ} {u : UserRow} (hkeys : StatusKeys s)
    (hu : s.lookup (.user ws ref) = some u) (hid : u.id = id) : userRefOf s id = some ref := by
  cases hfound : userRefOf s id with
  | none =>
    have hall := List.findSome?_eq_none_iff.1 hfound _ (AList.mem_lookup_iff.1 hu)
    simp [hid] at hall
  | some ref' =>
    obtain ⟨⟨k, row⟩, hmem, hrow⟩ := List.exists_of_findSome?_eq_some hfound
    cases k with
    | user ws' ref'' =>
      dsimp only at hrow
      split_ifs at hrow with hid'
      cases hrow
      rw [hkeys.users ws' ref' ws ref row u (AList.mem_lookup_iff.2 hmem) hu (hid'.trans hid.symm)]
    | _ => cases hrow

theorem workItemRefOf_eq {id : ℕ} {ref : PyStr} {ws : ℕ} {r : WorkItemRow} (hkeys : StatusKeys s)
    (hr : s.lookup (.workItem ws ref) = some r) (hid : r.id = id) :
    workItemRefOf s id = some ref := by
  cases hfound : workItemRefOf s id with
  | none =>
    have hall := List.findSome?_eq_none_iff.1 hfound _ (AList.mem_lookup_iff.1 hr)
    simp [hid] at hall
  | some ref' =>
    obtain ⟨⟨k, row⟩, hmem, hrow⟩ := List.exists_of_findSome?_eq_some hfound
    cases k with
    | workItem ws' ref'' =>
      dsimp only at hrow
      split_ifs at hrow with hid'
      cases hrow
      rw [hkeys.items ws' ref' ws ref row r (AList.mem_lookup_iff.2 hmem) hr (hid'.trans hid.symm)]
    | _ => cases hrow

theorem storedAnswer_stays {row : EventRow} {eventKey : PyStr} (habove : statusOrder.Above s s')
    (hkeys : StatusKeys s) (hkeys' : StatusKeys s') (hrow : s.lookup (.event ws k t) = some row) :
    storedAnswer s' eventKey row = storedAnswer s eventKey row := by
  have hperson : row.resolvedUserId.bind (userRefOf s') = row.resolvedUserId.bind (userRefOf s) := by
    cases hid : row.resolvedUserId with
    | none => rfl
    | some id =>
      obtain ⟨ref, u, hu, huid⟩ := hkeys.people ws k t row id hrow hid
      obtain ⟨u', hu', hsame⟩ := habove (.user ws ref) u hu
      exact (userRefOf_eq hkeys' hu' (Eq.trans hsame huid)).trans (userRefOf_eq hkeys hu huid).symm
  have hitem : row.workItemId.bind (workItemRefOf s') = row.workItemId.bind (workItemRefOf s) := by
    cases hid : row.workItemId with
    | none => rfl
    | some id =>
      obtain ⟨ref, r, hr, hrid⟩ := hkeys.work ws k t row id hrow hid
      obtain ⟨r', hr', hsame⟩ := habove (.workItem ws ref) r hr
      exact (workItemRefOf_eq hkeys' hr' (Eq.trans hsame hrid)).trans
        (workItemRefOf_eq hkeys hr hrid).symm
  unfold storedAnswer
  rw [hperson, hitem]

/-! ### Every party moves the rows up -/

section Parties

variable {env : Env} {intake : Intake} {log : List (Change Row)}

theorem storeOne_raises {index : ℕ} {sub : Submission} {adm : Admitted}
    (hexamine : examine env intake sub = .ok adm) :
    statusOrder.Raises (storeOne env intake index adm) := by
  apply RowOrder.raises_of_changes
  intro log a hruns c hc old hold
  rcases runs_storeOne hexamine hruns with rfl | ⟨key, row, -, rfl⟩
  · cases hc
  · obtain rfl := List.mem_singleton.1 hc
    cases hold

theorem quarantine_raises (event : Json) (err : TFError) (key : Option PyStr) :
    statusOrder.Raises (quarantine env intake event err key) := by
  apply RowOrder.raises_of_changes
  intro log a hruns c hc old hold
  unfold quarantine at hruns
  split at hruns
  · exact hruns.not_throw.elim
  · obtain ⟨id, hruns⟩ := hruns.of_fresh
    obtain ⟨before, after, more, hu, rfl, hdone⟩ := hruns.of_write
    obtain ⟨rfl, -⟩ := hdone.of_pure
    obtain rfl := List.mem_singleton.1 hc
    dsimp only at hold
    rw [hold] at hu
    cases hu

theorem processOne_all {good : Transaction → Prop} {index : ℕ} {sub : Submission}
    {next : Except Failure EventResult → Process}
    (hstore : ∀ index adm, examine env intake sub = .ok adm → good (storeOne env intake index adm))
    (hquarantine : ∀ err key, good (quarantine env intake sub.event err key))
    (hnext : ∀ r, (next r).All good) : (processOne env intake index sub next).All good := by
  have hreject : ∀ err, (rejectOne env intake index sub.event err next).All good := by
    intro err
    unfold rejectOne
    split
    · exact hnext _
    · extract_lets result
      split_ifs
      · exact hnext _
      · refine ⟨hquarantine err _, ?_⟩
        intro r
        cases r with
        | ok a => exact hnext _
        | error e => exact hnext _
  unfold processOne
  split
  · exact hreject _
  · exact hnext _
  · rename_i adm hadm
    refine ⟨hstore index adm hadm, ?_⟩
    intro r
    dsimp only
    split
    · exact hnext _
    · exact hnext _
    · exact hreject _
    · exact hnext _

theorem ingestEvents_all {good : Transaction → Prop} (hstore : ∀ index sub adm,
      examine env intake sub = .ok adm → good (storeOne env intake index adm))
    (hquarantine : ∀ event err key, good (quarantine env intake event err key))
    (events : List Submission) : (ingestEvents env intake events).All good := by
  have hloop : ∀ results, (ingestLoop env intake events results).All good := by
    induction events with
    | nil =>
      intro results
      unfold ingestLoop respond
      split <;> trivial
    | cons sub subs ih =>
      intro results
      apply processOne_all (fun index adm => hstore index sub adm) (hquarantine sub.event)
      intro r
      cases r with
      | ok r => exact ih _
      | error e => trivial
  unfold ingestEvents
  split_ifs
  · trivial
  · exact hloop []

theorem runImport_all {good : Transaction → Prop} (hstore : ∀ intake index sub adm,
      examine env intake sub = .ok adm → good (storeOne env intake index adm))
    (hquarantine : ∀ intake event err key, good (quarantine env intake event err key))
    (lines : List (ℕ × Option Submission)) : (runImport env intake lines).All good := by
  have hloop : ∀ intake counts, (importLoop env intake lines counts).All good := by
    intro intake
    induction lines with
    | nil => exact fun counts => trivial
    | cons line lines ih =>
      intro counts
      obtain ⟨lineNo, _ | sub⟩ := line
      · exact ih _
      · apply processOne_all (fun index adm => hstore _ index sub adm) (hquarantine _ sub.event)
        intro r
        cases r with
        | ok r => exact ih _
        | error e => trivial
  exact hloop _ _

def Change.KeepsUser (c : Change Row) : Prop :=
  match c with
  | ⟨.user _ _, before, after⟩ =>
    ∀ old, before = some old → (after : UserRow).id = (old : UserRow).id
  | ⟨.userIdentifier _ _ _, _, _⟩ => True
  | _ => False

theorem writes_addIdentifiers {good : Change Row → Prop} {conn : RosterConnection}
    {workspaceId userId : ℕ} (hgood : ∀ ns value before after,
      keepOwner conn workspaceId userId ns value before = .ok after →
        good ⟨.userIdentifier workspaceId ns value, before, after⟩)
    (idents : List RosterIdentifier) :
    Writes good (addIdentifiers conn workspaceId userId idents) := by
  induction idents with
  | nil => exact writes_pure _
  | cons ident idents ih =>
    unfold addIdentifiers
    split
    · exact writes_throw _
    · exact writes_throw _
    · apply writes_read
      intro s
      split_ifs
      · exact writes_throw _
      · apply writes_read
        intro s'
        split_ifs
        · exact ih
        · exact writes_write (fun _ _ hu => hgood _ _ _ _ hu) fun _ => ih

theorem upsertUser_id {conn : RosterConnection} {workspaceId id : ℕ} {item : RosterUser}
    {old after : UserRow} (h : upsertUser conn workspaceId id item (some old) = .ok after) :
    after.id = old.id := by
  obtain ⟨row, -, h⟩ := bind_eq_ok h
  cases h
  rfl

theorem writes_upsertRosterUser (conn : RosterConnection) (workspaceId : ℕ) (item : RosterUser) :
    Writes Change.KeepsUser (upsertRosterUser conn workspaceId item) := by
  apply writes_fresh
  intro id
  apply writes_write
  · intro before after hu old hold
    rw [hold] at hu
    exact upsertUser_id hu
  · exact fun row => writes_addIdentifiers (fun _ _ _ _ _ => trivial) _

theorem upsertRosterUser_raises (conn : RosterConnection) (workspaceId : ℕ) (item : RosterUser) :
    statusOrder.Raises (upsertRosterUser conn workspaceId item) := by
  apply RowOrder.raises_of_changes
  intro log a hruns c hc old hold
  have hkept := writes_upsertRosterUser conn workspaceId item log _ hruns c hc
  obtain ⟨k, before, after⟩ := c
  cases k with
  | user ws ref => exact hkept old hold
  | userIdentifier ws ns value => trivial
  | _ => exact hkept.elim

theorem upsertWorkItem_id {id : ℕ} {size category : Json} {old row : WorkItemRow}
    (h : upsertWorkItem id size category (some old) = .ok row) : row.id = old.id := by
  obtain ⟨size', -, h⟩ := bind_eq_ok h
  obtain ⟨category', -, h⟩ := bind_eq_ok h
  cases h
  rfl

/-- A worker settles the event it has claimed and keeps the ids. -/
theorem processNext_raises (conn : Connection) : statusOrder.Raises (processNext conn) := by
  intro log a s hruns hlog k row hrow
  rcases runs_processNext hruns with rfl | ⟨ev, u, x, w, hevent⟩
  · exact ⟨row, hrow, statusOrder.refl k row⟩
  have heffect := hevent.effect hlog
  have hsome : ∃ row', (view log s).lookup k = some row' := by
    apply Option.ne_none_iff_exists'.1
    intro hnone
    rw [lookup_of_view_none hnone] at hrow
    cases hrow
  cases k with
  | event ws key t =>
    by_cases hsettled : (row : EventRow).pipelineStatus = .accepted
    · obtain ⟨row', hrow'⟩ := hsome
      exact ⟨row', hrow', fun hne => absurd hsettled hne⟩
    · exact ⟨row, processNext_keeps hsettled log a s hruns hlog hrow, fun _ => rfl⟩
  | workItem ws ref =>
    apply RowOrder.above_view hlog _ hrow
    intro c hc hkey old hold
    obtain ⟨-, joins, -, -, active, metered⟩ := hevent
    rcases List.mem_cons.1 hc with rfl | hc
    · cases hkey
    rcases List.mem_append.1 hc with hc | hc
    · cases joins with
      | skip => cases hc
      | join href hfits hjoin hu =>
        obtain ⟨id, hu⟩ := hu
        obtain rfl := List.mem_singleton.1 hc
        dsimp only at hold
        rw [hold] at hu
        exact upsertWorkItem_id hu
    -- the other changes are to tables of their own
    rcases List.mem_cons.1 hc with rfl | hc
    · cases hkey
    rcases List.mem_cons.1 hc with rfl | hc
    · cases hkey
    rcases List.mem_append.1 hc with hc | hc
    · obtain ⟨g, -, hg⟩ := active.keys (List.mem_map_of_mem hc)
      cases hg.symm.trans hkey
    · obtain ⟨g, -, hg⟩ := metered.keys (List.mem_map_of_mem hc)
      cases hg.symm.trans hkey
  | user ws ref =>
    have hkept := heffect.others (.user ws ref) (by simp) (by simp) (by simp) (by simp) (by simp)
    exact ⟨row, hkept.trans hrow, rfl⟩
  | rejectedEvent id =>
    have hkept := heffect.others (.rejectedEvent id) (by simp) (by simp) (by simp) (by simp)
      (by simp)
    exact ⟨row, hkept.trans hrow, rfl⟩
  | _ =>
    obtain ⟨row', hrow'⟩ := hsome
    exact ⟨row', hrow', trivial⟩

end Parties

/-! ### Along a run -/

/-- A request, an import, a roster call or a worker. -/
inductive StatusParty : Process → Prop
  | request (env : Env) (intake : Intake) (events : List Submission) :
    StatusParty (ingestEvents env intake events)
  | importJob (env : Env) (intake : Intake) (lines : List (ℕ × Option Submission)) :
    StatusParty (runImport env intake lines)
  | roster (conn : RosterConnection) (workspaceId : ℕ) (users : List RosterUser) :
    StatusParty (upsertRoster conn workspaceId users)
  | worker (conn : Connection) (limit : ℕ) : StatusParty (runPipeline conn limit)

theorem StatusParty.raises {p : Process} (h : StatusParty p) : p.All statusOrder.Raises := by
  cases h with
  | request env intake events =>
    exact ingestEvents_all (fun _ _ _ => storeOne_raises) quarantine_raises events
  | importJob env intake lines =>
    exact runImport_all (fun _ _ _ _ => storeOne_raises) (fun _ => quarantine_raises) lines
  | roster conn workspaceId users =>
    apply Proc.All.mono _ (upsertRoster_bodies workspaceId users [])
    rintro body ⟨ws, item, rfl⟩
    exact upsertRosterUser_raises conn ws item
  | worker conn limit => exact runPipelineFrom_all (processNext_raises conn) limit _

/-- How far an event has come. -/
def AnswerStatus.stage : AnswerStatus → ℕ
  | .rejected => 0
  | .stored .accepted => 1
  | .stored _ => 2

/-- The answer is about a stored event that has left `accepted`. -/
def StatusAnswer.Final (a : StatusAnswer) : Prop := a.status.stage = 2

theorem final_storedAnswer {row : EventRow} {eventKey : PyStr} :
    (storedAnswer s eventKey row).Final ↔ row.pipelineStatus ≠ .accepted := by
  unfold StatusAnswer.Final storedAnswer AnswerStatus.stage
  cases row.pipelineStatus <;> simp

theorem one_le_stage_storedAnswer (s : Db) (eventKey : PyStr) (row : EventRow) :
    1 ≤ (storedAnswer s eventKey row).status.stage := by
  unfold storedAnswer AnswerStatus.stage
  cases row.pipelineStatus <;> simp

theorem mem_rejectionsOf {row : RejectedEventRow} :
    row ∈ rejectionsOf s ws key ↔ ∃ id, s.lookup (.rejectedEvent id) = some row ∧
      row.workspaceId = ws ∧ row.eventKey.map bpchar = some (bpchar key) := by
  unfold rejectionsOf
  rw [List.mem_filterMap]
  constructor
  · rintro ⟨⟨k, r⟩, hmem, hrow⟩
    cases k with
    | rejectedEvent id =>
      dsimp only at hrow
      split_ifs at hrow with hmatch
      cases hrow
      exact ⟨id, AList.mem_lookup_iff.2 hmem, hmatch⟩
    | _ => cases hrow
  · rintro ⟨id, hrow, hmatch⟩
    exact ⟨⟨.rejectedEvent id, row⟩, AList.mem_lookup_iff.1 hrow, if_pos hmatch⟩

theorem rejectionsOf_ne_nil (habove : statusOrder.Above s s') (h : rejectionsOf s ws key ≠ []) :
    rejectionsOf s' ws key ≠ [] := by
  obtain ⟨row, hrow⟩ := List.exists_mem_of_ne_nil _ h
  obtain ⟨id, hlookup, hmatch⟩ := mem_rejectionsOf.1 hrow
  obtain ⟨row', hlookup', hsame⟩ := habove (.rejectedEvent id) row hlookup
  obtain rfl : row' = row := hsame
  exact List.ne_nil_of_mem (mem_rejectionsOf.2 ⟨id, hlookup', hmatch⟩)

/-- A status request whose queries see rows above those an earlier one saw gets no
less far, and where that one was final, the same answer. -/
theorem eventStatus_above {s₁ s₁' s₂ s₂' : Db} {received : ReceivedOrder} {principal : Principal}
    {eventKey : PyStr} (h₁ : statusOrder.Above s₁ s₂) (h₁' : statusOrder.Above s₁' s₂')
    (hkeys : StatusKeys s₁) (hkeys' : StatusKeys s₂) (hone : OneEvent s₁ principal.workspaceId eventKey)
    (hone' : OneEvent s₂ principal.workspaceId eventKey) {a : StatusAnswer}
    (ha : eventStatus received principal eventKey s₁ s₁' = .ok a) :
    ∃ a', eventStatus received principal eventKey s₂ s₂' = .ok a' ∧
      a.status.stage ≤ a'.status.stage ∧ (a.Final → a' = a) := by
  obtain ⟨bound, hbound, ha⟩ := bind_eq_ok ha
  obtain rfl : bound = eventKey := textArgument_eq_ok hbound
  cases hnewest : newestEvent s₁ principal.workspaceId bound with
  | some row =>
    rw [hnewest] at ha
    obtain rfl := Except.ok.inj ha
    obtain ⟨k, t, hrow, hkey⟩ := (newestEvent_eq_some hone).1 hnewest
    obtain ⟨row', hrow', hle⟩ := h₁ (.event principal.workspaceId k t) row hrow
    have hnewest' := (newestEvent_eq_some hone').2 ⟨k, t, hrow', hkey⟩
    refine ⟨storedAnswer s₂ bound row', ?_, ?_, ?_⟩
    · simp [eventStatus, hbound, hnewest', Bind.bind, Except.bind]
    · by_cases hsettled : row.pipelineStatus = .accepted
      · have hstage : (storedAnswer s₁ bound row).status.stage = 1 := by
          simp [storedAnswer, hsettled, AnswerStatus.stage]
        rw [hstage]
        exact one_le_stage_storedAnswer s₂ bound row'
      · obtain rfl : row' = row := hle hsettled
        exact le_refl _
    · intro hfinal
      obtain rfl : row' = row := hle (final_storedAnswer.1 hfinal)
      exact storedAnswer_stays h₁ hkeys hkeys' hrow
  | none =>
    rw [hnewest] at ha
    dsimp only at ha
    split at ha
    · rename_i rej hrej
      obtain rfl := Except.ok.inj ha
      have hpending : ¬ (StatusAnswer.mk bound .rejected (some rej.errorCode) none none).Final := by
        simp [StatusAnswer.Final, AnswerStatus.stage]
      cases hnewest' : newestEvent s₂ principal.workspaceId bound with
      | some row' =>
        exact ⟨storedAnswer s₂ bound row',
          by simp [eventStatus, hbound, hnewest', Bind.bind, Except.bind], Nat.zero_le _,
          fun hfinal => absurd hfinal hpending⟩
      | none =>
        have hfound : (rejectionsOf s₁' principal.workspaceId bound) ≠ [] := by
          intro hnil
          have hisSome := received.last_isSome (rejectionsOf s₁' principal.workspaceId bound)
          rw [hrej, hnil] at hisSome
          cases hisSome
        have hstays := rejectionsOf_ne_nil h₁' hfound
        have hisSome := received.last_isSome (rejectionsOf s₂' principal.workspaceId bound)
        cases hrej' : received.last (rejectionsOf s₂' principal.workspaceId bound) with
        | none =>
          rw [hrej'] at hisSome
          simp [hstays] at hisSome
        | some rej' =>
          exact ⟨⟨bound, .rejected, some rej'.errorCode, none, none⟩,
            by simp [eventStatus, hbound, hnewest', hrej', Bind.bind, Except.bind], Nat.zero_le _,
            fun hfinal => absurd hfinal hpending⟩
    · cases ha

/-- In every run of requests, imports, roster calls and workers, a later status
request for a key that is known finds it known, gets no less far, and repeats a
final answer word for word. -/
theorem eventStatus_advances {ι : Type} [DecidableEq ι]
    {w₀ w₁ w₁' w₂ w₂' : World ι Row Failure Reply Outcome}
    (hparties : ∀ i, ∃ p : Process, w₀.stations i = .resting p ∧ StatusParty p)
    (hreach : Reachable (fun _ => True) w₀ w₁) (hreach₁ : Reachable (fun _ => True) w₁ w₁')
    (hbetween : Reachable (fun _ => True) w₁' w₂) (hreach₂ : Reachable (fun _ => True) w₂ w₂')
    {received : ReceivedOrder} {principal : Principal} {eventKey : PyStr}
    (hkeys : StatusKeys w₁.committed) (hkeys' : StatusKeys w₂.committed)
    (hone : OneEvent w₂.committed principal.workspaceId eventKey) {a : StatusAnswer}
    (ha : eventStatus received principal eventKey w₁.committed w₁'.committed = .ok a) :
    ∃ a', eventStatus received principal eventKey w₂.committed w₂'.committed = .ok a' ∧
      a.status.stage ≤ a'.status.stage ∧ (a.Final → a' = a) := by
  have hidle : w₀.Idle statusOrder.Raises := by
    intro i
    obtain ⟨p, hp, hparty⟩ := hparties i
    exact ⟨p, hp, hparty.raises⟩
  have habove := RowOrder.above_of_reachable hidle hreach (hreach₁.trans hbetween)
  have habove' := RowOrder.above_of_reachable hidle (hreach.trans hreach₁)
    (hbetween.trans hreach₂)
  -- a key that stands for one event in the end did so before
  have hone' : OneEvent w₁.committed principal.workspaceId eventKey := by
    intro k t k' t' row row' hrow hrow' hkey hkey'
    obtain ⟨later, hlater, -⟩ := habove (.event principal.workspaceId k t) row hrow
    obtain ⟨later', hlater', -⟩ := habove (.event principal.workspaceId k' t') row' hrow'
    exact hone k t k' t' later later' hlater hlater' hkey hkey'
  exact eventStatus_above habove habove' hkeys hkeys' hone' hone ha

/-- One activity that names no person and no work item waits for two workers. -/
def namelessWaits : World Bool Row Failure Reply Outcome where
  committed := (∅ : Db).insert (.event 1 (py "k") 5) { waitingEvent with payload := [] }
  sequence := 7
  stations := fun _ => .resting (runPipeline utcConnection 3)

/-- What stands beside that event: no user, no work item and no other event. -/
def besideNameless : Sigma Row → Bool
  | ⟨.user _ _, _⟩ => false
  | ⟨.workItem _ _, _⟩ => false
  | ⟨.event ws key t, row⟩ => (ws = 1 ∧ key = py "k" ∧ t = 5) ∧
      (row : EventRow).resolvedUserId = none ∧ (row : EventRow).workItemId = none
  | _ => true

section Nameless

variable {s : Db} (h : s.entries.all besideNameless = true)

include h

theorem besideNameless_of_lookup {k : RowKey} {row : Row k} (hrow : s.lookup k = some row) :
    besideNameless ⟨k, row⟩ = true :=
  List.all_eq_true.1 h _ (AList.mem_lookup_iff.1 hrow)

theorem event_nameless {ws : ℕ} {key : PyStr} {t : ℤ} {row : EventRow}
    (hrow : s.lookup (.event ws key t) = some row) :
    (ws = 1 ∧ key = py "k" ∧ t = 5) ∧ row.resolvedUserId = none ∧ row.workItemId = none :=
  of_decide_eq_true (besideNameless_of_lookup h hrow)

theorem statusKeys_nameless : StatusKeys s := by
  refine ⟨?_, ?_, ?_, ?_⟩
  · intro ws ref ws' ref' u u' hu
    cases besideNameless_of_lookup h hu
  · intro ws ref ws' ref' r r' hr
    cases besideNameless_of_lookup h hr
  · intro ws key t row id hrow hid
    rw [(event_nameless h hrow).2.1] at hid
    cases hid
  · intro ws key t row id hrow hid
    rw [(event_nameless h hrow).2.2] at hid
    cases hid

theorem oneEvent_nameless (ws : ℕ) (key : PyStr) : OneEvent s ws key := by
  intro k t k' t' row row' hrow hrow' _ _
  obtain ⟨⟨-, rfl, rfl⟩, -⟩ := event_nameless h hrow
  obtain ⟨⟨-, rfl, rfl⟩, -⟩ := event_nameless h hrow'
  exact ⟨rfl, rfl⟩

end Nameless

def namelessReader : Principal := ⟨1, .production, .workspace, []⟩

def firstReceived : ReceivedOrder where
  last := List.head?
  last_isSome := by
    intro rows
    cases rows <;> rfl

set_option maxRecDepth 4000 in
/-- The event is asked for, settled by a worker, and asked for again. -/
theorem eventStatus_advances_settled : ∃ w a', Reachable (fun _ => True) namelessWaits w ∧
    eventStatus firstReceived namelessReader (py "k") namelessWaits.committed
      namelessWaits.committed = .ok ⟨py "k", .stored .accepted, none, none, none⟩ ∧
    eventStatus firstReceived namelessReader (py "k") w.committed w.committed = .ok a' ∧
      a'.status = .stored .resolved ∧
      (AnswerStatus.stored .accepted).stage ≤ a'.status.stage := by
  have hparties : ∀ i, ∃ p : Process, namelessWaits.stations i = .resting p ∧ StatusParty p :=
    fun _ => ⟨_, rfl, .worker _ _⟩
  have hresting : namelessWaits.Resting := fun _ => ⟨_, rfl⟩
  obtain ⟨w, hreach, -, hrows, -⟩ := run_resting (i := true) hresting rfl
  have hbefore : eventStatus firstReceived namelessReader (py "k") namelessWaits.committed
      namelessWaits.committed = .ok ⟨py "k", .stored .accepted, none, none, none⟩ := by
    decide +kernel
  have hafter : eventStatus firstReceived namelessReader (py "k") w.committed w.committed =
      .ok ⟨py "k", .stored .resolved, none, none, none⟩ := by
    rw [hrows]
    decide +kernel
  have hbeside : w.committed.entries.all besideNameless = true := by
    rw [hrows]
    decide +kernel
  obtain ⟨a', ha', hstage, -⟩ := eventStatus_advances hparties .refl .refl hreach .refl
    (statusKeys_nameless (by decide)) (statusKeys_nameless hbeside) (oneEvent_nameless hbeside _ _)
    hbefore
  refine ⟨w, a', hreach, hbefore, ha', ?_, hstage⟩
  cases hafter.symm.trans ha'
  rfl

end TrueFigure.Server
