import TrueFigure.Library.Numbering
import TrueFigure.Library.Snapshots
import TrueFigure.Server.EventStatus
import TrueFigure.Server.ItemAttributes
import TrueFigure.Server.RosterWindows

/-!
# References between rows

An event refers to its person and to its work item by the numbers of their rows, and
`event_status` looks the numbers up without asking for the workspace. Whatever requests, imports,
roster calls and workers do beside each other, a number stands in one row, and what an event
refers to is of its own workspace: the person its reference has led to, and the item it names.
-/
namespace TrueFigure.Server

open TrueFigure.Library TrueFigure.Python

/-- `users.id`. -/
def userNumber : Sigma Row → Option ℕ
  | ⟨.user _ _, row⟩ => some (row : UserRow).id
  | _ => none

/-- `work_items.id`. -/
def itemNumber : Sigma Row → Option ℕ
  | ⟨.workItem _ _, row⟩ => some (row : WorkItemRow).id
  | _ => none

def UserIn (s : Db) (ws id : ℕ) : Prop :=
  ∃ ref, ∃ u : UserRow, s.lookup (.user ws ref) = some u ∧ u.id = id

/-- The event is joined to the item it names, if it names one. -/
def JoinedAs (s : Db) (ws : ℕ) (row : EventRow) : Prop :=
  match row.itemRef with
  | none => row.workItemId = none
  | some ref => ∃ item : WorkItemRow, s.lookup (.workItem ws ref) = some item ∧
      row.workItemId = some item.id

/-- What events and identifiers refer to is there, in their own workspace. -/
structure ReferencesOk (s : Db) : Prop where
  people : ∀ ws key t (row : EventRow), s.lookup (.event ws key t) = some row →
    ∀ id, row.resolvedUserId = some id → UserIn s ws id
  waiting : ∀ ws key t (row : EventRow), s.lookup (.event ws key t) = some row →
    row.pipelineStatus = .accepted → row.workItemId = none
  joined : ∀ ws key t (row : EventRow), s.lookup (.event ws key t) = some row →
    row.pipelineStatus ≠ .accepted → JoinedAs s ws row
  owners : ∀ ws ns value (row : UserIdentifierRow),
    s.lookup (.userIdentifier ws ns value) = some row → UserIn s ws row.userId

/-- The same of one change of a log that leaves `t`. -/
def ChangeOk (t : Db) (c : Change Row) : Prop :=
  match c with
  | ⟨.event ws _ _, _, row⟩ =>
    (∀ id, (row : EventRow).resolvedUserId = some id → UserIn t ws id) ∧
      ((row : EventRow).pipelineStatus = .accepted → (row : EventRow).workItemId = none) ∧
      ((row : EventRow).pipelineStatus ≠ .accepted → JoinedAs t ws row)
  | ⟨.userIdentifier ws _ _, _, row⟩ => UserIn t ws (row : UserIdentifierRow).userId
  | _ => True

/-- A transaction of a request, an import, a roster call or a worker. -/
inductive TenantBody : Transaction → Prop
  | store {env : Env} {intake : Intake} {sub : Submission} {adm : Admitted} (index : ℕ)
    (h : examine env intake sub = .ok adm) : TenantBody (storeOne env intake index adm)
  | quarantine (env : Env) (intake : Intake) (event : Json) (err : TFError)
    (key : Option PyStr) : TenantBody (quarantine env intake event err key)
  | roster (conn : RosterConnection) (workspaceId : ℕ) (item : RosterUser) :
    TenantBody (upsertRosterUser conn workspaceId item)
  | worker {conn : Connection} (h : conn.PicksRow) : TenantBody (processNext conn)

/-- A request, an import, a roster call or a worker. -/
inductive TenantParty : Process → Prop
  | request (env : Env) (intake : Intake) (events : List Submission) :
    TenantParty (ingestEvents env intake events)
  | importJob (env : Env) (intake : Intake) (lines : List (ℕ × Option Submission)) :
    TenantParty (runImport env intake lines)
  | roster (conn : RosterConnection) (workspaceId : ℕ) (users : List RosterUser) :
    TenantParty (upsertRoster conn workspaceId users)
  | worker {conn : Connection} (h : conn.PicksRow) (limit : ℕ) :
    TenantParty (runPipeline conn limit)

theorem TenantParty.bodies {p : Process} (h : TenantParty p) : p.All TenantBody := by
  cases h with
  | request env intake events =>
    exact ingestEvents_all (fun index _ _ => .store index) (.quarantine env intake) events
  | importJob env intake lines =>
    exact runImport_all (fun _ index _ _ => .store index) (.quarantine env) lines
  | roster conn workspaceId users =>
    apply Proc.All.mono _ (upsertRoster_bodies workspaceId users [])
    rintro body ⟨ws, item, rfl⟩
    exact .roster conn ws item
  | worker h limit => exact runPipelineFrom_all (.worker h) limit _

/-! ### The references along a run -/

variable {s t : Db} {ws id : ℕ} {ref : PyStr} {row : EventRow} {log more : List (Change Row)}

theorem UserIn.mono (h : UserIn s ws id) (habove : statusOrder.Above s t) : UserIn t ws id := by
  obtain ⟨ref, u, hu, hid⟩ := h
  obtain ⟨u', hu', hsame⟩ := habove (.user ws ref) u hu
  exact ⟨ref, u', hu', Eq.trans hsame hid⟩

theorem JoinedAs.mono (h : JoinedAs s ws row) (habove : statusOrder.Above s t) :
    JoinedAs t ws row := by
  unfold JoinedAs at h ⊢
  cases href : row.itemRef with
  | none => simpa only [href] using h
  | some ref =>
    simp only [href] at h ⊢
    obtain ⟨item, hitem, hid⟩ := h
    obtain ⟨item', hitem', hsame⟩ := habove (.workItem ws ref) item hitem
    exact ⟨item', hitem', by rw [hid, hsame]⟩

theorem referencesOk_view (hlog : Consistent log s) (habove : statusOrder.Above s (view log s))
    (hall : ∀ c ∈ log, c.before ≠ some c.after → ChangeOk (view log s) c) (h : ReferencesOk s) :
    ReferencesOk (view log s) where
  people ws key t row hrow id hid := by
    rcases lookup_view_cases hlog hrow with hrow | ⟨before, hmem, hne⟩
    · exact (h.people ws key t row hrow id hid).mono habove
    · exact (hall _ hmem hne).1 id hid
  waiting ws key t row hrow haccepted := by
    rcases lookup_view_cases hlog hrow with hrow | ⟨before, hmem, hne⟩
    · exact h.waiting ws key t row hrow haccepted
    · exact (hall _ hmem hne).2.1 haccepted
  joined ws key t row hrow hleft := by
    rcases lookup_view_cases hlog hrow with hrow | ⟨before, hmem, hne⟩
    · exact (h.joined ws key t row hrow hleft).mono habove
    · exact (hall _ hmem hne).2.2 hleft
  owners ws ns value row hrow := by
    rcases lookup_view_cases hlog hrow with hrow | ⟨before, hmem, hne⟩
    · exact (h.owners ws ns value row hrow).mono habove
    · exact hall _ hmem hne

/-! ### Requests, imports and roster calls -/

/-- A row that `_process_one` inserts refers to nothing yet. -/
theorem Ingested.waiting (h : Ingested row) :
    row.pipelineStatus = .accepted ∧ row.resolvedUserId = none ∧ row.workItemId = none := by
  obtain ⟨env, intake, sub, adm, dep, key, -, -, hrow⟩ := h
  unfold eventValues at hrow
  split at hrow
  · split_ifs at hrow
    cases hrow
    exact ⟨rfl, rfl, rfl⟩
  · cases hrow

theorem runs_quarantine {env : Env} {intake : Intake} {event : Json} {err : TFError}
    {key : Option PyStr} {a : Reply} (h : Runs (quarantine env intake event err key) log (.ok a)) :
    ∃ id after, log = [⟨.rejectedEvent id, none, after⟩] := by
  unfold quarantine at h
  split at h
  · exact h.not_throw.elim
  · obtain ⟨id, h⟩ := h.of_fresh
    obtain ⟨before, after, more, hu, rfl, hdone⟩ := h.of_write
    obtain ⟨rfl, -⟩ := hdone.of_pure
    cases before with
    | none => exact ⟨id, after, rfl⟩
    | some old => cases hu

/-- An identifier that a roster call changes is one of its user. -/
def Change.GivesTo (ws userId : ℕ) (c : Change Row) : Prop :=
  match c with
  | ⟨.userIdentifier ws' _ _, before, row⟩ =>
    ws' = ws ∧ (before ≠ some row → (row : UserIdentifierRow).userId = userId)
  | _ => False

theorem writes_givesTo {conn : RosterConnection} {ws userId : ℕ} (idents : List RosterIdentifier) :
    Writes (Change.GivesTo ws userId) (addIdentifiers conn ws userId idents) := by
  apply writes_addIdentifiers
  intro ns value before after hu
  refine ⟨rfl, fun hne => ?_⟩
  obtain ⟨hold, hnew⟩ := keepOwner_eq_ok hu
  cases before with
  | none => rw [hnew rfl]
  | some old => exact absurd (congrArg some (hold old rfl).symm) hne

theorem changeOk_roster {conn : RosterConnection} {item : RosterUser} {a : Reply}
    (h : Runs (upsertRosterUser conn ws item) log (.ok a)) :
    ∀ c ∈ log, c.before ≠ some c.after → ChangeOk (view log s) c := by
  obtain ⟨id, h⟩ := Runs.of_fresh h
  obtain ⟨before, user, more, -, rfl, hmore⟩ := h.of_write
  have hgives := writes_givesTo item.identifiers more _ hmore
  have huser : UserIn (view (⟨.user ws item.userRef, before, user⟩ :: more) s) ws
      (user : UserRow).id := by
    refine ⟨item.userRef, user, ?_, rfl⟩
    rw [view_cons, lookup_view_of_not_locked, AList.lookup_insert]
    intro hlocked
    obtain ⟨c, hc, hkey⟩ := List.mem_map.1 hlocked
    have hchange := hgives c hc
    obtain ⟨k, before, after⟩ := c
    cases hkey
    exact hchange
  intro c hc hne
  rcases List.mem_cons.1 hc with rfl | hc
  · trivial
  · have hchange := hgives c hc
    obtain ⟨k, before, after⟩ := c
    cases k with
    | userIdentifier ws' ns value =>
      obtain ⟨rfl, howner⟩ := hchange
      dsimp only [ChangeOk]
      rw [howner hne]
      exact huser
    | _ => exact hchange.elim

/-! ### Workers -/

section Worker

variable {conn : Connection} {ev : ClaimedEvent} {seen : Db → Prop} {a : Reply} {u : Option ℕ}
  {x : Option ExclusionReason} {w : Option ℕ}
  {next : Option ℕ → Option ExclusionReason → Transaction}

theorem sees_classifyUser {userId : ℕ}
    (h : Sees seen log (classifyUser conn ev userId next) more (.ok a)) :
    ∃ u x, Sees seen log (next u x) more (.ok a) ∧ ∀ id, u = some id → id = userId := by
  obtain ⟨s, -, h⟩ := h.of_read
  cases huser : userById (view log s) userId with
  | none =>
    simp only [huser] at h
    exact h.not_throw.elim
  | some user =>
    simp only [huser] at h
    split_ifs at h
    · exact ⟨_, _, h, fun id hid => (Option.some.inj hid).symm⟩
    · exact ⟨_, _, h, fun id hid => by cases hid⟩
    · exact ⟨_, _, h, fun id hid => (Option.some.inj hid).symm⟩

theorem sees_matchUser {value : PyStr} {found : Option ℕ}
    (hfound : ∀ userId, found = some userId →
      ∃ s, seen s ∧ Leads (view log s) ev.workspaceId userId)
    (h : Sees seen log (matchUser conn ev value found next) more (.ok a)) :
    ∃ u x, Sees seen log (next u x) more (.ok a) ∧
      ∀ id, u = some id → ∃ s, seen s ∧ Leads (view log s) ev.workspaceId id := by
  cases found with
  | some userId =>
    obtain ⟨u, x, h, hid⟩ := sees_classifyUser h
    refine ⟨u, x, h, fun id hu => ?_⟩
    rw [hid id hu]
    exact hfound userId rfl
  | none =>
    obtain ⟨s, hseen, h⟩ := Sees.of_read h
    split at h
    · rename_i user huser
      obtain ⟨u, x, h, hid⟩ := sees_classifyUser h
      refine ⟨u, x, h, fun id hu => ⟨s, hseen, .inr ⟨value, user, huser, ?_⟩⟩⟩
      exact (hid id hu).symm
    · exact ⟨_, _, h, fun id hid => by cases hid⟩

/-- A user an event resolves to is one some rows of its workspace have led to. -/
theorem sees_resolveIdentity (hpicks : conn.PicksRow)
    (h : Sees seen log (resolveIdentity conn ev next) more (.ok a)) :
    ∃ u x, Sees seen log (next u x) more (.ok a) ∧
      ∀ id, u = some id → ∃ s, seen s ∧ Leads (view log s) ev.workspaceId id := by
  unfold resolveIdentity at h
  extract_lets field value at h
  clear_value value
  split_ifs at h
  · split at h
    · obtain ⟨s, -, h⟩ := h.of_read
      split at h
      · obtain ⟨s', hseen, h⟩ := h.of_read
        apply sees_matchUser _ h
        intro userId hfound
        obtain ⟨row, hrow, hid⟩ := Option.map_eq_some_iff.1 hfound
        exact ⟨s', hseen, .inl ⟨_, _, row, hrow, hid⟩⟩
      · obtain ⟨s', hseen, h⟩ := h.of_read
        apply sees_matchUser _ h
        intro userId hfound
        obtain ⟨ns, row, hrow, hid⟩ := mem_usersByIdentifier (hpicks _ _ hfound)
        exact ⟨s', hseen, .inl ⟨ns, _, row, hrow, hid⟩⟩
    · exact h.not_throw.elim
  · exact ⟨_, _, h, fun id hid => by cases hid⟩

theorem sees_processNext (hpicks : conn.PicksRow)
    (h : Sees seen [] (processNext conn) log (.ok a)) :
    log = [] ∨ ∃ ev u x w, EventLog conn ev u x w log ∧
      ∀ id, u = some id →
        ∃ s, seen s ∧ Leads (s.insert ev.rowKey ev.row) ev.workspaceId id := by
  rcases h.of_claim with hnone | ⟨k, row, rank, more, hrank, rfl, hclaimed⟩
  · exact .inl hnone.of_pure.1
  cases k with
  | event ws key t =>
    have hrow : (row : EventRow).pipelineStatus = .accepted := by
      by_contra hne
      simp [acceptedRank, hne] at hrank
    obtain ⟨u, x, hresolved, hleads⟩ := sees_resolveIdentity hpicks hclaimed
    obtain ⟨w, hevent, -⟩ :=
      @runs_settleAndFold conn ⟨ws, key, t, row⟩ more a u x hrow hresolved.runs
    exact .inr ⟨⟨ws, key, t, row⟩, u, x, w, hevent, hleads⟩
  | _ => simp [acceptedRank] at hrank

theorem ReferencesOk.userIn (h : ReferencesOk s)
    (hleads : Leads (s.insert ev.rowKey ev.row) ws id) : UserIn s ws id := by
  apply Referential.user_of_leads h.owners
  rcases hleads with ⟨ns, value, row, hrow, hid⟩ | ⟨ref, user, huser, hid⟩
  · exact .inl ⟨ns, value, row, (AList.lookup_insert_ne (by simp)).symm.trans hrow, hid⟩
  · exact .inr ⟨ref, user, (AList.lookup_insert_ne (by simp)).symm.trans huser, hid⟩

/-- The id `_join_work_item` returns is that of the item the event names. -/
theorem EventLog.joinedAs (h : EventLog conn ev u x w log) (hlog : Consistent log s) :
    JoinedAs (view log s) ev.workspaceId (ev.settled u x w).row := by
  obtain ⟨-, joins, -, -, active, metered⟩ := h
  rename_i item activity meter before after statsBefore stats
  unfold JoinedAs
  cases joins with
  | skip hskip =>
    have hnone : (ev.settled u x none).row.itemRef = none := itemRef_eq_none hskip
    rw [hnone]
    rfl
  | @join ref itemBefore row href _ hjoin hu =>
    have hsome : (ev.settled u x (some row.id)).row.itemRef = some ref := itemRef_eq_some hjoin href
    rw [hsome]
    refine ⟨row, ?_, rfl⟩
    have hrest : RowKey.workItem ev.workspaceId ref ∉ locked (⟨ev.rowKey, before, after⟩ ::
        ⟨ev.statsKey conn, statsBefore, stats⟩ :: (activity ++ meter)) := by
      intro hk
      simp only [locked_cons, locked_append, List.mem_cons, List.mem_append] at hk
      rcases hk with hkey | hkey | hk | hk
      · cases hkey
      · cases hkey
      · obtain ⟨c, -, hkey⟩ := active.keys hk
        cases hkey
      · obtain ⟨c, -, hkey⟩ := metered.keys hk
        cases hkey
    rw [view_cons, view_append, lookup_view_of_not_locked hrest, view_cons, view_nil,
      AList.lookup_insert]

/-- An event found afterwards is the settled one, or was found before. -/
theorem Effect.event_cases {s' : Db} (h : Effect conn ev u x w s s') {key : PyStr} {t : ℤ}
    (hrow : s'.lookup (.event ws key t) = some row) :
    (ws = ev.workspaceId ∧ key = ev.eventKey ∧ t = ev.occurredAt ∧
      row = (ev.settled u x w).row) ∨ s.lookup (.event ws key t) = some row := by
  by_cases hkey : RowKey.event ws key t = ev.rowKey
  · obtain ⟨rfl, rfl, rfl⟩ := RowKey.event.inj hkey
    exact .inl ⟨rfl, rfl, rfl, Option.some.inj (hrow.symm.trans h.settled)⟩
  · rw [h.others _ hkey (by simp) (by simp) (by simp) (by simp)] at hrow
    exact .inr hrow

/-- Only the settled event refers to anything new. -/
theorem referencesOk_worker (h : EventLog conn ev u x w log) (hlog : Consistent log s)
    (habove : statusOrder.Above s (view log s)) (hok : ReferencesOk s)
    (hperson : ∀ id, u = some id → UserIn (view log s) ev.workspaceId id) :
    ReferencesOk (view log s) where
  people ws key t row hrow id hid := by
    rcases (h.effect hlog).event_cases hrow with ⟨rfl, rfl, rfl, rfl⟩ | hbefore
    · exact hperson id hid
    · exact (hok.people ws key t row hbefore id hid).mono habove
  waiting ws key t row hrow haccepted := by
    rcases (h.effect hlog).event_cases hrow with ⟨rfl, rfl, rfl, rfl⟩ | hbefore
    · exact absurd haccepted (settledStatus_ne_accepted x w)
    · exact hok.waiting ws key t row hbefore haccepted
  joined ws key t row hrow hleft := by
    rcases (h.effect hlog).event_cases hrow with ⟨rfl, rfl, rfl, rfl⟩ | hbefore
    · exact h.joinedAs hlog
    · exact (hok.joined ws key t row hbefore hleft).mono habove
  owners ws ns value row hrow := by
    have hbefore : s.lookup (.userIdentifier ws ns value) = some row := by
      rw [← hrow]
      exact ((h.effect hlog).others _ (by simp) (by simp) (by simp) (by simp) (by simp)).symm
    exact (hok.owners ws ns value row hbefore).mono habove

end Worker

/-! ### Every party -/

theorem TenantBody.raises {body : Transaction} (h : TenantBody body) : statusOrder.Raises body := by
  cases h with
  | store index h => exact storeOne_raises h
  | quarantine env intake event err key => exact quarantine_raises event err key
  | roster conn ws item => exact upsertRosterUser_raises conn ws item
  | worker h => exact processNext_raises _

theorem TenantBody.preserves {body : Transaction} (h : TenantBody body) :
    PreservesSeen ReferencesOk statusOrder.Above body := by
  intro log a s hsees hlog hok
  have habove := h.raises log a s hsees.runs hlog
  refine ⟨?_, habove⟩
  cases h with
  | store index h =>
    apply referencesOk_view hlog habove _ hok
    rcases runs_storeOne h hsees.runs with rfl | ⟨key, row, hrow, rfl⟩
    · exact fun c hc => absurd hc List.not_mem_nil
    · obtain ⟨haccepted, hperson, hitem⟩ := hrow.waiting
      intro c hc _
      obtain rfl := List.mem_singleton.1 hc
      refine ⟨fun id hid => ?_, fun _ => hitem, fun hleft => absurd haccepted hleft⟩
      rw [hperson] at hid
      cases hid
  | quarantine env intake event err key =>
    apply referencesOk_view hlog habove _ hok
    obtain ⟨id, after, rfl⟩ := runs_quarantine hsees.runs
    intro c hc _
    obtain rfl := List.mem_singleton.1 hc
    trivial
  | roster conn ws item => exact referencesOk_view hlog habove (changeOk_roster hsees.runs) hok
  | worker hpicks =>
    rcases sees_processNext hpicks hsees with rfl | ⟨ev, u, x, w, hevent, hperson⟩
    · exact hok
    · apply referencesOk_worker hevent hlog habove hok
      intro id hid
      obtain ⟨s', ⟨hok', habove'⟩, hleads⟩ := hperson id hid
      exact ((hok'.userIn hleads).mono habove').mono habove

/-! ### The numbers along a run -/

section Numbering

variable {number : Sigma Row → Option ℕ} {spare : Finset ℕ}

theorem numbers_of_writes {body : Transaction}
    (h : Writes (fun c => number ⟨c.key, c.after⟩ = none) body) (spare : Finset ℕ) :
    Numbers number body spare := by
  apply numbers_of_keeps
  intro log r hruns c hc n hn
  rw [h log r hruns c hc] at hn
  cases hn

theorem numbers_write {k : RowKey} {update : Option (Row k) → Except Failure (Row k)}
    {next : Row k → Transaction} (hk : ∀ r, number ⟨k, r⟩ = none)
    (h : ∀ r, Numbers number (next r) spare) : Numbers number (.write k update next) spare := by
  intro before after _
  refine .inl ⟨fun n hn => ?_, h after⟩
  rw [hk after] at hn
  cases hn

theorem userValues_id {conn : RosterConnection} {id : ℕ} {item : RosterUser} {user : UserRow}
    (h : userValues conn id item = .ok user) : user.id = id := by
  obtain ⟨kind, -, h⟩ := bind_eq_ok h
  obtain ⟨userType, -, h⟩ := bind_eq_ok h
  obtain ⟨_, -, h⟩ := bind_eq_ok h
  obtain ⟨_, -, h⟩ := bind_eq_ok h
  obtain ⟨_, -, h⟩ := bind_eq_ok h
  obtain ⟨_, -, h⟩ := bind_eq_ok h
  obtain ⟨first, -, h⟩ := bind_eq_ok h
  obtain ⟨last, -, h⟩ := bind_eq_ok h
  dsimp only at h
  split at h
  · split_ifs at h
    cases h
    rfl
  · cases h
    rfl

theorem numbers_upsertRosterUser (conn : RosterConnection) (ws : ℕ) (item : RosterUser) :
    Numbers userNumber (upsertRosterUser conn ws item) ∅ := by
  intro n before after hu
  have hrest : ∀ spare, Numbers userNumber
      (addIdentifiers conn ws (after : UserRow).id item.identifiers) spare :=
    numbers_of_writes (writes_addIdentifiers (fun _ _ _ _ _ => rfl) _)
  cases before with
  | none =>
    refine .inr ⟨n, Finset.mem_insert_self n ∅, ?_, hrest _⟩
    obtain ⟨user, huser, hu⟩ := bind_eq_ok hu
    dsimp only at hu
    split_ifs at hu
    cases hu
    exact congrArg some (userValues_id huser)
  | some old =>
    refine .inl ⟨fun m hm => ?_, hrest _⟩
    rw [← hm]
    exact congrArg some (upsertUser_id hu).symm

theorem numbers_resolveIdentity {conn : Connection} {ev : ClaimedEvent}
    {next : Option ℕ → Option ExclusionReason → Transaction}
    (h : ∀ u x, Numbers number (next u x) spare) :
    Numbers number (resolveIdentity conn ev next) spare := by
  have hclassify : ∀ userId, Numbers number (classifyUser conn ev userId next) spare := by
    intro userId s
    dsimp only
    split
    · trivial
    · split_ifs
      · exact h _ _
      · exact h _ _
      · exact h _ _
  have hmatch : ∀ value found, Numbers number (matchUser conn ev value found next) spare := by
    intro value found
    cases found with
    | some userId => exact hclassify userId
    | none =>
      intro s
      dsimp only
      split
      · exact hclassify _
      · exact h _ _
  unfold resolveIdentity
  extract_lets field value
  clear_value value
  split_ifs
  · split
    · intro s
      dsimp only
      split
      · exact fun s' => hmatch _ _
      · exact fun s' => hmatch _ _
    · trivial
  · exact h _ _

theorem numbers_joinWorkItem {conn : Connection} {ev : ClaimedEvent} {next : Option ℕ → Transaction}
    (hitem : (∀ ws ref r, number ⟨.workItem ws ref, r⟩ = none) ∨ number = itemNumber)
    (h : ∀ w spare, Numbers number (next w) spare) :
    Numbers number (joinWorkItem conn ev next) spare := by
  unfold joinWorkItem
  extract_lets ref
  clear_value ref
  split_ifs
  · split
    · intro n
      rcases hitem with hnone | rfl
      · exact numbers_write (hnone _ _) fun r => h _ _
      · intro before after hu
        have hu := liftDb_eq_ok (Connection.indexed_eq_ok.1 hu).1
        cases before with
        | none =>
          refine .inr ⟨n, Finset.mem_insert_self n _, ?_, h _ _⟩
          obtain ⟨size', -, hu⟩ := bind_eq_ok hu
          obtain ⟨category', -, hu⟩ := bind_eq_ok hu
          cases hu
          rfl
        | some old =>
          refine .inl ⟨fun m hm => ?_, h _ _⟩
          rw [← hm]
          exact congrArg some (upsertWorkItem_id hu).symm
    · trivial
  · exact h _ _

theorem numbers_processNext (conn : Connection)
    (hitem : (∀ ws ref r, number ⟨.workItem ws ref, r⟩ = none) ∨ number = itemNumber)
    (hother : ∀ k r, (∀ ws ref, k ≠ .user ws ref) → (∀ ws ref, k ≠ .workItem ws ref) →
      number ⟨k, r⟩ = none) : Numbers number (processNext conn) ∅ := by
  have hwrite : ∀ {k : RowKey} {update : Option (Row k) → Except Failure (Row k)}
      {next : Row k → Transaction} {spare : Finset ℕ}, (∀ ws ref, k ≠ .user ws ref) →
      (∀ ws ref, k ≠ .workItem ws ref) → (∀ r, Numbers number (next r) spare) →
        Numbers number (.write k update next) spare :=
    fun huser hitem h => numbers_write (fun r => hother _ r huser hitem) h
  have hmeter : ∀ ev day spare (next : Transaction), Numbers number next spare →
      Numbers number (updateMeterUsage conn ev day next) spare := by
    intro ev day spare next h
    unfold updateMeterUsage
    split_ifs
    · split
      · trivial
      · split
        · trivial
        · exact hwrite (by simp) (by simp) fun _ => h
    · exact h
  have hactivity : ∀ ev day u x spare (next : Transaction), Numbers number next spare →
      Numbers number (updateUserActivity ev day u x next) spare := by
    intro ev day u x spare next h
    unfold updateUserActivity
    split
    · split_ifs
      · exact hwrite (by simp) (by simp) fun _ => h
      · exact h
    · exact h
  refine ⟨trivial, fun k row x _ => ?_⟩
  cases k with
  | event ws key t =>
    apply numbers_resolveIdentity
    intro u x
    apply numbers_joinWorkItem hitem
    intro w spare
    apply hwrite (by simp) (by simp)
    intro _
    apply hwrite (by simp) (by simp)
    intro _
    exact hactivity _ _ _ _ _ _ (hmeter _ _ _ _ trivial)
  | _ => trivial

theorem TenantBody.numbers_users {body : Transaction} (h : TenantBody body) :
    Numbers userNumber body ∅ := by
  cases h with
  | store index _ =>
    exact numbers_of_writes (writes_storeOne _ _ ⟨fun _ _ _ _ _ => rfl, fun _ _ _ => rfl⟩ _ _) ∅
  | quarantine env intake event err key =>
    exact numbers_of_writes
      (writes_quarantine _ _ ⟨fun _ _ _ _ _ => rfl, fun _ _ _ => rfl⟩ _ _ _) ∅
  | roster conn ws item => exact numbers_upsertRosterUser conn ws item
  | worker _ =>
    apply numbers_processNext _ (.inl fun _ _ _ => rfl)
    intro k r huser _
    cases k with
    | user ws ref => exact absurd rfl (huser ws ref)
    | _ => rfl

theorem TenantBody.numbers_items {body : Transaction} (h : TenantBody body) :
    Numbers itemNumber body ∅ := by
  cases h with
  | store index _ =>
    exact numbers_of_writes (writes_storeOne _ _ ⟨fun _ _ _ _ _ => rfl, fun _ _ _ => rfl⟩ _ _) ∅
  | quarantine env intake event err key =>
    exact numbers_of_writes
      (writes_quarantine _ _ ⟨fun _ _ _ _ _ => rfl, fun _ _ _ => rfl⟩ _ _ _) ∅
  | roster conn ws item =>
    apply numbers_of_writes
    intro log r hruns c hc
    have hkept := writes_upsertRosterUser conn ws item log r hruns c hc
    obtain ⟨k, before, after⟩ := c
    cases k with
    | user ws ref => rfl
    | userIdentifier ws ns value => rfl
    | _ => exact hkept.elim
  | worker _ =>
    apply numbers_processNext _ (.inr rfl)
    intro k r _ hitem
    cases k with
    | workItem ws ref => exact absurd rfl (hitem ws ref)
    | _ => rfl

end Numbering

/-! ### Every run -/

/-- The rows a run starts from: their numbers are drawn and different, their references hold. -/
structure RowsNumbered (w : World ι Row Failure Reply Outcome) : Prop where
  references : ReferencesOk w.committed
  users : DistinctNumbers userNumber w.committed
  items : DistinctNumbers itemNumber w.committed
  users_lt : ∀ n, Carried userNumber w.committed n → n < w.sequence
  items_lt : ∀ n, Carried itemNumber w.committed n → n < w.sequence

/-- No person and no work item is referred to from two workspaces, two events that have left
`accepted` share a work item exactly where they name the same one, and `event_status` names the
item the event names and the person of its workspace it has resolved to. -/
structure NamesOwn (s : Db) : Prop where
  item : ∀ ws key t (row : EventRow) eventKey, s.lookup (.event ws key t) = some row →
    row.pipelineStatus ≠ .accepted → (storedAnswer s eventKey row).joinedWorkItem = row.itemRef
  person : ∀ ws key t (row : EventRow) eventKey, s.lookup (.event ws key t) = some row →
    ∀ id, row.resolvedUserId = some id → ∃ ref, ∃ u : UserRow, s.lookup (.user ws ref) = some u ∧
      u.id = id ∧ (storedAnswer s eventKey row).resolvedPerson = some ref
  items_shared : ∀ ws key t (row : EventRow) ws' key' t' (row' : EventRow),
    s.lookup (.event ws key t) = some row → s.lookup (.event ws' key' t') = some row' →
    row.pipelineStatus ≠ .accepted → row'.pipelineStatus ≠ .accepted →
    ((∃ id, row.workItemId = some id ∧ row'.workItemId = some id) ↔
      ws = ws' ∧ ∃ ref, row.itemRef = some ref ∧ row'.itemRef = some ref)
  people_shared : ∀ ws key t (row : EventRow) ws' key' t' (row' : EventRow) id,
    s.lookup (.event ws key t) = some row → s.lookup (.event ws' key' t') = some row' →
    row.resolvedUserId = some id → row'.resolvedUserId = some id → ws = ws'

theorem JoinedAs.eq_some_iff (h : JoinedAs s ws row) : row.workItemId = some id ↔
    ∃ ref, row.itemRef = some ref ∧
      ∃ item : WorkItemRow, s.lookup (.workItem ws ref) = some item ∧ item.id = id := by
  unfold JoinedAs at h
  cases href : row.itemRef with
  | none =>
    simp only [href] at h
    simp [h]
  | some ref =>
    simp only [href] at h
    obtain ⟨item, hitem, hid⟩ := h
    simp [hid, hitem]

theorem users_unique (h : DistinctNumbers userNumber s) {ws' : ℕ} {ref' : PyStr} {u u' : UserRow}
    (hu : s.lookup (.user ws ref) = some u) (hu' : s.lookup (.user ws' ref') = some u')
    (hid : u.id = u'.id) : ws = ws' ∧ ref = ref' := by
  refine RowKey.user.inj (h _ _ u.id ?_ ?_)
  · rw [hu]
    rfl
  · rw [hu', hid]
    rfl

theorem items_unique (h : DistinctNumbers itemNumber s) {ws' : ℕ} {ref' : PyStr}
    {r r' : WorkItemRow} (hr : s.lookup (.workItem ws ref) = some r)
    (hr' : s.lookup (.workItem ws' ref') = some r') (hid : r.id = r'.id) :
    ws = ws' ∧ ref = ref' := by
  refine RowKey.workItem.inj (h _ _ r.id ?_ ?_)
  · rw [hr]
    rfl
  · rw [hr', hid]
    rfl

theorem ReferencesOk.statusKeys (h : ReferencesOk s) (husers : DistinctNumbers userNumber s)
    (hitems : DistinctNumbers itemNumber s) : StatusKeys s where
  users _ _ _ _ _ _ hu hu' hid := (users_unique husers hu hu' hid).2
  items _ _ _ _ _ _ hr hr' hid := (items_unique hitems hr hr' hid).2
  people ws key t row id hrow hid := h.people ws key t row hrow id hid
  work ws key t row id hrow hid := by
    by_cases hleft : row.pipelineStatus = .accepted
    · rw [h.waiting ws key t row hrow hleft] at hid
      cases hid
    · obtain ⟨ref, -, item, hitem, hid⟩ := (h.joined ws key t row hrow hleft).eq_some_iff.1 hid
      exact ⟨ref, item, hitem, hid⟩

theorem ReferencesOk.namesOwn (h : ReferencesOk s) (husers : DistinctNumbers userNumber s)
    (hitems : DistinctNumbers itemNumber s) : NamesOwn s where
  item ws key t row eventKey hrow hleft := by
    have hjoined := h.joined ws key t row hrow hleft
    unfold JoinedAs at hjoined
    unfold storedAnswer
    cases href : row.itemRef with
    | none =>
      simp only [href] at hjoined
      rw [hjoined]
      rfl
    | some ref =>
      simp only [href] at hjoined
      obtain ⟨item, hitem, hid⟩ := hjoined
      rw [hid]
      exact workItemRefOf_eq (h.statusKeys husers hitems) hitem rfl
  person ws key t row eventKey hrow id hid := by
    obtain ⟨ref, u, hu, huid⟩ := h.people ws key t row hrow id hid
    refine ⟨ref, u, hu, huid, ?_⟩
    unfold storedAnswer
    rw [hid]
    exact userRefOf_eq (h.statusKeys husers hitems) hu huid
  items_shared ws key t row ws' key' t' row' hrow hrow' hleft hleft' := by
    have hjoined := h.joined ws key t row hrow hleft
    have hjoined' := h.joined ws' key' t' row' hrow' hleft'
    constructor
    · rintro ⟨id, hid, hid'⟩
      obtain ⟨ref, href, item, hitem, hid⟩ := hjoined.eq_some_iff.1 hid
      obtain ⟨ref', href', item', hitem', hid'⟩ := hjoined'.eq_some_iff.1 hid'
      obtain ⟨rfl, rfl⟩ := items_unique hitems hitem hitem' (hid.trans hid'.symm)
      exact ⟨rfl, ref, href, href'⟩
    · rintro ⟨rfl, ref, href, href'⟩
      unfold JoinedAs at hjoined hjoined'
      simp only [href] at hjoined
      simp only [href'] at hjoined'
      obtain ⟨item, hitem, hid⟩ := hjoined
      obtain ⟨item', hitem', hid'⟩ := hjoined'
      cases hitem.symm.trans hitem'
      exact ⟨item.id, hid, hid'⟩
  people_shared ws key t row ws' key' t' row' id hrow hrow' hid hid' := by
    obtain ⟨ref, u, hu, huid⟩ := h.people ws key t row hrow id hid
    obtain ⟨ref', u', hu', huid'⟩ := h.people ws' key' t' row' hrow' id hid'
    exact (users_unique husers hu hu' (huid.trans huid'.symm)).1

theorem references_of_reachable {ι : Type} [DecidableEq ι]
    {w w' : World ι Row Failure Reply Outcome} (hstart : RowsNumbered w)
    (hparties : ∀ i, ∃ p : Process, w.stations i = .resting p ∧ p.All TenantBody)
    (hreach : Reachable (fun _ => True) w w') :
    ReferencesOk w'.committed ∧ DistinctNumbers userNumber w'.committed ∧
      DistinctNumbers itemNumber w'.committed := by
  have hidle : ∀ {good : Transaction → Prop}, (∀ body, TenantBody body → good body) →
      w.Idle good := by
    intro good hgood i
    obtain ⟨p, hp, hall⟩ := hparties i
    exact ⟨p, hp, Proc.All.mono hgood hall⟩
  have : Std.Refl statusOrder.Above := ⟨RowOrder.Above.refl⟩
  have : IsTrans Db statusOrder.Above := ⟨fun _ _ _ => RowOrder.Above.trans⟩
  have hseen := (hidle fun _ h => TenantBody.preserves h).worldSeen hstart.references
  exact ⟨(hseen.reachable hreach).1.committed,
    distinctNumbers_of_reachable (hidle fun _ h => TenantBody.numbers_users h) hstart.users
      hstart.users_lt hreach,
    distinctNumbers_of_reachable (hidle fun _ h => TenantBody.numbers_items h) hstart.items
      hstart.items_lt hreach⟩

/-- Whatever requests, imports, roster calls and workers do beside each other. -/
theorem names_own {ι : Type} [DecidableEq ι] {w w' : World ι Row Failure Reply Outcome}
    (hstart : RowsNumbered w)
    (hparties : ∀ i, ∃ p : Process, w.stations i = .resting p ∧ TenantParty p)
    (hreach : Reachable (fun _ => True) w w') : NamesOwn w'.committed := by
  obtain ⟨hreferences, husers, hitems⟩ := references_of_reachable hstart (fun i => by
    obtain ⟨p, hp, hparty⟩ := hparties i
    exact ⟨p, hp, hparty.bodies⟩) hreach
  exact hreferences.namesOwn husers hitems

/-! ### One reference in two workspaces -/

theorem not_carried_of_events (number : Sigma Row → Option ℕ)
    (hnone : ∀ ws key t r, number ⟨.event ws key t, r⟩ = none)
    (hothers : ∀ k, (∀ ws key t, k ≠ .event ws key t) → s.lookup k = none) (n : ℕ) :
    ¬ Carried number s n := by
  rintro ⟨k, hk⟩
  by_cases hevent : ∃ ws key t, k = .event ws key t
  · obtain ⟨ws, key, t, rfl⟩ := hevent
    cases hrow : s.lookup (.event ws key t) with
    | none =>
      rw [hrow] at hk
      cases hk
    | some row =>
      rw [hrow] at hk
      cases (hnone ws key t row).symm.trans hk
  · push Not at hevent
    rw [hothers k hevent] at hk
    cases hk

/-- Nobody and nothing is there yet, only events that wait. -/
structure OnlyWaiting (s : Db) : Prop where
  events : ∀ ws key t (row : EventRow), s.lookup (.event ws key t) = some row →
    row.pipelineStatus = .accepted ∧ row.resolvedUserId = none ∧ row.workItemId = none
  others : ∀ k, (∀ ws key t, k ≠ .event ws key t) → s.lookup k = none

theorem onlyWaiting_empty : OnlyWaiting ∅ :=
  ⟨fun _ _ _ _ h => (by cases h), fun _ _ => rfl⟩

theorem OnlyWaiting.insert {key : PyStr} {at' : ℤ} (h : OnlyWaiting s)
    (hrow : row.pipelineStatus = .accepted ∧ row.resolvedUserId = none ∧ row.workItemId = none) :
    OnlyWaiting (s.insert (.event ws key at') row) := by
  constructor
  · intro ws' key' t r hr
    by_cases hk : RowKey.event ws' key' t = .event ws key at'
    · obtain ⟨rfl, rfl, rfl⟩ := RowKey.event.inj hk
      obtain rfl := Option.some.inj ((AList.lookup_insert s).symm.trans hr)
      exact hrow
    · rw [AList.lookup_insert_ne hk] at hr
      exact h.events ws' key' t r hr
  · intro k hk
    rw [AList.lookup_insert_ne (hk _ _ _)]
    exact h.others k hk

theorem OnlyWaiting.rowsNumbered {ι : Type} {w : World ι Row Failure Reply Outcome}
    (h : OnlyWaiting w.committed) : RowsNumbered w := by
  have husers := not_carried_of_events userNumber (fun _ _ _ _ => rfl) h.others
  have hitems := not_carried_of_events itemNumber (fun _ _ _ _ => rfl) h.others
  refine ⟨⟨?_, ?_, ?_, ?_⟩, ?_, ?_, fun n hn => absurd hn (husers n),
    fun n hn => absurd hn (hitems n)⟩
  · intro ws key t row hrow id hid
    rw [(h.events ws key t row hrow).2.1] at hid
    cases hid
  · exact fun ws key t row hrow _ => (h.events ws key t row hrow).2.2
  · exact fun ws key t row hrow hleft => absurd (h.events ws key t row hrow).1 hleft
  · intro ws ns value row hrow
    cases (h.others _ (by simp)).symm.trans hrow
  · exact fun k k' n hk _ => absurd ⟨k, hk⟩ (husers n)
  · exact fun k k' n hk _ => absurd ⟨k, hk⟩ (hitems n)

/-- Two workspaces name a work item `w1`, one of them twice. -/
def sameNames : World Unit Row Failure Reply Outcome where
  committed := (((∅ : Db).insert (.event 1 (py "k1") 5) waitingEvent).insert
    (.event 1 (py "k2") 6) waitingEvent).insert (.event 2 (py "k3") 7) waitingEvent
  sequence := 7
  stations := fun _ => .resting (runPipeline utcConnection 3)

theorem onlyWaiting_sameNames : OnlyWaiting sameNames.committed :=
  ((onlyWaiting_empty.insert ⟨rfl, rfl, rfl⟩).insert ⟨rfl, rfl, rfl⟩).insert ⟨rfl, rfl, rfl⟩

set_option maxRecDepth 4000 in
/-- The two events of the first workspace share an item, that of the second has its own. -/
theorem names_own_sameNames : ∃ w', Reachable (fun _ => True) sameNames w' ∧
    NamesOwn w'.committed ∧
    (leftEvents w'.committed).map (fun e => e.row.workItemId) = {some 7, some 7, some 9} := by
  have hrun : Reachable (fun _ => True) sameNames _ :=
    run_reachable (i := ()) _ rfl fun k j hj => absurd rfl hj
  refine ⟨_, hrun, ?_, by decide +kernel⟩
  exact names_own onlyWaiting_sameNames.rowsNumbered
    (fun _ => ⟨_, rfl, .worker utcConnection_picksRow 3⟩) hrun

end TrueFigure.Server
