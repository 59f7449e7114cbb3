import TrueFigure.Library.Observations
import TrueFigure.Server.Engine
import TrueFigure.Server.PipelineProgress

/-!
# Whom events are attributed to

The queries of `_resolve_identity` read what is committed at their turn. In every
run the user an event is attributed to was looked at while its transaction was
open, and was a user of the event's workspace then. Whether the event's day lies
in that user's window is another matter: `effective_from` is never read.
-/
namespace TrueFigure.Server

open TrueFigure.Library TrueFigure.Python

/-! ### What the schema guarantees -/

/-- `pk_users` and `fk_user_identifiers_user`. -/
structure RosterKeys (s : Db) : Prop where
  unique : ∀ ws ref ws' ref' (u u' : UserRow), s.lookup (.user ws ref) = some u →
    s.lookup (.user ws' ref') = some u' → u.id = u'.id → ws = ws' ∧ ref = ref'
  referential : Referential s

/-- `users.id` is an identity column: the row of a user keeps it. -/
def KeepsIds (s s' : Db) : Prop :=
  ∀ ws ref (u : UserRow), s.lookup (.user ws ref) = some u →
    ∃ u' : UserRow, s'.lookup (.user ws ref) = some u' ∧ u'.id = u.id

theorem KeepsIds.refl (s : Db) : KeepsIds s s := fun _ _ u hu => ⟨u, hu, rfl⟩

theorem KeepsIds.trans {s s' s'' : Db} (h : KeepsIds s s') (h' : KeepsIds s' s'') :
    KeepsIds s s'' := by
  intro ws ref u hu
  obtain ⟨u', hu', hid⟩ := h ws ref u hu
  obtain ⟨u'', hu'', hid'⟩ := h' ws ref u' hu'
  exact ⟨u'', hu'', hid'.trans hid⟩

variable {ι : Type}

abbrev PipelineWorld (ι : Type) := World ι Row Failure Reply Outcome

/-- A process takes a step, under the constraints of the schema. -/
def SchemaStep [DecidableEq ι] (w : PipelineWorld ι) (i : ι) (w' : PipelineWorld ι) : Prop :=
  Step (fun _ => True) i w w' ∧ RosterKeys w'.committed ∧ KeepsIds w.committed w'.committed

/-! ### The claim on windows -/

/-- A user of the workspace who is not blocked, is of type `user` and whose window
contains the day. -/
def Eligible (s : Db) (ws userId : ℕ) (day : ℤ) : Prop :=
  ∃ ref, ∃ u : UserRow, s.lookup (.user ws ref) = some u ∧ u.id = userId ∧
    u.userStatus ≠ .blocked ∧ u.userType = .user ∧
      (∀ first, u.effectiveFrom = some first → first ≤ day) ∧
        ∀ last, u.effectiveTo = some last → day ≤ last

/-- A worker has settled the event as this row, and while its transaction was open
the committed rows had the property `P`. -/
def SettledWhile [DecidableEq ι] (trace : List (PipelineWorld ι × ι)) (w : PipelineWorld ι)
    (k : RowKey) (row : Row k) (P : Db → Prop) : Prop :=
  ∃ i pre during c log a c' post, trace = pre ++ during ++ (c, i) :: post ∧
    Commits i log a c c' ∧ Run SchemaStep c' post w ∧ (∀ x ∈ during, (x.1.stations i).Open) ∧
      c.committed.lookup k ≠ some row ∧ c'.committed.lookup k = some row ∧
        ∃ x ∈ during, P x.1.committed

/-- The event of this row counts for a user. -/
structure CountsFor (row : EventRow) (userId : ℕ) : Prop where
  settled : row.pipelineStatus ≠ .accepted
  resolved : row.resolvedUserId = some userId
  included : row.exclusionReason = none

/-- Every event that counts for a user was settled while that user was eligible on
its day, and so was every event a row of `user_activity_daily` or an activated seat
stems from. -/
structure WindowsHonoured [DecidableEq ι] (dayOf : ℤ → ℤ) (trace : List (PipelineWorld ι × ι))
    (w : PipelineWorld ι) : Prop where
  events : ∀ ws key t (row : EventRow) userId, w.committed.lookup (.event ws key t) = some row →
    CountsFor row userId →
      SettledWhile trace w (.event ws key t) row fun s => Eligible s ws userId (dayOf t)
  activity : ∀ c row, activityTable w.committed c = some row → 0 < row.eventCount ∧
    row.eventCount = (leftEvents w.committed).countP (fun e => activityGroup dayOf e = some c) ∧
      ∀ e ∈ leftEvents w.committed, activityGroup dayOf e = some c →
        ∃ ws key, w.committed.lookup (.event ws key e.occurredAt) = some e.row ∧
          SettledWhile trace w (.event ws key e.occurredAt) e.row fun s => Eligible s ws c.2.1 c.2.2
  seats : ∀ deploymentId bounds userId,
    userId ∈ tally (activeUserOf deploymentId bounds) w.committed →
      ∃ ws key t, ∃ row : EventRow, w.committed.lookup (.event ws key t) = some row ∧
        CountsFor row userId ∧ row.deploymentId = deploymentId ∧ row.eventType = .activity ∧
          Between bounds (dayOf t) ∧
          SettledWhile trace w (.event ws key t) row fun s => Eligible s ws userId (dayOf t)

/-- The step is not a worker's look, for an event of the table, at a user who passes the checks
on status, type and end of the window on a day before the window begins. -/
def NoEarlyLook (dayOf : ℤ → ℤ) (x : PipelineWorld ι × ι) : Prop :=
  ∀ (conn : Connection) log ev userId next, conn.dayOf = dayOf →
    x.1.stations x.2 =
      .inside log (classifyUser conn ev userId (settleAndFold conn ev)) next →
    x.1.committed.lookup ev.rowKey = some ev.row →
    ∀ u : UserRow, userById x.1.committed userId = some u → u.userStatus ≠ .blocked →
      u.userType = .user → (∀ last, u.effectiveTo = some last → dayOf ev.occurredAt ≤ last) →
        ∀ first, u.effectiveFrom = some first → first ≤ dayOf ev.occurredAt

/-! ### What the lookups have seen -/

variable {conn : Connection} {ev : ClaimedEvent} {log more : List (Change Row)} {a : Reply}
  {seen : List (Change Row) → (Db → Transaction) → Db → Prop}

/-- An identifier of the workspace or a user of it leads to this id. -/
def Leads (s : Db) (ws userId : ℕ) : Prop :=
  (∃ ns value, ∃ row : UserIdentifierRow,
    s.lookup (.userIdentifier ws ns value) = some row ∧ row.userId = userId) ∨
  ∃ ref, ∃ u : UserRow, s.lookup (.user ws ref) = some u ∧ u.id = userId

theorem Referential.user_of_leads {s : Db} (h : Referential s) {ws userId : ℕ}
    (hleads : Leads s ws userId) :
    ∃ ref, ∃ u : UserRow, s.lookup (.user ws ref) = some u ∧ u.id = userId := by
  rcases hleads with ⟨ns, value, row, hrow, rfl⟩ | huser
  · exact h ws ns value row hrow
  · exact huser

/-- The reads behind an attribution: one that leads to the user, and the look at
the user's row. -/
structure Attribution (conn : Connection) (ev : ClaimedEvent) (log : List (Change Row))
    (next : Option ℕ → Option ExclusionReason → Transaction)
    (seen : List (Change Row) → (Db → Transaction) → Db → Prop) (userId : ℕ) : Prop where
  leads : ∃ f s, seen log f s ∧ Leads (view log s) ev.workspaceId userId
  looked : ∃ f s, classifyUser conn ev userId next = .read f ∧ seen log f s ∧
    classified conn (view log s) ev userId = .ok (some userId, none)

variable {next : Option ℕ → Option ExclusionReason → Transaction}

theorem observed_classifyUser {userId : ℕ}
    (hleads : ∃ f s, seen log f s ∧ Leads (view log s) ev.workspaceId userId)
    (h : Observed seen log (classifyUser conn ev userId next) more (.ok a)) :
    ∃ u x, Observed seen log (next u x) more (.ok a) ∧
      ∀ userId', u = some userId' → x = none →
        Attribution conn ev log next seen userId' := by
  obtain ⟨s, hseen, h⟩ := h.of_read
  cases huser : userById (view log s) userId with
  | none =>
    simp only [huser] at h
    exact h.runs.not_throw.elim
  | some user =>
    simp only [huser] at h
    split_ifs at h with hblocked hclosed
    · exact ⟨_, _, h, fun _ _ hx => by cases hx⟩
    · exact ⟨_, _, h, fun _ hu _ => by cases hu⟩
    · refine ⟨_, _, h, fun userId' hu hx => ?_⟩
      obtain rfl : userId = userId' := Option.some.inj hu
      refine ⟨hleads, _, s, rfl, hseen, ?_⟩
      unfold classified
      simp only [huser, if_neg hblocked, hclosed]
      rw [hx]
      rfl

theorem observed_matchUser {value : PyStr} {found : Option ℕ}
    (hfound : ∀ userId, found = some userId →
      ∃ f s, seen log f s ∧ Leads (view log s) ev.workspaceId userId)
    (h : Observed seen log (matchUser conn ev value found next) more (.ok a)) :
    ∃ u x, Observed seen log (next u x) more (.ok a) ∧
      ∀ userId, u = some userId → x = none →
        Attribution conn ev log next seen userId := by
  cases found with
  | some userId => exact observed_classifyUser (hfound userId rfl) h
  | none =>
    obtain ⟨s, hseen, h⟩ := Observed.of_read h
    split at h
    · rename_i u hu
      exact observed_classifyUser ⟨_, s, hseen, .inr ⟨value, u, hu, rfl⟩⟩ h
    · exact ⟨_, _, h, fun _ hu _ => by cases hu⟩

/-- A row `LIMIT 1` returns is one of the rows. -/
def Connection.PicksRow (conn : Connection) : Prop :=
  ∀ users userId, conn.limitOne users = some userId → userId ∈ users

theorem observed_resolveIdentity (hpicks : conn.PicksRow)
    (h : Observed seen log (resolveIdentity conn ev next) more (.ok a)) :
    ∃ u x, Observed seen log (next u x) more (.ok a) ∧
      ∀ userId, u = some userId → x = none →
        Attribution conn ev log next seen userId := by
  unfold resolveIdentity at h
  extract_lets field value at h
  clear_value value
  split_ifs at h
  · split at h
    · obtain ⟨s, -, h⟩ := h.of_read
      split at h
      · obtain ⟨s', hseen, h⟩ := h.of_read
        refine observed_matchUser (fun userId hfound => ?_) h
        obtain ⟨row, hrow, hid⟩ := Option.map_eq_some_iff.1 hfound
        exact ⟨_, s', hseen, .inl ⟨_, _, row, hrow, hid⟩⟩
      · obtain ⟨s', hseen, h⟩ := h.of_read
        refine observed_matchUser (fun userId hfound => ?_) h
        obtain ⟨ns, row, hrow, hid⟩ := mem_usersByIdentifier (hpicks _ _ hfound)
        exact ⟨_, s', hseen, .inl ⟨ns, _, row, hrow, hid⟩⟩
    · exact h.runs.not_throw.elim
  · exact ⟨_, _, h, fun _ hu _ => by cases hu⟩

/-- A worker's transaction has found no event, or has written the log of one that
is attributed by reads made after it was claimed. -/
theorem observed_processNext (hpicks : conn.PicksRow)
    (h : Observed seen [] (processNext conn) log (.ok a)) :
    log = [] ∨ ∃ ev u x w, EventLog conn ev u x w log ∧
      ∀ userId, u = some userId → x = none →
        Attribution conn ev [⟨ev.rowKey, some ev.row, ev.row⟩] (settleAndFold conn ev) seen
          userId := by
  rcases h.of_claim with hnone | ⟨k, row, rank, more, hrank, rfl, hclaimed⟩
  · exact .inl hnone.runs.of_pure.1
  cases k with
  | event ws key t =>
    have hrow : (row : EventRow).pipelineStatus = .accepted := by
      by_contra hne
      simp [acceptedRank, hne] at hrank
    obtain ⟨u, x, hresolved, hattributed⟩ := observed_resolveIdentity hpicks hclaimed
    obtain ⟨w, hevent, -⟩ :=
      @runs_settleAndFold conn ⟨ws, key, t, row⟩ more a u x hrow hresolved.runs
    exact .inr ⟨⟨ws, key, t, row⟩, u, x, w, hevent, hattributed⟩
  | _ => simp [acceptedRank] at hrank

/-! ### The states of a run -/

section Runs

variable [DecidableEq ι] {dayOf : ℤ → ℤ} {w₀ w w' : PipelineWorld ι}
  {trace : List (PipelineWorld ι × ι)} {i : ι} {ws userId : ℕ} {key : PyStr} {t : ℤ}
  {row : EventRow}

theorem keepsIds_of_run (hrun : Run SchemaStep w₀ trace w) :
    KeepsIds w₀.committed w.committed ∧ ∀ x ∈ trace, KeepsIds x.1.committed w.committed := by
  induction hrun with
  | refl => exact ⟨.refl _, by simp⟩
  | head hstep _ ih =>
    have hfirst := hstep.2.2.trans ih.1
    exact ⟨hfirst, List.forall_mem_cons.2 ⟨hfirst, ih.2⟩⟩

theorem rosterKeys_of_run (hkeys : RosterKeys w₀.committed) (hrun : Run SchemaStep w₀ trace w) :
    RosterKeys w.committed ∧ ∀ x ∈ trace, RosterKeys x.1.committed :=
  hrun.invariant (I := fun w => RosterKeys w.committed) hkeys fun _ _ _ _ hstep => hstep.2.1

theorem lookup_of_userById {s : Db} {u : UserRow} (h : userById s userId = some u) :
    ∃ ws ref, s.lookup (.user ws ref) = some u ∧ u.id = userId := by
  obtain ⟨⟨k, row⟩, hmem, hrow⟩ := List.exists_of_findSome?_eq_some h
  cases k with
  | user ws ref =>
    dsimp only at hrow
    split_ifs at hrow with hid
    cases hrow
    exact ⟨ws, ref, AList.mem_lookup_iff.2 hmem, hid⟩
  | _ => cases hrow

/-- A user who counts has passed the checks the code makes. -/
theorem user_of_classified {s : Db} (h : classified conn s ev userId = .ok (some userId, none)) :
    ∃ u : UserRow, userById s userId = some u ∧ u.userStatus ≠ .blocked ∧ u.userType = .user ∧
      ∀ last, u.effectiveTo = some last → conn.dayOf ev.occurredAt ≤ last := by
  unfold classified at h
  cases hu : userById s userId with
  | none =>
    rw [hu] at h
    cases h
  | some u =>
    simp only [hu] at h
    split_ifs at h with hblocked hclosed
    · cases h
    · cases h
    have htype : exclusionByType u.userType = none := (Prod.mk.inj (Except.ok.inj h)).2
    refine ⟨u, rfl, hblocked, ?_, fun last hlast => ?_⟩
    · cases hkind : u.userType with
      | user => rfl
      | shared => simp [hkind, exclusionByType] at htype
      | service => simp [hkind, exclusionByType] at htype
      | bot => simp [hkind, exclusionByType] at htype
    · by_contra hlate
      exact hclosed (by simpa [hlast] using hlate)

theorem Leads.of_sameRoster {s s' : Db} (h : SameRoster s s') (hleads : Leads s' ws userId) :
    Leads s ws userId := by
  rcases hleads with ⟨ns, value, row, hrow, hid⟩ | ⟨ref, u, hu, hid⟩
  · exact .inl ⟨ns, value, row, (h.lookup (.userIdentifier ws ns value) rfl).symm.trans hrow, hid⟩
  · exact .inr ⟨ref, u, (h.lookup (.user ws ref) rfl).symm.trans hu, hid⟩

/-- A transaction of a party: events arrive, or a worker of this calendar takes one. -/
def WindowBody (dayOf : ℤ → ℤ) (body : Transaction) : Prop :=
  Arrives body ∨ ∃ conn : Connection, conn.dayOf = dayOf ∧ conn.PicksRow ∧ body = processNext conn

/-- Of an attributed event there is a state at which its user was eligible: the one
in which the worker looked at the user. -/
theorem Attribution.eligible (hkeys : RosterKeys w₀.committed) (hrun : Run SchemaStep w₀ trace w)
    (hsound : ∀ x ∈ trace, Sound (WindowBody conn.dayOf) x.1)
    (hearly : ∀ x ∈ trace, NoEarlyLook conn.dayOf x) {during : List (PipelineWorld ι × ι)}
    (hduring : ∀ x ∈ during, x ∈ trace)
    (h : Attribution conn ev [⟨ev.rowKey, some ev.row, ev.row⟩] (settleAndFold conn ev)
      (ReadIn during i) userId) :
    ∃ x ∈ during, Eligible x.1.committed ev.workspaceId userId (conn.dayOf ev.occurredAt) := by
  have hclaim : ∀ s : Db, SameRoster s (view [⟨ev.rowKey, some ev.row, ev.row⟩] s) :=
    fun s => sameRoster_view (by simp [RowKey.isRoster, ClaimedEvent.rowKey]) s
  obtain ⟨hfinal, htrace⟩ := rosterKeys_of_run hkeys hrun
  have hkept := (keepsIds_of_run hrun).2
  obtain ⟨⟨_, _, ⟨z, hz, -, rfl, -⟩, hleads⟩, f, _, hf, ⟨y, hy, hyi, rfl, next', hstation⟩,
    hclassified⟩ := h
  obtain ⟨ref, u, hu, rfl⟩ :=
    (htrace z (hduring z hz)).referential.user_of_leads (hleads.of_sameRoster (hclaim _))
  rw [← hf, ← hyi] at hstation
  have hsame : classified conn y.1.committed ev u.id = .ok (some u.id, none) := by
    rw [← hclassified]
    unfold classified
    rw [(hclaim y.1.committed).byId]
  obtain ⟨u', hbyId, hstatus, htype, hopen⟩ := user_of_classified hsame
  obtain ⟨ws', ref', hu', hid⟩ := lookup_of_userById hbyId
  -- the claimed row is locked, so it is still there
  have hheld := (hsound y (hduring y hy)).station y.2
  rw [hstation] at hheld
  have hwindow := hearly y (hduring y hy) conn _ ev u.id next' rfl hstation hheld.1.1 u' hbyId
    hstatus htype hopen
  -- Both rows are still there with their ids at the end, so they are one row.
  obtain ⟨v, hv, hvid⟩ := hkept z (hduring z hz) _ _ u hu
  obtain ⟨v', hv', hvid'⟩ := hkept y (hduring y hy) _ _ u' hu'
  obtain ⟨rfl, rfl⟩ := hfinal.unique _ _ _ _ v v' hv hv' (by rw [hvid, hvid', hid])
  exact ⟨y, hy, ref, u', hu', hid, hstatus, htype, hwindow, hopen⟩

theorem SettledWhile.snoc {k : RowKey} {r : Row k} {P : Db → Prop}
    (h : SettledWhile trace w k r P) (hs : SchemaStep w i w') :
    SettledWhile (trace ++ [(w, i)]) w' k r P := by
  obtain ⟨j, pre, during, c, log, a, c', post, rfl, hcommits, hrest, hsettled⟩ := h
  refine ⟨j, pre, during, c, log, a, c', post ++ [(w, i)], ?_, hcommits,
    hrest.append (.single hs), hsettled⟩
  simp

/-- An arrival settles no event. -/
theorem settled_before_arrival {s : Db} (h : ∀ c ∈ log, Change.Arrives c)
    (hrow : (view log s).lookup (.event ws key t) = some row)
    (hsettled : row.pipelineStatus ≠ .accepted) : s.lookup (.event ws key t) = some row := by
  induction log generalizing s with
  | nil => exact hrow
  | cons c log ih =>
    obtain ⟨hc, hlog⟩ := List.forall_mem_cons.1 h
    have hinsert := ih hlog hrow
    rcases eq_or_ne (RowKey.event ws key t) c.key with heq | hne
    · obtain ⟨k, before, after⟩ := c
      cases heq
      cases (AList.lookup_insert s).symm.trans hinsert
      exact absurd hc.2 hsettled
    · exact (AList.lookup_insert_ne hne).symm.trans hinsert

/-- What one step keeps: an event that counts for a user afterwards did before, or
its worker has committed it just now. -/
theorem settledWhile_step (hkeys : RosterKeys w₀.committed) (hrun : Run SchemaStep w₀ trace w)
    (hidle : w₀.Idle (WindowBody dayOf)) (hearly : ∀ x ∈ trace, NoEarlyLook dayOf x)
    (hs : SchemaStep w i w')
    (hrow : w'.committed.lookup (.event ws key t) = some row) (hcounts : CountsFor row userId)
    (hbefore : w.committed.lookup (.event ws key t) ≠ some row) :
    SettledWhile (trace ++ [(w, i)]) w' (.event ws key t) row
      fun s => Eligible s ws userId (dayOf t) := by
  rcases hs.1.committed_eq with heq | ⟨log, a, hc⟩
  · rw [heq] at hrow
    exact absurd hrow hbefore
  have hsteps : Run (fun w i w' => Step (fun _ => True) i w w') w₀ trace w :=
    hrun.mono fun _ _ _ h => h.1
  obtain ⟨pre, during, body, rfl, hopen, hbody, hobserved⟩ := observed_of_commits hsteps hidle hc
  obtain ⟨hsound, hsounds⟩ := hsteps.invariant hidle.sound fun _ _ _ h => h.step
  obtain ⟨-, -, -, hlog⟩ := hsound.runs_of_commits hc
  have hview := hrow
  rw [hc.committed_eq] at hview
  rcases hbody with harrives | ⟨conn, rfl, hpicks, rfl⟩
  · have hall := harrives log _ hobserved.runs
    exact absurd (settled_before_arrival hall hview hcounts.settled) hbefore
  rcases observed_processNext hpicks hobserved with rfl | ⟨ev, u, x, item, hevent, hattributed⟩
  · exact absurd hview hbefore
  have heffect := hevent.effect hlog
  rcases eq_or_ne (RowKey.event ws key t) ev.rowKey with hkey | hne
  · obtain ⟨rfl, rfl, rfl⟩ := RowKey.event.inj hkey
    obtain rfl := Option.some.inj (heffect.settled.symm.trans hview)
    obtain ⟨y, hy, heligible⟩ := (hattributed userId hcounts.resolved hcounts.included).eligible
      hkeys hrun hsounds hearly fun x hx => List.mem_append_right _ hx
    exact ⟨i, pre, during, w, log, a, w', [], rfl, hc, .refl _, hopen, hbefore, hrow, y, hy,
      heligible⟩
  · have hsame := heffect.others _ hne (by simp) (by simp) (by simp) (by simp)
    exact absurd (hsame.symm.trans hview) hbefore

theorem settledWhile_of_run (hstart : Unprocessed w₀.committed) (hkeys : RosterKeys w₀.committed)
    (hidle : w₀.Idle (WindowBody dayOf)) (hrun : Run SchemaStep w₀ trace w)
    (hearly : ∀ x ∈ trace, NoEarlyLook dayOf x)
    (hrow : w.committed.lookup (.event ws key t) = some row) (hcounts : CountsFor row userId) :
    SettledWhile trace w (.event ws key t) row fun s => Eligible s ws userId (dayOf t) := by
  revert hearly hrow
  refine Run.snocInduction (motive := fun trace w => (∀ x ∈ trace, NoEarlyLook dayOf x) →
    w.committed.lookup (.event ws key t) = some row → SettledWhile trace w (.event ws key t) row
      fun s => Eligible s ws userId (dayOf t)) ?_ (fun {trace w i w'} hrun hs ih => ?_) hrun
  · intro _ hrow
    exact absurd (hstart.events _ _ _ _ hrow) hcounts.settled
  · intro hearly hrow
    have htrace : ∀ x ∈ trace, NoEarlyLook dayOf x := fun x hx =>
      hearly x (List.mem_append_left _ hx)
    by_cases hbefore : w.committed.lookup (.event ws key t) = some row
    · exact (ih htrace hbefore).snoc hs
    · exact settledWhile_step hkeys hrun hidle htrace hs hrow hcounts hbefore

theorem activityGroup_eq {e : LeftEvent} {c : ℕ × ℕ × ℤ} (h : activityGroup dayOf e = some c) :
    e.row.resolvedUserId = some c.2.1 ∧ e.row.exclusionReason = none ∧
      e.row.eventType = .activity ∧ e.row.deploymentId = c.1 ∧ dayOf e.occurredAt = c.2.2 := by
  unfold activityGroup at h
  split at h
  · rename_i userId hresolved hincluded
    split_ifs at h with htype
    cases h
    exact ⟨hresolved, hincluded, htype, rfl, rfl⟩
  · cases h

/-- Workers of one calendar among any arrivals, with any transaction aborted
anywhere: in every run without a look at a user whose window is still to begin,
whatever counts for a user happened in that user's window. -/
theorem windows_honoured (hstart : Unprocessed w₀.committed) (hkeys : RosterKeys w₀.committed)
    (hparties : ∀ i, ∃ p : Process, w₀.stations i = .resting p ∧
      ((∃ conn limit, conn.dayOf = dayOf ∧ conn.PicksRow ∧ p = runPipeline conn limit) ∨
        p.All Arrives))
    (hrun : Run SchemaStep w₀ trace w) (hearly : ∀ x ∈ trace, NoEarlyLook dayOf x) :
    WindowsHonoured dayOf trace w := by
  have hidle : w₀.Idle (WindowBody dayOf) := by
    intro i
    obtain ⟨p, hp, ⟨conn, limit, hday, hpicks, rfl⟩ | harrives⟩ := hparties i
    · exact ⟨_, hp, runPipelineFrom_all (.inr ⟨conn, hday, hpicks, rfl⟩) limit _⟩
    · exact ⟨p, hp, Proc.All.mono (fun _ => .inl) harrives⟩
  have hreach : Reachable (fun _ => True) w₀ w :=
    (hrun.mono fun _ _ _ h => h.1).reflTransGen
  have haggregates : AggregatesOk dayOf w.committed := by
    refine aggregates_reachable hstart (fun i => ?_) hreach
    obtain ⟨p, hp, ⟨conn, limit, hday, -, hworker⟩ | harrives⟩ := hparties i
    · exact ⟨p, hp, .inl ⟨conn, limit, hday, hworker⟩⟩
    · exact ⟨p, hp, .inr harrives⟩
  have hcounted : ∀ ws key t (row : EventRow) userId,
      w.committed.lookup (.event ws key t) = some row → CountsFor row userId →
        SettledWhile trace w (.event ws key t) row fun s => Eligible s ws userId (dayOf t) :=
    fun _ _ _ _ _ => settledWhile_of_run hstart hkeys hidle hrun hearly
  have hgroup : ∀ e ∈ leftEvents w.committed, ∀ c, activityGroup dayOf e = some c →
      ∃ ws key, w.committed.lookup (.event ws key e.occurredAt) = some e.row ∧
        SettledWhile trace w (.event ws key e.occurredAt) e.row
          fun s => Eligible s ws c.2.1 c.2.2 := by
    intro e he c hc
    obtain ⟨ws, key, hrow, hsettled⟩ := mem_leftEvents.1 he
    obtain ⟨hresolved, hincluded, -, -, hday⟩ := activityGroup_eq hc
    refine ⟨ws, key, hrow, ?_⟩
    rw [← hday]
    exact hcounted ws key _ _ _ hrow ⟨hsettled, hresolved, hincluded⟩
  have hactivity : ∀ c row, activityTable w.committed c = some row →
      ActivityOf ((leftEvents w.committed).filter fun e => activityGroup dayOf e = some c) row := by
    intro c row hrow
    have hfold := haggregates.activity c
    rw [hrow] at hfold
    exact hfold
  refine ⟨hcounted, fun c row hrow => ?_, fun deploymentId bounds userId hseat => ?_⟩
  · obtain ⟨hnonempty, hcount⟩ := hactivity c row hrow
    refine ⟨?_, ?_, fun e he hc => hgroup e he c hc⟩
    · rw [hcount]
      exact Multiset.card_pos.2 hnonempty
    · rw [hcount, Multiset.countP_eq_card_filter]
  · obtain ⟨k, row, hrow, hmem⟩ := mem_tally.1 hseat
    cases k with
    | userActivity d user day =>
      simp only [activeUserOf] at hmem
      split_ifs at hmem with hbounds
      · obtain rfl := Multiset.mem_singleton.1 hmem
        obtain ⟨rfl, hday⟩ := hbounds
        have hgroupOf := hactivity (d, userId, day) row hrow
        obtain ⟨e, he⟩ := Multiset.exists_mem_of_ne_zero hgroupOf.nonempty
        obtain ⟨heleft, hec⟩ := Multiset.mem_filter.1 he
        obtain ⟨hresolved, hincluded, htype, hdeployment, hdayOf⟩ := activityGroup_eq hec
        obtain ⟨-, -, -, hleft⟩ := mem_leftEvents.1 heleft
        obtain ⟨ws, key, hstored, hsettled⟩ := hgroup e heleft _ hec
        refine ⟨ws, key, e.occurredAt, e.row, hstored, ⟨hleft, hresolved, hincluded⟩, hdeployment,
          htype, ?_, ?_⟩
        · rw [hdayOf]
          exact hday
        · rw [hdayOf]
          exact hsettled
      · cases hmem
    | _ => cases hmem

/-! ### A person who is still to come -/

theorem SameRoster.keepsIds {s s' : Db} (h : SameRoster s s') : KeepsIds s s' :=
  fun ws ref u hu => ⟨u, (h.lookup (.user ws ref) rfl).trans hu, rfl⟩

theorem SameRoster.rosterKeys {s s' : Db} (h : SameRoster s s') (hs : RosterKeys s) :
    RosterKeys s' := by
  have huser : ∀ ws ref, s'.lookup (.user ws ref) = s.lookup (.user ws ref) :=
    fun ws ref => h.lookup (.user ws ref) rfl
  refine ⟨fun ws ref ws' ref' u u' hu hu' => ?_, fun ws ns value row hrow => ?_⟩
  · rw [huser] at hu hu'
    exact hs.unique ws ref ws' ref' u u' hu hu'
  · rw [h.lookup (.userIdentifier ws ns value) rfl] at hrow
    obtain ⟨ref, u, hu, hid⟩ := hs.referential ws ns value row hrow
    exact ⟨ref, u, (huser ws ref).trans hu, hid⟩

/-- What a worker leaves alone: the roster, and which events there are. -/
structure WorkedOn (s s' : Db) : Prop where
  roster : SameRoster s s'
  events : ∀ ws key t, s.lookup (.event ws key t) = none → s'.lookup (.event ws key t) = none

theorem WorkedOn.refl (s : Db) : WorkedOn s s := ⟨.refl s, fun _ _ _ h => h⟩

theorem WorkedOn.trans {s s' s'' : Db} (h : WorkedOn s s') (h' : WorkedOn s' s'') :
    WorkedOn s s'' :=
  ⟨h.roster.trans h'.roster, fun ws key t hnone => h'.events ws key t (h.events ws key t hnone)⟩

theorem EventLog.workedOn {u : Option ℕ} {x : Option ExclusionReason} {item : Option ℕ} {s : Db}
    (h : EventLog conn ev u x item log) (hlog : Consistent log s) : WorkedOn s (view log s) := by
  refine ⟨h.sameRoster s, fun ws key t hnone => ?_⟩
  have heffect := h.effect hlog
  rcases eq_or_ne (RowKey.event ws key t) ev.rowKey with hkey | hne
  · rw [hkey, heffect.stored] at hnone
    cases hnone
  · exact (heffect.others _ hne (by simp) (by simp) (by simp) (by simp)).trans hnone

/-- Workers alone leave the roster as it is, so all their steps are steps under the
schema. -/
theorem exists_run_of_workers
    (hworkers : ∀ i, ∃ conn limit, w₀.stations i = .resting (runPipeline conn limit))
    (hkeys : RosterKeys w₀.committed) (hreach : Reachable (fun _ => True) w₀ w) :
    ∃ trace, Run SchemaStep w₀ trace w ∧ WorkedOn w₀.committed w.committed ∧
      ∀ x ∈ trace, WorkedOn w₀.committed x.1.committed := by
  have hidle : w₀.Idle fun body => ∃ conn, body = processNext conn := by
    intro i
    obtain ⟨conn, limit, hi⟩ := hworkers i
    exact ⟨_, hi, runPipelineFrom_all ⟨conn, rfl⟩ limit _⟩
  induction hreach with
  | refl => exact ⟨[], .refl _, .refl _, by simp⟩
  | @tail w w' hreach hs ih =>
    obtain ⟨trace, hrun, hsame, htrace⟩ := ih
    obtain ⟨i, hs⟩ := hs
    have hstep : WorkedOn w.committed w'.committed := by
      rcases hs.committed_eq with heq | ⟨log, a, hc⟩
      · rw [heq]
        exact .refl _
      · obtain ⟨_, ⟨conn, rfl⟩, hruns, hlog⟩ :=
          (hidle.sound.reachable hreach).runs_of_commits hc
        rw [hc.committed_eq]
        rcases runs_processNext hruns with rfl | ⟨ev, u, x, item, hevent⟩
        · exact .refl _
        · exact hevent.workedOn hlog
    have hafter := hsame.trans hstep
    refine ⟨trace ++ [(w, i)], hrun.append
      (.single ⟨hs, hafter.roster.rosterKeys hkeys, hstep.roster.keepsIds⟩), hafter, ?_⟩
    intro x hx
    rcases List.mem_append.1 hx with hx | hx
    · exact htrace x hx
    · rw [List.mem_singleton.1 hx]
      exact hsame

end Runs

/-- An activity of `u1` on day 0 waits for a worker; the window of `u1` goes from the first of
these days to the second. -/
def personWithin (first last : Option ℤ) : PipelineWorld Unit where
  committed := ((∅ : Db).insert (.event 1 (py "k") 5) waitingEvent).insert (.user 1 (py "u1"))
    { id := 1, userType := .user, userStatus := .active, displayName := none, jobRole := none,
      team := none, effectiveFrom := first, effectiveTo := last }
  sequence := 7
  stations := fun _ => .resting (runPipeline utcConnection 1)

theorem unprocessed_personWithin (first last : Option ℤ) :
    Unprocessed (personWithin first last).committed := by
  have hsingle : Unprocessed ((∅ : Db).insert (.event 1 (py "k") 5) waitingEvent) :=
    unprocessed_single rfl
  refine ⟨fun ws key t row hrow => hsingle.events ws key t row ?_, fun c => ?_, fun c => ?_,
    fun c => ?_⟩
  · exact (AList.lookup_insert_ne (by simp)).symm.trans hrow
  · exact (AList.lookup_insert_ne (by simp)).trans (hsingle.stats c)
  · exact (AList.lookup_insert_ne (by simp)).trans (hsingle.activity c)
  · exact (AList.lookup_insert_ne (by simp)).trans (hsingle.meter c)

theorem event_personWithin {first last : Option ℤ} {ws : ℕ} {key : PyStr} {t : ℤ} (ht : t ≠ 5) :
    (personWithin first last).committed.lookup (.event ws key t) = none := by
  have hne : RowKey.event ws key t ≠ .event 1 (py "k") 5 := by simp [ht]
  exact (AList.lookup_insert_ne (by simp)).trans ((AList.lookup_insert_ne hne).trans rfl)

theorem user_personWithin {first last : Option ℤ} {ws : ℕ} {ref : PyStr} {u : UserRow}
    (h : (personWithin first last).committed.lookup (.user ws ref) = some u) :
    ws = 1 ∧ ref = py "u1" ∧ u.id = 1 ∧ u.effectiveFrom = first := by
  by_cases hkey : RowKey.user ws ref = .user 1 (py "u1")
  · obtain ⟨rfl, rfl⟩ := RowKey.user.inj hkey
    cases (AList.lookup_insert _).symm.trans h
    exact ⟨rfl, rfl, rfl, rfl⟩
  · have hevent := (AList.lookup_insert_ne hkey).symm.trans h
    cases (AList.lookup_insert_ne (by simp)).symm.trans hevent

theorem rosterKeys_personWithin (first last : Option ℤ) :
    RosterKeys (personWithin first last).committed := by
  refine ⟨fun ws ref ws' ref' u u' hu hu' _ => ?_, fun ws ns value row hrow => ?_⟩
  · obtain ⟨rfl, rfl, -⟩ := user_personWithin hu
    obtain ⟨rfl, rfl, -⟩ := user_personWithin hu'
    exact ⟨rfl, rfl⟩
  · have hevent := (AList.lookup_insert_ne (by simp)).symm.trans hrow
    cases (AList.lookup_insert_ne (by simp)).symm.trans hevent

theorem utcConnection_picksRow : utcConnection.PicksRow :=
  fun _ _ h => List.mem_of_mem_head? h

/-- The worker counts the activity for `u1` in this world. -/
def Counted (w₀ : PipelineWorld Unit) : Prop :=
  ∃ trace w, ∃ row : EventRow, Run SchemaStep w₀ trace w ∧
    (∀ x ∈ trace, WorkedOn w₀.committed x.1.committed) ∧
      w.committed.lookup (.event 1 (py "k") 5) = some row ∧ CountsFor row 1

set_option maxRecDepth 4000 in
/-- The activity counts before the end of the window, wherever it begins. -/
theorem counted_personWithin (first : Option ℤ) : Counted (personWithin first (some 20)) := by
  have hreach : Reachable (fun _ => True) (personWithin first (some 20)) _ :=
    run_reachable (i := ()) _ rfl fun k j hj => absurd rfl hj
  obtain ⟨trace, hrun, -, htrace⟩ := exists_run_of_workers (fun _ => ⟨utcConnection, 1, rfl⟩)
    (rosterKeys_personWithin first (some 20)) hreach
  have hjoined : PipelineStatus.joined ≠ .accepted := by decide
  exact ⟨trace, _, _, hrun, htrace, rfl, hjoined, rfl, rfl⟩

/-- An activity on day 0 counts for a person whose window goes from day -1 to day 20. -/
theorem windows_honoured_datedPerson :
    ∃ (trace : List (PipelineWorld Unit × Unit)) (w : PipelineWorld Unit) (row : EventRow),
    Run SchemaStep (personWithin (some (-1)) (some 20)) trace w ∧
      w.committed.lookup (.event 1 (py "k") 5) = some row ∧ CountsFor row 1 ∧
        WindowsHonoured utcConnection.dayOf trace w := by
  obtain ⟨trace, w, row, hrun, htrace, hrow, hcounts⟩ := counted_personWithin (some (-1))
  refine ⟨trace, w, row, hrun, hrow, hcounts, windows_honoured (unprocessed_personWithin _ _)
    (rosterKeys_personWithin _ _)
    (fun _ => ⟨_, rfl, .inl ⟨utcConnection, 1, rfl, utcConnection_picksRow, rfl⟩⟩) hrun ?_⟩
  intro x hx conn log ev userId next _ _ hevent u hu _ _ _ first hfirst
  obtain ⟨ws, ref, hstored, -⟩ := lookup_of_userById hu
  rw [(htrace x hx).roster.lookup (.user ws ref) rfl] at hstored
  rw [(user_personWithin hstored).2.2.2] at hfirst
  obtain rfl := Option.some.inj hfirst
  by_cases ht : ev.occurredAt = 5
  · rw [ht]
    decide
  · have hnone := (htrace x hx).events ev.workspaceId ev.eventKey _ (event_personWithin ht)
    cases hevent.symm.trans hnone

/-- It counts for a person whose window begins on day 10, too. -/
theorem earlyPerson_counted : ¬ ∀ trace w, Run SchemaStep (personWithin (some 10) (some 20)) trace w →
    WindowsHonoured utcConnection.dayOf trace w := by
  intro h
  obtain ⟨trace, w, row, hrun, htrace, hrow, hcounts⟩ := counted_personWithin (some 10)
  obtain ⟨i, pre, during, c, log, a, c', post, rfl, -, -, -, -, -, x, hx, ref, u, hu, -, -, -,
    hfirst, -⟩ := (h trace w hrun).events 1 (py "k") 5 row 1 hrow hcounts
  rw [(htrace x (by simp [hx])).roster.lookup (.user 1 ref) rfl] at hu
  have hday := hfirst 10 (user_personWithin hu).2.2.2
  exact absurd hday (by decide)

end TrueFigure.Server
