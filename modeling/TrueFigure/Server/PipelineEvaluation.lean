import TrueFigure.Library.Sequential
import TrueFigure.Server.PipelineInvariant

/-!
# A worker alone

What `_resolve_identity` comes to as a function of the rows, and what a
transaction of a worker comes to when nobody else is in one: the effect of the
least accepted event with the identity the rows give it.
-/
namespace TrueFigure.Server

open TrueFigure.Library TrueFigure.Python

/-- What the roster says about a user: the resolved user and the exclusion. -/
def classified (conn : Connection) (s : Db) (ev : ClaimedEvent) (userId : ℕ) :
    Except Failure (Option ℕ × Option ExclusionReason) :=
  match userById s userId with
  | none => .error (.python .assertionError)
  | some u =>
    if u.userStatus = .blocked then .ok (some userId, some .unresolvedIdentity)
    else if u.effectiveTo.any fun last => last < conn.dayOf ev.occurredAt then .ok (none, none)
    else .ok (some userId, exclusionByType u.userType)

/-- The user a reference leads to: by its identifier, else by its `user_ref`. -/
def matchedUser (conn : Connection) (s : Db) (ev : ClaimedEvent) (field : IdField)
    (value : PyStr) : Option ℕ :=
  (match applicableNamespace s ev.workspaceId ev.row.deploymentId field ev.sourceRef with
    | some declared => userByIdentifier s ev.workspaceId declared.ns value
    | none => conn.limitOne (usersByIdentifier s ev.workspaceId value))
  <|> (s.lookup (.user ev.workspaceId value)).map UserRow.id

def ClaimedEvent.identityField (ev : ClaimedEvent) : IdField :=
  if ev.row.eventType = .activity then .userRef else .assigneeRef

/-- What `_resolve_identity` comes to at these rows. -/
def identityOf (conn : Connection) (s : Db) (ev : ClaimedEvent) :
    Except Failure (Option ℕ × Option ExclusionReason) :=
  let value := ev.get ev.identityField.wire
  if value.truthy then
    match value with
    | .str value =>
      match matchedUser conn s ev ev.identityField value with
      | some userId => classified conn s ev userId
      | none => .ok (none, none)
    | _ => .error (.database .invalidType)
  else .ok (none, none)

variable {conn : Connection} {ev : ClaimedEvent} {s s' : Db} {n n' : ℕ} {a : Reply}

/-- A transaction goes on with an identity or ends in its error. -/
def evalWith (next : Option ℕ → Option ExclusionReason → Transaction) (s : Db) (n : ℕ) :
    Except Failure (Option ℕ × Option ExclusionReason) → Except Failure (Reply × Db) × ℕ
  | .ok (u, x) => (next u x).eval s n
  | .error e => (.error e, n)

theorem eval_classifyUser {userId : ℕ} {next : Option ℕ → Option ExclusionReason → Transaction} :
    (classifyUser conn ev userId next).eval s n =
      evalWith next s n (classified conn s ev userId) := by
  unfold classifyUser classified
  rw [Txn.eval]
  cases userById s userId with
  | none => rfl
  | some u =>
    dsimp only
    split_ifs <;> rfl

theorem eval_matchUser {value : PyStr} {found : Option ℕ}
    {next : Option ℕ → Option ExclusionReason → Transaction} :
    (matchUser conn ev value found next).eval s n =
      evalWith next s n (match found <|> (s.lookup (.user ev.workspaceId value)).map UserRow.id with
        | some userId => classified conn s ev userId
        | none => .ok (none, none)) := by
  cases found with
  | some userId => exact eval_classifyUser
  | none =>
    unfold matchUser
    rw [Txn.eval]
    cases s.lookup (.user ev.workspaceId value) with
    | none => rfl
    | some u => exact eval_classifyUser

theorem eval_resolveIdentity {next : Option ℕ → Option ExclusionReason → Transaction} :
    (resolveIdentity conn ev next).eval s n = evalWith next s n (identityOf conn s ev) := by
  unfold resolveIdentity identityOf
  extract_lets field value value'
  have hfield : field = ev.identityField := rfl
  have hvalue : value' = value := rfl
  rw [hvalue, ← hfield]
  clear_value field value
  by_cases htruthy : value.truthy = true
  · rw [if_pos htruthy, if_pos htruthy]
    cases value with
    | str value =>
      change Txn.eval (match applicableNamespace s ev.workspaceId ev.row.deploymentId field
        ev.sourceRef with
        | some declared => _
        | none => _) s n = _
      dsimp only [matchedUser]
      cases applicableNamespace s ev.workspaceId ev.row.deploymentId field ev.sourceRef with
      | none => exact eval_matchUser
      | some declared => exact eval_matchUser
    | _ => rfl
  · rw [if_neg htruthy, if_neg htruthy]
    rfl

/-! ### The pipeline leaves the roster alone -/

/-- The rows `_resolve_identity` reads. -/
def RowKey.isRoster : RowKey → Bool
  | .identifierNamespace .. => true
  | .user .. => true
  | .userIdentifier .. => true
  | _ => false

/-- The same declarations, users and identifiers, in the same table order. -/
structure SameRoster (s s' : Db) : Prop where
  lookup : ∀ k, k.isRoster = true → s'.lookup k = s.lookup k
  byIdentifier : ∀ ws value, usersByIdentifier s' ws value = usersByIdentifier s ws value
  byId : ∀ userId, userById s' userId = userById s userId

theorem SameRoster.identityOf (h : SameRoster s s') : identityOf conn s' ev = identityOf conn s ev := by
  have hnamespace : ∀ ws d field src, activeNamespace s' ws d field src =
      activeNamespace s ws d field src :=
    fun ws d field src => h.lookup (.identifierNamespace ws d field src) rfl
  have huser : ∀ ws value, s'.lookup (.user ws value) = s.lookup (.user ws value) :=
    fun ws value => h.lookup (.user ws value) rfl
  have hidentifier : ∀ ws ns value, userByIdentifier s' ws ns value =
      userByIdentifier s ws ns value := by
    intro ws ns value
    rw [userByIdentifier, h.lookup (.userIdentifier ws ns value) rfl, userByIdentifier]
  simp only [Server.identityOf, matchedUser, applicableNamespace, hnamespace, hidentifier,
    h.byIdentifier, huser, classified, h.byId]

theorem SameRoster.refl (s : Db) : SameRoster s s := ⟨fun _ _ => rfl, fun _ _ => rfl, fun _ => rfl⟩

theorem SameRoster.trans {s'' : Db} (h : SameRoster s s') (h' : SameRoster s' s'') :
    SameRoster s s'' :=
  ⟨fun k hk => (h'.lookup k hk).trans (h.lookup k hk),
    fun ws value => (h'.byIdentifier ws value).trans (h.byIdentifier ws value),
    fun userId => (h'.byId userId).trans (h.byId userId)⟩

theorem sameRoster_view {log : List (Change Row)} (h : ∀ k ∈ locked log, k.isRoster = false)
    (s : Db) : SameRoster s (view log s) := by
  have hkey : ∀ c ∈ log, c.key.isRoster = false := fun c hc => h c.key (List.mem_map_of_mem hc)
  refine ⟨fun k hk => lookup_view_of_not_locked (fun hmem => ?_) s, fun ws value => ?_,
    fun userId => ?_⟩
  · rw [h k hmem] at hk
    cases hk
  · refine filterMap_view (fun c hc r => ?_) s
    obtain ⟨k, before, after⟩ := c
    cases k with
    | userIdentifier => cases hkey _ hc
    | _ => rfl
  · unfold userById
    rw [← List.head?_filterMap, ← List.head?_filterMap]
    refine congrArg List.head? (filterMap_view (fun c hc r => ?_) s)
    obtain ⟨k, before, after⟩ := c
    cases k with
    | user => cases hkey _ hc
    | _ => rfl

theorem EventLog.sameRoster {u : Option ℕ} {x : Option ExclusionReason} {w : Option ℕ}
    {log : List (Change Row)} (h : EventLog conn ev u x w log) (s : Db) :
    SameRoster s (view log s) := by
  refine sameRoster_view (fun k hk => ?_) s
  obtain ⟨-, joins, -, -, active, metered⟩ := h
  simp only [locked_cons, locked_append, List.mem_cons, List.mem_append] at hk
  rcases hk with rfl | hk | rfl | rfl | hk | hk
  · rfl
  · obtain ⟨ref, -, rfl⟩ := joins.keys hk
    rfl
  · rfl
  · rfl
  · obtain ⟨c, -, rfl⟩ := active.keys hk
    rfl
  · obtain ⟨c, -, rfl⟩ := metered.keys hk
    rfl

/-! ### One transaction alone -/

/-- One event is processed with the identity the rows give it. -/
structure Processes (conn : Connection) (ev : ClaimedEvent) (s s' : Db) : Prop where
  roster : SameRoster s s'
  kept : ∀ k, s'.lookup k = none → s.lookup k = none
  effect : ∃ u x w, identityOf conn s ev = .ok (u, x) ∧ Effect conn ev u x w s s'

/-- No event waits for the pipeline. -/
def Drained (s : Db) : Prop :=
  ∀ ws key t (row : EventRow), s.lookup (.event ws key t) = some row →
    row.pipelineStatus ≠ .accepted

/-- A transaction that succeeds alone finds nothing, or processes the least
accepted event. -/
theorem eval_processNext (h : (processNext conn).eval s n = (.ok (a, s'), n')) :
    (a = .noEvent ∧ s' = s ∧ Drained s) ∨
      ∃ ev outcome, a = .processed outcome ∧ Processes conn ev s s' := by
  unfold processNext at h
  rw [Txn.eval] at h
  cases hl : leastRanked acceptedRank s with
  | none =>
    rw [hl] at h
    cases h
    refine .inl ⟨rfl, rfl, fun ws key t row hrow hstatus => ?_⟩
    have hnone := rank_of_leastRanked_none hl (.event ws key t) row hrow
    rw [acceptedRank, if_pos hstatus] at hnone
    cases hnone
  | some e =>
    obtain ⟨k, row⟩ := e
    obtain ⟨hlookup, x, hx, -⟩ := mem_of_leastRanked hl
    rw [hl] at h
    cases k with
    | event ws key t =>
      have hrow : (row : EventRow).pipelineStatus = .accepted := by
        by_contra hne
        simp [acceptedRank, hne] at hx
      refine .inr ⟨⟨ws, key, t, row⟩, ?_⟩
      dsimp only at h
      rw [processEvent_eq, eval_resolveIdentity] at h
      have hclaim : SameRoster s (s.insert (.event ws key t) row) :=
        @sameRoster_view [⟨.event ws key t, some row, row⟩] (by simp [RowKey.isRoster]) s
      cases hidentity : identityOf conn (s.insert (.event ws key t) row) ⟨ws, key, t, row⟩ with
      | error e =>
        rw [hidentity] at h
        cases h
      | ok identity =>
        obtain ⟨u, reason⟩ := identity
        rw [hidentity] at h
        obtain ⟨log, hruns, hlog, rfl⟩ := runs_of_eval _ h
        obtain ⟨w, hevent, rfl⟩ :=
          @runs_settleAndFold conn ⟨ws, key, t, row⟩ log a u reason hrow hruns
        have hwhole : Consistent (⟨.event ws key t, some row, row⟩ :: log) s := ⟨hlookup, hlog⟩
        have hkept : ∀ k, (view (⟨.event ws key t, some row, row⟩ :: log) s).lookup k = none →
            s.lookup k = none := fun k => lookup_of_view_none
        exact ⟨_, rfl, hevent.sameRoster s, hkept, u, reason, w, hclaim.identityOf.symm.trans hidentity,
          hevent.effect hwhole⟩
    | _ => simp [acceptedRank] at hx

end TrueFigure.Server
