import TrueFigure.Server.IdentityOrder
import TrueFigure.Server.References

/-!
# What the pipeline adds to an event

While nobody touches the roster, the pipeline adds nothing to an event that is not determined by
the roster, by what was submitted and by the rows its `LIMIT 1` returns, but for the number of its
work item. Where a value without a declaration is registered for one person, the rows returned and
the physical order of the roster make no difference.
-/
namespace TrueFigure.Server

open TrueFigure.Library TrueFigure.Python

/-- The event as it was submitted: without the columns the pipeline writes. -/
def EventRow.submitted (row : EventRow) : EventRow :=
  { row with
    pipelineStatus := .accepted
    resolvedUserId := none
    workItemId := none
    exclusionReason := none }

/-- A session with these days; its `LIMIT 1` returns one of the rows, if there is one. -/
structure Connection.Reads (conn : Connection) (dayOf : ℤ → ℤ) : Prop where
  day : conn.dayOf = dayOf
  picks : conn.PicksRow
  returns : ∀ users, conn.limitOne users = none → users = []

/-- Every event that has left `accepted` has the person and the exclusion that some session reads
off this roster, and the status that follows. -/
structure Attributed (dayOf : ℤ → ℤ) (roster s : Db) : Prop where
  unmoved : SameRoster roster s
  identity : ∀ ws key t (row : EventRow), s.lookup (.event ws key t) = some row →
    row.pipelineStatus ≠ .accepted →
      (∃ conn : Connection, conn.Reads dayOf ∧
        identityOf conn roster ⟨ws, key, t, row.submitted⟩ =
          .ok (row.resolvedUserId, row.exclusionReason)) ∧
      row.pipelineStatus = settledStatus row.exclusionReason row.workItemId

/-- A transaction of a request, an import or a worker, the workers in sessions of their own. -/
inductive MeasuringBody (dayOf : ℤ → ℤ) : Transaction → Prop
  | store {env : Env} {intake : Intake} {sub : Submission} {adm : Admitted} (index : ℕ)
    (h : examine env intake sub = .ok adm) : MeasuringBody dayOf (storeOne env intake index adm)
  | quarantine (env : Env) (intake : Intake) (event : Json) (err : TFError)
    (key : Option PyStr) : MeasuringBody dayOf (quarantine env intake event err key)
  | worker {conn : Connection} (h : conn.Reads dayOf) : MeasuringBody dayOf (processNext conn)

/-- A request, an import or a worker. -/
inductive MeasuringParty (dayOf : ℤ → ℤ) : Process → Prop
  | request (env : Env) (intake : Intake) (events : List Submission) :
    MeasuringParty dayOf (ingestEvents env intake events)
  | importJob (env : Env) (intake : Intake) (lines : List (ℕ × Option Submission)) :
    MeasuringParty dayOf (runImport env intake lines)
  | worker {conn : Connection} (h : conn.Reads dayOf) (limit : ℕ) :
    MeasuringParty dayOf (runPipeline conn limit)

variable {conn : Connection} {dayOf : ℤ → ℤ} {roster s : Db} {ev : ClaimedEvent} {u : Option ℕ}
  {x : Option ExclusionReason} {w : Option ℕ} {log more : List (Change Row)} {a : Reply}

theorem MeasuringParty.bodies {p : Process} (h : MeasuringParty dayOf p) :
    p.All (MeasuringBody dayOf) := by
  cases h with
  | request env intake events =>
    exact ingestEvents_all (fun index _ _ => .store index) (.quarantine env intake) events
  | importJob env intake lines =>
    exact runImport_all (fun _ index _ _ => .store index) (.quarantine env) lines
  | worker h limit => exact runPipelineFrom_all (.worker h) limit _

theorem MeasuringBody.tenant {body : Transaction} (h : MeasuringBody dayOf body) :
    TenantBody body := by
  cases h with
  | store index h => exact .store index h
  | quarantine env intake event err key => exact .quarantine env intake event err key
  | worker h => exact .worker h.picks

/-- Either a worker, or a process by which events arrive. -/
theorem MeasuringParty.aggregates {p : Process} (h : MeasuringParty dayOf p) :
    (∃ conn limit, conn.dayOf = dayOf ∧ p = runPipeline conn limit) ∨ p.All Arrives := by
  cases h with
  | request env intake events => exact .inr (ingestEvents_arrives env intake events)
  | importJob env intake lines => exact .inr (runImport_arrives env intake lines)
  | worker h limit => exact .inl ⟨_, limit, h.day, rfl⟩

/-! ### One roster in two physical orders -/

/-- The same declarations, users and identifiers, in whatever order. -/
def RosterAlike (s s' : Db) : Prop := ∀ k, k.isRoster = true → s'.lookup k = s.lookup k

def rosterPart (s : Db) : Db :=
  ⟨s.entries.filter fun e => e.1.isRoster, s.nodupKeys.sublist List.filter_sublist⟩

theorem lookup_rosterPart {k : RowKey} (hk : k.isRoster = true) :
    (rosterPart s).lookup k = s.lookup k := by
  refine Option.ext fun r => ?_
  rw [← Option.mem_def, ← Option.mem_def, AList.mem_lookup_iff, AList.mem_lookup_iff, rosterPart,
    List.mem_filter]
  exact and_iff_left hk

theorem rosterAlike_rosterPart (s : Db) : RosterAlike s (rosterPart s) :=
  fun _ hk => lookup_rosterPart hk

/-- The roster by itself gives the identities the whole database gives. -/
theorem sameRoster_rosterPart (s : Db) : SameRoster s (rosterPart s) := by
  have hfilter : ∀ {β : Type} (f : Sigma Row → Option β),
      (∀ k r, k.isRoster = false → f ⟨k, r⟩ = none) →
        (rosterPart s).entries.filterMap f = s.entries.filterMap f := by
    intro β f hf
    rw [rosterPart, List.filterMap_filter]
    refine List.filterMap_congr fun e _ => ?_
    split_ifs with he
    · rfl
    · exact (hf e.1 e.2 (by simpa using he)).symm
  refine ⟨fun k hk => lookup_rosterPart hk, fun ws value => ?_, fun userId => ?_⟩
  · refine hfilter _ fun k r hk => ?_
    cases k with
    | userIdentifier => cases hk
    | _ => rfl
  · unfold userById
    rw [← List.head?_filterMap, ← List.head?_filterMap]
    refine congrArg List.head? (hfilter _ fun k r hk => ?_)
    cases k with
    | user => cases hk
    | _ => rfl

theorem RosterAlike.reordered {s' : Db} (h : RosterAlike s s') :
    Reordered (rosterPart s) (rosterPart s') := by
  refine List.lookup_ext (rosterPart s').nodupKeys (rosterPart s).nodupKeys fun k r => ?_
  show r ∈ (rosterPart s').lookup k ↔ r ∈ (rosterPart s).lookup k
  by_cases hk : k.isRoster = true
  · rw [lookup_rosterPart hk, lookup_rosterPart hk, h k hk]
  · have hnone : ∀ s : Db, r ∉ (rosterPart s).lookup k := by
      intro s hr
      rw [AList.mem_lookup_iff, rosterPart, List.mem_filter] at hr
      exact hk hr.2
    exact iff_of_false (hnone s') (hnone s)

theorem OnePerson.of_alike {s' : Db} (h : RosterAlike s s') (hone : OnePerson dayOf s ev) :
    OnePerson dayOf s' ev := by
  intro value hvalue hne hundeclared ns ns' row row' hrow hrow' hdiffer ref u hu
  have hnamespace : ∀ d src, activeNamespace s' ev.workspaceId d ev.identityField src =
      activeNamespace s ev.workspaceId d ev.identityField src :=
    fun d src => h (.identifierNamespace ev.workspaceId d ev.identityField src) rfl
  simp only [applicableNamespace, hnamespace] at hundeclared
  rw [h _ rfl] at hrow hrow' hu
  exact hone value hvalue hne hundeclared ns ns' row row' hrow hrow' hdiffer ref u hu

/-- Where the value of an undeclared field is registered for one person, any session comes to the
identity that scanning the roster comes to. -/
theorem identityOf_scanning (hkeys : RosterKeys s) (hone : OnePerson dayOf s ev)
    (hreads : conn.Reads dayOf) :
    identityOf conn s ev = identityOf (scanning dayOf) (rosterPart s) ev := by
  have hsame := sameRoster_rosterPart s
  obtain rfl := hreads.day
  obtain ⟨s', hs', hscan⟩ := @exists_order _ _ ev (hsame.rosterKeys hkeys) hreads.picks hreads.returns
  rw [← hsame.identityOf, ← hscan]
  exact (orderFree_iff (hsame.rosterKeys hkeys)).2 (hone.of_alike (rosterAlike_rosterPart s)) s' hs'

/-- So any two sessions come to the same over rosters that are alike. -/
theorem identityOf_alike {conn' : Connection} {s' : Db} (hkeys : RosterKeys s)
    (hkeys' : RosterKeys s') (halike : RosterAlike s s') (hone : OnePerson dayOf s ev)
    (hreads : conn.Reads dayOf) (hreads' : conn'.Reads dayOf) :
    identityOf conn s ev = identityOf conn' s' ev := by
  rw [identityOf_scanning hkeys hone hreads,
    identityOf_scanning hkeys' (hone.of_alike halike) hreads']
  have hpart := (sameRoster_rosterPart s).rosterKeys hkeys
  exact ((orderFree_iff hpart).2 (hone.of_alike (rosterAlike_rosterPart s)) _ halike.reordered).symm

/-! ### What a worker has read of the roster -/

section Identity

variable {seen : Db → Prop} {next : Option ℕ → Option ExclusionReason → Transaction}

theorem sees_classified (hroster : ∀ s, seen s → SameRoster roster (view log s)) {userId : ℕ}
    (h : Sees seen log (classifyUser conn ev userId next) more (.ok a)) :
    ∃ u x, Sees seen log (next u x) more (.ok a) ∧
      classified conn roster ev userId = .ok (u, x) := by
  obtain ⟨s, hs, h⟩ := h.of_read
  unfold classified
  rw [← (hroster s hs).byId userId]
  cases huser : userById (view log s) userId with
  | none =>
    simp only [huser] at h
    exact h.not_throw.elim
  | some user =>
    simp only [huser] at h
    dsimp only
    split_ifs at h ⊢
    · exact ⟨_, _, h, rfl⟩
    · exact ⟨_, _, h, rfl⟩
    · exact ⟨_, _, h, rfl⟩

theorem sees_matched (hroster : ∀ s, seen s → SameRoster roster (view log s)) {value : PyStr}
    {found : Option ℕ} (h : Sees seen log (matchUser conn ev value found next) more (.ok a)) :
    ∃ u x, Sees seen log (next u x) more (.ok a) ∧
      (match found <|> (roster.lookup (.user ev.workspaceId value)).map UserRow.id with
        | some userId => classified conn roster ev userId
        | none => .ok (none, none)) = .ok (u, x) := by
  cases found with
  | some userId => exact sees_classified hroster h
  | none =>
    obtain ⟨s, hs, h⟩ := Sees.of_read h
    have huser := (hroster s hs).lookup (.user ev.workspaceId value) rfl
    rw [huser] at h
    cases hrow : roster.lookup (.user ev.workspaceId value) with
    | some user =>
      simp only [hrow] at h
      exact sees_classified hroster h
    | none =>
      simp only [hrow] at h
      exact ⟨_, _, h, rfl⟩

/-- Where every read shows the same roster, the worker comes to the identity it gives. -/
theorem sees_identity (hroster : ∀ s, seen s → SameRoster roster (view log s))
    (h : Sees seen log (resolveIdentity conn ev next) more (.ok a)) :
    ∃ u x, Sees seen log (next u x) more (.ok a) ∧ identityOf conn roster ev = .ok (u, x) := by
  unfold resolveIdentity at h
  unfold identityOf
  extract_lets field value at h
  extract_lets value'
  have hfield : field = ev.identityField := rfl
  have hvalue : value' = value := rfl
  rw [hvalue, ← hfield]
  clear_value field value
  by_cases htruthy : value.truthy = true
  · rw [if_pos htruthy] at h ⊢
    cases value with
    | str value =>
      obtain ⟨s, hs, h⟩ := Sees.of_read h
      have hns : applicableNamespace (view log s) ev.workspaceId ev.row.deploymentId field
          ev.sourceRef =
          applicableNamespace roster ev.workspaceId ev.row.deploymentId field ev.sourceRef := by
        have hrow : ∀ d src, activeNamespace (view log s) ev.workspaceId d field src =
            activeNamespace roster ev.workspaceId d field src :=
          fun d src => (hroster s hs).lookup (.identifierNamespace ev.workspaceId d field src) rfl
        simp only [applicableNamespace, hrow]
      rw [hns] at h
      dsimp only [matchedUser]
      cases hdeclared : applicableNamespace roster ev.workspaceId ev.row.deploymentId field
          ev.sourceRef with
      | some declared =>
        simp only [hdeclared] at h
        obtain ⟨t, ht, h⟩ := Sees.of_read h
        have hfound : userByIdentifier (view log t) ev.workspaceId declared.ns value =
            userByIdentifier roster ev.workspaceId declared.ns value := by
          rw [userByIdentifier,
            (hroster t ht).lookup (.userIdentifier ev.workspaceId declared.ns value) rfl,
            userByIdentifier]
        rw [hfound] at h
        exact sees_matched hroster h
      | none =>
        simp only [hdeclared] at h
        obtain ⟨t, ht, h⟩ := Sees.of_read h
        rw [(hroster t ht).byIdentifier] at h
        exact sees_matched hroster h
    | _ => exact h.not_throw.elim
  · rw [if_neg htruthy] at h ⊢
    exact ⟨_, _, h, rfl⟩

/-- A worker that reads nothing but this roster has found no event, or has settled one with the
identity the roster gives it. -/
theorem sees_settled (hroster : ∀ s, seen s → SameRoster roster s)
    (h : Sees seen [] (processNext conn) log (.ok a)) :
    log = [] ∨ ∃ ev u x w, EventLog conn ev u x w log ∧ identityOf conn roster ev = .ok (u, x) := by
  rcases h.of_claim with hnone | ⟨k, row, rank, more, hrank, rfl, hclaimed⟩
  · exact .inl hnone.of_pure.1
  cases k with
  | event ws key t =>
    have hrow : (row : EventRow).pipelineStatus = .accepted := by
      by_contra hne
      simp [acceptedRank, hne] at hrank
    have hclaim : ∀ s, seen s →
        SameRoster roster (view [⟨.event ws key t, some row, row⟩] s) := by
      intro s hs
      exact (hroster s hs).trans (sameRoster_view (by simp [RowKey.isRoster]) s)
    obtain ⟨u, x, hresolved, hidentity⟩ := sees_identity hclaim hclaimed
    obtain ⟨w, hevent, -⟩ :=
      @runs_settleAndFold conn ⟨ws, key, t, row⟩ more a u x hrow hresolved.runs
    exact .inr ⟨⟨ws, key, t, row⟩, u, x, w, hevent, hidentity⟩
  | _ => simp [acceptedRank] at hrank

end Identity

/-! ### Along a run -/

/-- The settled event has the identity of the roster, the others had theirs before. -/
theorem attributed_worker (hok : Attributed dayOf roster s) (hreads : conn.Reads dayOf)
    (h : EventLog conn ev u x w log) (hlog : Consistent log s)
    (hidentity : identityOf conn roster ev = .ok (u, x)) :
    Attributed dayOf roster (view log s) := by
  refine ⟨hok.unmoved.trans (h.sameRoster s), fun ws key t row hrow hleft => ?_⟩
  rcases (h.effect hlog).event_cases hrow with ⟨rfl, rfl, rfl, rfl⟩ | hbefore
  · exact ⟨⟨conn, hreads, hidentity⟩, rfl⟩
  · exact hok.identity ws key t row hbefore hleft

/-- Rows of the roster are not written and settled events were settled before. -/
theorem attributed_arrival (hok : Attributed dayOf roster s)
    (hroster : ∀ k ∈ locked log, k.isRoster = false) (harrives : ∀ c ∈ log, Change.Arrives c) :
    Attributed dayOf roster (view log s) := by
  refine ⟨hok.unmoved.trans (sameRoster_view hroster s), fun ws key t row hrow hleft => ?_⟩
  exact hok.identity ws key t row (settled_before_arrival harrives hrow hleft) hleft

theorem MeasuringBody.preserves {body : Transaction} (h : MeasuringBody dayOf body) :
    PreservesSeen (Attributed dayOf roster) (fun _ _ => True) body := by
  intro log a s hsees hlog hok
  refine ⟨?_, trivial⟩
  cases h with
  | store index h =>
    rcases runs_storeOne h hsees.runs with rfl | ⟨key, row, hrow, rfl⟩
    · exact hok
    · apply attributed_arrival hok
      · simp [RowKey.isRoster]
      · intro c hc
        obtain rfl := List.mem_singleton.1 hc
        exact ⟨rfl, hrow.waiting.1⟩
  | quarantine env intake event err key =>
    obtain ⟨id, after, rfl⟩ := runs_quarantine hsees.runs
    apply attributed_arrival hok
    · simp [RowKey.isRoster]
    · intro c hc
      obtain rfl := List.mem_singleton.1 hc
      trivial
  | worker hreads =>
    rcases sees_settled (fun t ht => ht.1.unmoved) hsees with rfl | ⟨ev, u, x, w, hevent, hidentity⟩
    · exact hok
    · exact attributed_worker hok hreads hevent hlog hidentity

theorem attributed_of_unprocessed (dayOf : ℤ → ℤ) (h : Unprocessed s)
    (hroster : SameRoster roster s) : Attributed dayOf roster s :=
  ⟨hroster, fun ws key t row hrow hleft => absurd (h.events ws key t row hrow) hleft⟩

theorem attributed_reachable {ι : Type} [DecidableEq ι]
    {v v' : World ι Row Failure Reply Outcome} (hstart : Unprocessed v.committed)
    (hroster : SameRoster roster v.committed)
    (hparties : ∀ i, ∃ p : Process, v.stations i = .resting p ∧ MeasuringParty dayOf p)
    (hreach : Reachable (fun _ => True) v v') : Attributed dayOf roster v'.committed := by
  have : Std.Refl (fun _ _ : Db => True) := ⟨fun _ => trivial⟩
  have : IsTrans Db (fun _ _ => True) := ⟨fun _ _ _ _ _ => trivial⟩
  have hidle : v.Idle (PreservesSeen (Attributed dayOf roster) fun _ _ => True) := by
    intro i
    obtain ⟨p, hp, hparty⟩ := hparties i
    exact ⟨p, hp, Proc.All.mono (fun _ h => MeasuringBody.preserves h) hparty.bodies⟩
  have hseen := hidle.worldSeen (attributed_of_unprocessed dayOf hstart hroster)
  exact (hseen.reachable hreach).1.committed

end TrueFigure.Server
