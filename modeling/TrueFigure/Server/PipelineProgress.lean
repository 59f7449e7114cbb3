import TrueFigure.Server.GaugeOrder
import TrueFigure.Server.PipelineRoom
import TrueFigure.Server.Reconciliation

/-!
# Progress of the pipeline

The queue is global and ordered by `occurred_at`, and an event that cannot be
stored is rolled back to its head. So every call makes progress, and calls drain
the queue, exactly when no waiting event exceeds what the aggregate tables hold.
-/
namespace TrueFigure.Server

open TrueFigure.Library TrueFigure.Python

variable {conn : Connection} {s s' : Db} {ev : ClaimedEvent} {u : Option ℕ}
  {x : Option ExclusionReason}

/-! ### Health survives -/

theorem upsertStats_le {excluded row : IngestionStatsRow} {before : Option IngestionStatsRow}
    (hone : excluded.acceptedCount ≤ bigintMax) (h : upsertStats excluded before = .ok row) :
    row.acceptedCount ≤ bigintMax := by
  cases before with
  | none =>
    cases h
    exact hone
  | some old =>
    obtain ⟨accepted, haccepted, -⟩ := bind_eq_ok h
    rw [upsertStats_some h]
    unfold addInt at haccepted
    split_ifs at haccepted with hle
    exact hle

theorem upsertActivity_le {row : UserActivityRow} {before : Option UserActivityRow}
    (h : upsertActivity before = .ok row) : row.eventCount ≤ integerMax := by
  cases before with
  | none =>
    cases h
    decide
  | some old =>
    obtain ⟨count, hcount, hrow⟩ := bind_eq_ok h
    cases hrow
    unfold addInt at hcount
    split_ifs at hcount with hle
    cases hcount
    exact hle

theorem nonneg_of_checkQuantity {q r : Numeric} (h : checkQuantity q = .ok r) : 0 ≤ r.micros := by
  unfold checkQuantity at h
  split_ifs at h with hle
  cases h
  exact hle

theorem upsertMeter_nonneg {meter : MeterType} {qty : Json} {row : MeterUsageRow}
    {before : Option MeterUsageRow} (hbefore : ∀ old, before = some old → 0 ≤ old.quantitySum.micros)
    (h : upsertMeter meter qty before = .ok row) : 0 ≤ row.quantitySum.micros := by
  unfold upsertMeter at h
  split_ifs at h
  · obtain ⟨reading, -, h⟩ := bind_eq_ok h
    obtain ⟨checked, -, h⟩ := bind_eq_ok h
    cases before with
    | none =>
      cases h
      exact le_refl (0 : ℤ)
    | some old =>
      cases h
      exact hbefore old rfl
  · obtain ⟨delta, -, h⟩ := bind_eq_ok h
    cases delta with
    | none => cases h
    | some delta =>
      obtain ⟨checked, hchecked, h⟩ := bind_eq_ok h
      cases before with
      | none =>
        cases h
        exact nonneg_of_checkQuantity hchecked
      | some old =>
        obtain ⟨total, -, h⟩ := bind_eq_ok h
        obtain ⟨total', htotal', h⟩ := bind_eq_ok h
        cases h
        exact nonneg_of_checkQuantity htotal'

theorem Effect.checked {w : Option ℕ} (h : Effect conn ev u x w s s') (hs : Checked s) :
    Checked s' := by
  constructor
  · intro c row hrow
    by_cases hc : c = (ev.row.deploymentId, ev.sourceRef, conn.dayOf ev.occurredAt)
    · subst hc
      obtain ⟨row', hrow', hu⟩ := h.stats
      obtain rfl : row' = row := Option.some.inj (hrow'.symm.trans hrow)
      exact upsertStats_le (show 1 ≤ bigintMax by decide) hu
    · exact hs.stats c row ((h.statsTable_eq hc).symm.trans hrow)
  · intro c row hrow
    by_cases hc : activityGroup conn.dayOf (ev.settled u x w) = some c
    · obtain ⟨row', hrow', hu⟩ := h.activity c hc
      obtain rfl : row' = row := Option.some.inj (hrow'.symm.trans hrow)
      exact upsertActivity_le hu
    · exact hs.activity c row ((h.activityTable_eq hc).symm.trans hrow)
  · intro c row hrow
    by_cases hc : meterGroup conn.dayOf (ev.settled u x w) = some c
    · obtain ⟨row', hrow', hu, -⟩ := h.meter c hc
      obtain rfl : row' = row := Option.some.inj (hrow'.symm.trans hrow)
      exact upsertMeter_nonneg (hs.meter c) hu
    · exact hs.meter c row ((h.meterTable_eq hc).symm.trans hrow)

theorem Processes.healthy (h : Processes conn ev s s') (hs : Healthy conn s) : Healthy conn s' := by
  obtain ⟨hroster, -, u, x, w, -, heffect⟩ := h
  have hmem : ∀ d ∈ queued s', d ∈ queued s := by
    intro d hd
    rw [heffect.queued]
    exact Multiset.mem_cons_of_mem hd
  refine ⟨fun d hd => hs.digestible d (hmem d hd), fun d hd => ?_,
    heffect.aggregatesOk hs.aggregates, heffect.checked hs.checked⟩
  rw [hroster.identityOf]
  exact hs.identified d (hmem d hd)

theorem Processes.keeps (h : Processes conn ev s s') {ws : ℕ} {key : PyStr} {t : ℤ} {row : EventRow}
    (hrow : row.pipelineStatus ≠ .accepted) (hstored : s.lookup (.event ws key t) = some row) :
    s'.lookup (.event ws key t) = some row := by
  obtain ⟨-, -, u, x, w, -, heffect⟩ := h
  have hne : RowKey.event ws key t ≠ ev.rowKey := by
    intro heq
    obtain ⟨rfl, rfl, rfl⟩ := RowKey.event.inj heq
    cases heffect.stored.symm.trans hstored
    exact hrow heffect.accepted
  exact (heffect.others _ hne (by simp) (by simp) (by simp) (by simp)).trans hstored

/-! ### Calls -/

/-- A worker's transactions, one event each. -/
def Worked (conn : Connection) : Db → Db → Prop :=
  Relation.ReflTransGen fun s s' => ∃ ev, Processes conn ev s s'

theorem Worked.fits_iff (h : Worked conn s s') : Fits conn s ↔ Fits conn s' := by
  induction h with
  | refl => rfl
  | tail _ hstep ih =>
    obtain ⟨ev, hstep⟩ := hstep
    exact ih.trans hstep.fits_iff

theorem Worked.healthy (h : Worked conn s s') (hs : Healthy conn s) : Healthy conn s' := by
  induction h with
  | refl => exact hs
  | tail _ hstep ih =>
    obtain ⟨ev, hstep⟩ := hstep
    exact hstep.healthy ih

theorem Worked.keeps (h : Worked conn s s') {ws : ℕ} {key : PyStr} {t : ℤ} {row : EventRow}
    (hrow : row.pipelineStatus ≠ .accepted) (hstored : s.lookup (.event ws key t) = some row) :
    s'.lookup (.event ws key t) = some row := by
  induction h with
  | refl => exact hstored
  | tail _ hstep ih =>
    obtain ⟨ev, hstep⟩ := hstep
    exact hstep.keeps hrow ih

theorem Worked.queued_le (h : Worked conn s s') : queued s' ≤ queued s := by
  induction h with
  | refl => exact le_rfl
  | tail _ hstep ih =>
    obtain ⟨ev, -, -, u, x, w, -, heffect⟩ := hstep
    refine le_trans ?_ ih
    rw [heffect.queued]
    exact Multiset.le_cons_self _ _

/-- Whatever a call comes to, it has processed events one by one. -/
theorem run_worked (limit : ℕ) (counts : Counts) (s : Db) (n : ℕ) :
    Worked conn s ((runPipelineFrom conn limit counts).run s n).2.1 := by
  induction limit generalizing counts s n with
  | zero => exact .refl
  | succ limit ih =>
    rw [runPipelineFrom, Proc.run]
    rcases hrun : (processNext conn).eval s n with ⟨e | ⟨a, s'⟩, n'⟩
    · exact .refl
    · rcases eval_processNext hrun with ⟨rfl, rfl, -⟩ | ⟨ev, outcome, rfl, hprocesses⟩
      · exact .refl
      · exact .head ⟨ev, hprocesses⟩ (ih _ s' n')

/-- Where everything fits, no call raises. -/
theorem run_counts (hs : Healthy conn s) (hfits : Fits conn s) (limit : ℕ) (counts : Counts)
    (n : ℕ) : ∃ counts', ((runPipelineFrom conn limit counts).run s n).1 = .counts counts' := by
  induction limit generalizing counts s n with
  | zero => exact ⟨counts, rfl⟩
  | succ limit ih =>
    obtain ⟨a, s', n', hrun⟩ := hs.succeeds hfits n
    rw [runPipelineFrom, Proc.run, hrun]
    rcases eval_processNext hrun with ⟨rfl, rfl, -⟩ | ⟨ev, outcome, rfl, hprocesses⟩
    · exact ⟨counts, rfl⟩
    · exact ih (hprocesses.healthy hs) (hprocesses.fits_iff.1 hfits) _ n'

/-- Some event has been taken out of `accepted`. -/
def Takes (s s' : Db) : Prop :=
  ∃ ev ∈ queued s, ∃ row : EventRow, s'.lookup ev.rowKey = some row ∧
    row.pipelineStatus ≠ .accepted

/-- Where everything fits, a call takes an event if there is one. -/
theorem run_takes (hs : Healthy conn s) (hfits : Fits conn s) (hwaits : ¬ Drained s) {limit : ℕ}
    (hlimit : 1 ≤ limit) (counts : Counts) (n : ℕ) :
    Takes s ((runPipelineFrom conn limit counts).run s n).2.1 := by
  obtain ⟨limit, rfl⟩ := Nat.exists_eq_add_of_le' hlimit
  obtain ⟨a, s', n', hrun⟩ := hs.succeeds hfits n
  rw [runPipelineFrom, Proc.run, hrun]
  rcases eval_processNext hrun with ⟨-, -, hdrained⟩ | ⟨ev, outcome, rfl, hprocesses⟩
  · exact absurd hdrained hwaits
  · obtain ⟨u, x, w, -, heffect⟩ := hprocesses.effect
    refine ⟨ev, mem_queued.2 ⟨heffect.stored, heffect.accepted⟩, (ev.settled u x w).row, ?_,
      settledStatus_ne_accepted x w⟩
    exact (run_worked limit _ s' n').keeps (settledStatus_ne_accepted x w) heffect.settled

/-- The rows and the sequence after a call of `run_pipeline`. -/
def called (conn : Connection) (limit : ℕ) (st : Db × ℕ) : Db × ℕ :=
  ((runPipeline conn limit).run st.1 st.2).2

/-- After the first calls with these limits, one after the other. -/
def calls (conn : Connection) (limits : ℕ → ℕ) (st : Db × ℕ) : ℕ → Db × ℕ
  | 0 => st
  | k + 1 => called conn (limits k) (calls conn limits st k)

/-- Calls with limits of at least one return, take an event whenever one waits,
and come to an end of the queue. -/
structure Progresses (conn : Connection) (st : Db × ℕ) : Prop where
  returns : ∀ limits : ℕ → ℕ, (∀ i, 1 ≤ limits i) → ∀ k, ∃ counts,
    ((runPipeline conn (limits k)).run (calls conn limits st k).1 (calls conn limits st k).2).1 =
      .counts counts
  takes : ∀ limits : ℕ → ℕ, (∀ i, 1 ≤ limits i) → ∀ k, ¬ Drained (calls conn limits st k).1 →
    Takes (calls conn limits st k).1 (calls conn limits st (k + 1)).1
  drains : ∀ limits : ℕ → ℕ, (∀ i, 1 ≤ limits i) → ∃ k, Drained (calls conn limits st k).1

variable {st : Db × ℕ}

theorem calls_worked (conn : Connection) (limits : ℕ → ℕ) (st : Db × ℕ) (k : ℕ) :
    Worked conn st.1 (calls conn limits st k).1 := by
  induction k with
  | zero => exact .refl
  | succ k ih => exact ih.trans (run_worked _ _ _ _)

/-- A call that takes an event leaves fewer to process. -/
theorem Takes.card_lt (h : Takes s s') (hworked : Worked conn s s') :
    Multiset.card (queued s') < Multiset.card (queued s) := by
  obtain ⟨ev, hev, row, hrow, hstatus⟩ := h
  refine Multiset.card_lt_card (lt_of_le_of_ne hworked.queued_le fun heq => ?_)
  rw [← heq] at hev
  obtain ⟨hlookup, haccepted⟩ := mem_queued.1 hev
  cases hrow.symm.trans hlookup
  exact hstatus haccepted

/-- Calls that take an event whenever one waits drain the queue. -/
theorem drains_of_takes {limits : ℕ → ℕ}
    (h : ∀ k, ¬ Drained (calls conn limits st k).1 →
      Takes (calls conn limits st k).1 (calls conn limits st (k + 1)).1) :
    ∃ k, Drained (calls conn limits st k).1 := by
  have hbound : ∀ m k, Multiset.card (queued (calls conn limits st k).1) ≤ m →
      ∃ j, Drained (calls conn limits st j).1 := by
    intro m
    induction m with
    | zero =>
      intro k hk
      exact ⟨k, drained_iff_queued.2 (Multiset.card_eq_zero.1 (Nat.le_zero.1 hk))⟩
    | succ m ih =>
      intro k hk
      by_cases hdrained : Drained (calls conn limits st k).1
      · exact ⟨k, hdrained⟩
      · have hlt := (h k hdrained).card_lt (run_worked (limits k) _ _ _)
        exact ih (k + 1) (by omega)
  exact hbound _ 0 le_rfl

theorem progresses_of_fits (hs : Healthy conn st.1) (hfits : Fits conn st.1) :
    Progresses conn st := by
  have hhealthy : ∀ limits k, Healthy conn (calls conn limits st k).1 :=
    fun limits k => (calls_worked conn limits st k).healthy hs
  have hcalls : ∀ limits k, Fits conn (calls conn limits st k).1 :=
    fun limits k => (calls_worked conn limits st k).fits_iff.1 hfits
  have htakes : ∀ limits : ℕ → ℕ, (∀ i, 1 ≤ limits i) → ∀ k,
      ¬ Drained (calls conn limits st k).1 →
        Takes (calls conn limits st k).1 (calls conn limits st (k + 1)).1 :=
    fun limits hlimits k hwaits => run_takes (hhealthy limits k) (hcalls limits k) hwaits
      (hlimits k) _ _
  constructor
  · intro limits hlimits k
    exact run_counts (hhealthy limits k) (hcalls limits k) _ _ _
  · exact htakes
  · intro limits hlimits
    exact drains_of_takes (htakes limits hlimits)

/-- What the aggregate tables hold when nothing waits fits them. -/
theorem fits_of_drained (hs : Healthy conn s) (hdrained : Drained s) : Fits conn s := by
  have hempty := drained_iff_queued.1 hdrained
  have hexpected : expected conn s = leftEvents s := by
    rw [expected, hempty, Multiset.map_zero, add_zero]
  refine ⟨fun ev hev => ?_, ?_, ?_, ?_⟩
  · rw [hempty] at hev
    exact absurd hev (Multiset.notMem_zero ev)
  · intro c
    rw [hexpected]
    have hfold := hs.aggregates.stats c
    cases hrow : statsTable s c with
    | none =>
      rw [hrow] at hfold
      rw [show Multiset.filter _ _ = 0 from hfold]
      exact Nat.zero_le _
    | some row =>
      rw [hrow] at hfold
      rw [← (show StatsOf _ row from hfold).accepted]
      exact hs.checked.stats c row hrow
  · intro c
    rw [hexpected]
    have hfold := hs.aggregates.activity c
    cases hrow : activityTable s c with
    | none =>
      rw [hrow] at hfold
      rw [show Multiset.filter _ _ = 0 from hfold]
      exact Nat.zero_le _
    | some row =>
      rw [hrow] at hfold
      rw [← (show ActivityOf _ row from hfold).count]
      exact hs.checked.activity c row hrow
  · intro c hcounter
    rw [hexpected]
    have hfold := hs.aggregates.meter c
    cases hrow : meterTable s c with
    | none =>
      rw [hrow] at hfold
      rw [show Multiset.filter _ _ = 0 from hfold]
      simp
    | some row =>
      rw [hrow] at hfold
      rw [← ((show MeterOf c.2.1 _ row from hfold).counter hcounter).1]
      have hbounded := row.quantitySum.bounded
      omega

theorem progresses_iff (hs : Healthy conn st.1) : Progresses conn st ↔ Fits conn st.1 := by
  constructor
  · intro h
    obtain ⟨k, hdrained⟩ := h.drains (fun _ => 1) fun _ => le_rfl
    have hworked := calls_worked conn (fun _ => 1) st k
    exact hworked.fits_iff.2 (fits_of_drained (hworked.healthy hs) hdrained)
  · exact progresses_of_fits hs

/-! ### Every reachable state -/

/-- `fk_user_identifiers_user`: identifiers lead to users. -/
def Referential (s : Db) : Prop :=
  ∀ ws ns value (row : UserIdentifierRow), s.lookup (.userIdentifier ws ns value) = some row →
    ∃ ref, ∃ user : UserRow, s.lookup (.user ws ref) = some user ∧ user.id = row.userId

theorem userById_isSome {ws : ℕ} {ref : PyStr} {user : UserRow}
    (h : s.lookup (.user ws ref) = some user) : ∃ found, userById s user.id = some found := by
  have hmem : (⟨.user ws ref, user⟩ : Sigma Row) ∈ s.entries := AList.mem_lookup_iff.1 h
  refine Option.isSome_iff_exists.1 ?_
  rw [userById, List.findSome?_isSome_iff]
  exact ⟨_, hmem, by simp⟩

theorem classified_of_user {ws : ℕ} {ref : PyStr} {user : UserRow}
    (h : s.lookup (.user ws ref) = some user) : ∃ u x, classified conn s ev user.id = .ok (u, x) := by
  obtain ⟨found, hfound⟩ := userById_isSome h
  simp only [classified, hfound]
  split_ifs
  · exact ⟨_, _, rfl⟩
  · exact ⟨_, _, rfl⟩
  · exact ⟨_, _, rfl⟩

theorem mem_usersByIdentifier {ws userId : ℕ} {value : PyStr}
    (h : userId ∈ usersByIdentifier s ws value) : ∃ ns, ∃ row : UserIdentifierRow,
      s.lookup (.userIdentifier ws ns value) = some row ∧ row.userId = userId := by
  obtain ⟨⟨k, row⟩, hmem, hrow⟩ := List.mem_filterMap.1 h
  cases k with
  | userIdentifier ws' ns value' =>
    dsimp only at hrow
    split_ifs at hrow with heq
    obtain ⟨rfl, rfl⟩ := heq
    exact ⟨ns, row, AList.mem_lookup_iff.2 hmem, Option.some.inj hrow⟩
  | _ => cases hrow

/-- The person of a digestible event is found or is not; nothing raises. -/
theorem Referential.identified (h : Referential s)
    (hlimit : ∀ users userId, conn.limitOne users = some userId → userId ∈ users)
    (hd : Digestible ev.row) : ∃ u x, identityOf conn s ev = .ok (u, x) := by
  have hmatched : ∀ field value userId, matchedUser conn s ev field value = some userId →
      ∃ u x, classified conn s ev userId = .ok (u, x) := by
    intro field value userId hmatch
    rw [matchedUser, Option.orElse_eq_some] at hmatch
    rcases hmatch with hfound | ⟨-, hfound⟩
    · have hidentifier : ∃ ns, ∃ row : UserIdentifierRow,
          s.lookup (.userIdentifier ev.workspaceId ns value) = some row ∧ row.userId = userId := by
        split at hfound
        · obtain ⟨row, hrow, hid⟩ := Option.map_eq_some_iff.1 hfound
          exact ⟨_, row, hrow, hid⟩
        · exact mem_usersByIdentifier (hlimit _ _ hfound)
      obtain ⟨ns, row, hrow, rfl⟩ := hidentifier
      obtain ⟨ref, user, huser, hid⟩ := h _ _ _ _ hrow
      rw [← hid]
      exact classified_of_user huser
    · obtain ⟨user, huser, rfl⟩ := Option.map_eq_some_iff.1 hfound
      exact classified_of_user huser
  unfold identityOf
  extract_lets value
  split_ifs with htruthy
  · have htext : value = .null ∨ ∃ text, value = .str text := by
      refine hd.texts _ ?_
      unfold ClaimedEvent.identityField
      split_ifs <;> simp [IdField.wire]
    rcases htext with hnull | ⟨text, htext⟩
    · rw [hnull] at htruthy
      cases htruthy
    · rw [htext]
      dsimp only
      split
      · rename_i userId hmatch
        exact hmatched _ _ _ hmatch
      · exact ⟨none, none, rfl⟩
  · exact ⟨none, none, rfl⟩

theorem checked_of_unprocessed (h : Unprocessed s) : Checked s := by
  refine ⟨fun c row hrow => ?_, fun c row hrow => ?_, fun c row hrow => ?_⟩
  · rw [h.stats] at hrow
    cases hrow
  · rw [h.activity] at hrow
    cases hrow
  · rw [h.meter] at hrow
    cases hrow

theorem processNext_preserves_checked : Preserves Checked (processNext conn) := by
  intro log a s h hlog hs
  rcases runs_processNext h with rfl | ⟨ev, u, x, w, hevent⟩
  · exact hs
  · exact (hevent.effect hlog).checked hs

theorem arrives_preserves_checked {body : Transaction} (h : Arrives body) :
    Preserves Checked body := by
  intro log a s hruns hlog hs
  have hsame : ∀ k : RowKey, (∀ before after, ¬ Change.Arrives ⟨k, before, after⟩) →
      (view log s).lookup k = s.lookup k := by
    intro k hk
    refine lookup_view_of_not_locked (fun hmem => ?_) s
    obtain ⟨⟨k', before, after⟩, hc, rfl⟩ := List.mem_map.1 hmem
    exact hk before after (h log _ hruns _ hc)
  refine ⟨fun c row hrow => ?_, fun c row hrow => ?_, fun c row hrow => ?_⟩
  · exact hs.stats c row ((hsame _ fun _ _ => id).symm.trans hrow)
  · exact hs.activity c row ((hsame _ fun _ _ => id).symm.trans hrow)
  · exact hs.meter c row ((hsame _ fun _ _ => id).symm.trans hrow)

/-- After any run of workers and arrivals, whatever the roster: calls of the
pipeline progress exactly when nothing that waits exceeds the aggregate tables. -/
theorem progresses_iff_fits {ι : Type} [DecidableEq ι] {conn : Connection}
    {w w' : World ι Row Failure Reply Outcome} (hstart : Unprocessed w.committed)
    (hparties : ∀ i, ∃ p : Process, w.stations i = .resting p ∧
      ((∃ conn' limit, conn'.dayOf = conn.dayOf ∧ p = runPipeline conn' limit) ∨ p.All Arrives))
    (hreach : Reachable (fun _ => True) w w')
    (hingested : ∀ ev ∈ queued w'.committed, Ingested ev.row)
    (hroster : Referential w'.committed)
    (hlimit : ∀ users userId, conn.limitOne users = some userId → userId ∈ users) (n : ℕ) :
    Progresses conn (w'.committed, n) ↔ Fits conn w'.committed := by
  have hinvariant : AggregatesOk conn.dayOf w'.committed ∧ Checked w'.committed := by
    refine committed_invariant (I := fun s => AggregatesOk conn.dayOf s ∧ Checked s)
      ⟨aggregatesOk_of_unprocessed hstart, checked_of_unprocessed hstart⟩ (fun i => ?_) hreach
    obtain ⟨p, hp, ⟨conn', limit, hday, rfl⟩ | harrives⟩ := hparties i
    · refine ⟨_, hp, runPipelineFrom_all ?_ limit _⟩
      intro log a s h hlog hs
      exact ⟨hday ▸ processNext_preserves log a s h hlog (hday ▸ hs.1),
        processNext_preserves_checked log a s h hlog hs.2⟩
    · refine ⟨p, hp, Proc.All.mono (fun body h => ?_) harrives⟩
      intro log a s hruns hlog hs
      exact ⟨arrives_preserves h log a s hruns hlog hs.1,
        arrives_preserves_checked h log a s hruns hlog hs.2⟩
  refine progresses_iff ⟨fun ev hev => (hingested ev hev).digestible, fun ev hev => ?_,
    hinvariant.1, hinvariant.2⟩
  exact hroster.identified hlimit (hingested ev hev).digestible

/-! ### Events that wait -/

theorem ValidEvent.ingested {env : Env} {ws : ℕ} {s : Db} (e : ValidEvent env ws s)
    (dep : DeploymentRow) : Ingested (eventRow e.intake e.adm dep e.eventType e.origin) := by
  refine ⟨env, e.intake, e.sub, e.adm, dep, e.key, e.keyed.examined, e.keyed.keyed, ?_⟩
  rw [eventValues, e.typed, e.originated]
  exact if_pos e.storable

section Waiting

variable {ws : ℕ} {key : PyStr} {t : ℤ} {row : EventRow}

theorem forall_queued_insert {p : EventRow → Prop} (h : ∀ ev ∈ queued s, p ev.row) (hrow : p row) :
    ∀ ev ∈ queued (s.insert (.event ws key t) row), p ev.row := by
  intro ev hev
  obtain ⟨hlookup, haccepted⟩ := mem_queued.1 hev
  by_cases hk : ev.rowKey = .event ws key t
  · obtain ⟨ws', key', t', row'⟩ := ev
    obtain ⟨rfl, rfl, rfl⟩ := RowKey.event.inj hk
    cases (AList.lookup_insert s).symm.trans hlookup
    exact hrow
  · rw [AList.lookup_insert_ne hk] at hlookup
    exact h ev (mem_queued.2 ⟨hlookup, haccepted⟩)

theorem referential_insert (h : Referential s) :
    Referential (s.insert (.event ws key t) row) := by
  intro ws' ns value identifier hrow
  rw [AList.lookup_insert_ne (by simp)] at hrow
  obtain ⟨ref, user, huser, hid⟩ := h ws' ns value identifier hrow
  exact ⟨ref, user, (AList.lookup_insert_ne (by simp)).trans huser, hid⟩

theorem unprocessed_insert (h : Unprocessed s) (hrow : row.pipelineStatus = .accepted) :
    Unprocessed (s.insert (.event ws key t) row) := by
  refine ⟨fun ws' key' t' row' hrow' => ?_, fun c => ?_, fun c => ?_, fun c => ?_⟩
  · by_cases hk : RowKey.event ws' key' t' = .event ws key t
    · obtain ⟨rfl, rfl, rfl⟩ := RowKey.event.inj hk
      cases (AList.lookup_insert s).symm.trans hrow'
      exact hrow
    · rw [AList.lookup_insert_ne hk] at hrow'
      exact h.events ws' key' t' row' hrow'
  · rw [statsTable, AList.lookup_insert_ne (by simp)]
    exact h.stats c
  · rw [activityTable, AList.lookup_insert_ne (by simp)]
    exact h.activity c
  · rw [meterTable, AList.lookup_insert_ne (by simp)]
    exact h.meter c

end Waiting

theorem totalsFit_of_few {dayOf : ℤ → ℤ} {P : Multiset LeftEvent}
    (hcard : Multiset.card P ≤ integerMax) (hpos : ∀ e ∈ P, 0 ≤ e.quantityMicros)
    (hsum : (P.map LeftEvent.quantityMicros).sum < 10 ^ 20) : TotalsFit dayOf P := by
  have hfilter : ∀ (p : LeftEvent → Prop) [DecidablePred p],
      Multiset.card (P.filter p) ≤ integerMax :=
    fun p _ => (Multiset.card_le_card (Multiset.filter_le p P)).trans hcard
  refine ⟨fun c => (hfilter _).trans (by decide), fun c => hfilter _, fun c _ => ?_⟩
  have hrest : 0 ≤ ((P.filter fun e => ¬ meterGroup dayOf e = some c).map
      LeftEvent.quantityMicros).sum := by
    refine Multiset.sum_nonneg fun q hq => ?_
    obtain ⟨e, he, rfl⟩ := Multiset.mem_map.1 hq
    exact hpos e (Multiset.mem_of_mem_filter he)
  rw [← Multiset.filter_add_not (fun e => meterGroup dayOf e = some c) P, Multiset.map_add,
    Multiset.sum_add] at hsum
  omega

def restingWorker (s : Db) : World Unit Row Failure Reply Outcome where
  committed := s
  sequence := 0
  stations := fun _ => .resting (runPipeline utcConnection 1)

/-- The meter event waits for three deployments of two workspaces. -/
def threeWaiting : Db :=
  (((∅ : Db).insert (.event 1 (py "k") 5) vendorMeter.row).insert (.event 2 (py "k") 6)
    (eventRow vendorMeter.intake vendorMeter.adm ⟨2, 2, .active⟩ .costMeter .vendorProduct)).insert
      (.event 1 (py "k") 7)
    (eventRow vendorMeter.intake vendorMeter.adm ⟨3, 1, .active⟩ .costMeter .vendorProduct)

theorem fits_threeWaiting : Fits utcConnection threeWaiting := by
  refine ⟨fun ev hev => ⟨fun _ => ?_, fun _ _ _ => rfl, fun _ _ _ _ _ => rfl⟩,
    totalsFit_of_few (by decide +kernel) (by decide +kernel) (by decide +kernel)⟩
  have hquantity : ∀ ev ∈ queued threeWaiting, (quantityParam
      (ev.row.payload.getD (py "quantity") (.num (.int 0)))).isOk = true := by decide +kernel
  exact exists_of_isOk (hquantity ev hev)

/-- All three are processed. -/
theorem progresses_iff_fits_vendorMeter : Progresses utcConnection (threeWaiting, 0) := by
  have hunprocessed : Unprocessed (restingWorker threeWaiting).committed :=
    unprocessed_insert (unprocessed_insert (unprocessed_single rfl) rfl) rfl
  refine (progresses_iff_fits hunprocessed (fun _ => ⟨_, rfl, .inl ⟨_, 1, rfl, rfl⟩⟩) .refl
    ?_ ?_ (fun _ _ => List.mem_of_mem_head?) 0).2 fits_threeWaiting
  · refine forall_queued_insert (forall_queued_insert (forall_queued_insert (fun ev hev => ?_)
      (vendorMeter.ingested _)) (vendorMeter.ingested _)) (vendorMeter.ingested _)
    cases (AList.lookup_empty _).symm.trans (mem_queued.1 hev).1
  · refine referential_insert (referential_insert (referential_insert fun ws ns value row h => ?_))
    cases (AList.lookup_empty _).symm.trans h

/-! ### A quantity too large -/

/-- One event waits, and a worker rests beside it. -/
def oneWaiting (row : EventRow) : World Unit Row Failure Reply Outcome where
  committed := (∅ : Db).insert (.event 1 (py "k") 5) row
  sequence := 0
  stations := fun _ => .resting (runPipeline utcConnection 1)

theorem ingested_oneWaiting {env : Env} {ws : ℕ} {s : Db} (e : ValidEvent env ws s) :
    ∀ ev ∈ queued (oneWaiting e.row).committed, Ingested ev.row := by
  refine forall_queued_insert (fun ev hev => ?_) (e.ingested e.dep)
  cases (AList.lookup_empty _).symm.trans (mem_queued.1 hev).1

/-- A hundred million million tokens. -/
def hugeMeterEvent : Dict :=
  [(py "schema_version", .str (py "1.0")), (py "deployment_id", .str (py "d")),
    (py "event_type", .str (py "cost_meter")), (py "origin", .str (py "vendor_product")),
    (py "payload", .obj [(py "meter", .str (py "tokens_in")),
      (py "quantity", .num (.int 100000000000000)),
      (py "timestamp", .str (py "2026-01-02T04:04:05.678901+01:00"))])]

set_option maxRecDepth 10000 in
def hugeMeter : ValidEvent sampleEnv 1 sampleRows.1 where
  intake := sampleIntake
  sub := ⟨.obj hugeMeterEvent, sampleNow⟩
  adm := ⟨hugeMeterEvent, py "2026-01-02T03:04:05.678Z"⟩
  dep := ⟨1, 1, .active⟩
  key := sampleDigest meterRaw
  eventType := .costMeter
  origin := .vendorProduct
  workspace := sampleIntake_workspace
  production := sampleIntake_mode
  keyed := ⟨⟨by rfl, by rfl, by rfl, by rfl, by decide⟩, by rfl, by rfl⟩
  typed := by rfl
  originated := by rfl
  storable := by rfl

theorem eval_hugeMeter (n : ℕ) : (processNext utcConnection).eval
    (oneWaiting hugeMeter.row).committed n = (.error (.database .numericOverflow), n) := by
  rfl

/-- `_process_one` accepts it, and every call of the pipeline fails on it. -/
theorem hugeMeter_blocks : Unprocessed (oneWaiting hugeMeter.row).committed ∧
    (∀ ev ∈ queued (oneWaiting hugeMeter.row).committed, Ingested ev.row) ∧
    ¬ Drained (oneWaiting hugeMeter.row).committed ∧
    (∀ limits : ℕ → ℕ, (∀ i, 1 ≤ limits i) → ∀ k,
      calls utcConnection limits ((oneWaiting hugeMeter.row).committed, 0) k =
        ((oneWaiting hugeMeter.row).committed, 0)) ∧
    ¬ Progresses utcConnection ((oneWaiting hugeMeter.row).committed, 0) := by
  have hwaits : ¬ Drained (oneWaiting hugeMeter.row).committed := fun hdrained =>
    hdrained 1 (py "k") 5 hugeMeter.row (AList.lookup_insert _) rfl
  have hstuck : ∀ limits : ℕ → ℕ, (∀ i, 1 ≤ limits i) → ∀ k,
      calls utcConnection limits ((oneWaiting hugeMeter.row).committed, 0) k =
        ((oneWaiting hugeMeter.row).committed, 0) := by
    intro limits hlimits k
    induction k with
    | zero => rfl
    | succ k ih =>
      obtain ⟨limit, hlimit⟩ := Nat.exists_eq_add_of_le' (hlimits k)
      rw [calls, ih, called, runPipeline, hlimit, runPipelineFrom, Proc.run, eval_hugeMeter]
      rfl
  refine ⟨unprocessed_single rfl, ingested_oneWaiting hugeMeter, hwaits, hstuck, fun h => ?_⟩
  obtain ⟨k, hdrained⟩ := h.drains (fun _ => 1) fun _ => le_rfl
  rw [hstuck _ fun _ => le_rfl] at hdrained
  exact hwaits hdrained

end TrueFigure.Server
