import TrueFigure.Server.AttributedEvents
import TrueFigure.Server.HealthRates
import TrueFigure.Server.SeatPricing
import TrueFigure.Server.SubMeters

/-!
# What a deployment measures

Two runs over one roster, in whatever physical order, with whatever workers, sessions, limits,
batches, aborts and whatever events of other deployments: once the events of a deployment have left
`accepted`, what the engine and the live endpoints read of it depends on what was submitted to it,
and not on the order in which it was processed or on anybody else. A value without a declaration
must be registered for one person only. A gauge keeps the last reading processed, so the costs are
the same where no gauge has two readings of a day.
-/
namespace TrueFigure.Server

open TrueFigure.Library TrueFigure.Python

/-- What was submitted to a deployment under a key. -/
def submittedTo (s : Db) (dep ws : ℕ) (key : PyStr) (t : ℤ) : Option EventRow :=
  ((s.lookup (.event ws key t)).filter fun row : EventRow => row.deploymentId = dep).map
    EventRow.submitted

/-- The events of a deployment are settled by this roster, counted, and joined to items whose
numbers are their own. -/
structure Processed (dayOf : ℤ → ℤ) (roster : Db) (dep : ℕ) (s : Db) : Prop where
  attributed : Attributed dayOf roster s
  keys : RosterKeys roster
  references : ReferencesOk s
  items : DistinctNumbers itemNumber s
  aggregates : AggregatesOk dayOf s
  done : ∀ ws key t (row : EventRow), s.lookup (.event ws key t) = some row →
    row.deploymentId = dep → row.pipelineStatus ≠ .accepted

/-- The values of the deployment's undeclared fields are registered for one person each, those of
closed windows apart. -/
def Unambiguous (dayOf : ℤ → ℤ) (roster : Db) (dep : ℕ) (s : Db) : Prop :=
  ∀ ws key t row, submittedTo s dep ws key t = some row →
    OnePerson dayOf roster ⟨ws, key, t, row⟩

/-- A settled event without the number of its item. -/
def EventRow.unnumbered (row : EventRow) : EventRow :=
  { row with workItemId := row.itemRef.map fun _ => 0 }

/-- Under every key both have a settled event of the deployment, the same one but for the number
of its item, or neither has one. -/
def RowsAlike (dep : ℕ) (s t : Db) : Prop :=
  ∀ ws key at', (∃ row row' : EventRow, s.lookup (.event ws key at') = some row ∧
      t.lookup (.event ws key at') = some row' ∧ row.deploymentId = dep ∧
      row.pipelineStatus ≠ .accepted ∧ row'.pipelineStatus ≠ .accepted ∧
      row.unnumbered = row'.unnumbered) ∨
    (∀ row : EventRow, s.lookup (.event ws key at') = some row → row.deploymentId ≠ dep) ∧
      ∀ row : EventRow, t.lookup (.event ws key at') = some row → row.deploymentId ≠ dep

variable {dayOf : ℤ → ℤ} {roster roster' s t : Db} {dep ws : ℕ} {key : PyStr} {at' : ℤ}
  {row row' : EventRow} {ref : PyStr}

/-! ### The same events -/

theorem submittedTo_eq_some (hrow : s.lookup (.event ws key at') = some row)
    (hdep : row.deploymentId = dep) : submittedTo s dep ws key at' = some row.submitted := by
  unfold submittedTo
  rw [hrow, Option.filter_some, if_pos (by simpa using hdep)]
  rfl

theorem exists_of_submittedTo (h : submittedTo s dep ws key at' = some row) :
    ∃ before : EventRow, s.lookup (.event ws key at') = some before ∧ before.deploymentId = dep ∧
      before.submitted = row := by
  unfold submittedTo at h
  obtain ⟨before, hbefore, hsubmitted⟩ := Option.map_eq_some_iff.1 h
  obtain ⟨hlookup, hdep⟩ := Option.filter_eq_some_iff.1 hbefore
  exact ⟨before, hlookup, by simpa using hdep, hsubmitted⟩

theorem JoinedAs.isSome (h : JoinedAs s ws row) : row.workItemId.isSome = row.itemRef.isSome := by
  unfold JoinedAs at h
  cases href : row.itemRef with
  | none =>
    simp only [href] at h
    rw [h]
    rfl
  | some ref =>
    simp only [href] at h
    obtain ⟨item, -, hid⟩ := h
    rw [hid]
    rfl

/-- The pipeline has made the same of both but for the number of the item. -/
theorem unnumbered_eq (hs : Processed dayOf roster dep s) (ht : Processed dayOf roster' dep t)
    (halike : RosterAlike roster roster')
    (hone : OnePerson dayOf roster ⟨ws, key, at', row.submitted⟩)
    (hrow : s.lookup (.event ws key at') = some row)
    (hrow' : t.lookup (.event ws key at') = some row') (hdep : row.deploymentId = dep)
    (hdep' : row'.deploymentId = dep) (hsame : row.submitted = row'.submitted) :
    row.unnumbered = row'.unnumbered := by
  have hleft := hs.done ws key at' row hrow hdep
  have hleft' := ht.done ws key at' row' hrow' hdep'
  obtain ⟨⟨conn, hreads, hidentity⟩, hstatus⟩ := hs.attributed.identity ws key at' row hrow hleft
  obtain ⟨⟨conn', hreads', hidentity'⟩, hstatus'⟩ :=
    ht.attributed.identity ws key at' row' hrow' hleft'
  rw [identityOf_alike hs.keys ht.keys halike hone hreads hreads', hsame, hidentity'] at hidentity
  obtain ⟨hperson, hexclusion⟩ := Prod.mk.inj (Except.ok.inj hidentity)
  have href : row.itemRef = row'.itemRef := by
    show row.submitted.itemRef = row'.submitted.itemRef
    rw [hsame]
  have hjoined : row.workItemId.isSome = row'.workItemId.isSome := by
    rw [(hs.references.joined ws key at' row hrow hleft).isSome,
      (ht.references.joined ws key at' row' hrow' hleft').isSome, href]
  have hsettled : row.pipelineStatus = row'.pipelineStatus := by
    rw [hstatus, hstatus', hexclusion]
    unfold settledStatus
    rw [hjoined]
  have hrebuild : ∀ r : EventRow, r.unnumbered =
      { r.submitted with
        pipelineStatus := r.pipelineStatus
        resolvedUserId := r.resolvedUserId
        workItemId := r.itemRef.map fun _ => 0
        exclusionReason := r.exclusionReason } := fun _ => rfl
  rw [hrebuild row, hrebuild row', hsame, hsettled, hperson, hexclusion, href]

theorem rowsAlike (hs : Processed dayOf roster dep s) (ht : Processed dayOf roster' dep t)
    (halike : RosterAlike roster roster') (hone : Unambiguous dayOf roster dep s)
    (hsame : ∀ ws key at', submittedTo s dep ws key at' = submittedTo t dep ws key at') :
    RowsAlike dep s t := by
  intro ws key at'
  cases h : submittedTo s dep ws key at' with
  | some submitted =>
    obtain ⟨row, hrow, hdep, hsubmitted⟩ := exists_of_submittedTo h
    obtain ⟨row', hrow', hdep', hsubmitted'⟩ :=
      exists_of_submittedTo ((hsame ws key at').symm.trans h)
    exact .inl ⟨row, row', hrow, hrow', hdep, hs.done _ _ _ _ hrow hdep,
      ht.done _ _ _ _ hrow' hdep',
      unnumbered_eq hs ht halike (hone _ _ _ _ (hsubmitted ▸ h)) hrow hrow' hdep hdep'
        (hsubmitted.trans hsubmitted'.symm)⟩
  | none =>
    refine .inr ⟨fun row hrow hdep => ?_, fun row hrow hdep => ?_⟩
    · rw [submittedTo_eq_some hrow hdep] at h
      cases h
    · rw [hsame, submittedTo_eq_some hrow hdep] at h
      cases h

/-- A sum over the settled events of the deployment that does not read the numbers of items. -/
theorem RowsAlike.tally_eq {M : Type} [AddCommMonoid M] {g : Sigma Row → M}
    (h : RowsAlike dep s t)
    (hevent : ∀ ws key at' (row row' : EventRow), row.pipelineStatus ≠ .accepted →
      row'.pipelineStatus ≠ .accepted → row.unnumbered = row'.unnumbered →
      g ⟨.event ws key at', row⟩ = g ⟨.event ws key at', row'⟩)
    (hforeign : ∀ ws key at' (row : EventRow), row.deploymentId ≠ dep →
      g ⟨.event ws key at', row⟩ = 0)
    (hother : ∀ k r, (∀ ws key at', k ≠ .event ws key at') → g ⟨k, r⟩ = 0) :
    tally g s = tally g t := by
  apply tally_congr
  have hzero : ∀ (s : Db) k, (∀ r, s.lookup k = some r → g ⟨k, r⟩ = 0) →
      ((s.lookup k).elim 0 fun r => g ⟨k, r⟩) = 0 := by
    intro s k hk
    cases hrow : s.lookup k with
    | none => rfl
    | some r => exact hk r hrow
  intro k
  by_cases hk : ∃ ws key at', k = .event ws key at'
  · obtain ⟨ws, key, at', rfl⟩ := hk
    rcases h ws key at' with ⟨row, row', hrow, hrow', -, hleft, hleft', hsame⟩ | ⟨hnone, hnone'⟩
    · rw [hrow, hrow']
      exact hevent ws key at' row row' hleft hleft' hsame
    · rw [hzero s _ fun r hr => hforeign _ _ _ r (hnone r hr),
        hzero t _ fun r hr => hforeign _ _ _ r (hnone' r hr)]
  · push Not at hk
    rw [hzero s k fun r _ => hother k r hk, hzero t k fun r _ => hother k r hk]

theorem RowsAlike.sumEvents_eq {M : Type} [AddCommMonoid M] {f : ℤ → EventRow → M}
    (h : RowsAlike dep s t) (hrow : ∀ at' row, f at' row = f at' row.unnumbered)
    (hforeign : ∀ at' row, row.deploymentId ≠ dep → f at' row = 0) :
    sumEvents s f = sumEvents t f := by
  apply h.tally_eq
  · intro ws key at' row row' _ _ hsame
    show f at' row = f at' row'
    rw [hrow, hsame, ← hrow]
  · exact fun ws key at' row hdep => hforeign at' row hdep
  · intro k r hk
    cases k with
    | event ws key at' => exact absurd rfl (hk ws key at')
    | _ => rfl

/-! ### The same aggregates -/

/-- A left event without the number of its item. -/
def LeftEvent.unnumbered (e : LeftEvent) : LeftEvent := { e with row := e.row.unnumbered }

/-- The groups of the deployment have the same events but for the numbers of items. -/
theorem RowsAlike.group_eq {γ : Type} [DecidableEq γ] (h : RowsAlike dep s t)
    (group : LeftEvent → Option γ) (c : γ) (hgroup : ∀ e, group e = group e.unnumbered)
    (hdep : ∀ e, group e = some c → e.row.deploymentId = dep) :
    ((leftEvents s).filter fun e => group e = some c).map LeftEvent.unnumbered =
      ((leftEvents t).filter fun e => group e = some c).map LeftEvent.unnumbered := by
  let φ : Multiset LeftEvent →+ Multiset LeftEvent :=
    { toFun := fun m => (m.filter fun e => group e = some c).map LeftEvent.unnumbered
      map_zero' := rfl
      map_add' := fun m m' => by rw [Multiset.filter_add, Multiset.map_add] }
  show φ (tally leftOf s) = φ (tally leftOf t)
  rw [map_tally, map_tally]
  have hone : ∀ ws key at' (row : EventRow), row.pipelineStatus ≠ .accepted →
      φ (leftOf ⟨.event ws key at', row⟩) =
        if group ⟨at', row.unnumbered⟩ = some c then {⟨at', row.unnumbered⟩} else 0 := by
    intro ws key at' row hleft
    show Multiset.map _ (Multiset.filter _ (leftOf _)) = _
    have hsame : group ⟨at', row⟩ = group ⟨at', row.unnumbered⟩ := hgroup _
    rw [leftOf, if_neg hleft, Multiset.filter_singleton, hsame]
    by_cases hc : group ⟨at', row.unnumbered⟩ = some c
    · rw [if_pos hc, if_pos hc]
      rfl
    · rw [if_neg hc, if_neg hc]
      rfl
  apply h.tally_eq
  · intro ws key at' row row' hleft hleft' hsame
    rw [hone ws key at' row hleft, hone ws key at' row' hleft', hsame]
  · intro ws key at' row hdep'
    by_cases hleft : row.pipelineStatus = .accepted
    · rw [leftOf, if_pos hleft, map_zero]
    · rw [hone ws key at' row hleft, if_neg]
      intro hc
      exact hdep' (hdep _ hc)
  · intro k r hk
    rw [leftOf_ne_event hk r, map_zero]

section Rows

variable {g g' : Multiset LeftEvent} (hg : g.map LeftEvent.unnumbered = g'.map LeftEvent.unnumbered)

include hg in
theorem card_unnumbered : Multiset.card g = Multiset.card g' := by
  rw [← Multiset.card_map LeftEvent.unnumbered g, hg, Multiset.card_map]

include hg in
/-- Events that are the same but for the numbers of items count the same. -/
theorem countP_unnumbered {p q : LeftEvent → Bool} (hp : ∀ e ∈ g, p e = q e.unnumbered)
    (hp' : ∀ e ∈ g', p e = q e.unnumbered) : g.countP (fun e => p e) = g'.countP fun e => p e := by
  have hcount : ∀ m : Multiset LeftEvent, (∀ e ∈ m, p e = q e.unnumbered) →
      m.countP (fun e => p e) = (m.map LeftEvent.unnumbered).countP fun e => q e := by
    intro m hm
    rw [Multiset.countP_map, Multiset.countP_eq_card_filter]
    congr 1
    apply Multiset.filter_congr
    intro e he
    rw [hm e he]
  rw [hcount g hp, hcount g' hp', hg]

include hg in
theorem exists_unnumbered {e : LeftEvent} (he : e ∈ g) :
    ∃ e' ∈ g', e'.unnumbered = e.unnumbered := by
  have hmem : e.unnumbered ∈ g'.map LeftEvent.unnumbered := by
    rw [← hg]
    exact Multiset.mem_map_of_mem _ he
  exact Multiset.mem_map.1 hmem

include hg in
theorem statsOf_unique {row row' : IngestionStatsRow}
    (hjoined : ∀ e ∈ g, e.joined = e.row.itemRef.isSome)
    (hjoined' : ∀ e ∈ g', e.joined = e.row.itemRef.isSome) (h : StatsOf g row)
    (h' : StatsOf g' row') : row = row' := by
  have hlast : ∀ {g g' : Multiset LeftEvent} {row row' : IngestionStatsRow},
      g.map LeftEvent.unnumbered = g'.map LeftEvent.unnumbered → StatsOf g row → StatsOf g' row' →
        row.lastEventAt ≤ row'.lastEventAt := by
    intro g g' row row' hg h h'
    obtain ⟨e, he, hat⟩ := h.last_mem
    obtain ⟨e', he', hsame⟩ := exists_unnumbered hg he
    rw [← hat, show e.occurredAt = e'.occurredAt from (congrArg LeftEvent.occurredAt hsame).symm]
    exact h'.last_greatest e' he'
  have hsame : ∀ p : LeftEvent → Bool, (∀ e, p e = p e.unnumbered) →
      g.countP (fun e => p e) = g'.countP fun e => p e :=
    fun p hp => countP_unnumbered hg (fun e _ => hp e) fun e _ => hp e
  have hjoins := countP_unnumbered (p := LeftEvent.joined)
    (q := fun e => e.row.itemRef.isSome) hg hjoined hjoined'
  cases row
  cases row'
  simp only [IngestionStatsRow.mk.injEq]
  refine ⟨?_, ?_, ?_, ?_, ?_, ?_⟩
  · exact h.accepted.trans ((card_unnumbered hg).trans h'.accepted.symm)
  · exact h.identityBearing.trans ((hsame _ fun _ => rfl).trans h'.identityBearing.symm)
  · exact h.resolved.trans ((hsame _ fun _ => rfl).trans h'.resolved.symm)
  · exact h.activity.trans ((hsame _ fun _ => rfl).trans h'.activity.symm)
  · exact h.joined.trans (hjoins.trans h'.joined.symm)
  · exact le_antisymm (hlast hg h h') (hlast hg.symm h' h)

include hg in
theorem activityOf_unique {row row' : UserActivityRow} (h : ActivityOf g row)
    (h' : ActivityOf g' row') : row = row' := by
  cases row
  cases row'
  simp only [UserActivityRow.mk.injEq]
  exact h.count.trans ((card_unnumbered hg).trans h'.count.symm)

include hg in
theorem meterOf_unique {meter : MeterType} {row row' : MeterUsageRow}
    (hsteady : meter.isGauge = true → ∀ e ∈ g, ∀ e' ∈ g, e.quantity = e'.quantity)
    (h : MeterOf meter g row) (h' : MeterOf meter g' row') : row = row' := by
  cases hgauge : meter.isGauge with
  | false =>
    obtain ⟨hsum, hlast⟩ := h.counter hgauge
    obtain ⟨hsum', hlast'⟩ := h'.counter hgauge
    have hquantities : g.map LeftEvent.quantityMicros = g'.map LeftEvent.quantityMicros := by
      have hmap : ∀ m : Multiset LeftEvent, m.map LeftEvent.quantityMicros =
          (m.map LeftEvent.unnumbered).map LeftEvent.quantityMicros := by
        intro m
        rw [Multiset.map_map]
        rfl
      rw [hmap, hg, ← hmap]
    cases row
    cases row'
    simp only [MeterUsageRow.mk.injEq]
    refine ⟨Numeric.ext ?_, hlast.trans hlast'.symm⟩
    rw [hsum, hsum', hquantities]
  | true =>
    obtain ⟨hsum, e, he, hlast⟩ := h.gauge hgauge
    obtain ⟨hsum', e', he', hlast'⟩ := h'.gauge hgauge
    obtain ⟨e'', he'', hsame⟩ := exists_unnumbered hg.symm he'
    have hquantity : e''.quantity = e'.quantity := by
      show e''.unnumbered.quantity = e'.unnumbered.quantity
      rw [hsame]
    cases row
    cases row'
    simp only [MeterUsageRow.mk.injEq]
    exact ⟨hsum.trans hsum'.symm,
      hlast.trans ((hsteady hgauge e he e'' he'').trans (hquantity.trans hlast'.symm))⟩

include hg in
/-- Folds of such events are one row, if what a row says determines it. -/
theorem foldOf_unique {ρ : Type} {P : Multiset LeftEvent → ρ → Prop} {row row' : Option ρ}
    (hempty : ∀ m r, P m r → m ≠ 0) (hunique : ∀ r r', P g r → P g' r' → r = r')
    (h : FoldOf P g row) (h' : FoldOf P g' row') : row = row' := by
  have hzero : g = 0 ↔ g' = 0 := by
    rw [← Multiset.map_eq_zero (f := LeftEvent.unnumbered), hg, Multiset.map_eq_zero]
  cases row with
  | none =>
    cases row' with
    | none => rfl
    | some r' => exact absurd (hzero.1 h) (hempty _ _ h')
  | some r =>
    cases row' with
    | none => exact absurd (hzero.2 h') (hempty _ _ h)
    | some r' => rw [hunique r r' h h']

end Rows

/-- No gauge of the deployment has two readings of a day. -/
def SteadyGauges (dayOf : ℤ → ℤ) (dep : ℕ) (s : Db) : Prop :=
  ∀ c : ℕ × MeterType × PyStr × ℤ, c.1 = dep → c.2.1.isGauge = true →
    ∀ e ∈ leftEvents s, ∀ e' ∈ leftEvents s, meterGroup dayOf e = some c →
      meterGroup dayOf e' = some c → e.quantity = e'.quantity

theorem Processed.joined_eq (hs : Processed dayOf roster dep s) {e : LeftEvent}
    (he : e ∈ leftEvents s) : e.joined = e.row.itemRef.isSome := by
  obtain ⟨ws, key, hrow, hleft⟩ := mem_leftEvents.1 he
  exact (hs.references.joined ws key _ _ hrow hleft).isSome

section Tables

variable (hs : Processed dayOf roster dep s) (ht : Processed dayOf roster' dep t)
  (h : RowsAlike dep s t)

include hs ht h

theorem statsTable_alike (src : PyStr) (day : ℤ) :
    statsTable s (dep, src, day) = statsTable t (dep, src, day) := by
  have hg := h.group_eq (statsGroup dayOf) (dep, src, day) (fun _ => rfl) (by
    intro e he
    exact congrArg Prod.fst (Option.some.inj he))
  apply foldOf_unique hg (fun _ _ h => h.nonempty) _ (hs.aggregates.stats _)
    (ht.aggregates.stats _)
  intro row row' hrow hrow'
  apply statsOf_unique hg _ _ hrow hrow'
  · exact fun e he => hs.joined_eq (Multiset.mem_filter.1 he).1
  · exact fun e he => ht.joined_eq (Multiset.mem_filter.1 he).1

theorem activityTable_alike (user : ℕ) (day : ℤ) :
    activityTable s (dep, user, day) = activityTable t (dep, user, day) := by
  have hg := h.group_eq (activityGroup dayOf) (dep, user, day)
    (fun _ => rfl) (by
      intro e he
      unfold activityGroup at he
      split at he
      · split_ifs at he
        exact congrArg Prod.fst (Option.some.inj he)
      · cases he)
  apply foldOf_unique hg (fun _ _ h => h.nonempty) _ (hs.aggregates.activity _)
    (ht.aggregates.activity _)
  exact fun row row' => activityOf_unique hg

theorem meterTable_alike (hsteady : SteadyGauges dayOf dep s) (meter : MeterType)
    (meterRef : PyStr) (day : ℤ) :
    meterTable s (dep, meter, meterRef, day) = meterTable t (dep, meter, meterRef, day) := by
  have hg := h.group_eq (meterGroup dayOf) (dep, meter, meterRef, day)
    (fun _ => rfl) (by
      intro e he
      unfold meterGroup at he
      split_ifs at he
      split at he
      · exact congrArg Prod.fst (Option.some.inj he)
      · cases he)
  apply foldOf_unique hg (fun _ _ h => h.nonempty) _ (hs.aggregates.meter _)
    (ht.aggregates.meter _)
  intro row row' hrow hrow'
  apply meterOf_unique hg _ hrow hrow'
  intro hgauge e he e' he'
  obtain ⟨he, hc⟩ := Multiset.mem_filter.1 he
  obtain ⟨he', hc'⟩ := Multiset.mem_filter.1 he'
  exact hsteady _ rfl hgauge e he e' he' hc hc'

end Tables

/-! ### The same answers -/

/-- A query on the deployment's rows of `user_activity_daily`. -/
theorem tally_activity {M : Type} [AddCommMonoid M] {g : Sigma Row → M}
    (h : ∀ user day, activityTable s (dep, user, day) = activityTable t (dep, user, day))
    (hg : ∀ k r, (∀ user day, k ≠ .userActivity dep user day) → g ⟨k, r⟩ = 0) :
    tally g s = tally g t := by
  apply tally_congr_keys
  intro k
  by_cases hk : ∃ user day, k = .userActivity dep user day
  · obtain ⟨user, day, rfl⟩ := hk
    exact .inl (h user day)
  · push Not at hk
    exact .inr fun r => hg k r hk

theorem activeUserOf_eq_zero {bounds : ℤ × ℤ} {k : RowKey} (r : Row k)
    (hk : ∀ user day, k ≠ .userActivity dep user day) : activeUserOf dep bounds ⟨k, r⟩ = 0 := by
  cases k with
  | userActivity d user day =>
    apply if_neg
    rintro ⟨rfl, -⟩
    exact hk user day rfl
  | _ => rfl

theorem userEventsOf_eq_zero {today : ℤ} {user : ℕ} {k : RowKey} (r : Row k)
    (hk : ∀ user day, k ≠ .userActivity dep user day) : userEventsOf dep today user ⟨k, r⟩ = 0 := by
  cases k with
  | userActivity d user day =>
    apply if_neg
    rintro ⟨rfl, -⟩
    exact hk user day rfl
  | _ => rfl

theorem liveUsage_congr
    (h : ∀ user day, activityTable s (dep, user, day) = activityTable t (dep, user, day))
    (ls : List LicenseRow) (today : ℤ) : liveUsage s ls dep today = liveUsage t ls dep today := by
  have hdays : userDays s dep today = userDays t dep today :=
    tally_activity h fun _ r hk => activeUserOf_eq_zero r hk
  have hclass : classOf s dep today = classOf t dep today := by
    funext user
    unfold classOf
    rw [hdays, tally_activity h fun _ r hk => userEventsOf_eq_zero r hk]
  unfold liveUsage usageSplit classCount
  rw [hdays, hclass]

theorem computeSeats_congr
    (h : ∀ user day, activityTable s (dep, user, day) = activityTable t (dep, user, day))
    (rt : DecimalText) (b : Books) (ws : ℕ) (period : PyStr) :
    computeSeats rt s b ws dep period = computeSeats rt t b ws dep period := by
  have hactivated : ∀ bounds, activatedUsers s dep bounds = activatedUsers t dep bounds := by
    intro bounds
    unfold activatedUsers
    rw [tally_activity h fun _ r hk => activeUserOf_eq_zero r hk]
  unfold computeSeats
  simp only [hactivated]

theorem liveHealth_congr
    (h : ∀ src day, statsTable s (dep, src, day) = statsTable t (dep, src, day)) {F : Type}
    (fl : Floats F) (alerts : List AlertRow) :
    liveHealth fl s alerts dep = liveHealth fl t alerts dep := by
  have hrows : statRows s dep = statRows t dep := by
    apply tally_congr_keys
    intro k
    by_cases hk : ∃ src day, k = .ingestionStats dep src day
    · obtain ⟨src, day, rfl⟩ := hk
      exact .inl (h src day)
    · refine .inr fun r => ?_
      cases k with
      | ingestionStats d src day =>
        apply if_neg
        rintro rfl
        exact hk ⟨src, day, rfl⟩
      | _ => rfl
  have hsum : ∀ count, statSum s dep count = statSum t dep count := by
    intro count
    rw [statSum, hrows, statSum]
  have hlast : lastEventAt s dep = lastEventAt t dep := by
    rw [lastEventAt, hrows, lastEventAt]
  unfold liveHealth resolutionRate joinRate
  simp only [hsum, hlast]

theorem meterRows_congr
    (h : ∀ meter meterRef day,
      meterTable s (dep, meter, meterRef, day) = meterTable t (dep, meter, meterRef, day)) :
    meterRows s dep = meterRows t dep := by
  funext bounds meter
  apply tally_congr_keys
  intro k
  by_cases hk : ∃ m ref day, k = .meterUsage dep m ref day
  · obtain ⟨m, ref, day, rfl⟩ := hk
    exact .inl (h m ref day)
  · refine .inr fun r => ?_
    cases k with
    | meterUsage d m ref day =>
      apply if_neg
      rintro ⟨rfl, -, -⟩
      exact hk ⟨m, ref, day, rfl⟩
    | _ => rfl

theorem computeCost_congr (h : meterRows s dep = meterRows t dep) (plan : Planner)
    (rt : DecimalText) (b : Books) (ws : ℕ) (period : PyStr) :
    computeCost plan rt s b ws dep period = computeCost plan rt t b ws dep period := by
  unfold computeCost meterTotals
  rw [h]

theorem liveCost_congr (h : meterRows s dep = meterRows t dep) {F : Type} (plan : Planner)
    (fl : CostFloats F) (b : Books) (ws : ℕ) (period : PyStr) :
    liveCost plan fl s b ws dep period = liveCost plan fl t b ws dep period := by
  unfold liveCost liveQuantities
  rw [h]

theorem RowsAlike.computeContainment_eq (h : RowsAlike dep s t) {F : Type} (plan : Planner)
    (fl : Floats F) (b : Books) (period : PyStr) :
    computeContainment plan fl s b dep period = computeContainment plan fl t b dep period := by
  have hactions : ∀ bounds action,
      actionCount plan s dep bounds action = actionCount plan t dep bounds action := by
    intro bounds action
    apply h.sumEvents_eq
    · exact fun _ _ => rfl
    · exact fun at' row hdep => if_neg fun hc => hdep hc.1
  have hcorroborating : ∀ bounds users,
      corroboratingCount plan s dep bounds users = corroboratingCount plan t dep bounds users := by
    intro bounds users
    apply h.sumEvents_eq
    · exact fun _ _ => rfl
    · exact fun at' row hdep => if_neg fun hc => hdep hc.1
  unfold computeContainment
  simp only [hactions, hcorroborating]

/-! ### Work items by their references -/

section Items

variable (plan : Planner) (s : Db) (dep : ℕ) (bounds : ℤ × ℤ) (ws : ℕ) (ref : PyStr)

/-- The instants of one lifecycle event of the item of this reference. -/
def timesOf (event : PyStr) : Sigma Row → Multiset ℤ
  | ⟨.event ws' _ t, row⟩ =>
    if ws' = ws ∧ (row : EventRow).itemRef = some ref ∧ (row : EventRow).deploymentId = dep ∧
      (row : EventRow).eventType = .lifecycle ∧ Between bounds (plan.dayOf t) ∧
        EventRow.says row (py "event") event then {t} else 0
  | _ => 0

/-- Whether a row is an activity on the item of this reference. -/
def assistOf : Sigma Row → ℕ
  | ⟨.event ws' _ _, row⟩ =>
    if ws' = ws ∧ (row : EventRow).itemRef = some ref ∧ (row : EventRow).deploymentId = dep ∧
      (row : EventRow).eventType = .activity then 1 else 0
  | _ => 0

/-- The row of the item of this reference in the query of `compute_time_savings`. -/
def namedHandling : Multiset (Bool × ℤ) :=
  (spanOf (tally (timesOf plan dep bounds ws ref (py "created")) s)
    (tally (timesOf plan dep bounds ws ref (py "completed")) s)).elim 0
      fun span => {(decide (0 < tally (assistOf dep ws ref) s), span)}

end Items

/-- What a work item adds to the samples, by its reference. -/
def namedRowOf (plan : Planner) (s : Db) (dep : ℕ) (bounds : ℤ × ℤ) :
    Sigma Row → Multiset (Bool × ℤ)
  | ⟨.workItem ws ref, _⟩ => namedHandling plan s dep bounds ws ref
  | _ => 0

variable {plan : Planner} {bounds : ℤ × ℤ}

theorem Processed.workItemId_iff (hs : Processed dayOf roster dep s) {item : WorkItemRow}
    (hitem : s.lookup (.workItem ws ref) = some item) {ws' : ℕ}
    (hrow : s.lookup (.event ws' key at') = some row) (hdep : row.deploymentId = dep) :
    row.workItemId = some item.id ↔ ws' = ws ∧ row.itemRef = some ref := by
  rw [(hs.references.joined ws' key at' row hrow (hs.done _ _ _ _ hrow hdep)).eq_some_iff]
  constructor
  · rintro ⟨ref', href, item', hitem', hid⟩
    obtain ⟨rfl, rfl⟩ := items_unique hs.items hitem' hitem hid
    exact ⟨rfl, href⟩
  · rintro ⟨rfl, href⟩
    exact ⟨ref, href, item, hitem, rfl⟩

theorem Processed.handlingOf_eq (hs : Processed dayOf roster dep s) {item : WorkItemRow}
    (hitem : s.lookup (.workItem ws ref) = some item) :
    handlingOf plan s dep bounds item.id = namedHandling plan s dep bounds ws ref := by
  have htimes : ∀ event, lifeTimes plan s dep bounds event item.id =
      tally (timesOf plan dep bounds ws ref event) s := by
    intro event
    apply tally_congr_rows
    intro k r hrow
    cases k with
    | event ws' key at' =>
      dsimp only [ofEvent, timesOf]
      by_cases hdep : (r : EventRow).deploymentId = dep
      · have hiff := hs.workItemId_iff hitem hrow hdep
        apply if_congr _ rfl rfl
        rw [hiff, and_assoc]
      · rw [if_neg fun hc => hdep hc.2.1, if_neg fun hc => hdep hc.2.2.1]
    | _ => rfl
  have hassists : assistCount s dep item.id = tally (assistOf dep ws ref) s := by
    apply tally_congr_rows
    intro k r hrow
    cases k with
    | event ws' key at' =>
      dsimp only [ofEvent, assistOf]
      by_cases hdep : (r : EventRow).deploymentId = dep
      · have hiff := hs.workItemId_iff hitem hrow hdep
        apply if_congr _ rfl rfl
        rw [hiff]
        tauto
      · rw [if_neg fun hc => hdep hc.1, if_neg fun hc => hdep hc.2.2.1]
    | _ => rfl
  unfold handlingOf namedHandling
  rw [htimes, htimes, hassists]
  generalize spanOf _ _ = span
  cases span with
  | none => rfl
  | some span => rfl

theorem RowsAlike.namedHandling_eq (h : RowsAlike dep s t) :
    namedHandling plan s dep bounds ws ref = namedHandling plan t dep bounds ws ref := by
  have htimes : ∀ event, tally (timesOf plan dep bounds ws ref event) s =
      tally (timesOf plan dep bounds ws ref event) t := by
    intro event
    apply h.tally_eq
    · intro ws' key at' row row' _ _ hsame
      show timesOf plan dep bounds ws ref event ⟨.event ws' key at', row.unnumbered⟩ =
        timesOf plan dep bounds ws ref event ⟨.event ws' key at', row'.unnumbered⟩
      rw [hsame]
    · exact fun ws' key at' row hdep => if_neg fun hc => hdep hc.2.2.1
    · intro k r hk
      cases k with
      | event ws' key at' => exact absurd rfl (hk ws' key at')
      | _ => rfl
  have hassists : tally (assistOf dep ws ref) s = tally (assistOf dep ws ref) t := by
    apply h.tally_eq
    · intro ws' key at' row row' _ _ hsame
      show assistOf dep ws ref ⟨.event ws' key at', row.unnumbered⟩ =
        assistOf dep ws ref ⟨.event ws' key at', row'.unnumbered⟩
      rw [hsame]
    · exact fun ws' key at' row hdep => if_neg fun hc => hdep hc.2.2.1
    · intro k r hk
      cases k with
      | event ws' key at' => exact absurd rfl (hk ws' key at')
      | _ => rfl
  unfold namedHandling
  rw [htimes, htimes, hassists]

/-- A reference without an item is named by no event of the deployment. -/
theorem Processed.namedHandling_eq_zero (hs : Processed dayOf roster dep s)
    (hnone : s.lookup (.workItem ws ref) = none) :
    namedHandling plan s dep bounds ws ref = 0 := by
  have hempty : tally (timesOf plan dep bounds ws ref (py "created")) s = 0 := by
    apply Multiset.eq_zero_of_forall_notMem
    intro at' hat
    obtain ⟨k, r, hrow, hat⟩ := mem_tally.1 hat
    cases k with
    | event ws' key at'' =>
      rw [timesOf] at hat
      split_ifs at hat with hnames
      · obtain ⟨rfl, href, hdep, -⟩ := hnames
        have hjoined := hs.references.joined _ key at'' r hrow (hs.done _ _ _ _ hrow hdep)
        unfold JoinedAs at hjoined
        simp only [href] at hjoined
        obtain ⟨item, hitem, -⟩ := hjoined
        cases hnone.symm.trans hitem
      · cases hat
    | _ => cases hat
  unfold namedHandling
  rw [hempty]
  rfl

theorem handlingRows_alike (hs : Processed dayOf roster dep s) (ht : Processed dayOf roster' dep t)
    (h : RowsAlike dep s t) : handlingRows plan s dep bounds = handlingRows plan t dep bounds := by
  have hitems : tally (handlingRowOf plan s dep bounds) s =
      tally (namedRowOf plan t dep bounds) s := by
    apply tally_congr_rows
    intro k r hrow
    cases k with
    | workItem ws ref => exact (hs.handlingOf_eq hrow).trans h.namedHandling_eq
    | _ => rfl
  have hitems' : tally (handlingRowOf plan t dep bounds) t =
      tally (namedRowOf plan t dep bounds) t := by
    apply tally_congr_rows
    intro k r hrow
    cases k with
    | workItem ws ref => exact ht.handlingOf_eq hrow
    | _ => rfl
  have hnamed : tally (namedRowOf plan t dep bounds) s =
      tally (namedRowOf plan t dep bounds) t := by
    apply tally_congr
    intro k
    cases k with
    | workItem ws ref =>
      cases hrow : s.lookup (.workItem ws ref) with
      | none =>
        have hzero : namedHandling plan t dep bounds ws ref = 0 :=
          h.namedHandling_eq.symm.trans (hs.namedHandling_eq_zero hrow)
        cases t.lookup (.workItem ws ref) with
        | none => rfl
        | some item => exact hzero.symm
      | some item =>
        cases hrow' : t.lookup (.workItem ws ref) with
        | none => exact ht.namedHandling_eq_zero hrow'
        | some item' => rfl
    | _ =>
      have helim : ∀ {ρ : Type} (o : Option ρ),
          (o.elim 0 fun _ => 0 : Multiset (Bool × ℤ)) = 0 := by
        intro ρ o
        cases o <;> rfl
      exact (helim _).trans (helim _).symm
  unfold handlingRows
  rw [hitems, hnamed, hitems']

theorem computeTimeSavings_congr
    (h : ∀ plan bounds, handlingRows plan s dep bounds = handlingRows plan t dep bounds) {F : Type}
    (plan : Planner) (fl : Floats F) (b : Books) (ws : ℕ) (period : PyStr) :
    computeTimeSavings plan fl s b ws dep period =
      computeTimeSavings plan fl t b ws dep period := by
  unfold computeTimeSavings
  simp only [h]

/-! ### Any two runs -/

/-- What the engine and the live endpoints make of a deployment is the same in both, whatever the
parameters, the licenses and the floats; the costs, where no gauge has two readings of a day. -/
structure MeasuredAlike (dayOf : ℤ → ℤ) (dep : ℕ) (s t : Db) : Prop where
  usage : ∀ ls today, liveUsage s ls dep today = liveUsage t ls dep today
  health : ∀ {F : Type} (fl : Floats F) alerts,
    liveHealth fl s alerts dep = liveHealth fl t alerts dep
  seats : ∀ rt b ws period, computeSeats rt s b ws dep period = computeSeats rt t b ws dep period
  containment : ∀ {F : Type} plan (fl : Floats F) b period,
    computeContainment plan fl s b dep period = computeContainment plan fl t b dep period
  timeSavings : ∀ {F : Type} plan (fl : Floats F) b ws period,
    computeTimeSavings plan fl s b ws dep period = computeTimeSavings plan fl t b ws dep period
  cost : SteadyGauges dayOf dep s → ∀ plan rt b ws period,
    computeCost plan rt s b ws dep period = computeCost plan rt t b ws dep period
  liveCost : SteadyGauges dayOf dep s → ∀ {F : Type} plan (fl : CostFloats F) b ws period,
    liveCost plan fl s b ws dep period = liveCost plan fl t b ws dep period

/-- No event of the deployment waits for the pipeline. -/
def NoneWaits (dep : ℕ) (s : Db) : Prop :=
  ∀ ws key t (row : EventRow), s.lookup (.event ws key t) = some row → row.deploymentId = dep →
    row.pipelineStatus ≠ .accepted

/-- Nothing is processed yet, and requests, imports and workers rest. -/
structure Starts {ι : Type} (dayOf : ℤ → ℤ) (v : World ι Row Failure Reply Outcome) : Prop where
  unprocessed : Unprocessed v.committed
  numbered : RowsNumbered v
  parties : ∀ i, ∃ p : Process, v.stations i = .resting p ∧ MeasuringParty dayOf p

theorem RowsNumbered.rosterKeys {ι : Type} {v : World ι Row Failure Reply Outcome}
    (h : RowsNumbered v) : RosterKeys v.committed :=
  ⟨fun _ _ _ _ _ _ hu hu' => users_unique h.users hu hu', h.references.owners⟩

section Runs

variable {ι : Type} [DecidableEq ι] {v v' : World ι Row Failure Reply Outcome}

theorem Starts.processed (h : Starts dayOf v) (hreach : Reachable (fun _ => True) v v')
    (hdone : NoneWaits dep v'.committed) :
    Processed dayOf v.committed dep v'.committed := by
  obtain ⟨hreferences, -, hitems⟩ := references_of_reachable h.numbered (by
    intro i
    obtain ⟨p, hp, hparty⟩ := h.parties i
    exact ⟨p, hp, Proc.All.mono (fun _ hbody => hbody.tenant) hparty.bodies⟩) hreach
  refine ⟨attributed_reachable h.unprocessed (.refl _) h.parties hreach, h.numbered.rosterKeys,
    hreferences, hitems, ?_, hdone⟩
  apply aggregates_reachable h.unprocessed _ hreach
  intro i
  obtain ⟨p, hp, hparty⟩ := h.parties i
  exact ⟨p, hp, hparty.aggregates⟩

end Runs

/-! ### One deployment, alone and beside another -/

theorem submittedTo_eq_none (hrow : s.lookup (.event ws key at') = some row)
    (hdep : row.deploymentId ≠ dep) : submittedTo s dep ws key at' = none := by
  unfold submittedTo
  rw [hrow, Option.filter_some, if_neg (by simpa using hdep)]
  rfl

theorem submittedTo_of_lookup (h : s.lookup (.event ws key at') = t.lookup (.event ws key at')) :
    submittedTo s dep ws key at' = submittedTo t dep ws key at' := by
  unfold submittedTo
  rw [h]

theorem processNext_preserves_submitted (conn : Connection) (s₀ : Db) :
    Preserves (fun s => ∀ ws key at', submittedTo s dep ws key at' = submittedTo s₀ dep ws key at')
      (processNext conn) := by
  intro log a s h hlog hok ws key at'
  rcases runs_processNext h with rfl | ⟨ev, u, x, w, hevent⟩
  · exact hok ws key at'
  have heffect := hevent.effect hlog
  rw [← hok]
  by_cases hkey : RowKey.event ws key at' = ev.rowKey
  · obtain ⟨rfl, rfl, rfl⟩ := RowKey.event.inj hkey
    by_cases hdep : ev.row.deploymentId = dep
    · exact (submittedTo_eq_some heffect.settled hdep).trans
        (submittedTo_eq_some heffect.stored hdep).symm
    · exact (submittedTo_eq_none heffect.settled hdep).trans
        (submittedTo_eq_none heffect.stored hdep).symm
  · exact submittedTo_of_lookup
      (heffect.others _ hkey (by simp) (by simp) (by simp) (by simp))

theorem submitted_reachable {ι : Type} [DecidableEq ι] {v v' : World ι Row Failure Reply Outcome}
    (hworkers : ∀ i, ∃ conn limit, v.stations i = .resting (runPipeline conn limit))
    (hreach : Reachable (fun _ => True) v v') (ws : ℕ) (key : PyStr) (at' : ℤ) :
    submittedTo v'.committed dep ws key at' = submittedTo v.committed dep ws key at' := by
  have hidle : v.Idle (Preserves fun s => ∀ ws key at',
      submittedTo s dep ws key at' = submittedTo v.committed dep ws key at') := by
    intro i
    obtain ⟨conn, limit, hi⟩ := hworkers i
    exact ⟨_, hi, runPipelineFrom_all (processNext_preserves_submitted conn _) limit _⟩
  exact committed_invariant (I := fun s => ∀ ws key at',
    submittedTo s dep ws key at' = submittedTo v.committed dep ws key at')
    (fun _ _ _ => rfl) hidle hreach ws key at'

/-- Ann goes by `u1`, as an address and as a badge; the identifiers stand in this order. -/
def annRoster (first second : PyStr) : Db :=
  (((∅ : Db).insert (.user 1 (py "ann")) (storedUser 1)).insert
    (.userIdentifier 1 first (py "u1")) ⟨1⟩).insert (.userIdentifier 1 second (py "u1")) ⟨1⟩

def twoEvents (s : Db) : Db :=
  (s.insert (.event 1 (py "k1") 5) waitingEvent).insert (.event 1 (py "k2") 6) waitingEvent

def otherEvent : EventRow := { waitingEvent with deploymentId := 2 }

def ownEvents : Db := twoEvents (annRoster (py "email") (py "badge"))

/-- The identifiers stand the other way round, and an event of another workspace waits in front. -/
def besideEvents : Db :=
  (twoEvents (annRoster (py "badge") (py "email"))).insert (.event 2 (py "k3") 4) otherEvent

/-- A session whose `LIMIT 1` returns the last row. -/
def lastRow : Connection := { utcConnection with limitOne := List.getLast? }

def workerOver (conn : Connection) (s : Db) : World Unit Row Failure Reply Outcome where
  committed := s
  sequence := 7
  stations := fun _ => .resting (runPipeline conn 5)

theorem utcConnection_reads : utcConnection.Reads utcConnection.dayOf :=
  ⟨rfl, utcConnection_picksRow, fun _ h => List.head?_eq_none_iff.1 h⟩

theorem lastRow_reads : lastRow.Reads utcConnection.dayOf :=
  ⟨rfl, fun _ _ h => List.mem_of_getLast? h, fun _ h => List.getLast?_eq_none_iff.1 h⟩

/-- Nothing is there yet but Ann and events that wait. -/
structure AnnWaits (s : Db) : Prop where
  events : ∀ ws key t (row : EventRow), s.lookup (.event ws key t) = some row →
    row.pipelineStatus = .accepted ∧ row.resolvedUserId = none ∧ row.workItemId = none
  others : ∀ k, (∀ ws key t, k ≠ .event ws key t) →
    s.lookup k = (annRoster (py "email") (py "badge")).lookup k

theorem lookup_annRoster (k : RowKey) : (annRoster (py "badge") (py "email")).lookup k =
    (annRoster (py "email") (py "badge")).lookup k :=
  AList.perm_lookup (AList.insert_insert_of_ne _ (by simp [RowKey.userIdentifier.injEq]; decide))

theorem lookup_annRoster_none {k : RowKey} {first second : PyStr} (huser : k ≠ .user 1 (py "ann"))
    (hidentifier : ∀ ns, k ≠ .userIdentifier 1 ns (py "u1")) :
    (annRoster first second).lookup k = none := by
  unfold annRoster
  rw [AList.lookup_insert_ne (hidentifier _), AList.lookup_insert_ne (hidentifier _),
    AList.lookup_insert_ne huser]
  rfl

theorem user_annRoster {first second : PyStr} {ref : PyStr} {u : UserRow}
    (h : (annRoster first second).lookup (.user ws ref) = some u) :
    ws = 1 ∧ ref = py "ann" ∧ u = storedUser 1 := by
  unfold annRoster at h
  rw [AList.lookup_insert_ne (by simp), AList.lookup_insert_ne (by simp)] at h
  by_cases hk : RowKey.user ws ref = .user 1 (py "ann")
  · obtain ⟨rfl, rfl⟩ := RowKey.user.inj hk
    exact ⟨rfl, rfl, (Option.some.inj ((AList.lookup_insert _).symm.trans h)).symm⟩
  · rw [AList.lookup_insert_ne hk] at h
    cases h

theorem identifier_annRoster {first second : PyStr} {ns value : PyStr} {row : UserIdentifierRow}
    (h : (annRoster first second).lookup (.userIdentifier ws ns value) = some row) :
    ws = 1 ∧ row = ⟨1⟩ := by
  unfold annRoster at h
  by_cases hk : RowKey.userIdentifier ws ns value = .userIdentifier 1 second (py "u1")
  · obtain ⟨rfl, rfl, rfl⟩ := RowKey.userIdentifier.inj hk
    exact ⟨rfl, (Option.some.inj ((AList.lookup_insert _).symm.trans h)).symm⟩
  · rw [AList.lookup_insert_ne hk] at h
    by_cases hk : RowKey.userIdentifier ws ns value = .userIdentifier 1 first (py "u1")
    · obtain ⟨rfl, rfl, rfl⟩ := RowKey.userIdentifier.inj hk
      exact ⟨rfl, (Option.some.inj ((AList.lookup_insert _).symm.trans h)).symm⟩
    · rw [AList.lookup_insert_ne hk, AList.lookup_insert_ne (by simp)] at h
      cases h

theorem annWaits_annRoster (first second : PyStr)
    (h : ∀ k, (annRoster first second).lookup k =
      (annRoster (py "email") (py "badge")).lookup k) : AnnWaits (annRoster first second) :=
  ⟨fun ws key t row hrow => (by
    cases (lookup_annRoster_none (by simp) (by simp)).symm.trans hrow), fun k _ => h k⟩

theorem AnnWaits.insert {key : PyStr} {at' : ℤ} {row : EventRow} (h : AnnWaits s)
    (hrow : row.pipelineStatus = .accepted ∧ row.resolvedUserId = none ∧ row.workItemId = none) :
    AnnWaits (s.insert (.event ws key at') row) := by
  refine ⟨fun ws' key' t r hr => ?_, fun k hk => ?_⟩
  · by_cases hk : RowKey.event ws' key' t = .event ws key at'
    · obtain ⟨rfl, rfl, rfl⟩ := RowKey.event.inj hk
      obtain rfl := Option.some.inj ((AList.lookup_insert s).symm.trans hr)
      exact hrow
    · rw [AList.lookup_insert_ne hk] at hr
      exact h.events ws' key' t r hr
  · rw [AList.lookup_insert_ne (hk _ _ _)]
    exact h.others k hk

theorem AnnWaits.rowsNumbered {conn : Connection} (h : AnnWaits s) :
    RowsNumbered (workerOver conn s) := by
  have huser : ∀ {ws ref} {u : UserRow}, s.lookup (.user ws ref) = some u →
      ws = 1 ∧ ref = py "ann" ∧ u = storedUser 1 := by
    intro ws ref u hu
    rw [h.others _ (by simp)] at hu
    exact user_annRoster hu
  have husers : ∀ k n, numberAt userNumber k (s.lookup k) = some n →
      k = .user 1 (py "ann") ∧ n = 1 := by
    intro k n hn
    obtain ⟨r, hr, hid⟩ := Option.bind_eq_some_iff.1 hn
    cases k with
    | user ws ref =>
      obtain ⟨rfl, rfl, rfl⟩ := huser hr
      exact ⟨rfl, (Option.some.inj hid).symm⟩
    | _ => cases hid
  have hitems : ∀ k n, numberAt itemNumber k (s.lookup k) ≠ some n := by
    intro k n hn
    obtain ⟨r, hr, hid⟩ := Option.bind_eq_some_iff.1 hn
    cases k with
    | workItem ws ref =>
      rw [h.others _ (by simp), lookup_annRoster_none (by simp) (by simp)] at hr
      cases hr
    | _ => cases hid
  have hann : s.lookup (.user 1 (py "ann")) = some (storedUser 1) := by
    rw [h.others _ (by simp), annRoster, AList.lookup_insert_ne (by simp),
      AList.lookup_insert_ne (by simp), AList.lookup_insert]
  refine ⟨⟨?_, ?_, ?_, ?_⟩, ?_, ?_, ?_, ?_⟩
  · intro ws key t row hrow id hid
    rw [(h.events ws key t row hrow).2.1] at hid
    cases hid
  · exact fun ws key t row hrow _ => (h.events ws key t row hrow).2.2
  · exact fun ws key t row hrow hleft => absurd (h.events ws key t row hrow).1 hleft
  · intro ws ns value row hrow
    have hrow' := h.others (.userIdentifier ws ns value) (by simp)
    obtain ⟨rfl, rfl⟩ := identifier_annRoster (hrow'.symm.trans hrow)
    exact ⟨py "ann", storedUser 1, hann, rfl⟩
  · intro k k' n hk hk'
    rw [(husers k n hk).1, (husers k' n hk').1]
  · exact fun k k' n hk _ => absurd hk (hitems k n)
  · rintro n ⟨k, hk⟩
    rw [(husers k n hk).2]
    exact (by decide : 1 < 7)
  · rintro n ⟨k, hk⟩
    exact absurd hk (hitems k n)

theorem AnnWaits.starts {conn : Connection} (h : AnnWaits s)
    (hreads : conn.Reads utcConnection.dayOf) :
    Starts utcConnection.dayOf (workerOver conn s) := by
  have hnone : ∀ k : RowKey, k.isRoster = false → (∀ ws key t, k ≠ .event ws key t) →
      s.lookup k = none := by
    intro k hk hevent
    rw [h.others k hevent]
    apply lookup_annRoster_none
    · rintro rfl
      cases hk
    · rintro ns rfl
      cases hk
  refine ⟨⟨fun ws key t row hrow => (h.events ws key t row hrow).1, fun c => ?_, fun c => ?_,
    fun c => ?_⟩, h.rowsNumbered, fun _ => ⟨_, rfl, .worker hreads 5⟩⟩
  · exact hnone _ rfl (by simp)
  · exact hnone _ rfl (by simp)
  · exact hnone _ rfl (by simp)

theorem annWaits_own : AnnWaits ownEvents :=
  ((annWaits_annRoster _ _ fun _ => rfl).insert ⟨rfl, rfl, rfl⟩).insert ⟨rfl, rfl, rfl⟩

theorem annWaits_beside : AnnWaits besideEvents :=
  (((annWaits_annRoster _ _ lookup_annRoster).insert ⟨rfl, rfl, rfl⟩).insert
    ⟨rfl, rfl, rfl⟩).insert ⟨rfl, rfl, rfl⟩

theorem rosterAlike_beside : RosterAlike ownEvents besideEvents := by
  intro k hk
  have hevent : ∀ ws key t, k ≠ .event ws key t := by
    rintro ws key t rfl
    cases hk
  rw [annWaits_own.others k hevent, annWaits_beside.others k hevent]

theorem unambiguous_own {t : Db} : Unambiguous utcConnection.dayOf ownEvents 1 t := by
  intro ws key at' row _ value _ _ _ ns ns' r r' hr hr' hdiffer
  rw [annWaits_own.others _ (by simp)] at hr hr'
  rw [(identifier_annRoster hr).2, (identifier_annRoster hr').2] at hdiffer
  exact absurd rfl hdiffer

theorem lookup_insert_congr {k j : RowKey} {r : Row j} (h : s.lookup k = t.lookup k) :
    (s.insert j r).lookup k = (t.insert j r).lookup k := by
  by_cases hk : k = j
  · subst hk
    rw [AList.lookup_insert, AList.lookup_insert]
  · rw [AList.lookup_insert_ne hk, AList.lookup_insert_ne hk, h]

/-- The other workspace's event has submitted nothing to deployment 1. -/
theorem submittedTo_beside :
    submittedTo besideEvents 1 ws key at' = submittedTo ownEvents 1 ws key at' := by
  have htwo : ∀ k, (twoEvents (annRoster (py "badge") (py "email"))).lookup k =
      ownEvents.lookup k :=
    fun k => lookup_insert_congr (lookup_insert_congr (lookup_annRoster k))
  by_cases hk : RowKey.event ws key at' = .event 2 (py "k3") 4
  · obtain ⟨rfl, rfl, rfl⟩ := RowKey.event.inj hk
    have hnone : ownEvents.lookup (.event 2 (py "k3") 4) = none := by
      rw [ownEvents, twoEvents, AList.lookup_insert_ne (by simp), AList.lookup_insert_ne (by simp)]
      exact lookup_annRoster_none (by simp) (by simp)
    have hother : besideEvents.lookup (.event 2 (py "k3") 4) = some otherEvent :=
      AList.lookup_insert _
    rw [submittedTo_eq_none hother (by decide), submittedTo, hnone]
    rfl
  · exact submittedTo_of_lookup ((AList.lookup_insert_ne hk).trans (htwo _))

theorem noneWaits_of_drained (h : Drained s) : NoneWaits dep s :=
  fun ws key t row hrow _ => h ws key t row hrow

end TrueFigure.Server
