import TrueFigure.Server.RosterWindows
import TrueFigure.Server.SeatPricing

/-!
# The classes of the active users

`live_usage` counts the users of a trailing window, sorts them by their days and events, and
withholds the sort of a small cohort. The counts are those of the activities the pipeline has
counted; the classes only rise with more of them; a withheld answer tells the number of users and
nothing else of them.
-/
namespace TrueFigure.Server

open TrueFigure.Library TrueFigure.Python

/-! ### The active users -/

section Users

variable (dayOf : ℤ → ℤ) (s : Db) (deploymentId : ℕ) (today : ℤ)

/-- The user whose activity in the window an event is, if it is one. -/
def windowUser (e : LeftEvent) : Option ℕ :=
  match activityGroup dayOf e with
  | some (d, user, day) =>
    if d = deploymentId ∧ Between (usageWindow today) day then some user else none
  | none => none

def windowUsers : Finset ℕ :=
  ((leftEvents s).filterMap (windowUser dayOf deploymentId today)).toFinset

end Users

variable {dayOf : ℤ → ℤ} {s t : Db} {dep : ℕ} {today : ℤ}

theorem windowUser_eq_some {e : LeftEvent} {user : ℕ} : windowUser dayOf dep today e = some user ↔
    ∃ day, activityGroup dayOf e = some (dep, user, day) ∧ Between (usageWindow today) day := by
  unfold windowUser
  split
  next d u day hgroup =>
    rw [hgroup]
    constructor
    · intro h
      split_ifs at h with hwindow
      cases h
      exact ⟨day, by rw [hwindow.1], hwindow.2⟩
    · rintro ⟨day', heq, hday⟩
      cases heq
      exact if_pos ⟨rfl, hday⟩
  next hgroup => simp [hgroup]

theorem activityTable_isSome_iff (hok : ActivityOk dayOf (leftEvents s) s) {c : ℕ × ℕ × ℤ} :
    (∃ row, activityTable s c = some row) ↔ ∃ e ∈ leftEvents s, activityGroup dayOf e = some c := by
  have hgroup := hok c
  cases hrow : activityTable s c with
  | none =>
    rw [hrow] at hgroup
    have hempty : (leftEvents s).filter (fun e => activityGroup dayOf e = some c) = 0 := hgroup
    rw [Multiset.filter_eq_nil] at hempty
    constructor
    · rintro ⟨row, hsome⟩
      cases hsome
    · rintro ⟨e, he, hc⟩
      exact absurd hc (hempty e he)
  | some row =>
    rw [hrow] at hgroup
    have hrowOf : ActivityOf ((leftEvents s).filter fun e => activityGroup dayOf e = some c) row :=
      hgroup
    obtain ⟨e, he⟩ := Multiset.exists_mem_of_ne_zero hrowOf.nonempty
    exact ⟨fun _ => ⟨e, Multiset.mem_filter.1 he⟩, fun _ => ⟨row, rfl⟩⟩

theorem mem_userDays {user : ℕ} : user ∈ userDays s dep today ↔
    ∃ day, (∃ row, activityTable s (dep, user, day) = some row) ∧
      Between (usageWindow today) day := by
  rw [userDays, mem_tally]
  constructor
  · rintro ⟨k, row, hrow, huser⟩
    cases k with
    | userActivity d u day =>
      rw [activeUserOf] at huser
      split_ifs at huser with hday
      · obtain rfl := Multiset.mem_singleton.1 huser
        obtain ⟨rfl, hday⟩ := hday
        exact ⟨day, ⟨row, hrow⟩, hday⟩
      · cases huser
    | _ => cases huser
  · rintro ⟨day, ⟨row, hrow⟩, hday⟩
    refine ⟨.userActivity dep user day, row, hrow, ?_⟩
    rw [activeUserOf, if_pos ⟨rfl, hday⟩]
    exact Multiset.mem_singleton_self user

theorem toFinset_userDays (hok : ActivityOk dayOf (leftEvents s) s) :
    (userDays s dep today).toFinset = windowUsers dayOf s dep today := by
  ext user
  rw [Multiset.mem_toFinset, mem_userDays, windowUsers, Multiset.mem_toFinset,
    Multiset.mem_filterMap]
  simp only [activityTable_isSome_iff hok, windowUser_eq_some]
  constructor
  · rintro ⟨day, ⟨e, he, hgroup⟩, hday⟩
    exact ⟨e, he, day, hgroup, hday⟩
  · rintro ⟨e, he, day, hgroup, hday⟩
    exact ⟨day, ⟨e, he, hgroup⟩, hday⟩

/-! ### The answer -/

theorem liveUsage_activated (ls : List LicenseRow) :
    (liveUsage s ls dep today).seats.activated = (userDays s dep today).toFinset.card := by
  unfold liveUsage
  dsimp only
  split_ifs
  · rfl
  · split
    · rfl
    · rfl

theorem liveUsage_split {ls : List LicenseRow} {split : UsageSplit}
    (h : (liveUsage s ls dep today).seats.split = some split) :
    split = usageSplit s dep today := by
  unfold liveUsage at h
  dsimp only at h
  split_ifs at h
  split at h
  · exact (Option.some.inj h).symm
  · exact (Option.some.inj h).symm

/-- Every user of the window is in one class. -/
theorem usageSplit_sum : (usageSplit s dep today).nearZero + (usageSplit s dep today).moderate +
    (usageSplit s dep today).heavy = (userDays s dep today).toFinset.card := by
  have hone : ∀ u, (if classOf s dep today u = .nearZero then 1 else 0) +
      (if classOf s dep today u = .moderate then 1 else 0) +
        (if classOf s dep today u = .heavy then 1 else 0) = 1 := by
    intro u
    cases classOf s dep today u with
    | nearZero => rfl
    | moderate => rfl
    | heavy => rfl
  simp only [usageSplit, classCount, Finset.card_filter]
  rw [← Finset.sum_add_distrib, ← Finset.sum_add_distrib, Finset.sum_congr rfl fun u _ => hone u,
    Finset.card_eq_sum_ones]

def currentLicense (ls : List LicenseRow) (deploymentId : ℕ) : Option LicenseRow :=
  ls.find? fun l => l.deploymentId = deploymentId ∧ l.validTo = none

/-- A cohort below five shows its size and the license. -/
theorem liveUsage_floored {ls ls' : List LicenseRow} {today' : ℤ}
    (hsize : (userDays t dep today').toFinset.card = (userDays s dep today).toFinset.card)
    (hsmall : 0 < (userDays s dep today).toFinset.card ∧ (userDays s dep today).toFinset.card < 5)
    (hlicense : currentLicense ls' dep = currentLicense ls dep) :
    liveUsage t ls' dep today' = liveUsage s ls dep today := by
  unfold currentLicense at hlicense
  unfold liveUsage
  simp only [hsize, hlicense, if_pos hsmall]

/-! ### More activity -/

/-- Near zero, then moderate, then heavy. -/
def UsageClass.rank : UsageClass → ℕ
  | .nearZero => 0
  | .moderate => 1
  | .heavy => 2

theorem usageClass_mono {days days' events events' : ℕ} (hdays : days ≤ days')
    (hevents : events ≤ events') :
    (usageClass days events).rank ≤ (usageClass days' events').rank := by
  unfold usageClass
  split_ifs with hlow hlow' hheavy' hheavy hlow' hheavy' hlow' hheavy'
  all_goals
    simp only [UsageClass.rank]
    omega

/-- Every row of `user_activity_daily` counts at least the events it counted. -/
def ActivityGrows (s t : Db) : Prop :=
  ∀ c row, activityTable s c = some row →
    ∃ row', activityTable t c = some row' ∧ row.eventCount ≤ row'.eventCount

theorem activityGrows_of_le (hs : ActivityOk dayOf (leftEvents s) s)
    (ht : ActivityOk dayOf (leftEvents t) t) (h : leftEvents s ≤ leftEvents t) :
    ActivityGrows s t := by
  intro c row hrow
  have hbefore := hs c
  rw [hrow] at hbefore
  have hrowOf : ActivityOf ((leftEvents s).filter fun e => activityGroup dayOf e = some c) row :=
    hbefore
  have hfilter := Multiset.filter_le_filter (fun e => activityGroup dayOf e = some c) h
  obtain ⟨e, he, hgroup⟩ := (activityTable_isSome_iff hs).1 ⟨row, hrow⟩
  obtain ⟨row', hrow'⟩ := (activityTable_isSome_iff ht).2 ⟨e, Multiset.mem_of_le h he, hgroup⟩
  have hafter := ht c
  rw [hrow'] at hafter
  have hrowOf' : ActivityOf ((leftEvents t).filter fun e => activityGroup dayOf e = some c) row' :=
    hafter
  refine ⟨row', hrow', ?_⟩
  rw [hrowOf.count, hrowOf'.count]
  exact Multiset.card_le_card hfilter

theorem ActivityGrows.days (h : ActivityGrows s t) (user : ℕ) :
    (userDays s dep today).count user ≤ (userDays t dep today).count user := by
  have hcount : ∀ s : Db, (userDays s dep today).count user =
      tally (fun x => (activeUserOf dep (usageWindow today) x).count user) s :=
    fun s => map_tally (Multiset.countAddMonoidHom user) _ s
  rw [hcount, hcount]
  apply tally_le
  intro k row hrow
  cases k with
  | userActivity d u day =>
    obtain ⟨row', hrow', -⟩ := h (d, u, day) row hrow
    have hlookup : t.lookup (.userActivity d u day) = some row' := hrow'
    rw [hlookup]
    exact le_rfl
  | _ => exact Nat.zero_le _

theorem ActivityGrows.events (h : ActivityGrows s t) (user : ℕ) :
    tally (userEventsOf dep today user) s ≤ tally (userEventsOf dep today user) t := by
  apply tally_le
  intro k row hrow
  cases k with
  | userActivity d u day =>
    obtain ⟨row', hrow', hle⟩ := h (d, u, day) row hrow
    have hlookup : t.lookup (.userActivity d u day) = some row' := hrow'
    rw [hlookup, Option.elim_some, userEventsOf, userEventsOf]
    split_ifs
    · exact hle
    · exact le_rfl
  | _ => exact Nat.zero_le _

theorem ActivityGrows.classOf (h : ActivityGrows s t) (user : ℕ) :
    (classOf s dep today user).rank ≤ (classOf t dep today user).rank :=
  usageClass_mono (h.days user) (h.events user)

/-! ### Every run -/

variable {base : Multiset LeftEvent}

theorem processNext_preserves_left {conn : Connection} :
    Preserves (fun s => base ≤ leftEvents s) (processNext conn) := by
  intro log a s h hlog hle
  rcases runs_processNext h with rfl | ⟨ev, u, x, w, hevent⟩
  · exact hle
  · rw [(hevent.effect hlog).left]
    exact hle.trans (Multiset.le_cons_self _ _)

theorem arrives_preserves_left {body : Transaction} (h : Arrives body) :
    Preserves (fun s => base ≤ leftEvents s) body := by
  intro log a s hruns hlog hle
  rw [(arrives_same h hruns hlog).1]
  exact hle

/-- What `live_usage` says of a deployment at `s`, and later at `t`. -/
structure SeatsClassified (dayOf : ℤ → ℤ) (s t : Db) (ls : List LicenseRow) (dep : ℕ)
    (today : ℤ) : Prop where
  activated : (liveUsage s ls dep today).seats.activated = (windowUsers dayOf s dep today).card
  split : ∀ split, (liveUsage s ls dep today).seats.split = some split →
    split.nearZero + split.moderate + split.heavy = (liveUsage s ls dep today).seats.activated
  rises : ∀ user, (classOf s dep today user).rank ≤ (classOf t dep today user).rank
  floored : ∀ (s' : Db) (ls' : List LicenseRow) (today' : ℤ),
    (liveUsage s' ls' dep today').seats.activated = (liveUsage s ls dep today).seats.activated →
    0 < (liveUsage s ls dep today).seats.activated →
    (liveUsage s ls dep today).seats.activated < 5 →
    currentLicense ls' dep = currentLicense ls dep →
    liveUsage s' ls' dep today' = liveUsage s ls dep today

/-- Any number of workers among any arrivals: at every moment the answer counts the users of the
window, splits all of them, shows nothing else of a small cohort, and no user is in a lower class
at any later moment. -/
theorem seats_classified {ι : Type} [DecidableEq ι] {w w' w'' : World ι Row Failure Reply Outcome}
    (hstart : Unprocessed w.committed)
    (hparties : ∀ i, ∃ p : Process, w.stations i = .resting p ∧
      ((∃ conn limit, conn.dayOf = dayOf ∧ p = runPipeline conn limit) ∨ p.All Arrives))
    (hreach : Reachable (fun _ => True) w w') (hlater : Reachable (fun _ => True) w' w'')
    (ls : List LicenseRow) (dep : ℕ) (today : ℤ) :
    SeatsClassified dayOf w'.committed w''.committed ls dep today := by
  have hok := aggregates_reachable hstart hparties hreach
  have hok' := aggregates_reachable hstart hparties (hreach.trans hlater)
  have hidle : w.Idle fun body => Arrives body ∨ ∃ conn, body = processNext conn := by
    intro i
    obtain ⟨p, hp, ⟨conn, limit, -, rfl⟩ | harrives⟩ := hparties i
    · exact ⟨_, hp, runPipelineFrom_all (.inr ⟨conn, rfl⟩) limit _⟩
    · exact ⟨p, hp, Proc.All.mono (fun _ => .inl) harrives⟩
  have hworld : WorldOk (fun s => leftEvents w'.committed ≤ leftEvents s) w' := by
    refine (hidle.sound.reachable hreach).worldOk (fun body hbody => ?_) le_rfl
    rcases hbody with harrives | ⟨conn, rfl⟩
    · exact arrives_preserves_left harrives
    · exact processNext_preserves_left
  have hgrows := activityGrows_of_le hok.activity hok'.activity (hworld.reachable hlater).committed
  refine ⟨?_, fun split hsplit => ?_, fun user => hgrows.classOf user, ?_⟩
  · rw [liveUsage_activated, toFinset_userDays hok.activity]
  · rw [liveUsage_split hsplit, usageSplit_sum, liveUsage_activated]
  · intro s' ls' today' hsize hpos hfive hlicense
    rw [liveUsage_activated, liveUsage_activated] at hsize
    rw [liveUsage_activated] at hpos hfive
    exact liveUsage_floored hsize ⟨hpos, hfive⟩ hlicense

set_option maxRecDepth 4000 in
/-- Once the worker has counted the activity of `u1`, there is one active user. -/
theorem seats_classified_openPerson : ∃ w', Reachable (fun _ => True) (personWithin none none) w' ∧
    SeatsClassified utcConnection.dayOf w'.committed w'.committed [] 1 0 ∧
    (liveUsage w'.committed [] 1 0).seats = ⟨1, none, none, none⟩ := by
  have hreach : Reachable (fun _ => True) (personWithin none none) _ :=
    run_reachable (i := ()) _ rfl fun k j hj => absurd rfl hj
  refine ⟨_, hreach, ?_, by rfl⟩
  exact seats_classified (unprocessed_personWithin none none)
    (fun i => ⟨_, rfl, .inl ⟨utcConnection, 1, rfl, rfl⟩⟩) hreach .refl [] 1 0

end TrueFigure.Server
