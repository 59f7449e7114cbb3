import TrueFigure.Server.Engine
import TrueFigure.Server.LicenseRuns

/-!
# Seat figures of closed periods

`compute_seats` reads the license that is current when it runs, whatever period it is
computed for: a license that starts after a period changes the figures of that period,
unless it repeats the terms of the one before.
-/
namespace TrueFigure.Server

open TrueFigure.Library TrueFigure.Python

/-- A seat figure to compute: its deployment and period, with the tables besides the
licenses. -/
structure SeatQuestion where
  rt : DecimalText
  rows : Db
  books : Books
  workspaceId : ℕ
  deploymentId : ℕ
  period : PyStr

/-- The value of a figure, and the counts `seats_paid` and `waste_seats` of its lineage. -/
abbrev SeatTerms := Option Decimal × Option ℤ × Option ℤ

def Draft.count (d : Draft) (key : PyStr) : Option ℤ :=
  match d.lineage.get? key with
  | some (.num (.int n)) => some n
  | _ => none

def Draft.seatTerms (d : Draft) : SeatTerms :=
  (d.value, d.count (py "seats_paid"), d.count (py "waste_seats"))

/-- A license that is in force on some day of a period. -/
def LicenseRow.InForce (bounds : ℤ × ℤ) (row : LicenseRow) : Prop :=
  ∃ day, Between bounds day ∧ row.window.Covers day

/-- The tables after a call, which fails or not. -/
def afterDeclare (c : LicenseCall) (s : LicenseDb) (n : ℕ) : LicenseDb :=
  match ((declareLicense c).eval s n).1 with
  | .ok (_, t) => t
  | .error _ => s

namespace SeatQuestion

variable (q : SeatQuestion)

/-- The seat figure at these licenses. -/
def figure (s : LicenseDb) : Except Failure SeatTerms :=
  (computeSeats q.rt q.rows { q.books with licenses := licenses s } q.workspaceId q.deploymentId
    q.period).map Draft.seatTerms

/-- The seats of a license nobody has used. -/
def wasted (bounds : ℤ × ℤ) (l : LicenseRow) : ℕ :=
  l.seatsPaid - activatedUsers q.rows q.deploymentId bounds

/-- The price of a seat, from the license or else the parameters, times the seats nobody
has used. -/
def amount (bounds : ℤ × ℤ) (l : LicenseRow) : Except PyErr (Option Decimal) := do
  let (price, _) ← seatPrice q.rt l (q.books.resolveParameterVersion q.workspaceId bounds.1).2
  price.mapM fun p => p.mul (.finite (q.wasted bounds l : ℚ))

/-- Two licenses of as many seats whose unused seats are priced at the same amount; where
a price is no number, there is no figure for either. -/
def SameTerms (bounds : ℤ × ℤ) (l l' : LicenseRow) : Prop :=
  q.amount bounds l = q.amount bounds l' ∧
    (l.seatsPaid = l'.seatsPaid ∨ ∃ e, q.amount bounds l = .error e)

/-- The terms of a figure for this license, or for none. -/
def terms (bounds : ℤ × ℤ) : Option LicenseRow → Except Failure SeatTerms
  | none => .ok (none, none, none)
  | some l =>
    match q.amount bounds l with
    | .ok value => .ok (value, some l.seatsPaid, some (q.wasted bounds l))
    | .error e => .error (.python e)

/-- The terms are those of a license in force in the period, or of none if none is. -/
def FromWindow (bounds : ℤ × ℤ) (s : LicenseDb) (x : Except Failure SeatTerms) : Prop :=
  (∃ l ∈ history s q.deploymentId, l.InForce bounds ∧ x = q.terms bounds (some l)) ∨
    (∀ l ∈ history s q.deploymentId, ¬ l.InForce bounds) ∧ x = q.terms bounds none

/-- The figure is the same at both licenses, and is that of a license in force. -/
structure Stable (bounds : ℤ × ℤ) (s t : LicenseDb) : Prop where
  same : q.figure t = q.figure s
  before : q.FromWindow bounds s (q.figure s)
  after : q.FromWindow bounds t (q.figure t)

/-- The current license has the terms of one in force in the period, and the call does
not change them. -/
structure Settled (bounds : ℤ × ℤ) (c : LicenseCall) (day : ℤ) (s : LicenseDb) (n : ℕ) : Prop where
  current : ∀ l ∈ openRows s q.deploymentId,
    ∃ l' ∈ history s q.deploymentId, l'.InForce bounds ∧ q.SameTerms bounds l' l
  repeated : (∃ e m, (declareLicense c).eval s n = (.error e, m)) ∨
    ∃ d values, resolveDeployment c.principal c.deploymentId c.deployments = .ok d ∧
      licenseValues c.body d.id day = .ok values ∧ (d.id ≠ q.deploymentId ∨
        ∃ l ∈ openRows s q.deploymentId, q.SameTerms bounds l (values n))

/-! ### What the figure reads -/

section Figure

variable {q} {s t : LicenseDb} {n n' : ℕ} {bounds : ℤ × ℤ} {l l' : LicenseRow}

theorem figure_eq (hbounds : periodBounds q.period = .ok bounds) :
    q.figure s = q.terms bounds (openRows s q.deploymentId).head? := by
  have hparams : ∀ ws start, Books.resolveParameterVersion { q.books with licenses := licenses s }
      ws start = q.books.resolveParameterVersion ws start := fun _ _ => rfl
  unfold figure computeSeats
  simp only [hbounds, liftPython, bind, Except.bind, find_current, hparams]
  cases (openRows s q.deploymentId).head? with
  | none => rfl
  | some l =>
    simp only [terms, amount, wasted, bind, Except.bind]
    cases seatPrice q.rt l (q.books.resolveParameterVersion q.workspaceId bounds.1).2 with
    | error e => rfl
    | ok x =>
      obtain ⟨price, provenance⟩ := x
      simp only
      cases price.mapM fun p => p.mul
          (.finite ((l.seatsPaid - activatedUsers q.rows q.deploymentId bounds : ℕ) : ℚ)) with
      | error e => rfl
      | ok value => rfl

theorem terms_of_ok {value : Option Decimal} (h : q.amount bounds l = .ok value) :
    q.terms bounds (some l) = .ok (value, some l.seatsPaid, some (q.wasted bounds l)) := by
  simp only [terms, h]

theorem terms_of_error {e : PyErr} (h : q.amount bounds l = .error e) :
    q.terms bounds (some l) = .error (.python e) := by
  simp only [terms, h]

theorem terms_eq_iff :
    q.terms bounds (some l) = q.terms bounds (some l') ↔ q.SameTerms bounds l l' := by
  unfold SameTerms
  cases hl : q.amount bounds l with
  | error e =>
    rw [terms_of_error hl]
    cases hl' : q.amount bounds l' with
    | error e' => simp [terms_of_error hl']
    | ok value' => simp [terms_of_ok hl']
  | ok value =>
    rw [terms_of_ok hl]
    cases hl' : q.amount bounds l' with
    | error e' => simp [terms_of_error hl']
    | ok value' =>
      rw [terms_of_ok hl']
      constructor
      · intro h
        obtain ⟨hvalue, hcounts⟩ := Prod.mk.inj (Except.ok.inj h)
        have hseats := Option.some.inj (Prod.mk.inj hcounts).1
        exact ⟨congrArg Except.ok hvalue, .inl (Int.ofNat_inj.1 hseats)⟩
      · rintro ⟨hvalue, hseats | ⟨e, he⟩⟩
        · simp only [Except.ok.injEq] at hvalue
          simp [hvalue, hseats, wasted]
        · cases he

theorem terms_ne : q.terms bounds (some l) ≠ q.terms bounds none := by
  cases hl : q.amount bounds l with
  | error e =>
    rw [terms_of_error hl]
    exact fun h => nomatch h
  | ok value =>
    rw [terms_of_ok hl]
    exact fun h => nomatch h

theorem SameTerms.symm (h : q.SameTerms bounds l l') : q.SameTerms bounds l' l :=
  terms_eq_iff.1 (terms_eq_iff.2 h).symm

theorem terms_closedAt (day : ℤ) :
    q.terms bounds (some (l.closedAt day)) = q.terms bounds (some l) := by
  unfold LicenseRow.closedAt
  split_ifs <;> rfl

theorem figure_of_open (hs : LicensesOk s n) (hbounds : periodBounds q.period = .ok bounds)
    (hl : l ∈ openRows s q.deploymentId) : q.figure s = q.terms bounds (some l) := by
  rw [figure_eq hbounds, hs.openRows_eq hl, List.head?_cons]

theorem figure_of_none (hbounds : periodBounds q.period = .ok bounds)
    (hnone : openRows s q.deploymentId = []) : q.figure s = q.terms bounds none := by
  rw [figure_eq hbounds, hnone, List.head?_nil]

theorem figure_congr (hs : LicensesOk s n) (ht : LicensesOk t n')
    (hbounds : periodBounds q.period = .ok bounds)
    (h : history t q.deploymentId = history s q.deploymentId) : q.figure t = q.figure s := by
  rcases hs.openRows_cases q.deploymentId with hrows | ⟨l, hrows⟩
  · rw [figure_of_none hbounds hrows, figure_of_none hbounds]
    rwa [openRows_eq_nil_iff, h, ← openRows_eq_nil_iff]
  · have hl : l ∈ openRows s q.deploymentId := by simp [hrows]
    have hl' : l ∈ openRows t q.deploymentId := by
      rwa [mem_openRows_iff, h, ← mem_openRows_iff]
    rw [figure_of_open hs hbounds hl, figure_of_open ht hbounds hl']

/-- The figure of the licenses is that of one in force where the current one has the
terms of one in force. -/
theorem fromWindow_figure_iff (hs : LicensesOk s n) (hbounds : periodBounds q.period = .ok bounds) :
    q.FromWindow bounds s (q.figure s) ↔ ∀ l ∈ openRows s q.deploymentId,
      ∃ l' ∈ history s q.deploymentId, l'.InForce bounds ∧ q.SameTerms bounds l' l := by
  rcases hs.openRows_cases q.deploymentId with hrows | ⟨l, hrows⟩
  · have hnone : ∀ l ∈ history s q.deploymentId, ¬ l.InForce bounds := by
      simp [hs.history_eq_nil hrows]
    rw [figure_of_none hbounds hrows, hrows]
    exact iff_of_true (.inr ⟨hnone, rfl⟩) (by simp)
  · have hl : l ∈ openRows s q.deploymentId := by simp [hrows]
    rw [figure_of_open hs hbounds hl, hrows, List.forall_mem_singleton]
    constructor
    · rintro (⟨l', hl', hforce, heq⟩ | ⟨-, heq⟩)
      · exact ⟨l', hl', hforce, terms_eq_iff.1 heq.symm⟩
      · exact absurd heq terms_ne
    · rintro ⟨l', hl', hforce, hsame⟩
      exact .inl ⟨l', hl', hforce, (terms_eq_iff.2 hsame).symm⟩

theorem not_inForce (h : bounds.2 < l.validFrom) : ¬ l.InForce bounds := by
  rintro ⟨day, hday, hcovers⟩
  exact absurd (hcovers.1.trans hday.2) (not_le_of_gt h)

theorem inForce_closedAt {day : ℤ} (h : bounds.2 < day) :
    (l.closedAt day).InForce bounds ↔ l.InForce bounds := by
  by_cases hopen : l.validTo = none
  · rw [LicenseRow.closedAt_open hopen]
    refine exists_congr fun d => and_congr_right fun hd => ?_
    have hlt : d < day := lt_of_le_of_lt hd.2 h
    simp [LicenseRow.window, Window.Covers, hopen, hlt]
  · rw [LicenseRow.closedAt_closed hopen]

/-- Licenses declared after a period leave what is in force in it. -/
theorem fromWindow_declared {row : LicenseRow} {x : Except Failure SeatTerms}
    (hlater : bounds.2 < row.validFrom)
    (h : history t q.deploymentId =
      (history s q.deploymentId).map (LicenseRow.closedAt row.validFrom) ++ [row]) :
    q.FromWindow bounds t x ↔ q.FromWindow bounds s x := by
  unfold FromWindow
  rw [h]
  refine or_congr ?_ (and_congr_left fun _ => ?_)
  · constructor
    · rintro ⟨l, hl, hforce, rfl⟩
      rcases List.mem_append.1 hl with hl | hl
      · obtain ⟨l, hl', rfl⟩ := List.mem_map.1 hl
        exact ⟨l, hl', (inForce_closedAt hlater).1 hforce, terms_closedAt _⟩
      · rw [List.mem_singleton.1 hl] at hforce
        exact absurd hforce (not_inForce hlater)
    · rintro ⟨l, hl, hforce, rfl⟩
      refine ⟨_, List.mem_append_left _ (List.mem_map_of_mem hl), ?_, (terms_closedAt _).symm⟩
      exact (inForce_closedAt hlater).2 hforce
  · rw [List.forall_mem_append, List.forall_mem_map, List.forall_mem_singleton]
    simp only [inForce_closedAt hlater, not_inForce hlater, not_false_eq_true, and_true]

end Figure

/-! ### Before and after a call -/

section Calls

variable {q} {s t : LicenseDb} {n n' : ℕ} {bounds : ℤ × ℤ} {c : LicenseCall} {day : ℤ}
  {reply : LicenseReply}

theorem stable_of_refused (hs : LicensesOk s n) (hbounds : periodBounds q.period = .ok bounds) :
    q.Stable bounds s s ↔ ∀ l ∈ openRows s q.deploymentId,
      ∃ l' ∈ history s q.deploymentId, l'.InForce bounds ∧ q.SameTerms bounds l' l := by
  rw [← fromWindow_figure_iff hs hbounds]
  exact ⟨fun h => h.before, fun h => ⟨rfl, h, h⟩⟩

/-- After a call for another deployment the figure is as it was. -/
theorem stable_of_ne (hs : LicensesOk s n) (ht : LicensesOk t n')
    (hbounds : periodBounds q.period = .ok bounds)
    (h : history t q.deploymentId = history s q.deploymentId) :
    q.Stable bounds s t ↔ ∀ l ∈ openRows s q.deploymentId,
      ∃ l' ∈ history s q.deploymentId, l'.InForce bounds ∧ q.SameTerms bounds l' l := by
  rw [← fromWindow_figure_iff hs hbounds]
  have hsame := figure_congr hs ht hbounds h
  refine ⟨fun h => h.before, fun hbefore => ⟨hsame, hbefore, ?_⟩⟩
  rw [hsame]
  unfold FromWindow
  rwa [h]

/-- After a call for the deployment the figure has the terms of the new license. -/
theorem stable_of_declared {row : LicenseRow} (hs : LicensesOk s n) (ht : LicensesOk t n')
    (hbounds : periodBounds q.period = .ok bounds) (hopen : row.validTo = none)
    (hlater : bounds.2 < row.validFrom) (h : history t q.deploymentId =
      (history s q.deploymentId).map (LicenseRow.closedAt row.validFrom) ++ [row]) :
    q.Stable bounds s t ↔ (∀ l ∈ openRows s q.deploymentId,
      ∃ l' ∈ history s q.deploymentId, l'.InForce bounds ∧ q.SameTerms bounds l' l) ∧
      ∃ l ∈ openRows s q.deploymentId, q.SameTerms bounds l row := by
  have hrow : row ∈ openRows t q.deploymentId := by
    rw [mem_openRows_iff, h]
    exact ⟨List.mem_append_right _ (List.mem_singleton_self row), hopen⟩
  have hsame : q.figure t = q.figure s ↔
      ∃ l ∈ openRows s q.deploymentId, q.SameTerms bounds l row := by
    rw [figure_of_open ht hbounds hrow]
    rcases hs.openRows_cases q.deploymentId with hrows | ⟨l, hrows⟩
    · rw [figure_of_none hbounds hrows, hrows]
      exact iff_of_false terms_ne (by simp)
    · have hl : l ∈ openRows s q.deploymentId := by simp [hrows]
      rw [figure_of_open hs hbounds hl, hrows, eq_comm, terms_eq_iff]
      simp
  rw [← fromWindow_figure_iff hs hbounds, ← hsame]
  constructor
  · exact fun h => ⟨h.before, h.same⟩
  · rintro ⟨hbefore, heq⟩
    refine ⟨heq, hbefore, ?_⟩
    rwa [heq, fromWindow_declared hlater h]

theorem repeated_iff {d : DeploymentRecord} {values : ℕ → LicenseRow}
    (heval : (declareLicense c).eval s n = (.ok (reply, t), n'))
    (hdep : resolveDeployment c.principal c.deploymentId c.deployments = .ok d)
    (hvalues : licenseValues c.body d.id day = .ok values) :
    ((∃ e m, (declareLicense c).eval s n = (.error e, m)) ∨
      ∃ d values, resolveDeployment c.principal c.deploymentId c.deployments = .ok d ∧
        licenseValues c.body d.id day = .ok values ∧ (d.id ≠ q.deploymentId ∨
          ∃ l ∈ openRows s q.deploymentId, q.SameTerms bounds l (values n))) ↔
      (d.id ≠ q.deploymentId ∨
        ∃ l ∈ openRows s q.deploymentId, q.SameTerms bounds l (values n)) := by
  constructor
  · rintro (⟨e, m, herror⟩ | ⟨d', values', hdep', hvalues', h⟩)
    · rw [heval] at herror
      cases herror
    · obtain rfl := Except.ok.inj (hdep.symm.trans hdep')
      obtain rfl := Except.ok.inj (hvalues.symm.trans hvalues')
      exact h
  · exact fun h => .inr ⟨d, values, hdep, hvalues, h⟩

theorem stable_iff (hs : LicensesOk s n) (hbounds : periodBounds q.period = .ok bounds)
    (hday : bindDate c.date c.body.validFrom = .ok day) (hlater : bounds.2 < day) :
    q.Stable bounds s (afterDeclare c s n) ↔ q.Settled bounds c day s n := by
  have hsettled : q.Settled bounds c day s n ↔ _ ∧ _ :=
    ⟨fun h => ⟨h.current, h.repeated⟩, fun h => ⟨h.1, h.2⟩⟩
  rw [hsettled]
  obtain ⟨result, n', heval⟩ : ∃ result n', (declareLicense c).eval s n = (result, n') :=
    ⟨_, _, rfl⟩
  cases result with
  | error e =>
    have hafter : afterDeclare c s n = s := by rw [afterDeclare, heval]
    rw [hafter, stable_of_refused hs hbounds]
    exact (and_iff_left (.inl ⟨e, n', heval⟩)).symm
  | ok x =>
    obtain ⟨reply, t⟩ := x
    have hafter : afterDeclare c s n = t := by rw [afterDeclare, heval]
    obtain ⟨d, day', values, hdep, hday', hvalues, ht, hself, hother⟩ :=
      declareLicense_eq_ok hs heval
    obtain rfl := Except.ok.inj (hday.symm.trans hday')
    obtain ⟨-, -, hfrom, hopen⟩ := licenseValues_eq_ok hvalues n
    rw [hafter, repeated_iff heval hdep hvalues]
    by_cases hq : d.id = q.deploymentId
    · rw [hq, ← hfrom] at hself
      rw [stable_of_declared hs ht hbounds hopen (by rwa [hfrom]) hself]
      exact and_congr_right fun _ => by simp [hq]
    · rw [stable_of_ne hs ht hbounds (hother _ fun h => hq h.symm)]
      exact (and_iff_left (.inl hq)).symm

end Calls

end SeatQuestion

section Reachable

variable {ι : Type} [DecidableEq ι] {faults : Failure → Prop} {bounds : ℤ × ℤ} {day : ℤ}
  {w w' : World ι LicenseCell Failure LicenseReply Unit}

/-- A license that starts after a period leaves the period's seat figure at the terms of a
license in force in it, exactly where the current license has such terms and the call
fails, is for another deployment or repeats the terms of the current license. -/
theorem seats_stable_iff (hempty : licenses w.committed = [])
    (hcalls : ∀ i, ∃ calls, w.stations i = .resting (declareLicenses calls))
    (hr : Reachable faults w w') (q : SeatQuestion) (c : LicenseCall)
    (hbounds : periodBounds q.period = .ok bounds)
    (hday : bindDate c.date c.body.validFrom = .ok day) (hlater : bounds.2 < day) :
    q.Stable bounds w'.committed (afterDeclare c w'.committed w'.sequence) ↔
      q.Settled bounds c day w'.committed w'.sequence :=
  SeatQuestion.stable_iff (outlined_of_reachable hempty hcalls hr).inv hbounds hday hlater

end Reachable

/-! ### A contract that grows in July -/

/-- One caller declares ten seats from January on. -/
def januaryCaller : World Unit LicenseCell Failure LicenseReply Unit where
  committed := ∅
  sequence := 1
  stations _ := .resting (declareLicenses [seatLicense 10 (some (.float 5)) .year "2026-01-01"])

def marchSeats : SeatQuestion where
  rt := ⟨fun _ => none, id⟩
  rows := ∅
  books := ⟨[], [], [], [], []⟩
  workspaceId := 1
  deploymentId := 1
  period := py "2026-03"

theorem fiveUsd_fits : (5000000 : ℤ).natAbs < 10 ^ 20 := by decide

def januaryRow : LicenseRow :=
  ⟨1, 1, .year, 10, some (.number ⟨5000000, fiveUsd_fits⟩), "USD", 739617, none⟩

theorem reachable_january : ∃ w', Reachable (fun _ => False) januaryCaller w' ∧
    w'.sequence = 2 ∧ history w'.committed 1 = [januaryRow] ∧
    marchSeats.figure w'.committed = .ok (some (.finite 50), some 10, some 10) ∧
    marchSeats.figure (afterDeclare (seatLicense 20 (some (.float 5)) .year "2026-07-01")
      w'.committed 2) = .ok (some (.finite 100), some 20, some 20) := by
  have hfollowed : (januaryCaller.follow (List.replicate 7 ())).any fun w' =>
      w'.sequence = 2 ∧ history w'.committed 1 = [januaryRow] ∧
      marchSeats.figure w'.committed = .ok (some (.finite 50), some 10, some 10) ∧
      marchSeats.figure (afterDeclare (seatLicense 20 (some (.float 5)) .year "2026-07-01")
        w'.committed 2) = .ok (some (.finite 100), some 20, some 20) := by decide +kernel
  obtain ⟨w', hw', hfacts⟩ := (Option.any_eq_true _ _).1 hfollowed
  simp only [decide_eq_true_eq] at hfacts
  exact ⟨w', World.reachable_of_follow hw', hfacts⟩

theorem march : periodBounds marchSeats.period = .ok (739676, 739706) := by decide +kernel

theorem calls_january (i : Unit) :
    ∃ calls, januaryCaller.stations i = .resting (declareLicenses calls) := ⟨_, rfl⟩

/-- The same license from July on. -/
def renewal : LicenseCall := seatLicense 10 (some (.float 5)) .year "2026-07-01"

theorem renewal_values : ∃ values, licenseValues renewal.body 1 739798 = .ok values ∧
    values 2 = { januaryRow with id := 2, validFrom := 739798 } := by
  have hvalues : (licenseValues renewal.body 1 739798).toOption.any fun values =>
      values 2 = { januaryRow with id := 2, validFrom := 739798 } := by decide +kernel
  cases heq : licenseValues renewal.body 1 739798 with
  | error e =>
    rw [heq] at hvalues
    cases hvalues
  | ok values =>
    rw [heq] at hvalues
    exact ⟨values, rfl, of_decide_eq_true hvalues⟩

/-- The same license declared again from July on leaves March as it was. -/
theorem seats_stable_iff_renewal : ∃ w', Reachable (fun _ => False) januaryCaller w' ∧
    marchSeats.Stable (739676, 739706) w'.committed
      (afterDeclare renewal w'.committed w'.sequence) := by
  obtain ⟨w', hr, hsequence, hrows, -⟩ := reachable_january
  have hday : bindDate renewal.date renewal.body.validFrom = .ok 739798 := by decide +kernel
  have hopen : ∀ l, l ∈ openRows w'.committed 1 ↔ l = januaryRow := by
    intro l
    rw [mem_openRows_iff, hrows, List.mem_singleton]
    constructor
    · exact fun h => h.1
    · rintro rfl
      exact ⟨rfl, rfl⟩
  have hforce : januaryRow.InForce (739676, 739706) := by
    refine ⟨739676, by decide, by decide, fun stop hstop => ?_⟩
    cases hstop
  have hmem : januaryRow ∈ history w'.committed 1 := by simp [hrows]
  obtain ⟨values, hvalues, hrow⟩ := renewal_values
  refine ⟨w', hr, (seats_stable_iff rfl calls_january hr marchSeats renewal march hday
    (by decide)).2 ⟨?_, ?_⟩⟩
  · intro l hl
    rw [(hopen l).1 hl]
    exact ⟨januaryRow, hmem, hforce, rfl, .inl rfl⟩
  · refine .inr ⟨copilot, values, by decide +kernel, hvalues, .inr ⟨januaryRow, ?_, ?_⟩⟩
    · exact (hopen januaryRow).2 rfl
    · rw [hsequence, hrow]
      exact ⟨rfl, .inl rfl⟩

/-- A license of more seats from July on changes the figure of March. -/
theorem seats_rewritten : ∃ w', Reachable (fun _ => False) januaryCaller w' ∧
    bindDate dayOf2026 "2026-07-01" = .ok 739798 ∧
    ¬ marchSeats.Stable (739676, 739706) w'.committed
      (afterDeclare (seatLicense 20 (some (.float 5)) .year "2026-07-01") w'.committed
        w'.sequence) := by
  obtain ⟨w', hr, hsequence, -, hbefore, hafter⟩ := reachable_january
  refine ⟨w', hr, by decide +kernel, fun h => ?_⟩
  have hsame := h.same
  rw [hsequence, hbefore, hafter] at hsame
  exact absurd hsame (by decide +kernel)

end TrueFigure.Server
